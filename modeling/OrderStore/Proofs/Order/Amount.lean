import OrderStore.Order.Mapping
import OrderStore.Proofs.Arguments
import OrderStore.Proofs.Order.Changes
import OrderStore.Proofs.Value.Amount

namespace OrderStore

namespace Named

theorem mem_of_get? {name : Text} {v : Value} {ns : Named} (h : ns.get? name = some v) : (name, v) ∈ ns := by
  induction ns with
  | nil => cases h
  | cons e ns ih =>
    by_cases he : e.1 = name
    · simp [get?, Assoc.get?, he] at h
      simp [← he, ← h]
    · rw [get?_cons_of_ne he] at h
      exact List.mem_cons_of_mem e (ih h)

theorem not_mem_of_get? {name : Text} {ns : Named} (h : ns.get? name = none) : name ∉ ns.map Prod.fst := by
  have hcontains := ns.isSome_get? name
  rw [h] at hcontains
  rw [← contains_iff, ← hcontains]
  simp

end Named

theorem Field.nodup_names : (all.map name).Nodup := by decide +kernel

namespace Arguments

theorem bindAll_zip {fs : List Field} {named : Named} {vs : List Value} (hn : (fs.map Field.name).Nodup)
    (h : bindAll (fs.map Field.parameter) [] named = .ok vs) {w : Field × Value} (hw : w ∈ fs.zip vs) :
    (named.get? w.1.name).or w.1.default? = some w.2 := by
  have hnames : ((fs.map Field.parameter).map Prod.fst).Nodup := by
    rw [List.map_map]
    exact hn
  have hvalues : fs.map (fun f => (named.get? f.name).or f.default?) = vs.map some := by
    have hbound := ((bindAll_eq_ok_iff hnames).mp h).2
    rw [List.map_map] at hbound
    exact hbound
  have hboth := List.mem_map_of_mem (f := Prod.map (fun f => (named.get? f.name).or f.default?) some) hw
  rw [← List.zip_map, hvalues, List.zip_eq_zipWith, List.zipWith_self] at hboth
  obtain ⟨v, -, hv⟩ := List.mem_map.mp hboth
  exact (congrArg Prod.fst hv).symm.trans (congrArg Prod.snd hv)

end Arguments

theorem Draft.ofFields_eq {fs : List Field} {named : Named} {vs : List Value} (hn : (fs.map Field.name).Nodup)
    (h : Arguments.bind (fs.map Field.parameter) ⟨[], named⟩ = .ok vs) {f : Field} (hf : f ∈ fs) :
    some (Draft.ofFields fs vs f) = (named.get? f.name).or f.default? := by
  rw [Draft.ofFields]
  rcases assignAll_cases (fs.zip vs) (fun f => f.default?.getD .null) f with ⟨w, hw, rfl, hv⟩ | ⟨hnone, -⟩
  · rw [hv]
    exact (Arguments.bindAll_zip hn h hw).symm
  · have hlength : vs.length = fs.length := by
      rw [Arguments.length_of_bindAll h, List.length_map]
    have hfst : (fs.zip vs).map Prod.fst = fs := List.map_fst_zip (by omega)
    rw [← hfst] at hf
    obtain ⟨w, hw, hwf⟩ := List.mem_map.mp hf
    exact absurd hwf (hnone w hw)

def Revision.amount? : Revision → Option Value
  | .changes named => named.get? Field.amount.name
  | _ => none

namespace Order

variable {now : WallClock} {o p : Order} {r : Revision} {fields data : Named} {v : Value}

inductive AmountFrom : Order → Value → Prop where
  | make {now : WallClock} {fields : Named} {o : Order} (h : Order.make now fields = .ok o) :
    AmountFrom o ((fields.get? Field.amount.name).getD (.decimal .zero))
  | create {now : WallClock} {fields : Named} {o : Order} (h : Order.create now fields = .ok o) :
    AmountFrom o ((fields.get? Field.amount.name).getD (.decimal .zero))
  | mapping {now : WallClock} {data : Named} {o : Order} (h : Order.ofMapping now data = .ok o) :
    AmountFrom o (mappingDraft data .amount)
  | row {now : WallClock} {row : Row} {o : Order} (h : (Order.ofRow now row).result = .ok o) :
    AmountFrom o (mappingDraft row .amount)
  | revise {now : WallClock} {o p : Order} {v : Value} {r : Revision} (ho : AmountFrom o v)
    (hr : r.names.Nodup) (h : o.revise now r = .ok p) : AmountFrom p (r.amount?.getD v)

theorem toAmount_of_bind {fs : List Field} (hn : (fs.map Field.name).Nodup) (hf : Field.amount ∈ fs)
    (h : (Arguments.bind (fs.map Field.parameter) ⟨[], fields⟩).bind
      (fun vs => settle now (.ofFields fs vs)) = .ok o) :
    ((fields.get? Field.amount.name).getD (.decimal .zero)).toAmount = .ok o.amount := by
  obtain ⟨vs, hvs, h⟩ := bind_eq_ok.mp h
  obtain ⟨-, -, -, -, -, hamount⟩ := settle_ok h
  have hvalue : some (Draft.ofFields fs vs .amount) = (fields.get? Field.amount.name).or (some (.decimal .zero)) :=
    Draft.ofFields_eq hn hvs hf
  rw [Option.or_some] at hvalue
  rw [← Option.some.inj hvalue]
  exact hamount

theorem toAmount_of_mapping (h : ofMapping now data = .ok o) :
    (mappingDraft data .amount).toAmount = .ok o.amount := by
  rw [ofMapping] at h
  split at h
  · cases h
  · obtain ⟨-, -, -, -, -, hamount⟩ := settle_ok h
    exact hamount

theorem toAmount_of_row {row : Row} (h : (ofRow now row).result = .ok o) :
    (mappingDraft row .amount).toAmount = .ok o.amount := by
  rw [ofRow] at h
  split at h
  · cases h
  · obtain ⟨ds, -, h⟩ := bind_eq_ok.mp h
    have hamount := toAmount_of_mapping h
    have hdraft : mappingDraft (plainMapping row ++ ds) .amount = mappingDraft row .amount := rfl
    rw [hdraft] at hamount
    exact hamount

theorem toAmount_of_revise (ho : v.toAmount = .ok o.amount) (hr : r.names.Nodup) (h : o.revise now r = .ok p) :
    (r.amount?.getD v).toAmount = .ok p.amount := by
  have hkept (hf : Field.amount.name ∉ r.names) : v.toAmount = .ok p.amount := by
    have hamount : (Value.decimal p.amount) = .decimal o.amount := revise_other h hf
    rw [ho, Value.decimal.inj hamount]
  cases r with
  | changes named =>
    cases hv : named.get? Field.amount.name with
    | none =>
      rw [Revision.amount?, hv]
      exact hkept (Named.not_mem_of_get? hv)
    | some w =>
      have htakes := (replace_knownChanges_iff hr).mp (withChanges_eq_ok h).2
      obtain ⟨d, hd, hp⟩ := map_eq_ok.mp ((htakes .amount).1 w (Named.mem_of_get? hv))
      rw [Revision.amount?, hv, Option.getD_some, hd, Value.decimal.inj hp]
  | _ => exact hkept (by simp only [Revision.names]; decide)

theorem AmountFrom.toAmount_eq (h : o.AmountFrom v) : v.toAmount = .ok o.amount := by
  induction h with
  | make h => exact toAmount_of_bind Field.nodup_names (Field.mem_all _) h
  | create h => exact toAmount_of_bind (by decide +kernel) (by decide) h
  | mapping h => exact toAmount_of_mapping h
  | row h => exact toAmount_of_row h
  | revise ho hr h ih => exact toAmount_of_revise ih hr h

end Order

end OrderStore
