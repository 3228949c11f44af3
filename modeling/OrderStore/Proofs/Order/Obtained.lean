import OrderStore.Proofs.Order.Amount

namespace OrderStore

/-- Decimals never leave the range of exponents, so that one that is handed in is within it. -/
def Value.InRange : Value → Prop
  | .decimal d => d.InRange
  | _ => True

def Named.InRange (ns : Named) : Prop := ∀ e ∈ ns, e.2.InRange

theorem Value.toAmount_inRange {v : Value} {d : Decimal} (hv : v.InRange) (h : v.toAmount = .ok d) :
    d.InRange := by
  unfold toAmount at h
  split at h
  · cases h
    exact hv
  · cases h
  obtain ⟨t, -, h⟩ := bind_eq_ok.mp h
  split at h
  · rename_i hd
    cases h
    exact Decimal.readChars?_inRange hd
  · cases h

theorem Named.InRange.getD {ns : Named} (h : ns.InRange) (name : Text) {v : Value} (hv : v.InRange) :
    ((ns.get? name).getD v).InRange := by
  cases hget : ns.get? name with
  | none => exact hv
  | some w => exact h (name, w) (mem_of_get? hget)

namespace Order

inductive Obtained : Order → Prop where
  | make {now : WallClock} {fields : Named} {o : Order} (hf : fields.InRange)
    (h : Order.make now fields = .ok o) : Obtained o
  | create {now : WallClock} {fields : Named} {o : Order} (hf : fields.InRange)
    (h : Order.create now fields = .ok o) : Obtained o
  | mapping {now : WallClock} {data : Named} {o : Order} (hd : data.InRange)
    (h : Order.ofMapping now data = .ok o) : Obtained o
  | row {now : WallClock} {row : Row} {o : Order} (hr : row.InRange)
    (h : (Order.ofRow now row).result = .ok o) : Obtained o
  | revise {now : WallClock} {o p : Order} {r : Revision} (ho : Obtained o)
    (hr : ∀ named, r = .changes named → named.InRange) (h : o.revise now r = .ok p) : Obtained p

theorem given_inRange {fields : Named} (hf : fields.InRange) :
    ((fields.get? Field.amount.name).getD (.decimal .zero)).InRange := by
  have hzero : (Value.decimal .zero).InRange := by
    unfold Value.InRange
    decide
  exact hf.getD _ hzero

theorem mappingDraft_inRange {data : Named} (hd : data.InRange) : (mappingDraft data .amount).InRange := by
  simp only [mappingDraft]
  split
  · trivial
  · exact hd.getD _ trivial

theorem revise_inRange {now : WallClock} {o p : Order} {r : Revision} (ho : o.amount.InRange)
    (hr : ∀ named, r = .changes named → named.InRange) (h : o.revise now r = .ok p) : p.amount.InRange := by
  by_cases hf : Field.amount.name ∈ r.names
  · cases r with
    | changes named =>
      obtain ⟨-, -, -, -, -, hamount⟩ := settle_ok (withChanges_eq_ok h).2
      refine Value.toAmount_inRange ?_ hamount
      rcases assignAll_cases (knownChanges named) o.draft .amount with ⟨c, hc, -, hd⟩ | ⟨-, hd⟩
      · rw [hd]
        exact hr named rfl _ (mem_knownChanges_iff.mp hc)
      · rw [hd]
        exact ho
    | _ => exact absurd hf (by simp only [Revision.names]; decide)
  · have hamount : Value.decimal p.amount = .decimal o.amount := revise_other h hf
    rw [Value.decimal.inj hamount]
    exact ho

theorem Obtained.inRange {o : Order} (h : o.Obtained) : o.amount.InRange := by
  induction h with
  | make hf h => exact Value.toAmount_inRange (given_inRange hf) (AmountFrom.make h).toAmount_eq
  | create hf h => exact Value.toAmount_inRange (given_inRange hf) (AmountFrom.create h).toAmount_eq
  | mapping hd h => exact Value.toAmount_inRange (mappingDraft_inRange hd) (AmountFrom.mapping h).toAmount_eq
  | row hr h => exact Value.toAmount_inRange (mappingDraft_inRange hr) (AmountFrom.row h).toAmount_eq
  | revise ho hr h ih => exact revise_inRange ih hr h

end Order

end OrderStore
