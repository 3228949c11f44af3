import OrderStore.Proofs.Assoc
import OrderStore.Proofs.Except
import OrderStore.Query.Refinement

namespace OrderStore

theorem Filters.ofEntries_toEntries {fs : Filters} (hfs : (fs.map Prod.fst).Nodup) :
    ofEntries fs.toEntries = fs := by
  have hentries : fs.toEntries.map (fun e => (e.1.keyText, Filter.ofValue e.2)) = fs := by
    rw [toEntries, List.map_map]
    calc fs.map _ = fs.map id := List.map_congr_left fun f _ => by
          simp only [Function.comp_apply, Value.keyText_text, Filter.ofValue_toValue, id]
      _ = fs := List.map_id fs
  rw [ofEntries, hentries]
  apply Assoc.ofList_of_pairwise
  have hpairwise := List.pairwise_map.mp hfs
  exact hpairwise.imp fun h => by simpa using h

def IsTuple (v : Value) : Prop := ∃ xs, v = .tuple xs

def IsTimeBound (v : Value) : Prop := v = .null ∨ ∃ t, v = .moment (.ofTimestamp t)

def IsAmountBound (v : Value) : Prop := v = .null ∨ ∃ d, v = .decimal d

def IsFilters (v : Value) : Prop := ∃ fs : Filters, v = fs.toValue ∧ (fs.map Prod.fst).Nodup

theorem isFilters_of_ofValue {v : Value} {fs : Filters} (h : Filters.ofValue v = .ok fs) : IsFilters fs.toValue := by
  refine ⟨fs, rfl, ?_⟩
  unfold Filters.ofValue at h
  split at h
  · cases h
    exact List.nodup_nil
  · split at h
    · cases h
      exact Assoc.nodup_keys_ofList _
    · cases h

def IsPattern (v : Value) : Prop := v = .null ∨ ∃ t : Text, v = .text t ∧ t.isEmpty = false

def Criterion.Admits (v : Value) : Criterion → Prop
  | types | statuses | buyerIds => IsTuple v
  | buyerId | column => True
  | orderNo => v = .null ∨ v.isEmpty = false
  | orderNoLike | keyword => IsPattern v
  | relations | indexedFields => IsFilters v
  | createdFrom | createdTo | updatedFrom | updatedTo => IsTimeBound v
  | amountMin | amountMax => IsAmountBound v
  | limit => ∃ n, v = .int n ∧ 1 ≤ n
  | offset => ∃ n, v = .int n ∧ 0 ≤ n
  | direction => v = .text "asc" ∨ v = .text "desc"
  | includeTotal => ∃ b, v = .bool b

namespace Refinement

def Admitted (ws : Writes) : Prop := ∀ w ∈ ws, w.1.Admits w.2

variable {ws : Writes} {c : Criterion} {v : Value} {now : WallClock}

theorem admitted_single (h : c.Admits v) : Admitted [(c, v)] := by
  intro w hw
  rw [List.mem_singleton.mp hw]
  exact h

theorem admitted_pair {d : Criterion} {x : Value} (h : c.Admits v) (hx : d.Admits x) :
    Admitted [(c, v), (d, x)] := by
  intro w hw
  rcases List.mem_pair.mp hw with rfl | rfl
  · exact h
  · exact hx

theorem orNull_cases (v : Value) : orNull v = .null ∨ (orNull v).isEmpty = false := by
  rw [orNull]
  split
  · exact .inl rfl
  · rename_i h
    exact .inr (Bool.eq_false_iff.mpr h)

theorem isEmpty_anywhere (t : Text) : (anywhere t).isEmpty = false := rfl

theorem isEmpty_atStart (t : Text) : (atStart t).isEmpty = false := by
  apply List.isEmpty_eq_false_iff.mpr
  rw [atStart, Text.codes_append]
  exact fun h => absurd (List.append_eq_nil_iff.mp h).2 (by decide)

theorem both_eq_ok {x y : Except Error Writes} :
    both x y = .ok ws ↔ ∃ as bs, x = .ok as ∧ y = .ok bs ∧ as ++ bs = ws := by
  rw [both, bind_eq_ok]
  simp only [map_eq_ok, exists_and_left]

theorem admitted_both {x y : Except Error Writes} (h : both x y = .ok ws)
    (hx : ∀ ws, x = .ok ws → Admitted ws) (hy : ∀ ws, y = .ok ws → Admitted ws) : Admitted ws := by
  obtain ⟨as, bs, has, hbs, rfl⟩ := both_eq_ok.mp h
  intro w hw
  rcases List.mem_append.mp hw with hw | hw
  · exact hx as has w hw
  · exact hy bs hbs w hw

theorem admitted_tuple (h : writeTuple c v = .ok ws) (hc : ∀ v, IsTuple v → c.Admits v) : Admitted ws := by
  obtain ⟨xs, -, rfl⟩ := map_eq_ok.mp h
  exact admitted_single (hc _ ⟨xs, rfl⟩)

theorem admitted_text {wrap : Text → Text} (h : writeText c wrap v = .ok ws)
    (hwrap : ∀ t, (wrap t).isEmpty = false) (hc : ∀ v, IsPattern v → c.Admits v) : Admitted ws := by
  obtain ⟨text, -, rfl⟩ := map_eq_ok.mp h
  apply admitted_single (hc _ _)
  cases text with
  | none => exact .inl rfl
  | some t => exact .inr ⟨wrap t, rfl, hwrap t⟩

theorem admitted_filters (h : writeFilters c v = .ok ws) (hc : ∀ v, IsFilters v → c.Admits v) :
    Admitted ws := by
  obtain ⟨fs, hfs, rfl⟩ := map_eq_ok.mp h
  exact admitted_single (hc _ (isFilters_of_ofValue hfs))

theorem admitted_time (h : writeTime now c v = .ok ws) (hc : ∀ v, IsTimeBound v → c.Admits v) :
    Admitted ws := by
  obtain ⟨b, hb, rfl⟩ := map_eq_ok.mp h
  apply admitted_single (hc _ _)
  rw [toTimeBound] at hb
  split at hb
  · cases hb
    exact .inl rfl
  · obtain ⟨t, -, rfl⟩ := map_eq_ok.mp hb
    exact .inr ⟨t, rfl⟩

theorem admitted_amount (h : writeAmount c v = .ok ws) (hc : ∀ v, IsAmountBound v → c.Admits v) :
    Admitted ws := by
  obtain ⟨b, hb, rfl⟩ := map_eq_ok.mp h
  apply admitted_single (hc _ _)
  rw [toAmountBound] at hb
  split at hb
  · cases hb
    exact .inl rfl
  · obtain ⟨d, -, rfl⟩ := map_eq_ok.mp hb
    exact .inr ⟨d, rfl⟩

theorem admitted_settleTime {q : Query} (h : settleTime now c q = .ok ws)
    (hc : ∀ v, IsTimeBound v → c.Admits v) : Admitted ws := by
  rw [settleTime] at h
  split at h
  · cases h
    exact fun _ hw => nomatch hw
  · exact admitted_time h hc

theorem admitted_settleAmount {q : Query} (h : settleAmount c q = .ok ws)
    (hc : ∀ v, IsAmountBound v → c.Admits v) : Admitted ws := by
  rw [settleAmount] at h
  split at h
  · cases h
    exact fun _ hw => nomatch hw
  · exact admitted_amount h hc

theorem admitted_writes {q : Query} {r : Refinement} (h : r.writes now q = .ok ws) : Admitted ws := by
  cases r with
  | types vs => exact admitted_tuple h fun _ h => h
  | statuses vs => exact admitted_tuple h fun _ h => h
  | buyerIds vs => exact admitted_tuple h fun _ h => h
  | type v =>
    cases h
    exact admitted_single ⟨[v], rfl⟩
  | status v =>
    cases h
    exact admitted_single ⟨[v], rfl⟩
  | buyerId v =>
    cases h
    exact admitted_single trivial
  | orderNo v =>
    cases h
    exact admitted_single (orNull_cases v)
  | orderNoLike text prefixOnly =>
    apply admitted_text h _ fun _ h => h
    intro t
    split
    · exact isEmpty_anywhere t
    · exact isEmpty_atStart t
  | keyword text => exact admitted_text h isEmpty_anywhere fun _ h => h
  | relations fs => exact admitted_filters h fun _ h => h
  | indexedFields fs => exact admitted_filters h fun _ h => h
  | createdBetween start stop =>
    exact admitted_both h (fun _ h => admitted_time h fun _ h => h)
      (fun _ h => admitted_time h fun _ h => h)
  | createdAfter start =>
    exact admitted_both h (fun _ h => admitted_time h fun _ h => h)
      (fun _ h => admitted_settleTime h fun _ h => h)
  | createdBefore stop =>
    exact admitted_both h (fun _ h => admitted_settleTime h fun _ h => h)
      (fun _ h => admitted_time h fun _ h => h)
  | updatedBetween start stop =>
    exact admitted_both h (fun _ h => admitted_time h fun _ h => h)
      (fun _ h => admitted_time h fun _ h => h)
  | updatedAfter start =>
    exact admitted_both h (fun _ h => admitted_time h fun _ h => h)
      (fun _ h => admitted_settleTime h fun _ h => h)
  | updatedBefore stop =>
    exact admitted_both h (fun _ h => admitted_settleTime h fun _ h => h)
      (fun _ h => admitted_time h fun _ h => h)
  | amountBetween lo hi =>
    exact admitted_both h (fun _ h => admitted_amount h fun _ h => h)
      (fun _ h => admitted_amount h fun _ h => h)
  | amountMin lo =>
    exact admitted_both h (fun _ h => admitted_amount h fun _ h => h)
      (fun _ h => admitted_settleAmount h fun _ h => h)
  | amountMax hi =>
    exact admitted_both h (fun _ h => admitted_settleAmount h fun _ h => h)
      (fun _ h => admitted_amount h fun _ h => h)
  | limit v =>
    obtain ⟨n, -, rfl⟩ := map_eq_ok.mp h
    exact admitted_single ⟨max 1 n, rfl, by omega⟩
  | offset v =>
    obtain ⟨n, -, rfl⟩ := map_eq_ok.mp h
    exact admitted_single ⟨max 0 n, rfl, by omega⟩
  | page number size =>
    obtain ⟨size, -, h⟩ := bind_eq_ok.mp h
    obtain ⟨number, -, rfl⟩ := map_eq_ok.mp h
    have hoffset : 0 ≤ (max 1 number - 1) * max 1 size := Int.mul_nonneg (by omega) (by omega)
    exact admitted_pair ⟨max 1 size, rfl, by omega⟩ ⟨_, rfl, hoffset⟩
  | orderBy column direction =>
    cases h
    refine admitted_pair (c := .column) trivial ?_
    rw [directionOf]
    split
    · exact .inl rfl
    · exact .inr rfl
  | total v =>
    cases h
    exact admitted_single ⟨_, rfl⟩

end Refinement

inductive Query.Built : Query → Prop
  | default : Built Query.default
  | refine {now : WallClock} {q p : Query} {r : Refinement} (hq : Built q) (hp : q.refine now r = .ok p) :
    Built p

theorem Criterion.admits_default (c : Criterion) : c.Admits c.default := by
  cases c with
  | types | statuses | buyerIds => exact ⟨[], rfl⟩
  | buyerId | column => trivial
  | orderNo | orderNoLike | keyword | createdFrom | createdTo | updatedFrom | updatedTo | amountMin
  | amountMax =>
    exact .inl rfl
  | relations | indexedFields => exact ⟨[], rfl, List.nodup_nil⟩
  | limit => exact ⟨_, rfl, by decide⟩
  | offset => exact ⟨0, rfl, by decide⟩
  | direction => exact .inr rfl
  | includeTotal => exact ⟨true, rfl⟩

theorem admits_assignAll {ws : Refinement.Writes} (hws : Refinement.Admitted ws) {q : Query}
    (hq : ∀ c : Criterion, c.Admits (q c)) (c : Criterion) : c.Admits (assignAll ws q c) := by
  rcases assignAll_cases ws q c with ⟨w, hw, rfl, h⟩ | ⟨-, h⟩
  · rw [h]
    exact hws w hw
  · rw [h]
    exact hq c

theorem Query.Built.admits {q : Query} (h : q.Built) (c : Criterion) : c.Admits (q c) := by
  induction h generalizing c with
  | default => exact c.admits_default
  | refine _ hp ih =>
    obtain ⟨ws, hws, rfl⟩ := map_eq_ok.mp hp
    exact admits_assignAll (Refinement.admitted_writes hws) ih c

end OrderStore
