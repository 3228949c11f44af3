import OrderStore.Proofs.Sql.Clauses

namespace OrderStore.Sql

namespace Slot

def members (s : Slot) (n : Nat) : List Slot := (List.range' 0 n).map s.numbered

theorem numbered_injective (s : Slot) : Function.Injective s.numbered := by
  intro m n h
  have hcounters := congrArg counters h
  simp only [numbered] at hcounters
  exact List.singleton_inj.mp (List.append_cancel_left hcounters)

theorem nodup_members (s : Slot) (n : Nat) : (s.members n).Nodup := by
  have hrange : (List.range' 0 n).Nodup := List.nodup_range'
  exact hrange.map s.numbered_injective

theorem map_name_members (s : Slot) (vs : List Value) :
    (Clause.numbered s.name vs).map Prod.fst = (s.members vs.length).map name := by
  rw [Clause.numbered, map_fst_numberedFrom, members, List.map_map]
  rfl

theorem of_mem_members {s t : Slot} {n : Nat} (h : t ∈ s.members n) : ∃ j, t = s.numbered j := by
  obtain ⟨j, -, rfl⟩ := List.mem_map.mp h
  exact ⟨j, rfl⟩

def ofFilter (s : Slot) : Filter → List Slot
  | .scalar _ => [s]
  | .oneOf vs => s.members vs.length

theorem map_name_ofFilter (s : Slot) (filter : Filter) :
    (Clause.ofFilter s.name filter).bindings.map Prod.fst = (s.ofFilter filter).map name := by
  cases filter with
  | scalar v => rfl
  | oneOf vs =>
    cases vs with
    | nil => rfl
    | cons v vs => exact s.map_name_members (v :: vs)

theorem nodup_ofFilter (s : Slot) (filter : Filter) : (s.ofFilter filter).Nodup := by
  cases filter with
  | scalar v => exact List.nodup_singleton s
  | oneOf vs => exact s.nodup_members vs.length

def ofKey (side : Side) (n : Nat) (filter : Filter) : List Slot :=
  ⟨.key side, [n]⟩ :: ofFilter ⟨.value side, [n]⟩ filter

theorem of_mem_ofKey {side : Side} {n : Nat} {filter : Filter} {s : Slot} (h : s ∈ ofKey side n filter) :
    s.stem ∈ [Stem.key side, Stem.value side] ∧ s.counters.head? = some n := by
  rcases List.mem_cons.mp h with rfl | h
  · exact ⟨List.mem_cons_self, rfl⟩
  · cases filter with
    | scalar v =>
      rw [List.mem_singleton.mp h]
      exact ⟨by simp, rfl⟩
    | oneOf vs =>
      obtain ⟨j, rfl⟩ := of_mem_members h
      exact ⟨by simp [numbered], rfl⟩

theorem nodup_ofKey (side : Side) (n : Nat) (filter : Filter) : (ofKey side n filter).Nodup := by
  apply List.nodup_cons.mpr ⟨_, nodup_ofFilter _ filter⟩
  intro h
  have hstem : (⟨.key side, [n]⟩ : Slot).stem = .value side := by
    cases filter with
    | scalar v => rw [List.mem_singleton.mp h]
    | oneOf vs =>
      obtain ⟨j, hj⟩ := of_mem_members h
      rw [hj]
      rfl
  cases hstem

def ofKeys (side : Side) : Nat → Filters → List Slot
  | _, [] => []
  | n, f :: fs => ofKey side n f.2 ++ ofKeys side (n + 1) fs

theorem of_mem_ofKeys {side : Side} {n : Nat} {fs : Filters} {s : Slot} (h : s ∈ ofKeys side n fs) :
    s.stem ∈ [Stem.key side, Stem.value side] ∧ ∃ m, n ≤ m ∧ s.counters.head? = some m := by
  induction fs generalizing n with
  | nil => cases h
  | cons f fs ih =>
    rcases List.mem_append.mp h with h | h
    · obtain ⟨hstem, hn⟩ := of_mem_ofKey h
      exact ⟨hstem, n, Nat.le_refl n, hn⟩
    · obtain ⟨hstem, m, hm, hcounter⟩ := ih h
      exact ⟨hstem, m, by omega, hcounter⟩

theorem nodup_ofKeys (side : Side) (n : Nat) (fs : Filters) : (ofKeys side n fs).Nodup := by
  induction fs generalizing n with
  | nil => exact List.nodup_nil
  | cons f fs ih =>
    -- The keys that follow count on from `n + 1`.
    apply List.nodup_append.mpr ⟨nodup_ofKey side n f.2, ih (n + 1), _⟩
    rintro s hs t ht rfl
    obtain ⟨-, hn⟩ := of_mem_ofKey hs
    obtain ⟨-, m, hm, hcounter⟩ := of_mem_ofKeys ht
    rw [hn] at hcounter
    have hnm : n = m := Option.some.inj hcounter
    omega

end Slot

namespace Clause

variable {tables : Tables} {q : Query} {cs : List Clause}

def NamedBy (stems : List Stem) (cs : List Clause) : Prop :=
  ∃ slots : List Slot, (allBindings cs).map Prod.fst = slots.map Slot.name ∧ slots.Nodup ∧
    ∀ s ∈ slots, s.stem ∈ stems

theorem NamedBy.nil (stems : List Stem) : NamedBy stems [] :=
  ⟨[], rfl, .nil, fun _ hs => nomatch hs⟩

theorem NamedBy.append {stems stems' : List Stem} {ds : List Clause} (hc : NamedBy stems cs)
    (hd : NamedBy stems' ds) (hdisjoint : ∀ s ∈ stems, s ∉ stems') :
    NamedBy (stems ++ stems') (cs ++ ds) := by
  obtain ⟨xs, hxs, hxsNodup, hxsStems⟩ := hc
  obtain ⟨ys, hys, hysNodup, hysStems⟩ := hd
  refine ⟨xs ++ ys, ?_, ?_, ?_⟩
  · rw [allBindings, List.flatMap_append, List.map_append, List.map_append, ← hxs, ← hys]
    rfl
  · apply List.nodup_append.mpr ⟨hxsNodup, hysNodup, ?_⟩
    rintro s hx t hy rfl
    exact hdisjoint s.stem (hxsStems s hx) (hysStems s hy)
  · intro s hs
    rcases List.mem_append.mp hs with hs | hs
    · exact List.mem_append_left _ (hxsStems s hs)
    · exact List.mem_append_right _ (hysStems s hs)

theorem named_compare {column parameter : Text} {comparison : Comparison} {v : Value} (c : Criterion)
    (hname : c.name = parameter) : NamedBy [.criterion c] [compare column comparison parameter v] := by
  refine ⟨[⟨.criterion c, []⟩], ?_, List.nodup_singleton _, ?_⟩
  · rw [List.map_singleton, Slot.name_criterion, hname]
    rfl
  · intro s hs
    rw [List.mem_singleton.mp hs]
    exact List.mem_singleton_self _

theorem NamedBy.mono {stems stems' : List Stem} (h : NamedBy stems cs) (hstems : ∀ s ∈ stems, s ∈ stems') :
    NamedBy stems' cs := by
  obtain ⟨slots, hslots, hnodup, hmem⟩ := h
  exact ⟨slots, hslots, hnodup, fun s hs => hstems s.stem (hmem s hs)⟩

theorem named_ofChoices {column stem : Text} {f : Value → Value} {v : Value} (s : Slot)
    (hname : s.name = stem) (h : ofChoices column stem f v = .ok cs) : NamedBy [s.stem] cs := by
  rw [ofChoices] at h
  split at h
  · cases h
    exact .nil _
  · obtain ⟨vs, -, rfl⟩ := map_eq_ok.mp h
    refine ⟨s.members (vs.map f).length, ?_, s.nodup_members _, ?_⟩
    · rw [← Slot.map_name_members, hname]
      rw [allBindings, List.flatMap_singleton]
      rfl
    · intro t ht
      obtain ⟨j, rfl⟩ := Slot.of_mem_members ht
      exact List.mem_singleton_self _

theorem named_ofBuyers (h : ofBuyers q = .ok cs) : NamedBy [.buyer, .criterion .buyerId] cs := by
  rw [ofBuyers] at h
  split at h
  · exact (named_ofChoices ⟨.buyer, []⟩ rfl h).mono (by simp)
  · cases h
    exact (named_compare .buyerId rfl).mono (by simp)

theorem named_ofOrderNo (q : Query) :
    NamedBy [.criterion .orderNo, .criterion .orderNoLike] (ofOrderNo q) := by
  rw [ofOrderNo]
  split
  · exact (named_compare .orderNo rfl).mono (by simp)
  · split
    · exact (named_compare .orderNoLike rfl).mono (by simp)
    · exact .nil _

theorem named_ofKeyword (v : Value) : NamedBy [.criterion .keyword] (ofKeyword v) := by
  rw [ofKeyword]
  split
  · exact .nil _
  · refine ⟨[⟨.criterion .keyword, []⟩], rfl, List.nodup_singleton _, ?_⟩
    intro s hs
    rw [List.mem_singleton.mp hs]
    exact List.mem_singleton_self _

theorem named_ofTime {column : Text} {comparison : Comparison} {c : Criterion}
    (h : ofTime column comparison c q = .ok cs) : NamedBy [.criterion c] cs := by
  rw [ofTime] at h
  split at h
  · cases h
    exact .nil _
  · obtain ⟨t, -, rfl⟩ := map_eq_ok.mp h
    exact named_compare c rfl

theorem named_ofAmount (q : Query) (comparison : Comparison) (c : Criterion) :
    NamedBy [.criterion c] (ofAmount comparison c q) := by
  rw [ofAmount]
  split
  · exact .nil _
  · exact named_compare c rfl

theorem named_ofFilters (table orders : TableName) (side : Side) (fs : Filters) :
    NamedBy [.key side, .value side] (ofFilters table orders (Slot.sideText side) fs) := by
  refine ⟨Slot.ofKeys side 1 fs, ?_, Slot.nodup_ofKeys side 1 fs, fun s hs => (Slot.of_mem_ofKeys hs).1⟩
  rw [ofFilters]
  generalize 1 = n
  induction fs generalizing n with
  | nil => rfl
  | cons f fs ih =>
    rw [Slot.ofKeys, List.map_append, ← ih (n + 1), Slot.ofKey, List.map_cons, ← Slot.map_name_ofFilter]
    rw [List.zipIdx_cons, List.map_cons, allBindings, List.flatMap_cons, List.map_append, ofKey_eq]
    rfl

def stems : List Stem :=
  [.type, .status, .buyer, .criterion .buyerId, .criterion .orderNo, .criterion .orderNoLike,
    .criterion .keyword, .criterion .createdFrom, .criterion .createdTo, .criterion .updatedFrom,
    .criterion .updatedTo, .criterion .amountMin, .criterion .amountMax, .key .relations, .value .relations,
    .key .indexed, .value .indexed]

theorem named_ofQuery (h : ofQuery tables q = .ok cs) : NamedBy stems cs := by
  obtain ⟨types, statuses, buyers, createdFrom, createdTo, updatedFrom, updatedTo, htypes, hstatuses,
    hbuyers, hcreatedFrom, hcreatedTo, hupdatedFrom, hupdatedTo, rfl⟩ := ofQuery_eq_ok h
  have htype : NamedBy [.type] types := named_ofChoices ⟨.type, []⟩ rfl htypes
  have hstatus : NamedBy [.status] statuses := named_ofChoices ⟨.status, []⟩ rfl hstatuses
  have h := htype.append hstatus (by decide)
  have h := h.append (named_ofBuyers hbuyers) (by decide)
  have h := h.append (named_ofOrderNo q) (by decide)
  have h := h.append (named_ofKeyword (q .keyword)) (by decide)
  have h := h.append (named_ofTime hcreatedFrom) (by decide)
  have h := h.append (named_ofTime hcreatedTo) (by decide)
  have h := h.append (named_ofTime hupdatedFrom) (by decide)
  have h := h.append (named_ofTime hupdatedTo) (by decide)
  have h := h.append (named_ofAmount q .atLeast .amountMin) (by decide)
  have h := h.append (named_ofAmount q .atMost .amountMax) (by decide)
  have hrelations := named_ofFilters tables.relations tables.orders .relations (q.filters .relations)
  have hindexed := named_ofFilters tables.indexed tables.orders .indexed (q.filters .indexedFields)
  exact (h.append hrelations (by decide)).append hindexed (by decide)

end Clause

end OrderStore.Sql
