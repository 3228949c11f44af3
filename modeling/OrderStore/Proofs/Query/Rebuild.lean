import OrderStore.Proofs.Arguments
import OrderStore.Proofs.Query.Built
/-!
A refined query is built anew from the values of all its criteria, and one side of a range reads the
other side again. Neither makes a difference: filter maps are resolved already, and bounds read.
-/

namespace OrderStore

namespace Refinement

variable {v : Value} {c : Criterion} {q : Query} {now : WallClock}

theorem toTimeBound_eq (now : WallClock) (h : IsTimeBound v) : toTimeBound now v = .ok v := by
  rcases h with rfl | ⟨t, rfl⟩ <;> rfl

theorem toAmountBound_eq (h : IsAmountBound v) : toAmountBound v = .ok v := by
  rcases h with rfl | ⟨d, rfl⟩ <;> rfl

theorem settleTime_eq (now : WallClock) (h : IsTimeBound (q c)) : settleTime now c q = .ok [] := by
  rcases h with h | ⟨t, h⟩ <;> rw [settleTime, h] <;> rfl

theorem settleAmount_eq (h : IsAmountBound (q c)) : settleAmount c q = .ok [] := by
  rcases h with h | ⟨d, h⟩ <;> rw [settleAmount, h] <;> rfl

def widened (q : Query) : Refinement → Refinement
  | .createdAfter start => .createdBetween start (q .createdTo)
  | .createdBefore stop => .createdBetween (q .createdFrom) stop
  | .updatedAfter start => .updatedBetween start (q .updatedTo)
  | .updatedBefore stop => .updatedBetween (q .updatedFrom) stop
  | .amountMin lo => .amountBetween lo (q .amountMax)
  | .amountMax hi => .amountBetween (q .amountMin) hi
  | r => r

theorem map_both_rewrite (x : Except Error Value) {c d : Criterion} (hcd : c ≠ d) (q : Query) :
    (both (x.map fun b => [(c, b)]) (.ok [(d, q d)])).map (fun ws => assignAll ws q) =
        (both (x.map fun b => [(c, b)]) (.ok [])).map (fun ws => assignAll ws q) ∧
      (both (.ok [(d, q d)]) (x.map fun b => [(c, b)])).map (fun ws => assignAll ws q) =
        (both (.ok []) (x.map fun b => [(c, b)])).map (fun ws => assignAll ws q) := by
  cases x with
  | error e => exact ⟨rfl, rfl⟩
  | ok b =>
    have hlater : assign d (q d) (assign c b q) = assign c b q := by
      rw [assign_comm _ _ _ hcd.symm, assign_self]
    have hearlier : assign c b (assign d (q d) q) = assign c b q := by rw [assign_self]
    exact ⟨congrArg Except.ok hlater, congrArg Except.ok hearlier⟩

theorem settleTime_cases (now : WallClock) (c : Criterion) (q : Query) :
    settleTime now c q = writeTime now c (q c) ∨
      settleTime now c q = .ok [] ∧ writeTime now c (q c) = .ok [(c, q c)] := by
  rw [settleTime]
  split
  · rename_i hsettled
    refine .inr ⟨rfl, ?_⟩
    have hbound : IsTimeBound (q c) := by
      generalize q c = v at hsettled
      cases v with
      | null => exact .inl rfl
      | moment m =>
        obtain ⟨stamp, micro, offset⟩ := m
        simp only [isSettledTime, Bool.and_eq_true, Option.isNone_iff_eq_none, beq_iff_eq] at hsettled
        obtain ⟨rfl, hmicro⟩ := hsettled
        obtain rfl : micro = ⟨0, by decide⟩ := Fin.ext hmicro
        exact .inr ⟨stamp, rfl⟩
      | _ => cases hsettled
    rw [writeTime, toTimeBound_eq now hbound]
    rfl
  · exact .inl rfl

theorem settleAmount_cases (c : Criterion) (q : Query) :
    settleAmount c q = writeAmount c (q c) ∨
      settleAmount c q = .ok [] ∧ writeAmount c (q c) = .ok [(c, q c)] := by
  rw [settleAmount]
  split
  · rename_i hsettled
    refine .inr ⟨rfl, ?_⟩
    have hbound : IsAmountBound (q c) := by
      generalize q c = v at hsettled
      cases v with
      | null => exact .inl rfl
      | decimal d => exact .inr ⟨d, rfl⟩
      | _ => cases hsettled
    rw [writeAmount, toAmountBound_eq hbound]
    rfl
  · exact .inl rfl

theorem map_both_settle {x y z : Except Error Writes} {c d : Criterion} {v : Except Error Value} (hcd : c ≠ d)
    (hx : x = v.map fun b => [(c, b)]) (hz : y = z ∨ y = .ok [] ∧ z = .ok [(d, q d)]) :
    (both x z).map (fun ws => assignAll ws q) = (both x y).map (fun ws => assignAll ws q) ∧
      (both z x).map (fun ws => assignAll ws q) = (both y x).map (fun ws => assignAll ws q) := by
  rcases hz with rfl | ⟨rfl, rfl⟩
  · exact ⟨rfl, rfl⟩
  · rw [hx]
    exact map_both_rewrite v hcd q

theorem refine_widened (now : WallClock) (q : Query) (r : Refinement) :
    q.refine now (r.widened q) = q.refine now r := by
  cases r with
  | createdAfter start => exact (map_both_settle (by decide) rfl (settleTime_cases now .createdTo q)).1
  | createdBefore stop => exact (map_both_settle (by decide) rfl (settleTime_cases now .createdFrom q)).2
  | updatedAfter start => exact (map_both_settle (by decide) rfl (settleTime_cases now .updatedTo q)).1
  | updatedBefore stop => exact (map_both_settle (by decide) rfl (settleTime_cases now .updatedFrom q)).2
  | amountMin lo => exact (map_both_settle (by decide) rfl (settleAmount_cases .amountMax q)).1
  | amountMax hi => exact (map_both_settle (by decide) rfl (settleAmount_cases .amountMin q)).2
  | _ => rfl

end Refinement

theorem Criterion.nodup_names : (all.map name).Nodup := by decide +kernel

theorem Criterion.name_injective {c d : Criterion} (h : c.name = d.name) : c = d :=
  List.inj_on_of_nodup_map nodup_names c.mem_all d.mem_all h

namespace Query

variable {q : Query} {fields : Named}

def given (fields : Named) : Query := fun c => (fields.get? c.name).getD c.default

theorem assignAll_zip_all (q p : Query) : assignAll (Criterion.all.zip (Criterion.all.map q)) p = q := by
  funext c
  have hzip : Criterion.all.zip (Criterion.all.map q) = Criterion.all.map fun c => (c, q c) := by
    rw [List.zip_map_right, List.zip_eq_zipWith, List.zipWith_self, List.map_map]
    rfl
  rw [hzip]
  rcases assignAll_cases (Criterion.all.map fun c => (c, q c)) p c with ⟨w, hw, rfl, h⟩ | ⟨hnone, -⟩
  · obtain ⟨d, -, rfl⟩ := List.mem_map.mp hw
    exact h
  · exact absurd rfl (hnone (c, q c) (List.mem_map_of_mem c.mem_all))

def resolveMaps (q : Query) : Except Error Query :=
  (Filters.ofValue (q .relations)).bind fun relations =>
    (Filters.ofValue (q .indexedFields)).bind fun indexedFields =>
      .ok (assignAll [(.relations, relations.toValue), (.indexedFields, indexedFields.toValue)] q)

theorem make_of_known (h : ∀ e ∈ fields, ∃ c : Criterion, c.name = e.1) :
    make fields = (given fields).resolveMaps := by
  have hnames : ((Criterion.all.map Criterion.parameter).map Prod.fst).Nodup := by
    rw [List.map_map]
    exact Criterion.nodup_names
  have hbind : Arguments.bind (Criterion.all.map Criterion.parameter) ⟨[], fields⟩ =
      .ok (Criterion.all.map (given fields)) := by
    refine (Arguments.bindAll_eq_ok_iff hnames).mpr ⟨?_, ?_⟩
    · intro e he
      obtain ⟨c, hc⟩ := h e he
      exact List.mem_map.mpr ⟨c.parameter, List.mem_map_of_mem c.mem_all, hc⟩
    · rw [List.map_map, List.map_map]
      refine List.map_congr_left fun c _ => ?_
      change (fields.get? c.name).or (some c.default) = some (given fields c)
      rw [given]
      cases fields.get? c.name <;> rfl
  rw [make, hbind]
  change ((Filters.ofValue (assignAll (Criterion.all.zip (Criterion.all.map (given fields))) default _)).bind _) = _
  rw [assignAll_zip_all]
  rfl

theorem make_of_unknown (h : ¬ ∀ e ∈ fields, ∃ c : Criterion, c.name = e.1) :
    make fields = .error .wrongArguments := by
  have hnames : ((Criterion.all.map Criterion.parameter).map Prod.fst).Nodup := by
    rw [List.map_map]
    exact Criterion.nodup_names
  cases hbind : Arguments.bind (Criterion.all.map Criterion.parameter) ⟨[], fields⟩ with
  | error e =>
    rw [make, hbind, Arguments.bindAll_eq_error hbind]
    rfl
  | ok vs =>
    refine absurd (fun e he => ?_) h
    obtain ⟨p, hp, hname⟩ := List.mem_map.mp (((Arguments.bindAll_eq_ok_iff hnames).mp hbind).1 e he)
    obtain ⟨c, -, rfl⟩ := List.mem_map.mp hp
    exact ⟨c, hname⟩

theorem resolve_filters {v : Value} (h : IsFilters v) :
    ∃ fs : Filters, v = fs.toValue ∧ Filters.ofValue v = .ok fs := by
  obtain ⟨fs, rfl, hnodup⟩ := h
  refine ⟨fs, rfl, ?_⟩
  cases fs with
  | nil => rfl
  | cons f fs =>
    calc Filters.ofValue (Filters.toValue (f :: fs)) = .ok (Filters.ofEntries (Filters.toEntries (f :: fs))) := rfl
      _ = .ok (f :: fs) := by rw [Filters.ofEntries_toEntries hnodup]

structure Resolved (q : Query) : Prop where
  relations : IsFilters (q .relations)
  indexedFields : IsFilters (q .indexedFields)

theorem Built.resolved (hq : q.Built) : q.Resolved := ⟨hq.admits .relations, hq.admits .indexedFields⟩

theorem resolved_of_make (h : make fields = .ok q) : q.Resolved := by
  by_cases hknown : ∀ e ∈ fields, ∃ c : Criterion, c.name = e.1
  · rw [make_of_known hknown] at h
    obtain ⟨rs, hrs, h⟩ := bind_eq_ok.mp h
    obtain ⟨fs, hfs, h⟩ := bind_eq_ok.mp h
    cases h
    exact ⟨isFilters_of_ofValue hrs, isFilters_of_ofValue hfs⟩
  · rw [make_of_unknown hknown] at h
    cases h

namespace Resolved

theorem assignAll (hq : q.Resolved) {ws : Refinement.Writes} (hws : Refinement.Admitted ws) :
    Resolved (assignAll ws q) := by
  have hboth (c : Criterion) (hc : ∀ v, c.Admits v → IsFilters v) (h : IsFilters (q c)) :
      IsFilters (OrderStore.assignAll ws q c) := by
    rcases assignAll_cases ws q c with ⟨w, hw, rfl, hvalue⟩ | ⟨-, hvalue⟩
    · rw [hvalue]
      exact hc _ (hws w hw)
    · rw [hvalue]
      exact h
  exact ⟨hboth .relations (fun _ h => h) hq.relations, hboth .indexedFields (fun _ h => h) hq.indexedFields⟩

theorem refine {now : WallClock} {p : Query} {r : Refinement} (hq : q.Resolved) (hp : q.refine now r = .ok p) :
    p.Resolved := by
  obtain ⟨ws, hws, rfl⟩ := map_eq_ok.mp hp
  exact hq.assignAll (Refinement.admitted_writes hws)

end Resolved

def toNamed (q : Query) : Named := Criterion.all.map fun c => (c.name, q c)

theorem make_toNamed (hq : q.Resolved) : make q.toNamed = .ok q := by
  have hknown : ∀ e ∈ q.toNamed, ∃ c : Criterion, c.name = e.1 := by
    intro e he
    obtain ⟨c, -, rfl⟩ := List.mem_map.mp he
    exact ⟨c, rfl⟩
  have hgiven : given q.toNamed = q := by
    funext c
    rw [given, toNamed, Named.get?_map q Criterion.nodup_names c.mem_all]
    rfl
  obtain ⟨rs, hrs, hrelations⟩ := resolve_filters hq.relations
  obtain ⟨fs, hfs, hfields⟩ := resolve_filters hq.indexedFields
  rw [make_of_known hknown, hgiven, resolveMaps, hrelations, hfields]
  have hresolved : assignAll [(.relations, rs.toValue), (.indexedFields, fs.toValue)] q = q := by
    rw [← hrs, ← hfs, assignAll_cons, assignAll_cons, assignAll_nil, assign_self, assign_self]
  exact congrArg Except.ok hresolved

def rebuild (q : Query) (ws : Refinement.Writes) : Except Error Query := make (toNamed (assignAll ws q))

/-- A refinement is the same whether it writes its own criteria only, or reads the other side of its
range again and builds the query anew. -/
theorem Resolved.refine_eq_rebuild (hq : q.Resolved) (now : WallClock) (r : Refinement) :
    q.refine now r = ((r.widened q).writes now q).bind q.rebuild := by
  rw [← Refinement.refine_widened now q, Query.refine]
  cases hws : (r.widened q).writes now q with
  | error e => rfl
  | ok ws =>
    have hrebuild : q.rebuild ws = .ok (OrderStore.assignAll ws q) :=
      make_toNamed (hq.assignAll (Refinement.admitted_writes hws))
    simp only [Except.map, Except.bind, hrebuild]

end Query

end OrderStore
