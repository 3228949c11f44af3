import OrderStore.Proofs.Query.Calls

namespace OrderStore

namespace Criterion

def isFilter : Criterion → Bool
  | limit | offset | column | direction | includeTotal => false
  | _ => true

end Criterion

namespace Refinement

def sides : Refinement → List Refinement
  | .createdBetween start stop => [.createdAfter start, .createdBefore stop]
  | .updatedBetween start stop => [.updatedAfter start, .updatedBefore stop]
  | .amountBetween lo hi => [.amountMin lo, .amountMax hi]
  | r => [r]

theorem criteria_sides (r : Refinement) :
    ∀ s ∈ r.sides, (∃ c, s.criteria = [c]) ∨ ∀ c ∈ s.criteria, c.isFilter = false := by
  intro s hs
  cases r with
  | createdBetween | updatedBetween | amountBetween =>
    rcases List.mem_pair.mp hs with rfl | rfl <;> exact .inl ⟨_, rfl⟩
  | page | orderBy =>
    cases List.mem_singleton.mp hs
    exact .inr (by simp [criteria, Criterion.isFilter])
  | _ =>
    cases List.mem_singleton.mp hs
    exact .inl ⟨_, rfl⟩

def IsBlank : Refinement → Criterion → Prop
  | .types vs, .types | .statuses vs, .statuses | .buyerIds vs, .buyerIds => vs.elements? = some []
  | .buyerId v, .buyerId => v = .null
  | .orderNo v, .orderNo => v.isEmpty = true
  | .orderNoLike text _, .orderNoLike | .keyword text, .keyword => text.toTrimmed = .ok none
  | .relations fs, .relations | .indexedFields fs, .indexedFields => fs.isEmpty = true
  | .createdBetween v _, .createdFrom | .createdBetween _ v, .createdTo
  | .createdAfter v, .createdFrom | .createdBefore v, .createdTo
  | .updatedBetween v _, .updatedFrom | .updatedBetween _ v, .updatedTo
  | .updatedAfter v, .updatedFrom | .updatedBefore v, .updatedTo => v.isEmpty = true
  | .amountBetween v _, .amountMin | .amountBetween _ v, .amountMax
  | .amountMin v, .amountMin | .amountMax v, .amountMax => v = .null
  | _, _ => False

variable {r : Refinement} {c : Criterion} {v : Value} {ws : Writes}

theorem isFilter_of_isBlank (h : r.IsBlank c) : c.isFilter = true := by
  unfold IsBlank at h
  split at h
  all_goals first | rfl | exact h.elim

theorem mem_both {w : Criterion × Value} {x y : Except Error Writes} (h : both x y = .ok ws)
    (hw : (∀ as, x = .ok as → w ∈ as) ∨ ∀ bs, y = .ok bs → w ∈ bs) : w ∈ ws := by
  obtain ⟨as, bs, has, hbs, rfl⟩ := both_eq_ok.mp h
  rcases hw with hw | hw
  · exact List.mem_append_left _ (hw as has)
  · exact List.mem_append_right _ (hw bs hbs)

theorem mem_of_eq {w : Criterion × Value} {x : Except Error Writes} (hx : x = .ok [w]) (h : x = .ok ws) :
    w ∈ ws := by
  rw [hx] at h
  cases h
  exact List.mem_cons_self

theorem writeTime_of_isEmpty (now : WallClock) (hv : v.isEmpty = true) :
    writeTime now c v = .ok [(c, .null)] := by
  rw [writeTime, toTimeBound, if_pos hv]
  rfl

theorem writeAmount_of_null (hv : v = .null) : writeAmount c v = .ok [(c, .null)] := by
  rw [hv]
  rfl

theorem writeTuple_of_empty (hv : v.elements? = some []) : writeTuple c v = .ok [(c, .tuple [])] := by
  rw [writeTuple, Value.toElements, hv]
  rfl

theorem writeText_of_blank {wrap : Text → Text} (hv : v.toTrimmed = .ok none) :
    writeText c wrap v = .ok [(c, .null)] := by
  rw [writeText, hv]
  rfl

theorem writeFilters_of_isEmpty (hv : v.isEmpty = true) : writeFilters c v = .ok [(c, .map [])] := by
  rw [writeFilters, show Filters.ofValue v = .ok [] from if_pos hv]
  rfl

theorem mem_of_isBlank {now : WallClock} {q : Query} (hr : r.IsBlank c) (h : r.writes now q = .ok ws) :
    (c, c.default) ∈ ws := by
  cases r with
  | types | statuses | buyerIds => cases c <;> first | exact hr.elim | exact mem_of_eq (writeTuple_of_empty hr) h
  | buyerId v =>
    cases c <;> try exact hr.elim
    cases hr
    cases h
    exact List.mem_cons_self
  | orderNo v =>
    cases c <;> try exact hr.elim
    have hv : v.isEmpty = true := hr
    rw [writes, orNull, if_pos hv] at h
    cases h
    exact List.mem_cons_self
  | orderNoLike | keyword => cases c <;> first | exact hr.elim | exact mem_of_eq (writeText_of_blank hr) h
  | relations | indexedFields => cases c <;> first | exact hr.elim | exact mem_of_eq (writeFilters_of_isEmpty hr) h
  | createdBetween | updatedBetween =>
    cases c <;> first
      | exact hr.elim
      | exact mem_both h (.inl fun _ => mem_of_eq (writeTime_of_isEmpty now hr))
      | exact mem_both h (.inr fun _ => mem_of_eq (writeTime_of_isEmpty now hr))
  | createdAfter | updatedAfter =>
    cases c <;> first | exact hr.elim | exact mem_both h (.inl fun _ => mem_of_eq (writeTime_of_isEmpty now hr))
  | createdBefore | updatedBefore =>
    cases c <;> first | exact hr.elim | exact mem_both h (.inr fun _ => mem_of_eq (writeTime_of_isEmpty now hr))
  | amountBetween =>
    cases c <;> first
      | exact hr.elim
      | exact mem_both h (.inl fun _ => mem_of_eq (writeAmount_of_null hr))
      | exact mem_both h (.inr fun _ => mem_of_eq (writeAmount_of_null hr))
  | amountMin => cases c <;> first | exact hr.elim | exact mem_both h (.inl fun _ => mem_of_eq (writeAmount_of_null hr))
  | amountMax => cases c <;> first | exact hr.elim | exact mem_both h (.inr fun _ => mem_of_eq (writeAmount_of_null hr))
  | type | status | limit | offset | page | orderBy | total => exact hr.elim

theorem isOk_of_isBlank (now : WallClock) (n : Int) (hr : ∀ c ∈ r.criteria, r.IsBlank c) :
    (r.writes now (.limited n)).isOk = true := by
  have hfirst {c : Criterion} {cs : List Criterion} (h : r.criteria = c :: cs) : r.IsBlank c :=
    hr c (h ▸ List.mem_cons_self)
  have hsecond {c d : Criterion} (h : r.criteria = [c, d]) : r.IsBlank d :=
    hr d (h ▸ List.mem_cons_of_mem c List.mem_cons_self)
  cases r with
  | types | statuses | buyerIds =>
    rw [writes, writeTuple_of_empty (hfirst rfl)]
    rfl
  | orderNoLike | keyword =>
    rw [writes, writeText_of_blank (hfirst rfl)]
    rfl
  | relations | indexedFields =>
    rw [writes, writeFilters_of_isEmpty (hfirst rfl)]
    rfl
  | createdBetween | updatedBetween =>
    rw [writes, writeTime_of_isEmpty now (hfirst rfl), writeTime_of_isEmpty now (hsecond rfl)]
    rfl
  | createdAfter | createdBefore | updatedAfter | updatedBefore =>
    rw [writes, writeTime_of_isEmpty now (hfirst rfl)]
    rfl
  | amountBetween =>
    rw [writes, writeAmount_of_null (hfirst rfl), writeAmount_of_null (hsecond rfl)]
    rfl
  | amountMin | amountMax =>
    rw [writes, writeAmount_of_null (hfirst rfl)]
    rfl
  | buyerId | orderNo => rfl
  | type | status | limit | offset | page | orderBy | total => exact (hfirst rfl).elim

end Refinement

namespace Query

variable {p q : Query} {x : Call} {xs : List Call} {cs : List Criterion} {c : Criterion}

def Call.sides (x : Call) : List Call := x.refinement.sides.map fun s => ⟨x.now, s⟩

def Call.avoids (cs : List Criterion) (x : Call) : Bool := x.refinement.criteria.all fun c => !cs.contains c

/-- The calls that succeed, without what they set of some criteria; of a range the other side is kept. -/
def without (cs : List Criterion) (xs : List Call) : List Call :=
  ((xs.filter Call.succeeds).flatMap Call.sides).filter (Call.avoids cs)

theorem Call.avoids_iff : x.avoids cs = true ↔ ∀ c ∈ x.refinement.criteria, c ∉ cs := by
  simp [avoids]

theorem Built.follow_pair (hq : q.Built) {now : WallClock} {r s t : Refinement}
    {a b : Except Error Refinement.Writes}
    (hr : r.writes now q = Refinement.both a b)
    (hs : s.writes now q = Refinement.both a (.ok []))
    (ht : ∀ p : Query, p.Built → t.writes now p = Refinement.both (.ok []) b)
    (hx : (⟨now, r⟩ : Call).succeeds = true) :
    q.follow [⟨now, s⟩, ⟨now, t⟩] = q.apply ⟨now, r⟩ := by
  rcases hq.apply_cases ⟨now, r⟩ with ⟨hfails, -, -⟩ | ⟨-, hrefine, -⟩
  · exact absurd (hfails.symm.trans hx) Bool.false_ne_true
  obtain ⟨ws, hws, happly⟩ := map_eq_ok.mp hrefine
  obtain ⟨as, bs, rfl, rfl, rfl⟩ := Refinement.both_eq_ok.mp (hr.symm.trans hws)
  have hfirst : q.apply ⟨now, s⟩ = assignAll as q := by
    rw [Query.apply, Query.refine, hs]
    exact congrArg (assignAll · q) (List.append_nil as)
  have hsecond : Query.apply (assignAll as q) ⟨now, t⟩ = assignAll bs (assignAll as q) := by
    rw [Query.apply, Query.refine, ht _ (hfirst ▸ hq.apply _)]
    rfl
  rw [follow_cons, follow_cons, follow_nil, hfirst, hsecond, ← happly, assignAll_append]

theorem Built.follow_sides (hq : q.Built) (hx : x.succeeds = true) : q.follow x.sides = q.apply x := by
  obtain ⟨now, r⟩ := x
  cases r with
  | createdBetween start stop =>
    refine hq.follow_pair rfl ?_ (fun p hp => ?_) hx
    · rw [Refinement.writes, Refinement.settleTime_eq now (hq.admits .createdTo)]
    · rw [Refinement.writes, Refinement.settleTime_eq now (hp.admits .createdFrom)]
  | updatedBetween start stop =>
    refine hq.follow_pair rfl ?_ (fun p hp => ?_) hx
    · rw [Refinement.writes, Refinement.settleTime_eq now (hq.admits .updatedTo)]
    · rw [Refinement.writes, Refinement.settleTime_eq now (hp.admits .updatedFrom)]
  | amountBetween lo hi =>
    refine hq.follow_pair rfl ?_ (fun p hp => ?_) hx
    · rw [Refinement.writes, Refinement.settleAmount_eq (hq.admits .amountMax)]
    · rw [Refinement.writes, Refinement.settleAmount_eq (hp.admits .amountMin)]
  | _ => rfl

theorem Built.follow_flatMap_sides (hq : q.Built) (xs : List Call) :
    q.follow ((xs.filter Call.succeeds).flatMap Call.sides) = q.follow xs := by
  induction xs generalizing q with
  | nil => rfl
  | cons x xs ih =>
    cases hx : x.succeeds with
    | true =>
      rw [List.filter_cons_of_pos hx, List.flatMap_cons, follow_append, hq.follow_sides hx, follow_cons]
      exact ih (hq.apply x)
    | false =>
      have hskip : q.apply x = q := by
        funext c
        exact hq.apply_other fun h => Bool.false_ne_true (hx.symm.trans h.1)
      rw [List.filter_cons_of_neg (by simp [hx]), follow_cons, hskip]
      exact ih hq

theorem Built.follow_filter (hp : p.Built) (hq : q.Built) (hpq : ∀ c, c ∉ cs → p c = q c)
    (hlimit : .limit ∉ cs) (hxs : ∀ x ∈ xs, x.avoids cs = true ∨ x.refinement.criteria ⊆ cs) :
    ∀ c, c ∉ cs → p.follow (xs.filter (Call.avoids cs)) c = q.follow xs c := by
  induction xs generalizing p q with
  | nil => exact hpq
  | cons x xs ih =>
    have hrest := fun y hy => hxs y (List.mem_cons_of_mem x hy)
    cases hx : x.avoids cs with
    | true =>
      rw [List.filter_cons_of_pos hx]
      exact ih (hp.apply x) (hq.apply x)
        (fun c hc => hp.apply_congr hq (fun _ => hpq _ hlimit) (.inl (hpq c hc))) hrest
    | false =>
      have hwithin := (hxs x List.mem_cons_self).resolve_left (Bool.eq_false_iff.mp hx)
      rw [List.filter_cons_of_neg (by simp [hx])]
      refine ih hp (hq.apply x) (fun c hc => ?_) hrest
      rw [hq.apply_other fun h => hc (hwithin h.2)]
      exact hpq c hc

theorem within_of_mem_sides (hcs : ∀ c ∈ cs, c.isFilter = true) {y : Call} (hy : y ∈ x.sides) :
    y.avoids cs = true ∨ y.refinement.criteria ⊆ cs := by
  obtain ⟨s, hs, rfl⟩ := List.mem_map.mp hy
  rcases x.refinement.criteria_sides s hs with ⟨c, hc⟩ | hnone
  · by_cases hmem : c ∈ cs
    · exact .inr (by simpa [hc] using hmem)
    · exact .inl (by simpa [Call.avoids_iff, hc] using hmem)
  · refine .inl (Call.avoids_iff.mpr fun c hc hmem => ?_)
    exact Bool.false_ne_true ((hnone c hc).symm.trans (hcs c hmem))

theorem follow_without (hcs : ∀ c ∈ cs, c.isFilter = true) (xs : List Call) (c : Criterion) :
    default.follow (without cs xs) c = if c ∈ cs then c.default else default.follow xs c := by
  split
  · rename_i hc
    apply Built.default.follow_other
    intro x hx hset
    exact Call.avoids_iff.mp (List.mem_filter.mp hx).2 c hset.2 hc
  · rename_i hc
    rw [← Built.default.follow_flatMap_sides xs]
    refine Built.default.follow_filter .default (fun _ _ => rfl) (fun h => ?_) (fun y hy => ?_) c hc
    · exact Bool.false_ne_true (hcs _ h)
    · obtain ⟨x, -, hy⟩ := List.mem_flatMap.mp hy
      exact within_of_mem_sides hcs hy

theorem Call.succeeds_of_isBlank (h : ∀ c ∈ x.refinement.criteria, x.refinement.IsBlank c) :
    x.succeeds = true :=
  (x.succeeds_eq 1).trans (Refinement.isOk_of_isBlank x.now 1 h)

theorem Built.apply_of_isBlank (hq : q.Built) (hx : x.succeeds = true) (hc : x.refinement.IsBlank c) :
    q.apply x c = c.default := by
  rcases hq.apply_cases x with ⟨hfails, -, -⟩ | ⟨-, hrefine, n, ws, hn, -, hws, hcriteria, happly⟩
  · exact absurd (hfails.symm.trans hx) Bool.false_ne_true
  have hmem : (c, c.default) ∈ ws := Refinement.mem_of_isBlank hc hws
  have hnodup : (ws.map Prod.fst).Nodup := hcriteria ▸ x.refinement.nodup_criteria
  rw [happly]
  rcases assignAll_cases ws q c with ⟨w, hw, hwc, h⟩ | ⟨hnone, -⟩
  · rw [h, List.inj_on_of_nodup_map hnodup hw hmem hwc]
  · exact absurd rfl (hnone _ hmem)

/-- Where the last call that succeeds gives nothing to filter by, the calls might as well have left the
filters out. -/
theorem follow_cleared (hx : x.succeeds = true) (hcs : ∀ c ∈ cs, x.refinement.IsBlank c) (xs : List Call) :
    default.follow (xs ++ [x]) = default.follow (without cs (xs ++ [x])) := by
  funext c
  rw [follow_without fun c hc => Refinement.isFilter_of_isBlank (hcs c hc)]
  split
  · rename_i hc
    rw [follow_append, follow_cons, follow_nil]
    exact (Built.default.follow xs).apply_of_isBlank hx (hcs c hc)
  · rfl

end Query

end OrderStore
