import OrderStore.Proofs.Order.Equality
import OrderStore.Proofs.Query.Cleared
import Mathlib.Data.List.Induction

namespace OrderStore.Query

variable {p q : Query} {x y : Call} {xs : List Call} {c : Criterion} {v : Value}

/-- A criterion has what the last call that sets it writes, at the limit before that call, or its
default if no call sets it. -/
inductive LastSet (xs : List Call) (c : Criterion) (v : Value) : Prop
  | unset (hv : v = c.default) (hnone : ∀ x ∈ xs, ¬ x.Sets c)
  | set {before after : List Call} {x : Call} {n : Int} {ws : Refinement.Writes}
    (hxs : xs = before ++ x :: after) (hn : default.follow before .limit = .int n)
    (hws : x.writes n = .ok ws) (hv : (c, v) ∈ ws) (hlast : ∀ y ∈ after, ¬ y.Sets c)

theorem LastSet.append (h : LastSet xs c v) (hx : ¬ x.Sets c) : LastSet (xs ++ [x]) c v := by
  have hlater {ys : List Call} (hys : ∀ y ∈ ys, ¬ y.Sets c) : ∀ y ∈ ys ++ [x], ¬ y.Sets c := by
    intro y hy
    rcases List.mem_append.mp hy with hy | hy
    · exact hys y hy
    · exact List.mem_singleton.mp hy ▸ hx
  cases h with
  | unset hv hnone => exact .unset hv (hlater hnone)
  | set hxs hn hws hv hlast => exact .set (by rw [hxs]; simp) hn hws hv (hlater hlast)

theorem lastSet_follow (xs : List Call) (c : Criterion) : LastSet xs c (default.follow xs c) := by
  induction xs using List.reverseRecOn with
  | nil => exact .unset rfl (List.forall_mem_nil _)
  | append_singleton xs x ih =>
    have hxs : (default.follow xs).Built := Built.default.follow xs
    rw [follow_append, follow_cons, follow_nil]
    by_cases hx : x.Sets c
    · rcases hxs.apply_cases x with ⟨hfails, -, -⟩ | ⟨-, -, n, ws, hn, -, hws, hcriteria, h⟩
      · exact absurd (hfails.symm.trans hx.1) Bool.false_ne_true
      refine .set rfl hn hws ?_ (List.forall_mem_nil _)
      rw [h]
      rcases assignAll_cases ws (default.follow xs) c with ⟨w, hw, rfl, hvalue⟩ | ⟨hnone, -⟩
      · rw [hvalue]
        exact hw
      · obtain ⟨w, hw, hc⟩ := List.mem_map.mp (hcriteria.symm ▸ hx.2 : c ∈ ws.map Prod.fst)
        exact absurd hc (hnone w hw)
    · rw [hxs.apply_other hx]
      exact ih.append hx

theorem Built.apply_apply (hq : q.Built) (hxy : List.Disjoint x.refinement.criteria y.refinement.criteria)
    (hc : c ∉ x.refinement.criteria) : (q.apply x).apply y c = q.apply y c := by
  apply (hq.apply x).apply_congr hq _ (.inl (hq.apply_other fun hx => hc hx.2))
  intro hy
  exact hq.apply_other fun hx => hxy hx.2 (Refinement.limit_mem_criteria hy)

theorem Built.apply_comm (hq : q.Built)
    (hxy : List.Disjoint x.refinement.criteria y.refinement.criteria) :
    (q.apply x).apply y = (q.apply y).apply x := by
  funext c
  by_cases hx : c ∈ x.refinement.criteria
  · have hy : c ∉ y.refinement.criteria := hxy hx
    rw [(hq.apply x).apply_other fun h => hy h.2, hq.apply_apply (fun c hcy hcx => hxy hcx hcy) hy]
  · rw [hq.apply_apply hxy hx, (hq.apply y).apply_other fun h => hx h.2]

/-- A call does not matter if a later call sets its criteria and no call up to that one reads a limit
that it sets. -/
theorem Built.follow_repeat (hq : q.Built) {mid : List Call} (hy : y.succeeds = true)
    (hxy : x.refinement.criteria ⊆ y.refinement.criteria)
    (hlimit : .limit ∈ x.refinement.criteria → x.refinement.readsLimit = false →
      ∀ z ∈ mid ++ [y], z.refinement.readsLimit = false) :
    q.follow (x :: (mid ++ [y])) = q.follow (mid ++ [y]) := by
  funext c
  apply (hq.apply x).follow_congr hq
  · intro z hz hreads
    by_cases hmem : .limit ∈ x.refinement.criteria
    · cases hx : x.refinement.readsLimit with
      | true => exact hq.apply_limit hx
      | false => exact absurd (hreads.symm.trans (hlimit hmem hx z hz)) Bool.noConfusion
    · exact hq.apply_other fun h => hmem h.2
  · by_cases hc : c ∈ x.refinement.criteria
    · exact .inr ⟨y, List.mem_append_right _ List.mem_cons_self, hy, hxy hc⟩
    · exact .inl (hq.apply_other fun h => hc h.2)

theorem equal_self {shared : Criterion → Bool} (h : ∀ c, Value.isSameNaN (q c) (q c) = true → shared c = true) :
    equal shared q q = .ok true := by
  apply Value.allHold_of_forall
  intro c _
  have hc (hs : ¬ shared c = true) : Value.equal (q c) (q c) = .ok true :=
    Value.equal_self (Bool.eq_false_iff.mpr fun hn => hs (h c hn))
  split
  · rfl
  · rename_i hs
    cases c <;> exact hc hs

/-- What calls build is a record of last writers: each criterion has what the last call that sets it
computes from its own arguments. A call always sets the same criteria, and it fails or succeeds whatever
the query is; building the query anew at each call, with the other sides of ranges read again, comes to
the same. Hence calls that set different criteria can be exchanged, a call does not matter if a later
one sets its criteria, and clearing filters, which cannot fail, leads to the query of the calls without
them. -/
theorem record_of_last_writers :
    (∀ xs c, LastSet xs c (default.follow xs c)) ∧
    (∀ (x : Call) n ws, x.writes n = .ok ws →
      ws.map Prod.fst = x.refinement.criteria ∧ x.refinement.criteria.Nodup) ∧
    (∀ (x : Call) m n, x.refinement.readsLimit = false → x.writes m = x.writes n) ∧
    (∀ xs (x : Call), let q := default.follow xs
      q.refine x.now x.refinement = ((x.refinement.widened q).writes x.now q).bind q.rebuild ∧
        (x.succeeds = true ↔ ∃ p, q.refine x.now x.refinement = .ok p)) ∧
    (∀ before x y after, List.Disjoint x.refinement.criteria y.refinement.criteria →
      default.follow (before ++ x :: y :: after) = default.follow (before ++ y :: x :: after)) ∧
    (∀ before x mid y after, y.succeeds = true → x.refinement.criteria ⊆ y.refinement.criteria →
      (.limit ∈ x.refinement.criteria → x.refinement.readsLimit = false →
        ∀ z ∈ mid ++ [y], z.refinement.readsLimit = false) →
      default.follow (before ++ x :: mid ++ y :: after) = default.follow (before ++ mid ++ y :: after)) ∧
    (∀ x : Call, (∀ c ∈ x.refinement.criteria, x.refinement.IsBlank c) → x.succeeds = true) ∧
    (∀ before x after cs, x.succeeds = true → (∀ c ∈ cs, x.refinement.IsBlank c) →
      let q := default.follow (before ++ x :: after)
      let p := default.follow (without cs (before ++ [x]) ++ after)
      q = p ∧ ∀ shared, (∀ c, Value.isSameNaN (q c) (q c) = true → shared c = true) →
        equal shared q p = .ok true) := by
  refine ⟨lastSet_follow, fun x n ws hws => ⟨x.map_fst_writes hws, x.refinement.nodup_criteria⟩,
    fun x m n hx => Refinement.writes_limited x.now hx m n, fun xs x => ⟨?_, ?_⟩,
    fun before x y after hxy => ?_, fun before x mid y after hy hxy hlimit => ?_,
    fun x hx => x.succeeds_of_isBlank hx, fun before x after cs hx hcs => ?_⟩
  · exact (Built.default.follow xs).resolved.refine_eq_rebuild x.now x.refinement
  · rcases (Built.default.follow xs).apply_cases x with ⟨hx, ⟨e, he⟩, -⟩ | ⟨hx, hp, -⟩
    · rw [hx, he]
      exact ⟨nofun, nofun⟩
    · exact ⟨fun _ => ⟨_, hp⟩, fun _ => hx⟩
  · rw [follow_append, follow_append, follow_cons, follow_cons, follow_cons, follow_cons,
      (Built.default.follow before).apply_comm hxy]
  · have hrepeat := (Built.default.follow before).follow_repeat hy hxy hlimit
    -- The calls up to the second write of the criteria are one stretch, in which the first write does not matter.
    calc default.follow (before ++ x :: mid ++ y :: after)
        = ((default.follow before).follow (x :: (mid ++ [y]))).follow after := by
          rw [← follow_append, ← follow_append]
          simp
      _ = ((default.follow before).follow (mid ++ [y])).follow after := by rw [hrepeat]
      _ = default.follow (before ++ mid ++ y :: after) := by
          rw [← follow_append, ← follow_append]
          simp
  · have heq : default.follow (before ++ x :: after) =
        default.follow (without cs (before ++ [x]) ++ after) := by
      rw [List.append_cons, follow_append, follow_cleared hx hcs, ← follow_append]
    intro q p
    refine ⟨heq, fun shared h => ?_⟩
    change equal shared (default.follow _) (default.follow _) = _
    rw [← heq]
    exact equal_self h

theorem record_of_last_writers_cleared :
    let now : WallClock := .ofTimestamp ⟨⟨2024, 1, 31, by decide⟩, .midnight⟩
    let limit (n : Int) : Call := ⟨now, .limit (.int n)⟩
    let keyword (t : Text) : Call := ⟨now, .keyword (.text t)⟩
    let page : Call := ⟨now, .page (.int 3) .null⟩
    default.follow [limit 5, keyword "gift", limit 7, page] =
        default.follow [keyword "gift", limit 7, page] ∧
      default.follow [limit 7, keyword "gift", page] = default.follow [keyword "gift", limit 7, page] ∧
      default.follow [limit 7, keyword "gift", keyword " ", page] = default.follow [limit 7, page] ∧
      equal (fun _ => false) (default.follow [limit 7, keyword "gift", keyword " ", page])
        (default.follow [limit 7, page]) = .ok true := by
  intro now limit keyword page
  obtain ⟨-, -, -, -, hexchange, hrepeat, hblank, hclear⟩ := record_of_last_writers
  refine ⟨hrepeat [] (limit 5) [keyword "gift"] (limit 7) [page] rfl (List.Subset.refl _) ?_,
    hexchange [] (limit 7) (keyword "gift") [page]
      (List.singleton_disjoint.mpr (by decide : Criterion.limit ∉ [Criterion.keyword])), ?_⟩
  · intro _ _ z hz
    rcases List.mem_pair.mp hz with rfl | rfl <;> rfl
  · have hkeyword : ∀ c ∈ [Criterion.keyword], (keyword " ").refinement.IsBlank c :=
      List.forall_mem_singleton.mpr rfl
    obtain ⟨hsame, hequal⟩ := hclear [limit 7, keyword "gift"] (keyword " ") [page] [.keyword]
      (hblank _ hkeyword) hkeyword
    refine ⟨hsame, hequal (fun _ => false) fun c hc => ?_⟩
    cases c <;> cases hc

end OrderStore.Query
