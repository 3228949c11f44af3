import OrderStore.Proofs.Query.Rebuild
/-!
Refinements of a query one after the other, each at a moment of its own; one that fails is passed over.
What a refinement writes depends on the query before it in one case only, that of a page without a size.
-/

namespace OrderStore

def Query.limited (n : Int) : Query := assign .limit (.int n) default

namespace Refinement

def criteria : Refinement → List Criterion
  | .types _ | .type _ => [.types]
  | .statuses _ | .status _ => [.statuses]
  | .buyerId _ => [.buyerId]
  | .buyerIds _ => [.buyerIds]
  | .orderNo _ => [.orderNo]
  | .orderNoLike .. => [.orderNoLike]
  | .keyword _ => [.keyword]
  | .relations _ => [.relations]
  | .indexedFields _ => [.indexedFields]
  | .createdBetween .. => [.createdFrom, .createdTo]
  | .createdAfter _ => [.createdFrom]
  | .createdBefore _ => [.createdTo]
  | .updatedBetween .. => [.updatedFrom, .updatedTo]
  | .updatedAfter _ => [.updatedFrom]
  | .updatedBefore _ => [.updatedTo]
  | .amountBetween .. => [.amountMin, .amountMax]
  | .amountMin _ => [.amountMin]
  | .amountMax _ => [.amountMax]
  | .limit _ => [.limit]
  | .offset _ => [.offset]
  | .page .. => [.limit, .offset]
  | .orderBy .. => [.column, .direction]
  | .total _ => [.includeTotal]

theorem nodup_criteria (r : Refinement) : r.criteria.Nodup := by cases r <;> simp [criteria]

/-- A page without a size takes the limit that the query has. -/
def readsLimit : Refinement → Bool
  | .page _ size => size.isNull
  | _ => false

theorem limit_mem_criteria {r : Refinement} (h : r.readsLimit = true) : .limit ∈ r.criteria := by
  cases r with
  | page number size => exact List.mem_cons_self
  | _ => cases h

def OnlyWrites (x : Except Error Writes) (cs : List Criterion) : Prop :=
  ∀ ws, x = .ok ws → ws.map Prod.fst = cs

theorem onlyWrites_map {α : Type} (x : Except Error α) (c : Criterion) (value : α → Value) :
    OnlyWrites (x.map fun a => [(c, value a)]) [c] := by
  intro ws h
  obtain ⟨a, -, rfl⟩ := map_eq_ok.mp h
  rfl

theorem OnlyWrites.both {x y : Except Error Writes} {cs ds : List Criterion} (hx : OnlyWrites x cs)
    (hy : OnlyWrites y ds) : OnlyWrites (both x y) (cs ++ ds) := by
  intro ws h
  obtain ⟨as, bs, has, hbs, rfl⟩ := both_eq_ok.mp h
  rw [List.map_append, hx as has, hy bs hbs]

theorem onlyWrites_nil : OnlyWrites (.ok []) [] := by
  intro ws h
  cases h
  rfl

theorem onlyWrites_widened (now : WallClock) (q : Query) (r : Refinement) :
    OnlyWrites ((r.widened q).writes now q) (r.widened q).criteria := by
  cases r with
  | types | statuses | buyerIds | orderNoLike | keyword | relations | indexedFields | limit | offset =>
    exact onlyWrites_map _ _ _
  | createdBetween | createdAfter | createdBefore | updatedBetween | updatedAfter | updatedBefore
  | amountBetween | amountMin | amountMax =>
    exact (onlyWrites_map _ _ _).both (onlyWrites_map _ _ _)
  | page number size =>
    intro ws h
    obtain ⟨size, -, h⟩ := bind_eq_ok.mp h
    obtain ⟨number, -, rfl⟩ := map_eq_ok.mp h
    rfl
  | type | status | buyerId | orderNo | orderBy | total =>
    intro ws h
    cases h
    rfl

theorem onlyWrites_criteria (now : WallClock) (n : Int) (r : Refinement) :
    OnlyWrites (r.writes now (.limited n)) r.criteria := by
  have hwidened := onlyWrites_widened now (.limited n) r
  cases r with
  | createdAfter | updatedAfter | amountMin => exact (onlyWrites_map _ _ _).both onlyWrites_nil
  | createdBefore | updatedBefore | amountMax => exact onlyWrites_nil.both (onlyWrites_map _ _ _)
  | _ => exact hwidened

variable {q : Query} {n : Int}

theorem writes_eq (now : WallClock) (hq : q.Built) (hn : q .limit = .int n) (r : Refinement) :
    r.writes now q = r.writes now (Query.limited n) := by
  cases r with
  | createdAfter => rw [writes, writes, settleTime_eq now (hq.admits .createdTo)]; rfl
  | createdBefore => rw [writes, writes, settleTime_eq now (hq.admits .createdFrom)]; rfl
  | updatedAfter => rw [writes, writes, settleTime_eq now (hq.admits .updatedTo)]; rfl
  | updatedBefore => rw [writes, writes, settleTime_eq now (hq.admits .updatedFrom)]; rfl
  | amountMin => rw [writes, writes, settleAmount_eq (hq.admits .amountMax)]; rfl
  | amountMax => rw [writes, writes, settleAmount_eq (hq.admits .amountMin)]; rfl
  | page number size => rw [writes, writes, hn, Query.limited, assign_same]
  | _ => rfl

theorem writes_limited (now : WallClock) {r : Refinement} (h : r.readsLimit = false) (m n : Int) :
    r.writes now (Query.limited m) = r.writes now (Query.limited n) := by
  cases r with
  | page number size =>
    have hsize : size.isNull = false := h
    rw [writes, writes, hsize]
    rfl
  | _ => rfl

theorem isOk_writes_limited (now : WallClock) (r : Refinement) (m n : Int) :
    (r.writes now (Query.limited m)).isOk = (r.writes now (Query.limited n)).isOk := by
  cases hr : r.readsLimit with
  | false => rw [writes_limited now hr m n]
  | true =>
    cases r with
    | page number size =>
      have hsize : size.isNull = true := hr
      simp only [writes, hsize, if_true, Query.limited, assign_same, writePage]
      cases number.toInteger <;> rfl
    | _ => cases hr

end Refinement

namespace Query

structure Call where
  now : WallClock
  refinement : Refinement

namespace Call

/-- What a call writes to a query with this limit, whatever else the query holds. -/
def writes (n : Int) (x : Call) : Except Error Refinement.Writes :=
  x.refinement.writes x.now (limited n)

def succeeds (x : Call) : Bool := (default.refine x.now x.refinement).isOk

def Sets (x : Call) (c : Criterion) : Prop := x.succeeds = true ∧ c ∈ x.refinement.criteria

theorem map_fst_writes {n : Int} {ws : Refinement.Writes} (x : Call) (h : x.writes n = .ok ws) :
    ws.map Prod.fst = x.refinement.criteria :=
  Refinement.onlyWrites_criteria x.now n x.refinement ws h

theorem succeeds_eq (n : Int) (x : Call) : x.succeeds = (x.writes n).isOk := by
  have hdefault : default.refine x.now x.refinement =
      (x.refinement.writes x.now (limited Settings.default.pageSize)).map fun ws => assignAll ws default := by
    rw [Query.refine, Refinement.writes_eq x.now .default rfl]
  rw [succeeds, hdefault, writes, ← Refinement.isOk_writes_limited x.now _ Settings.default.pageSize]
  cases x.refinement.writes x.now (limited Settings.default.pageSize) <;> rfl

end Call

def apply (q : Query) (x : Call) : Query :=
  match q.refine x.now x.refinement with
  | .ok p => p
  | .error _ => q

def follow (q : Query) (xs : List Call) : Query := xs.foldl apply q

@[simp] theorem follow_nil (q : Query) : q.follow [] = q := rfl

@[simp] theorem follow_cons (q : Query) (x : Call) (xs : List Call) :
    q.follow (x :: xs) = (q.apply x).follow xs := rfl

theorem follow_append (q : Query) (xs ys : List Call) : q.follow (xs ++ ys) = (q.follow xs).follow ys :=
  List.foldl_append

variable {p q : Query} {x : Call} {xs : List Call} {c : Criterion}

theorem Built.apply (hq : q.Built) (x : Call) : (q.apply x).Built := by
  rw [Query.apply]
  split
  · rename_i hp
    exact .refine hq hp
  · exact hq

theorem Built.follow (hq : q.Built) (xs : List Call) : (q.follow xs).Built := by
  induction xs generalizing q with
  | nil => exact hq
  | cons x xs ih => exact ih (hq.apply x)

theorem Built.apply_cases (hq : q.Built) (x : Call) :
    (x.succeeds = false ∧ (∃ e, q.refine x.now x.refinement = .error e) ∧ q.apply x = q) ∨
      x.succeeds = true ∧ q.refine x.now x.refinement = .ok (q.apply x) ∧
        ∃ n ws, q .limit = .int n ∧ 1 ≤ n ∧ x.writes n = .ok ws ∧
          ws.map Prod.fst = x.refinement.criteria ∧ q.apply x = assignAll ws q := by
  obtain ⟨n, hn, hpos⟩ := hq.admits .limit
  have hrefine : q.refine x.now x.refinement = (x.writes n).map fun ws => assignAll ws q := by
    rw [Query.refine, Refinement.writes_eq x.now hq hn]
    rfl
  rw [Query.apply, x.succeeds_eq n, hrefine]
  cases hws : x.writes n with
  | error e => exact .inl ⟨rfl, ⟨e, rfl⟩, rfl⟩
  | ok ws =>
    exact .inr ⟨rfl, rfl, n, ws, hn, hpos, hws, x.map_fst_writes hws, rfl⟩

theorem Built.apply_other (hq : q.Built) (hc : ¬ x.Sets c) : q.apply x c = q c := by
  rcases hq.apply_cases x with ⟨-, -, h⟩ | ⟨hx, -, n, ws, -, -, -, hcriteria, h⟩
  · rw [h]
  · rw [h]
    apply assignAll_other
    rintro w hw rfl
    exact hc ⟨hx, hcriteria ▸ List.mem_map_of_mem hw⟩

theorem Built.apply_limit (hq : q.Built) (hx : x.refinement.readsLimit = true) :
    q.apply x .limit = q .limit := by
  rcases hq.apply_cases x with ⟨-, -, h⟩ | ⟨-, -, n, ws, hn, hpos, hws, -, h⟩
  · rw [h]
  · obtain ⟨now, r⟩ := x
    cases r with
    | page number size =>
      have hsize : size.isNull = true := hx
      simp only [Call.writes, Refinement.writes, hsize, if_true, limited, assign_same] at hws
      obtain ⟨k, -, rfl⟩ := map_eq_ok.mp hws
      have hvalue : q.apply ⟨now, .page number size⟩ .limit = .int (max 1 n) := by
        rw [h]
        rfl
      rw [hvalue, hn, Int.max_eq_right hpos]
    | _ => cases hx

theorem Built.apply_congr (hp : p.Built) (hq : q.Built)
    (hlimit : x.refinement.readsLimit = true → p .limit = q .limit) (h : p c = q c ∨ x.Sets c) :
    p.apply x c = q.apply x c := by
  rcases hp.apply_cases x with ⟨hx, -, hpx⟩ | ⟨hx, -, m, ws, hm, -, hws, hcriteria, hpx⟩
  · rw [hp.apply_other (fun hc => Bool.false_ne_true (hx.symm.trans hc.1)),
      hq.apply_other (fun hc => Bool.false_ne_true (hx.symm.trans hc.1))]
    exact h.resolve_right fun hc => Bool.false_ne_true (hx.symm.trans hc.1)
  · rcases hq.apply_cases x with ⟨hx', -, -⟩ | ⟨-, -, n, ws', hn, -, hws', -, hqx⟩
    · exact absurd (hx'.symm.trans hx) Bool.false_ne_true
    have hwrites : x.writes m = x.writes n := by
      cases hr : x.refinement.readsLimit with
      | false => exact Refinement.writes_limited x.now hr m n
      | true =>
        have hmn : (Value.int m) = .int n := hm.symm.trans ((hlimit hr).trans hn)
        rw [Value.int.inj hmn]
    obtain rfl : ws = ws' := Except.ok.inj (hws.symm.trans (hwrites.trans hws'))
    rw [hpx, hqx]
    exact assignAll_congr (h.imp_right fun hc => hcriteria ▸ hc.2)

theorem Built.follow_congr (hp : p.Built) (hq : q.Built)
    (hlimit : ∀ x ∈ xs, x.refinement.readsLimit = true → p .limit = q .limit)
    (h : p c = q c ∨ ∃ x ∈ xs, x.Sets c) : p.follow xs c = q.follow xs c := by
  -- A call keeps the agreement at `c` and that of the limits, as far as later calls read them.
  induction xs generalizing p q with
  | nil => exact h.resolve_right fun ⟨x, hx, _⟩ => nomatch hx
  | cons x xs ih =>
    have hx := hlimit x List.mem_cons_self
    refine ih (hp.apply x) (hq.apply x) ?_ ?_
    · intro y hy hr
      exact hp.apply_congr hq hx (.inl (hlimit y (List.mem_cons_of_mem _ hy) hr))
    · rcases h with h | ⟨y, hy, hc⟩
      · exact .inl (hp.apply_congr hq hx (.inl h))
      · rcases List.mem_cons.mp hy with rfl | hy
        · exact .inl (hp.apply_congr hq hx (.inr hc))
        · exact .inr ⟨y, hy, hc⟩

theorem Built.follow_other (hq : q.Built) (hc : ∀ x ∈ xs, ¬ x.Sets c) : q.follow xs c = q c := by
  induction xs generalizing q with
  | nil => rfl
  | cons x xs ih =>
    rw [follow_cons, ih (hq.apply x) fun y hy => hc y (List.mem_cons_of_mem _ hy)]
    exact hq.apply_other (hc x List.mem_cons_self)

end Query

end OrderStore
