import OrderStore.Proofs.Query.Calls
import OrderStore.Proofs.Sql.Selection

namespace OrderStore

open Sql

def Criterion.arrangement : List Criterion := [.limit, .offset, .column, .direction]

def Refinement.Arranges : Refinement → Prop
  | .limit _ | .offset _ | .page .. | .orderBy .. => True
  | _ => False

theorem Refinement.Arranges.criteria_subset {r : Refinement} (h : r.Arranges) :
    r.criteria ⊆ Criterion.arrangement := by
  cases r with
  | limit | offset | page | orderBy => simp [criteria, Criterion.arrangement]
  | _ => exact h.elim

namespace Query

def Call.Arranges (x : Call) : Prop := x.refinement.Arranges

def unarranged (q : Query) : Query := fun c => if c ∈ Criterion.arrangement then c.default else q c

def SameFilter (p q : Query) : Prop := ∀ c, c ∉ Criterion.arrangement → p c = q c

theorem Built.sameFilter_follow {q : Query} (hq : q.Built) {xs : List Call} (hxs : ∀ x ∈ xs, x.Arranges) :
    (q.follow xs).SameFilter q := by
  intro c hc
  apply hq.follow_other
  intro x hx hsets
  exact hc ((hxs x hx).criteria_subset hsets.2)

theorem sameFilter_assignAll {ws : Refinement.Writes} (hws : ws.map Prod.fst ⊆ Criterion.arrangement)
    (q : Query) : SameFilter (assignAll ws q) q := by
  intro c hc
  apply assignAll_other
  rintro w hw rfl
  exact hc (hws (List.mem_map_of_mem hw))

namespace SameFilter

variable {p q : Query}

theorem unarranged_eq (h : p.SameFilter q) : p.unarranged = q.unarranged := by
  funext c
  by_cases hc : c ∈ Criterion.arrangement
  · rw [unarranged, unarranged, if_pos hc, if_pos hc]
  · rw [unarranged, unarranged, if_neg hc, if_neg hc, h c hc]

theorem clauses (h : p.SameFilter q) (tables : Tables) : Clause.ofQuery tables p = Clause.ofQuery tables q := by
  change Clause.ofQuery tables p.unarranged = Clause.ofQuery tables q.unarranged
  rw [h.unarranged_eq]

theorem predicates (h : p.SameFilter q) : Predicate.ofQuery p = Predicate.ofQuery q := by
  change Predicate.ofQuery p.unarranged = Predicate.ofQuery q.unarranged
  rw [h.unarranged_eq]

theorem wantsTotal (h : p.SameFilter q) : p.wantsTotal = q.wantsTotal := by
  rw [Query.wantsTotal, h .includeTotal (by decide), Query.wantsTotal]

theorem search (h : p.SameFilter q) (tables : Tables) :
    Search.ofQuery tables p = (Search.ofQuery tables q).map fun s =>
      { s with sorting := .ofQuery p, limit := p .limit, offset := p .offset } := by
  rw [Search.ofQuery, Search.ofQuery, h.clauses, h.wantsTotal]
  cases Clause.ofQuery tables q <;> rfl

end SameFilter

end Query

end OrderStore
