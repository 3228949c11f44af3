import OrderStore.Proofs.Sql.Selection
/-!
The shape of a query says which criteria are in force and how many values they hold, but no value. It
alone makes the texts of a search.
-/

namespace OrderStore

open Sql

inductive Filter.Shape where
  | scalar
  | oneOf (count : Nat)
  deriving DecidableEq, Repr

def Filter.shape : Filter → Filter.Shape
  | .scalar _ => .scalar
  | .oneOf vs => .oneOf vs.length

/-- Several buyers are counted only without a single one, and a pattern of order numbers is in force
only without an exact one. -/
structure Query.Shape where
  types : Nat
  statuses : Nat
  buyers : Option Nat
  orderNo : Bool
  orderNoLike : Bool
  keyword : Bool
  createdFrom : Bool
  createdTo : Bool
  updatedFrom : Bool
  updatedTo : Bool
  amountMin : Bool
  amountMax : Bool
  relations : List Filter.Shape
  indexedFields : List Filter.Shape
  sorting : Sorting
  counted : Bool
  deriving DecidableEq, Repr

def Query.shape (q : Query) : Query.Shape where
  types := (q .types).held.length
  statuses := (q .statuses).held.length
  buyers := if (q .buyerId).isNull then some (q .buyerIds).held.length else none
  orderNo := !(q .orderNo).isEmpty
  orderNoLike := (q .orderNo).isEmpty && !(q .orderNoLike).isEmpty
  keyword := !(q .keyword).isEmpty
  createdFrom := !(q .createdFrom).isNull
  createdTo := !(q .createdTo).isNull
  updatedFrom := !(q .updatedFrom).isNull
  updatedTo := !(q .updatedTo).isNull
  amountMin := !(q .amountMin).isNull
  amountMax := !(q .amountMax).isNull
  relations := (q.filters .relations).map fun f => f.2.shape
  indexedFields := (q.filters .indexedFields).map fun f => f.2.shape
  sorting := .ofQuery q
  counted := q.wantsTotal

namespace Sql

namespace Condition

def names (stem : Text) (count : Nat) : List Text :=
  (List.range' 0 count).map fun j => stem ++ "_" ++ Text.natText j

def ofChoices (column stem : Text) : Nat → List Condition
  | 0 => []
  | n + 1 => [.among column (names stem (n + 1))]

def ofBuyers : Option Nat → List Condition
  | none => [.compare "buyer_id" .equal "buyer_id"]
  | some n => ofChoices "buyer_id" "buyer" n

def ofCriterion (column : Text) (comparison : Comparison) (c : Criterion) (inForce : Bool) : List Condition :=
  if inForce then [.compare column comparison c.name] else []

def ofKeyword (inForce : Bool) : List Condition :=
  if inForce then
    [.either (.compare "order_no" .like "keyword") (.compare "attributes_json" .like "keyword")]
  else []

def ofFilter (stem : Text) : Filter.Shape → Condition
  | .scalar => .compare "kv.rel_value" .equal stem
  | .oneOf 0 => .never
  | .oneOf (n + 1) => .among "kv.rel_value" (names stem (n + 1))

def ofKey (table orders : TableName) (stem : Text) (counter : Nat) (filter : Filter.Shape) : Condition :=
  .linked table.text orders.text (stem ++ "_key_" ++ Text.natText counter)
    (ofFilter (stem ++ "_val_" ++ Text.natText counter) filter)

def ofFilters (table orders : TableName) (stem : Text) (fs : List Filter.Shape) : List Condition :=
  (fs.zipIdx 1).map fun f => ofKey table orders stem f.2 f.1

def ofShape (tables : Tables) (s : Query.Shape) : List Condition :=
  ofChoices "type" "type" s.types ++ ofChoices "status" "status" s.statuses ++ ofBuyers s.buyers ++
    (ofCriterion "order_no" .equal .orderNo s.orderNo ++
      ofCriterion "order_no" .like .orderNoLike s.orderNoLike) ++
    ofKeyword s.keyword ++
    ofCriterion "created_at" .atLeast .createdFrom s.createdFrom ++
    ofCriterion "created_at" .atMost .createdTo s.createdTo ++
    ofCriterion "updated_at" .atLeast .updatedFrom s.updatedFrom ++
    ofCriterion "updated_at" .atMost .updatedTo s.updatedTo ++
    ofCriterion "amount" .atLeast .amountMin s.amountMin ++
    ofCriterion "amount" .atMost .amountMax s.amountMax ++
    ofFilters tables.relations tables.orders "rel" s.relations ++
    ofFilters tables.indexed tables.orders "idx" s.indexedFields

end Condition

namespace Clause

variable {tables : Tables} {q : Query} {cs : List Clause}

def conditions (cs : List Clause) : List Condition := cs.map condition

@[simp] theorem conditions_append (cs ds : List Clause) :
    conditions (cs ++ ds) = conditions cs ++ conditions ds :=
  List.map_append

theorem condition_among (column stem : Text) (vs : List Value) :
    (among column stem vs).condition = .among column (Condition.names stem vs.length) := by
  rw [among, numbered, map_fst_numberedFrom]
  rfl

theorem conditions_ofChoices {column stem : Text} {f : Value → Value} {v : Value}
    (h : ofChoices column stem f v = .ok cs) :
    conditions cs = Condition.ofChoices column stem v.held.length := by
  rw [ofChoices] at h
  cases hv : v.isEmpty with
  | true =>
    rw [hv] at h
    cases h
    -- What is empty need not be a collection, but holds nothing either way.
    have hheld : v.held = [] := by
      rw [Value.held]
      cases hx : v.elements? with
      | none => rfl
      | some xs => simpa [Value.isEmpty_eq_of_elements? hx] using hv
    rw [hheld]
    rfl
  | false =>
    rw [hv] at h
    obtain ⟨xs, hxs, rfl⟩ := map_eq_ok.mp h
    have hx := Value.elements?_of_toElements hxs
    rw [Value.isEmpty_eq_of_elements? hx] at hv
    obtain ⟨x, rest, rfl⟩ := List.exists_cons_of_ne_nil (by simpa using hv)
    rw [Value.held, hx, conditions, List.map_singleton, condition_among, List.length_map]
    rfl

theorem conditions_ofBuyers (h : ofBuyers q = .ok cs) :
    conditions cs = Condition.ofBuyers q.shape.buyers := by
  rw [ofBuyers] at h
  rw [Query.shape]
  split at h
  · rename_i hnull
    rw [if_pos hnull]
    exact conditions_ofChoices h
  · rename_i hnull
    cases h
    rw [if_neg hnull]
    rfl

theorem conditions_ofOrderNo (q : Query) :
    conditions (ofOrderNo q) =
      Condition.ofCriterion "order_no" .equal .orderNo q.shape.orderNo ++
        Condition.ofCriterion "order_no" .like .orderNoLike q.shape.orderNoLike := by
  rw [ofOrderNo, Query.shape]
  cases (q .orderNo).isEmpty with
  | true => cases (q .orderNoLike).isEmpty <;> rfl
  | false => rfl

theorem conditions_ofKeyword (v : Value) :
    conditions (ofKeyword v) = Condition.ofKeyword (!v.isEmpty) := by
  rw [ofKeyword]
  cases v.isEmpty <;> rfl

theorem conditions_ofTime {column : Text} {comparison : Comparison} {c : Criterion}
    (h : ofTime column comparison c q = .ok cs) :
    conditions cs = Condition.ofCriterion column comparison c (!(q c).isNull) := by
  rw [ofTime] at h
  cases hnull : (q c).isNull with
  | true =>
    rw [hnull] at h
    cases h
    rfl
  | false =>
    rw [hnull] at h
    obtain ⟨t, -, rfl⟩ := map_eq_ok.mp h
    rfl

theorem conditions_ofAmount (comparison : Comparison) (c : Criterion) (q : Query) :
    conditions (ofAmount comparison c q) = Condition.ofCriterion "amount" comparison c (!(q c).isNull) := by
  rw [ofAmount]
  cases (q c).isNull <;> rfl

theorem condition_ofFilter (stem : Text) (filter : Filter) :
    (ofFilter stem filter).condition = Condition.ofFilter stem filter.shape := by
  cases filter with
  | scalar v => rfl
  | oneOf vs =>
    cases vs with
    | nil => rfl
    | cons v vs => exact condition_among _ _ _

theorem conditions_ofFilters (table orders : TableName) (stem : Text) (fs : Filters) :
    conditions (ofFilters table orders stem fs) =
      Condition.ofFilters table orders stem (fs.map fun f => f.2.shape) := by
  rw [conditions, ofFilters, Condition.ofFilters, List.zipIdx_map, List.map_map, List.map_map]
  apply List.map_congr_left
  intro f _
  simp only [Function.comp_apply, ofKey, condition_ofFilter]
  rfl

theorem conditions_ofQuery (h : ofQuery tables q = .ok cs) :
    conditions cs = Condition.ofShape tables q.shape := by
  obtain ⟨types, statuses, buyers, createdFrom, createdTo, updatedFrom, updatedTo, htypes, hstatuses,
    hbuyers, hcreatedFrom, hcreatedTo, hupdatedFrom, hupdatedTo, rfl⟩ := ofQuery_eq_ok h
  simp only [conditions_append, conditions_ofChoices htypes, conditions_ofChoices hstatuses,
    conditions_ofBuyers hbuyers, conditions_ofOrderNo, conditions_ofKeyword, conditions_ofTime hcreatedFrom,
    conditions_ofTime hcreatedTo, conditions_ofTime hupdatedFrom, conditions_ofTime hupdatedTo,
    conditions_ofAmount, conditions_ofFilters]
  rfl

theorem whereText_eq_of_conditions {ds : List Clause} (h : conditions cs = conditions ds) :
    whereText cs = whereText ds := by
  have htexts := congrArg (List.map Condition.text) h
  rw [conditions, conditions, List.map_map, List.map_map] at htexts
  cases cs with
  | nil =>
    cases ds with
    | nil => rfl
    | cons d ds => cases h
  | cons c cs =>
    cases ds with
    | nil => cases h
    | cons d ds => exact congrArg (fun ts : List Text => "WHERE " ++ Text.intercalate " AND " ts) htexts

end Clause

structure Search.Texts where
  condition : Text
  sorting : Text
  select : Text
  count : Option Text
  deriving DecidableEq, Repr

def Search.texts (s : Search) : Search.Texts where
  condition := s.whereText
  sorting := s.sorting.text
  select := s.selectText
  count := if s.counted then some s.countText else none

theorem Search.texts_eq_of_shape {tables : Tables} {q q' : Query} {s s' : Search}
    (hq : q.shape = q'.shape) (hs : Search.ofQuery tables q = .ok s)
    (hs' : Search.ofQuery tables q' = .ok s') : s.texts = s'.texts := by
  obtain ⟨cs, hcs, rfl⟩ := map_eq_ok.mp hs
  obtain ⟨cs', hcs', rfl⟩ := map_eq_ok.mp hs'
  have hconditions : Clause.conditions cs = Clause.conditions cs' := by
    rw [Clause.conditions_ofQuery hcs, Clause.conditions_ofQuery hcs', hq]
  have hwhere := Clause.whereText_eq_of_conditions hconditions
  have hsorting : Sorting.ofQuery q = Sorting.ofQuery q' := congrArg Query.Shape.sorting hq
  have hcounted : q.wantsTotal = q'.wantsTotal := congrArg Query.Shape.counted hq
  simp only [Search.texts, Search.selectText, Search.countText, Search.whereText, hwhere, hsorting, hcounted]

namespace Sorting

def texts : List Text :=
  ["ORDER BY id ASC", "ORDER BY id DESC",
    "ORDER BY created_at ASC, id ASC", "ORDER BY created_at DESC, id DESC",
    "ORDER BY updated_at ASC, id ASC", "ORDER BY updated_at DESC, id DESC",
    "ORDER BY order_no ASC, id ASC", "ORDER BY order_no DESC, id DESC",
    "ORDER BY amount ASC, id ASC", "ORDER BY amount DESC, id DESC"]

def direction (ascending : Bool) : String := if ascending then "ASC" else "DESC"

theorem text_id (ascending : Bool) :
    text ⟨"id", ascending⟩ = Text.ofString ("ORDER BY id " ++ direction ascending) := by
  rw [text, if_pos rfl, Text.ofString_append]
  cases ascending <;> rfl

theorem text_other {column : String} (h : column ≠ "id") (ascending : Bool) :
    text ⟨column, ascending⟩ =
      Text.ofString ("ORDER BY " ++ column ++ " " ++ direction ascending ++ ", id " ++ direction ascending) := by
  rw [text, if_neg (Text.ofString_inj.not.mpr h)]
  simp only [Text.ofString_append]
  cases ascending <;> rfl

theorem text_mem_texts (q : Query) : (Sorting.ofQuery q).text ∈ texts := by
  have hcolumn : (Sorting.ofQuery q).column ∈ sortableColumns := sortColumn_mem _
  generalize Sorting.ofQuery q = s at hcolumn ⊢
  obtain ⟨column, ascending⟩ := s
  simp only [sortableColumns, List.mem_cons, List.not_mem_nil, or_false] at hcolumn
  rcases hcolumn with rfl | hcolumn
  · rw [text_id]
    cases ascending <;> simp [direction, texts]
  · rcases hcolumn with rfl | rfl | rfl | rfl
    all_goals
      rw [text_other (by decide)]
      cases ascending <;> simp [direction, texts]

end Sorting

end Sql

end OrderStore
