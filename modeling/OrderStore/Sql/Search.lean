import OrderStore.Query
import OrderStore.Sql.Condition

namespace OrderStore

def sortableColumns : List Text := ["id", "created_at", "updated_at", "order_no", "amount"]

def sortColumn : Value → Text
  | .text t => if sortableColumns.contains t then t else Criterion.defaultColumn
  | _ => Criterion.defaultColumn

def Query.filters (q : Query) (c : Criterion) : Filters :=
  match q c with
  | .map es => Filters.ofEntries es
  | _ => []

namespace Sql

namespace Clause

def ofChoices (column stem : Text) (f : Value → Value) (v : Value) : Except Error (List Clause) :=
  if v.isEmpty then .ok [] else v.toElements.map fun vs => [among column stem (vs.map f)]

def keyValue (v : Value) : Value := .text v.keyText

def ofBuyers (q : Query) : Except Error (List Clause) :=
  if (q .buyerId).isNull then ofChoices "buyer_id" "buyer" keyValue (q .buyerIds)
  else .ok [compare "buyer_id" .equal "buyer_id" (keyValue (q .buyerId))]

def ofOrderNo (q : Query) : List Clause :=
  if !(q .orderNo).isEmpty then [compare "order_no" .equal "order_no" (q .orderNo)]
  else if !(q .orderNoLike).isEmpty then [compare "order_no" .like "order_no_like" (q .orderNoLike)]
  else []

def ofKeyword (v : Value) : List Clause :=
  if v.isEmpty then []
  else
    [⟨.either (.compare "order_no" .like "keyword") (.compare "attributes_json" .like "keyword"),
      [("keyword", v)]⟩]

/-- Only moments and dates bound a time, by the date and time they show. -/
def timeText : Value → Except Error Text
  | .moment m => .ok m.stamp.text
  | .date d => .ok (Timestamp.text ⟨d, .midnight⟩)
  | _ => .error .unknownOperation

def ofTime (column : Text) (comparison : Comparison) (c : Criterion) (q : Query) :
    Except Error (List Clause) :=
  if (q c).isNull then .ok []
  else (timeText (q c)).map fun t => [compare column comparison c.name (.text t)]

def ofAmount (comparison : Comparison) (c : Criterion) (q : Query) : List Clause :=
  if (q c).isNull then [] else [compare "amount" comparison c.name (q c)]

def ofFilter (stem : Text) : Filter → Clause
  | .oneOf [] => ⟨.never, []⟩
  | .oneOf vs => among "kv.rel_value" stem vs
  | .scalar v => compare "kv.rel_value" .equal stem v

def ofKey (table orders : TableName) (stem : Text) (counter : Nat) (key : Text) (filter : Filter) :
    Clause :=
  let keyParameter := stem ++ "_key_" ++ Text.natText counter
  let value := ofFilter (stem ++ "_val_" ++ Text.natText counter) filter
  ⟨.linked table.text orders.text keyParameter value.condition,
    (keyParameter, .text key) :: value.bindings⟩

def ofFilters (table orders : TableName) (stem : Text) (fs : Filters) : List Clause :=
  (fs.zipIdx 1).map fun f => ofKey table orders stem f.2 f.1.1 f.1.2

def ofQuery (tables : Tables) (q : Query) : Except Error (List Clause) := do
  let types ← ofChoices "type" "type" id (q .types)
  let statuses ← ofChoices "status" "status" id (q .statuses)
  let buyers ← ofBuyers q
  let createdFrom ← ofTime "created_at" .atLeast .createdFrom q
  let createdTo ← ofTime "created_at" .atMost .createdTo q
  let updatedFrom ← ofTime "updated_at" .atLeast .updatedFrom q
  let updatedTo ← ofTime "updated_at" .atMost .updatedTo q
  return types ++ statuses ++ buyers ++ ofOrderNo q ++ ofKeyword (q .keyword) ++
    createdFrom ++ createdTo ++ updatedFrom ++ updatedTo ++
    ofAmount .atLeast .amountMin q ++ ofAmount .atMost .amountMax q ++
    ofFilters tables.relations tables.orders "rel" (q.filters .relations) ++
    ofFilters tables.indexed tables.orders "idx" (q.filters .indexedFields)

end Clause

structure Sorting where
  column : Text
  ascending : Bool
  deriving DecidableEq, Repr

namespace Sorting

def ofQuery (q : Query) : Sorting :=
  ⟨sortColumn (q .column), match q .direction with
    | .text t => t == "asc"
    | _ => false⟩

def text (s : Sorting) : Text :=
  let direction : Text := if s.ascending then "ASC" else "DESC"
  if s.column = "id" then "ORDER BY id " ++ direction
  else "ORDER BY " ++ s.column ++ " " ++ direction ++ ", id " ++ direction

end Sorting

structure Search where
  orders : TableName
  clauses : List Clause
  sorting : Sorting
  limit : Value
  offset : Value
  counted : Bool

namespace Search

/-- The note that each search leaves in the log for debugging is not modelled. -/
def ofQuery (tables : Tables) (q : Query) : Except Error Search :=
  (Clause.ofQuery tables q).map fun clauses =>
    { orders := tables.orders
      clauses
      sorting := .ofQuery q
      limit := q .limit
      offset := q .offset
      counted := q.wantsTotal }

def whereText (s : Search) : Text := Clause.whereText s.clauses

def joinParts (parts : List Text) : Text := .intercalate " " (parts.filter fun p => !p.isEmpty)

def selectText (s : Search) : Text :=
  joinParts ["SELECT * FROM " ++ s.orders.text, s.whereText, s.sorting.text,
    "LIMIT " ++ placeholder "limit" ++ " OFFSET " ++ placeholder "offset"]

def countText (s : Search) : Text :=
  joinParts ["SELECT COUNT(*) FROM " ++ s.orders.text, s.whereText]

def params (s : Search) : Named := Clause.allBindings s.clauses

def pagingParams (s : Search) : Named := [("limit", s.limit), ("offset", s.offset)]

def selectParams (s : Search) : Named := s.params ++ s.pagingParams

end Search

end Sql

end OrderStore
