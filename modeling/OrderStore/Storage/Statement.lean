import OrderStore.Order.Mapping
import OrderStore.Pairs
import OrderStore.Sql.Schema
import OrderStore.Sql.Search
/-!
The statements that the store sends to the database: what each is to do, its text, and the values
bound in it. Texts depend on table names only, and for searches on the conditions.
-/

namespace OrderStore.Storage

open Sql

inductive LookupColumn where
  | id
  | orderNo
  deriving DecidableEq, Repr

def LookupColumn.name : LookupColumn → Text
  | id => "id"
  | orderNo => "order_no"

/-- A statement on a side table says which table of the database its name stands for. -/
inductive Statement where
  | createTables (tables : Tables)
  | insertOrder (orders : TableName) (row : Order.Row)
  | updateOrder (orders : TableName) (row : Order.Row)
  | deletePairs (name : TableName) (target : Option Side) (orderId : Value)
  | lookup (orders : TableName) (column : LookupColumn) (value : Value)
  | select (search : Search)
  | count (search : Search)

def insertedColumns : List Text :=
  ["order_no", "type", "status", "amount", "currency", "buyer_id", "attributes_json",
    "relations_json", "indexed_fields_json", "created_at", "updated_at"]

def updatedColumns : List Text :=
  ["type", "status", "amount", "currency", "buyer_id", "attributes_json", "relations_json",
    "indexed_fields_json", "updated_at"]

def assignment (column : Text) : Text := column ++ " = " ++ placeholder column

namespace Statement

def text : Statement → Text
  | createTables tables => Schema.text tables
  | insertOrder orders _ =>
    "INSERT INTO " ++ orders.text ++ " (" ++ Text.intercalate ", " insertedColumns ++ ") VALUES (" ++
      Text.intercalate ", " (insertedColumns.map placeholder) ++ ") RETURNING id;"
  | updateOrder orders _ =>
    "UPDATE " ++ orders.text ++ " SET " ++ Text.intercalate ", " (updatedColumns.map assignment) ++
      " WHERE " ++ assignment "id" ++ ";"
  | deletePairs name _ _ => "DELETE FROM " ++ name.text ++ " WHERE " ++ assignment "order_id" ++ ";"
  | lookup orders column _ =>
    "SELECT * FROM " ++ orders.text ++ " WHERE " ++ column.name ++ " = " ++ placeholder "value" ++ ";"
  | select search => search.selectText
  | count search => search.countText

def params : Statement → Named
  | createTables _ => []
  | insertOrder _ row | updateOrder _ row => row
  | deletePairs _ _ orderId => [("order_id", orderId)]
  | lookup _ _ value => [("value", value)]
  | select search => search.selectParams
  | count search => search.params

end Statement

structure Triple where
  orderId : Value
  key : Text
  value : Text
  deriving Repr

def Triple.params (t : Triple) : Named :=
  [("order_id", t.orderId), ("rel_key", .text t.key), ("rel_value", .text t.value)]

def triples (orderId : Value) (ps : Pairs) : List Triple := ps.map fun p => ⟨orderId, p.1, p.2⟩

def insertTripleText (name : TableName) : Text :=
  let columns : List Text := ["order_id", "rel_key", "rel_value"]
  "INSERT INTO " ++ name.text ++ " (" ++ Text.intercalate ", " columns ++ ") VALUES (" ++
    Text.intercalate ", " (columns.map placeholder) ++ ");"

end OrderStore.Storage
