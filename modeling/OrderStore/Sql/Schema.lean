import OrderStore.Sql.TableName
import OrderStore.Text.Blank

namespace OrderStore.Sql.Schema

structure Column where
  name : Text
  definition : Text

def Column.text (c : Column) : Text := "    " ++ c.name.padRight 20 ++ c.definition

structure Table where
  comment : Text
  name : TableName
  columns : List Column

def Table.text (t : Table) : Text :=
  "-- " ++ t.comment ++ "\nCREATE TABLE IF NOT EXISTS " ++ t.name.text ++ " (\n" ++
    Text.intercalate ",\n" (t.columns.map Column.text) ++ "\n);\n"

structure Index where
  table : TableName
  kind : Text
  columns : List Text

namespace Index

def name (i : Index) : Text := "idx_" ++ i.table.bare ++ "_" ++ i.kind

def text (i : Index) : Text :=
  "CREATE INDEX IF NOT EXISTS " ++ i.name ++ " ON " ++ i.table.text ++ "(" ++
    Text.intercalate ", " i.columns ++ ");\n"

end Index

def orderColumns : List Column :=
  [⟨"id", "BIGSERIAL PRIMARY KEY"⟩, ⟨"order_no", "VARCHAR(64) UNIQUE NOT NULL"⟩,
    ⟨"type", "VARCHAR(32) NOT NULL"⟩, ⟨"status", "VARCHAR(32) NOT NULL"⟩,
    ⟨"amount", "NUMERIC(18,4) NOT NULL DEFAULT 0"⟩, ⟨"currency", "VARCHAR(8) NOT NULL"⟩,
    ⟨"buyer_id", "VARCHAR(64)"⟩, ⟨"attributes_json", "TEXT"⟩, ⟨"relations_json", "TEXT"⟩,
    ⟨"indexed_fields_json", "TEXT"⟩, ⟨"created_at", "TIMESTAMP NOT NULL"⟩,
    ⟨"updated_at", "TIMESTAMP NOT NULL"⟩]

def sideColumns (orders : TableName) : List Column :=
  [⟨"order_id", "BIGINT NOT NULL REFERENCES " ++ orders.text ++ "(id) ON DELETE CASCADE"⟩,
    ⟨"rel_key", "VARCHAR(64) NOT NULL"⟩, ⟨"rel_value", "VARCHAR(255) NOT NULL"⟩]

def tables (ts : Tables) : List Table :=
  [⟨"Orders table: one row per order, free-form data kept as JSON text", ts.orders, orderColumns⟩,
    ⟨"Relations side table: (order, key, value) triples, keys may repeat", ts.relations,
      sideColumns ts.orders⟩,
    ⟨"Indexed fields side table: same shape, independent namespace", ts.indexed,
      sideColumns ts.orders⟩]

def sideIndexes (table : TableName) : List Index :=
  [⟨table, "order", ["order_id"]⟩, ⟨table, "kv", ["rel_key", "rel_value"]⟩]

def indexes (ts : Tables) : List Index :=
  [⟨ts.orders, "buyer", ["buyer_id"]⟩, ⟨ts.orders, "type_status", ["type", "status"]⟩,
    ⟨ts.orders, "created", ["created_at"]⟩] ++ sideIndexes ts.relations ++ sideIndexes ts.indexed

def text (ts : Tables) : Text :=
  Text.join ((tables ts).map fun t => "\n" ++ t.text) ++
    "\n-- Indexes for the common filters and the correlated lookups\n" ++
    Text.join ((indexes ts).map Index.text)

end OrderStore.Sql.Schema
