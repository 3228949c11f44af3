import OrderStore.Json.Column
import OrderStore.Order

namespace OrderStore.Order

def toMapping (o : Order) : Named :=
  [("id", o.id), ("order_no", .text o.orderNo), ("type", .text o.type), ("status", .text o.status),
    ("amount", .text o.amount.text), ("currency", o.currency), ("buyer_id", o.buyerId),
    ("created_at", .text o.createdAt.text), ("updated_at", .text o.updatedAt.text),
    ("attributes", .map o.attributes), ("relations", .map o.relations),
    ("indexed_fields", .map o.indexedFields)]

/-- No amount means zero, and an empty currency the default one. -/
def mappingDraft (data : Named) (f : Field) : Value :=
  let v := (data.get? f.name).getD .null
  match f with
  | .amount => if v.isNull then .int 0 else v
  | .currency => if v.isEmpty then .text Settings.default.currency else v
  | _ => v

def ofMapping (now : WallClock) (data : Named) : Except Error Order :=
  match data.firstMissing? ["order_no", "type", "status"] with
  | some name => .error (.missing name)
  | none => settle now (mappingDraft data)

def roundTrips (now : WallClock) (o : Order) : Except Error Bool :=
  (ofMapping now o.toMapping).bind fun p => p.equal o

abbrev Row := Named

def plainColumns : List Text :=
  ["id", "order_no", "type", "status", "amount", "currency", "buyer_id", "created_at", "updated_at"]

def documentColumns : List (Field × Text) :=
  [(.attributes, "attributes_json"), (.relations, "relations_json"),
    (.indexedFields, "indexed_fields_json")]

structure Loaded (α : Type) where
  malformed : Nat
  result : Except Error α

def readDocuments (row : Row) : List (Field × Text) → Loaded Named
  | [] => ⟨0, .ok []⟩
  | (f, column) :: columns =>
    match Column.decode ((row.get? column).getD .null) with
    | .error e => ⟨0, .error e⟩
    | .ok reading =>
      let rest := readDocuments row columns
      ⟨rest.malformed + if reading.malformed then 1 else 0,
        rest.result.map ((f.name, .map reading.entries) :: ·)⟩

def plainMapping (row : Row) : Named := plainColumns.map fun c => (c, (row.get? c).getD .null)

/-- Documents are read only in a row that has all plain columns. -/
def ofRow (now : WallClock) (row : Row) : Loaded Order :=
  match row.firstMissing? plainColumns with
  | some name => ⟨0, .error (.missing name)⟩
  | none =>
    let documents := readDocuments row documentColumns
    ⟨documents.malformed, documents.result.bind fun ds => ofMapping now (plainMapping row ++ ds)⟩

end OrderStore.Order
