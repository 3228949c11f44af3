import OrderStore.Storage.Action

namespace OrderStore.Storage

open Sql

def storeLogger : Text := "storage.postgres_storage"

def savedColumns (o : Order) (stamp : Timestamp) : Except Error Order.Row := do
  let attributes ← Column.encodeEntries o.attributes
  let relations ← Column.encodeEntries o.relations
  let indexedFields ← Column.encodeEntries o.indexedFields
  return [("type", .text o.type), ("status", .text o.status), ("amount", .decimal o.amount),
    ("currency", o.currency), ("buyer_id", if o.buyerId.isNull then .null else .text o.buyerId.keyText),
    ("attributes_json", .text attributes), ("relations_json", .text relations),
    ("indexed_fields_json", .text indexedFields), ("updated_at", .text stamp.text)]

namespace Action

def returnedId (rows : List Order.Row) : Value := ((rows.head?.getD []).get? "id").getD .null

def insertOrder (tables : Tables) (o : Order) (stamp : Timestamp) : Action Value := do
  let row ← ofExcept (savedColumns o stamp)
  let added : Order.Row := [("order_no", .text o.orderNo), ("created_at", .text o.createdAt.text)]
  let rows ← execute (.insertOrder tables.orders (row ++ added))
  return returnedId rows

/-- The order number and the time of creation of a stored order are left alone. -/
def updateOrder (tables : Tables) (o : Order) (stamp : Timestamp) : Action Value := do
  let row ← ofExcept (savedColumns o stamp)
  let added : Order.Row := [("id", o.id)]
  let _ ← execute (.updateOrder tables.orders (row ++ added))
  return o.id

def replaceTriples (tables : Tables) (side : Side) (orderId : Value) (entries : Value.Entries) :
    Action Unit := do
  let _ ← execute (.deletePairs (tables.side side) (tables.target side) orderId)
  let ts := triples orderId (Pairs.ofEntries entries)
  unless ts.isEmpty do insertTriples (tables.side side) (tables.target side) ts

def saveFailed (o : Order) (e : Error) : Log.Record :=
  ⟨.error, storeLogger, "Failed to save order " ++ o.orderNo ++ ": " ++ e.message⟩

def saveAt (tables : Tables) (o : Order) (stamp : Timestamp) : Action Order := do
  openCursor false
  let id ← if o.isPersisted then updateOrder tables o stamp else insertOrder tables o stamp
  replaceTriples tables .relations id o.relations
  replaceTriples tables .indexed id o.indexedFields
  commit
  log .info storeLogger ("Saved order " ++ o.orderNo ++ " #" ++ id.display)
  return { o with id, updatedAt := stamp }

def save (tables : Tables) (o : Order) : Action Order := do
  let reading ← readClock
  let stamp ← ofExcept (reading.toTimestamp (← present))
  transaction (saveFailed o) (saveAt tables o stamp)

end Action

end OrderStore.Storage
