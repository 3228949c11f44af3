import OrderStore.Page
import OrderStore.Storage.Save

namespace OrderStore.Storage

open Sql

def malformedDocument : Log.Record :=
  ⟨.warning, storeLogger, "Ignoring malformed JSON column value"⟩

namespace Action

def loadOrder (row : Order.Row) : Action Order := do
  let loaded := Order.ofRow (← present) row
  emitAll (List.replicate loaded.malformed (.logged malformedDocument))
  ofExcept loaded.result

def loadOrders : List Order.Row → Action (List Order)
  | [] => return []
  | row :: rows => do
    let o ← loadOrder row
    return o :: (← loadOrders rows)

def find (tables : Tables) (column : LookupColumn) (value : Value) : Action (Option Order) :=
  withConnection do
    openCursor true
    match ← execute (.lookup tables.orders column value) with
    | [] | [] :: _ => return none
    | row :: _ => return some (← loadOrder row)

def countOrders (s : Search) : Action Value := do
  let rows ← execute (.count s)
  let n ← ofExcept (((rows.head?.getD []).get? "count").getD .null).toInteger
  return .int n

def search (tables : Tables) (q : Query) : Action Page := do
  let s ← ofExcept (Search.ofQuery tables q)
  withConnection do
    openCursor true
    let rows ← execute (.select s)
    let items ← loadOrders rows
    let total ← if s.counted then countOrders s else pure .null
    return ⟨items, total⟩

end Action

end OrderStore.Storage
