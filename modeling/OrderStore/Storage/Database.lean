import OrderStore.Storage.Statement
/-!
A database with one table of orders and two side tables of triples. Writes are undone back to the
last commit by a rollback, except that identifiers are never given twice. Any statement can be made
to fail.
-/

namespace OrderStore.Storage

open Sql

structure Contents where
  orders : List Order.Row
  sides : Side → List Triple

namespace Contents

def empty : Contents := ⟨[], fun _ => []⟩

def column (name : Text) (row : Order.Row) : Except Error Value :=
  match row.get? name with
  | some v => .ok v
  | none => .error (.missing name)

def hasOrderNoOf (row : Order.Row) : List Order.Row → Except Error Bool
  | [] => .ok false
  | r :: rows => do
    let v ← column "order_no" r
    let orderNo ← column "order_no" row
    if ← v.equal orderNo then return true else hasOrderNoOf row rows

def insertOrder (id : Nat) (row : Order.Row) (c : Contents) : Except Error Contents := do
  if ← hasOrderNoOf row c.orders then .error .duplicateOrderNo
  else .ok { c with orders := c.orders ++ [row.put "id" (.int id)] }

def overwrite (row values : Order.Row) : Order.Row := values.foldl (fun r e => r.put e.1 e.2) row

def updateRows (id : Value) (values : Order.Row) : List Order.Row → Except Error (List Order.Row)
  | [] => .ok []
  | row :: rows =>
    (column "id" row).bind fun v => (v.equal id).bind fun found =>
      (updateRows id values rows).map fun rest =>
        (if found then overwrite row values else row) :: rest

/-- No row with the identifier means that nothing happens. -/
def updateOrder (values : Order.Row) (c : Contents) : Except Error Contents := do
  let id ← column "id" values
  let orders ← updateRows id values c.orders
  return { c with orders }

def otherTriples (orderId : Value) : List Triple → Except Error (List Triple)
  | [] => .ok []
  | t :: ts =>
    (t.orderId.equal orderId).bind fun found =>
      (otherTriples orderId ts).map fun rest => if found then rest else t :: rest

def deletePairs (side : Side) (orderId : Value) (c : Contents) : Except Error Contents :=
  (otherTriples orderId (c.sides side)).map fun ts => { c with sides := assign side ts c.sides }

def insertTriple (side : Side) (t : Triple) (c : Contents) : Contents :=
  { c with sides := assign side (c.sides side ++ [t]) c.sides }

/-- Identifiers are compared as texts, order numbers as values. -/
def isFound (column : LookupColumn) (value v : Value) : Except Error Bool :=
  match column with
  | .id => .ok (v.display == value.display)
  | .orderNo => v.equal value

def lookupRows (c : LookupColumn) (value : Value) : List Order.Row → Except Error (List Order.Row)
  | [] => .ok []
  | row :: rows =>
    (column c.name row).bind fun v => (isFound c value v).bind fun found =>
      (lookupRows c value rows).map fun rest => if found then row :: rest else rest

end Contents

/-- An error for the number of a point where a statement may fail, and the text that is checked
there. -/
abbrev Faults := Nat → Text → Option Error

def Faults.none : Faults := fun _ _ => Option.none

def Faults.on (part : Text) (e : Error) : Faults := fun _ text =>
  if part.holds text then some e else Option.none

structure Database where
  contents : Contents
  committed : Contents
  nextId : Nat
  faults : Faults
  checks : Nat
  results : List Order.Row
  count : Value

namespace Database

def empty : Database := ⟨.empty, .empty, 1, .none, 0, [], .int 0⟩

def check (text : Text) (db : Database) : Except Error Unit × Database :=
  let next := { db with checks := db.checks + 1 }
  match db.faults db.checks text with
  | some e => (.error e, next)
  | none => (.ok (), next)

/-- A new row takes the next identifier, which is used up also by a row that is refused. -/
def insertRow (row : Order.Row) (db : Database) : Except Error Nat × Database :=
  let next := { db with nextId := db.nextId + 1 }
  match db.contents.insertOrder db.nextId row with
  | .ok contents => (.ok db.nextId, { next with contents })
  | .error e => (.error e, next)

def change (db : Database) : Except Error Contents → Except Error (List Order.Row) × Database
  | .ok contents => (.ok [], { db with contents })
  | .error e => (.error e, db)

def perform (db : Database) : Statement → Except Error (List Order.Row) × Database
  | .createTables _ => (.ok [], db)
  | .insertOrder _ row =>
    let (id, db) := db.insertRow row
    (id.map fun id => [[("id", .int id)]], db)
  | .updateOrder _ row => db.change (db.contents.updateOrder row)
  | .deletePairs _ (some side) orderId => db.change (db.contents.deletePairs side orderId)
  | .deletePairs _ none _ => (.ok [], db)
  | .lookup _ column value => (Contents.lookupRows column value db.contents.orders, db)
  | .select _ => (.ok db.results, db)
  | .count _ => (.ok [[("count", db.count)]], db)

def execute (s : Statement) (db : Database) : Except Error (List Order.Row) × Database :=
  match db.check (s.text.squeeze) with
  | (.ok _, db) => db.perform s
  | (.error e, db) => (.error e, db)

/-- In the table of orders a triple is a row like any other. -/
def insertTriple (target : Option Side) (t : Triple) (db : Database) : Except Error Unit × Database :=
  match target with
  | some side => (.ok (), { db with contents := db.contents.insertTriple side t })
  | none =>
    let (id, db) := db.insertRow t.params
    (id.map fun _ => (), db)

def insertTriples (name : TableName) (target : Option Side) (db : Database) :
    List Triple → Except Error Unit × Database
  | [] => (.ok (), db)
  | t :: ts =>
    match db.check ((insertTripleText name).squeeze) with
    | (.error e, db) => (.error e, db)
    | (.ok _, db) =>
      match db.insertTriple target t with
      | (.error e, db) => (.error e, db)
      | (.ok _, db) => insertTriples name target db ts

def commit (db : Database) : Except Error Unit × Database :=
  match db.check "COMMIT" with
  | (.ok _, db) => (.ok (), { db with committed := db.contents })
  | (.error e, db) => (.error e, db)

def rollback (db : Database) : Database := { db with contents := db.committed }

def putRow (row : Order.Row) (db : Database) : Database :=
  let contents := { db.contents with orders := db.contents.orders ++ [row] }
  { db with contents, committed := contents }

theorem check_contents (text : Text) (db : Database) : (db.check text).2.contents = db.contents := by
  unfold check
  dsimp only
  split <;> rfl

theorem check_committed (text : Text) (db : Database) :
    (db.check text).2.committed = db.committed := by
  unfold check
  dsimp only
  split <;> rfl

theorem check_nextId (text : Text) (db : Database) : (db.check text).2.nextId = db.nextId := by
  unfold check
  dsimp only
  split <;> rfl

@[simp] theorem rollback_contents (db : Database) : db.rollback.contents = db.committed := rfl

end Database

end OrderStore.Storage
