import OrderStore.Order.Step
import OrderStore.Query.Worksheet
import OrderStore.Sorting
import OrderStore.Storage.Bootstrap
import OrderStore.Storage.Find

namespace OrderStore

open Storage

inductive Maker where
  | fields
  | creation
  | mapping
  | row
  deriving DecidableEq, Repr

def Maker.build (now : WallClock) (data : Named) : Maker → Except Error Order
  | .fields => Order.make now data
  | .creation => Order.create now data
  | .mapping => Order.ofMapping now data
  | .row => (Order.ofRow now data).result

inductive Source where
  | built (maker : Maker) (data : Named)
  | slot (name : Text)
  deriving Repr

inductive WorksheetStep where
  | mark (name : Text)
  | use (name : Text)
  | refine (name : String) (arguments : Arguments)
  deriving Repr

namespace Worksheet

def step (now : WallClock) (w : Worksheet) : WorksheetStep → Except Error Worksheet
  | .mark name => .ok (w.mark name)
  | .use name => w.use name
  | .refine name arguments => (Refinement.ofCall name arguments).bind (w.refine now)

def run (now : WallClock) (w : Worksheet) (steps : List WorksheetStep) : Worksheet :=
  steps.foldl (fun w s => (w.step now s).toOption.getD w) w

end Worksheet

inductive SessionStep where
  | openPool (arguments : List Value)
  | closePool
  | takeConnection
  | returnConnection
  | createTables
  | bootstrap
  | save (source : Source) (changes : List OrderStep) (slot : Text)
  | find (column : LookupColumn) (value : Value) (slot : Option Text)
  | search (fields : Named) (steps : List WorksheetStep)
  | setResults (rows : List Order.Row) (count : Value)
  | putRow (row : Order.Row)
  | setFaults (faults : Faults)
  | dump

inductive Answer where
  | nothing
  | text (t : Text)
  | order (o : Order)
  | page (p : Page)
  | contents (orders : List Order.Row) (relations indexed : List Triple)

structure Session where
  tables : Sql.Tables
  world : World
  taken : Nat
  slots : List (Text × Order)

namespace Session

def start (tables : Sql.Tables) (now : WallClock) (clock : List Value) : Session :=
  ⟨tables, ⟨now, clock, .empty, false, []⟩, 0, []⟩

def slot? (name : Text) (s : Session) : Option Order := Assoc.get? (fun a b => a == b) name s.slots

def putSlot (name : Text) (o : Order) (s : Session) : Session :=
  { s with slots := Assoc.put (fun a b => a == b) name o s.slots }

def fetch (s : Session) : Source → Action Order
  | .built .row data => Action.loadOrder data
  | .built maker data => do Action.ofExcept (maker.build (← Action.present) data)
  | .slot name =>
    match s.slot? name with
    | some o => pure o
    | none => throw (.missing name)

def changeAll (changes : List OrderStep) (o : Order) : Action Order := do
  Action.ofExcept (o.run (← Action.present) changes)

def tripleLess (s t : Triple) : Except Error Bool :=
  (s.orderId.same t.orderId).bind fun e =>
    if e then .ok (if s.key = t.key then s.value < t.value else s.key < t.key)
    else s.orderId.less t.orderId

def dump (c : Contents) : Except Error Answer := do
  let relations ← Sorting.sort tripleLess (c.sides .relations)
  let indexed ← Sorting.sort tripleLess (c.sides .indexed)
  return .contents c.orders relations indexed

def run {α : Type} (s : Session) (a : Action α) : Except Error α × List Event × Session :=
  let (result, world) := a { s.world with trace := [] }
  (result, world.trace, { s with world })

def answer {α : Type} (s : Session) (a : Action α) (f : α → Answer) :
    Except Error Answer × List Event × Session :=
  let (result, events, s) := s.run a
  (result.map f, events, s)

def onDatabase (f : Database → Database) : Action Unit := Action.onDatabase fun db => (.ok (), f db)

def step (s : Session) : SessionStep → Except Error Answer × List Event × Session
  | .openPool arguments => s.answer (Action.openPoolWith ⟨arguments, []⟩) fun _ => .nothing
  | .closePool => s.answer Action.closePool fun _ => .nothing
  | .takeConnection =>
    match s.answer Action.takeConnection fun _ => .nothing with
    | (.ok a, events, s) => (.ok a, events, { s with taken := s.taken + 1 })
    | failed => failed
  | .returnConnection =>
    { s with taken := s.taken - 1 }.answer Action.returnConnection fun _ => .nothing
  | .createTables => s.answer (Action.createTables "db.init_db") fun _ => .nothing
  | .bootstrap => s.answer Action.bootstrap .text
  | .save source changes slot =>
    match s.run (do Action.save s.tables (← changeAll changes (← s.fetch source))) with
    | (.ok o, events, s) => (.ok (.order o), events, s.putSlot slot o)
    | (.error e, events, s) => (.error e, events, s)
  | .find column value slot =>
    match s.run (Action.find s.tables column value) with
    | (.ok (some o), events, s) =>
      (.ok (.order o), events, (slot.map fun name => s.putSlot name o).getD s)
    | (.ok none, events, s) => (.ok .nothing, events, s)
    | (.error e, events, s) => (.error e, events, s)
  | .search fields steps =>
    s.answer (do
      let q ← Action.ofExcept (Query.make fields)
      let sheet := (Worksheet.start q).run s.world.now steps
      Action.search s.tables sheet.current.query) .page
  | .setResults rows count =>
    s.answer (onDatabase fun db => { db with results := rows, count }) fun _ => .nothing
  | .putRow row => s.answer (onDatabase (Database.putRow row)) fun _ => .nothing
  | .setFaults faults => s.answer (onDatabase fun db => { db with faults }) fun _ => .nothing
  | .dump => (dump s.world.database.contents, [], s)

end Session

end OrderStore
