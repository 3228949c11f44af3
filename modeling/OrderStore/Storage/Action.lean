import OrderStore.Log
import OrderStore.Storage.Database
/-!
Actions on a store: they may fail, they change the database and the pool of connections, and they
leave a trace of events. What an action did before it failed stays done, and stays in the trace.
-/

namespace OrderStore.Storage

inductive Event where
  | poolOpened (minimum maximum : Value) (url : Text)
  | connectionTaken
  | connectionReturned
  | poolClosed
  | cursorOpened (named : Bool)
  | executed (text : Text) (params : Named)
  | executedMany (text : Text) (params : List Named)
  | committed
  | rolledBack
  | logged (record : Log.Record)
  deriving Repr

/-- The clock gives its readings one after the other and repeats the last one; without readings it
gives the present. -/
structure World where
  now : WallClock
  clock : List Value
  database : Database
  isOpen : Bool
  trace : List Event

abbrev Action := ExceptT Error (StateM World)

namespace World

def emit (e : Event) (w : World) : World := { w with trace := w.trace ++ [e] }

def log (r : Log.Record) (w : World) : World := w.emit (.logged r)

def rollback (w : World) : World :=
  { w.emit .rolledBack with database := w.database.rollback }

def returnConnection (w : World) : World :=
  if w.isOpen then w.emit .connectionReturned else w

end World

namespace Action

def emit (e : Event) : Action Unit := fun w => (.ok (), w.emit e)

def log (level : Log.Level) (logger message : Text) : Action Unit :=
  emit (.logged ⟨level, logger, message⟩)

def emitAll (es : List Event) : Action Unit := fun w => (.ok (), { w with trace := w.trace ++ es })

def ofExcept {α : Type} (x : Except Error α) : Action α := fun w => (x, w)

def present : Action WallClock := fun w => (.ok w.now, w)

def onDatabase {α : Type} (f : Database → Except Error α × Database) : Action α := fun w =>
  let (result, database) := f w.database
  (result, { w with database })

def ensuring {α : Type} (last : World → World) (body : Action α) : Action α := fun w =>
  let (result, w) := body w
  (result, last w)

def onFailure {α : Type} (change : Error → World → World) (body : Action α) : Action α := fun w =>
  match body w with
  | (.ok a, w) => (.ok a, w)
  | (.error e, w) => (.error e, change e w)

theorem bind_apply {α β : Type} (a : Action α) (f : α → Action β) (w : World) :
    (a >>= f) w = match a w with
      | (.ok x, w) => f x w
      | (.error e, w) => (.error e, w) := by
  change (match a w with | (r, w) => ExceptT.bindCont f r w) = _
  obtain ⟨r, w⟩ := a w
  cases r <;> rfl

theorem ensuring_apply {α : Type} (last : World → World) (body : Action α) (w : World) :
    ensuring last body w = ((body w).1, last (body w).2) := rfl

def readClock : Action Value := fun w =>
  match w.clock with
  | [] => (.ok .null, w)
  | [v] => (.ok v, w)
  | v :: rest => (.ok v, { w with clock := rest })

def poolLogger : Text := "db.connection"

def connect : Action Unit := fun w => (.ok (), { w with isOpen := true })

def tryOpen (minimum maximum : Value) : Action Unit := do
  emit (.poolOpened minimum maximum Settings.default.databaseUrl)
  onDatabase (Database.check "CONNECT")
  connect
  log .info poolLogger "Database connection pool initialized successfully."

def logOpenFailure (e : Error) (w : World) : World :=
  if e.kind = .operational then
    w.log ⟨.error, poolLogger, "Failed to initialize database pool: " ++ e.message⟩
  else w

def openPool (minimum maximum : Value) : Action Unit := fun w =>
  if w.isOpen then (.ok (), w) else onFailure logOpenFailure (tryOpen minimum maximum) w

def closePool : Action Unit := fun w =>
  if w.isOpen then
    let closed := { w.emit .poolClosed with isOpen := false }
    (.ok (), closed.log ⟨.info, poolLogger, "Database connection pool closed."⟩)
  else (.ok (), w)

def takeConnection : Action Unit := fun w =>
  if w.isOpen then (.ok (), w.emit .connectionTaken) else (.error .poolClosed, w)

def returnConnection : Action Unit := fun w => (.ok (), w.returnConnection)

def withConnection {α : Type} (body : Action α) : Action α := do
  takeConnection
  ensuring World.returnConnection body

theorem withConnection_closed {α : Type} (body : Action α) {w : World} (h : w.isOpen = false) :
    withConnection body w = (.error .poolClosed, w) := by
  simp [withConnection, bind_apply, takeConnection, h]

theorem withConnection_open {α : Type} (body : Action α) {w : World} (h : w.isOpen = true) :
    withConnection body w =
      ((body (w.emit .connectionTaken)).1, (body (w.emit .connectionTaken)).2.returnConnection) := by
  simp [withConnection, bind_apply, takeConnection, h, ensuring_apply]

def openCursor (named : Bool) : Action Unit := emit (.cursorOpened named)

def execute (s : Statement) : Action (List Order.Row) := do
  emit (.executed (s.text.squeeze) s.params)
  onDatabase (Database.execute s)

def insertTriples (name : Sql.TableName) (target : Option Sql.Side) (ts : List Triple) : Action Unit := do
  emit (.executedMany ((insertTripleText name).squeeze) (ts.map Triple.params))
  onDatabase fun db => db.insertTriples name target ts

def commit : Action Unit := do
  emit .committed
  onDatabase Database.commit

def transaction {α : Type} (failed : Error → Log.Record) (body : Action α) : Action α :=
  withConnection (onFailure (fun e w => w.rollback.log (failed e)) body)

end Action

end OrderStore.Storage
