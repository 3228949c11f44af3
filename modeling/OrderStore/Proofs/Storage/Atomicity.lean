import OrderStore.Proofs.Storage.Saving
import OrderStore.Session

namespace OrderStore.Storage

open Sql Operation

def Database.Settled (db : Database) : Prop := db.contents = db.committed

namespace Action

def Settles {α : Type} (a : Action α) : Prop := ∀ w, w.database.Settled → (a w).2.database.Settled

namespace Settles

variable {α β : Type} {a : Action α}

theorem bind {b : α → Action β} (ha : a.Settles) (hb : ∀ x, (b x).Settles) : (a >>= b).Settles := by
  intro w hw
  have hs := ha w hw
  rw [bind_apply]
  generalize a w = c at hs
  obtain ⟨r, w'⟩ := c
  cases r with
  | error e => exact hs
  | ok x => exact hb x w' hs

theorem of_database_eq (h : ∀ w, (a w).2.database = w.database) : a.Settles := by
  intro w hw
  rw [h w]
  exact hw

theorem pure (x : α) : (pure x : Action α).Settles := of_database_eq fun _ => rfl

theorem ofExcept (x : Except Error α) : (Action.ofExcept x).Settles := of_database_eq fun _ => rfl

theorem emit (e : Event) : (Action.emit e).Settles := of_database_eq fun _ => rfl

theorem present : Action.present.Settles := of_database_eq fun _ => rfl

theorem onDatabase {f : Database → Except Error α × Database}
    (h : ∀ db, db.Settled → (f db).2.Settled) : (Action.onDatabase f).Settles :=
  fun w hw => h w.database hw

theorem check (text : Text) : (Action.onDatabase (Database.check text)).Settles := by
  apply onDatabase
  intro db h
  exact (Database.check_contents text db).trans (h.trans (Database.check_committed text db).symm)

theorem withConnection {body : Action α} (h : body.Settles) : (withConnection body).Settles := by
  apply (of_database_eq fun w => ?_ : takeConnection.Settles).bind fun _ w hw => ?_
  · unfold takeConnection
    split <;> rfl
  · rw [ensuring_apply]
    unfold World.returnConnection
    split <;> exact h w hw

theorem transaction {failed : Error → Log.Record} {body : Action α} (h : body.Settles) :
    (transaction failed body).Settles := by
  apply withConnection
  intro w hw
  have hs := h w hw
  unfold onFailure
  generalize body w = c at hs
  obtain ⟨r, w'⟩ := c
  cases r with
  | error e => exact Database.rollback_contents _
  | ok x => exact hs

theorem execute {s : Statement} (h : ∀ db : Database, (db.perform s).2 = db) :
    (Action.execute s).Settles := by
  apply (emit _).bind fun _ => onDatabase ?_
  intro db hdb
  have hc := (Database.check_contents (s.text.squeeze) db).trans
    (hdb.trans (Database.check_committed (s.text.squeeze) db).symm)
  rw [Database.execute]
  generalize db.check (s.text.squeeze) = c at hc
  obtain ⟨r, db'⟩ := c
  cases r with
  | error e => exact hc
  | ok _ =>
    dsimp only
    rw [h db']
    exact hc

theorem commit : Action.commit.Settles := by
  apply (emit _).bind fun _ => onDatabase ?_
  intro db hdb
  have hc := (Database.check_contents "COMMIT" db).trans
    (hdb.trans (Database.check_committed "COMMIT" db).symm)
  rw [Database.commit]
  generalize db.check "COMMIT" = c at hc
  obtain ⟨r, db'⟩ := c
  cases r with
  | error e => exact hc
  | ok _ => rfl

theorem tryOpen (minimum maximum : Value) : (Action.tryOpen minimum maximum).Settles := by
  have hconnect : connect.Settles := of_database_eq fun _ => rfl
  exact (emit _).bind fun _ => (check _).bind fun _ => hconnect.bind fun _ => emit _

theorem openPoolWith (a : Arguments) : (Action.openPoolWith a).Settles := by
  apply (ofExcept _).bind
  rintro ⟨minimum, maximum⟩ w hw
  have hs := tryOpen minimum maximum w hw
  dsimp only
  unfold openPool onFailure
  split
  · exact hw
  · generalize Action.tryOpen minimum maximum w = c at hs
    obtain ⟨r, w'⟩ := c
    cases r with
    | ok _ => exact hs
    | error e =>
      unfold logOpenFailure
      dsimp only
      split <;> exact hs

theorem closePool : Action.closePool.Settles := by
  apply of_database_eq
  intro w
  unfold Action.closePool
  split <;> rfl

theorem takeConnection : Action.takeConnection.Settles := by
  apply of_database_eq
  intro w
  unfold Action.takeConnection
  split <;> rfl

theorem returnConnection : Action.returnConnection.Settles := by
  apply of_database_eq
  intro w
  change w.returnConnection.database = w.database
  unfold World.returnConnection
  split <;> rfl

theorem createTables (logger : Text) : (Action.createTables logger).Settles := by
  apply transaction
  have hcreate : (Action.execute (.createTables Tables.default)).Settles := execute fun _ => rfl
  exact (emit _).bind fun _ => hcreate.bind fun _ => commit.bind fun _ => emit _

theorem bootstrap : Action.bootstrap.Settles :=
  (openPoolWith _).bind fun _ => (createTables _).bind fun _ => pure _

theorem loadOrder (row : Order.Row) : (Action.loadOrder row).Settles := by
  have hemit (es : List Event) : (emitAll es).Settles := of_database_eq fun _ => rfl
  exact present.bind fun _ => (hemit _).bind fun _ => ofExcept _

theorem loadOrders (rows : List Order.Row) : (Action.loadOrders rows).Settles := by
  induction rows with
  | nil => exact pure []
  | cons row rows ih => exact (loadOrder row).bind fun _ => ih.bind fun _ => pure _

theorem find (tables : Tables) (column : LookupColumn) (value : Value) :
    (Action.find tables column value).Settles := by
  apply withConnection
  have hlookup : (Action.execute (.lookup tables.orders column value)).Settles := execute fun _ => rfl
  apply (emit _).bind fun _ => hlookup.bind ?_
  intro rows
  split
  · exact pure none
  · exact pure none
  · exact (loadOrder _).bind fun _ => pure _

theorem countOrders (s : Search) : (Action.countOrders s).Settles := by
  have hcount : (Action.execute (.count s)).Settles := execute fun _ => rfl
  exact hcount.bind fun _ => (ofExcept _).bind fun _ => pure _

theorem search (tables : Tables) (q : Query) : (Action.search tables q).Settles := by
  apply (ofExcept _).bind
  intro s
  apply withConnection
  have hselect : (Action.execute (.select s)).Settles := execute fun _ => rfl
  apply (emit _).bind fun _ => hselect.bind fun rows => (loadOrders rows).bind ?_
  intro items
  dsimp only
  split
  · exact (countOrders s).bind fun _ => pure _
  · exact (pure _).bind fun _ => pure _

theorem save (tables : Tables) (o : Order) : (Action.save tables o).Settles := by
  intro w hw
  cases h : (Action.save tables o w).1 with
  | ok r =>
    obtain ⟨_, _, db, _, _, _, _, _, hc, hk, _⟩ := save_ok h
    exact hc.trans hk.symm
  | error e =>
    rcases save_failed h with hd | ⟨db, _, hd⟩
    · rw [hd]
      exact hw
    · rw [hd]
      exact Database.rollback_contents db

end Settles

end Action

/-- The worlds that sessions lead to from an empty store, however the clock is read between their
steps. -/
inductive Reachable : World → Prop where
  | start (now : WallClock) (clock : List Value) : Reachable ⟨now, clock, .empty, false, []⟩
  | step {s : Session} (st : SessionStep) (hs : Reachable s.world) : Reachable (s.step st).2.2.world
  | wait {w : World} (now : WallClock) (clock : List Value) (hw : Reachable w) :
    Reachable { w with now, clock }

theorem fetch_settles (s : Session) (source : Source) : (s.fetch source).Settles := by
  have hbuilt (maker : Maker) (data : Named) :
      (do Action.ofExcept (maker.build (← Action.present) data)).Settles :=
    Action.Settles.present.bind fun _ => .ofExcept _
  cases source with
  | built maker data =>
    cases maker with
    | row => exact .loadOrder data
    | _ => exact hbuilt _ data
  | slot name =>
    unfold Session.fetch
    dsimp only
    split
    · exact .pure _
    · exact .of_database_eq fun _ => rfl

theorem step_settled (s : Session) (st : SessionStep) (h : s.world.database.Settled) :
    (s.step st).2.2.world.database.Settled := by
  have hrun {α : Type} {a : Action α} (ha : a.Settles) : (s.run a).2.2.world.database.Settled :=
    ha { s.world with trace := [] } h
  cases st with
  | openPool arguments => exact hrun (.openPoolWith _)
  | closePool => exact hrun .closePool
  | takeConnection =>
    have hs := hrun Action.Settles.takeConnection
    simp only [Session.step, Session.answer]
    generalize s.run Action.takeConnection = c at hs
    obtain ⟨r, events, s'⟩ := c
    cases r <;> exact hs
  | returnConnection => exact Action.Settles.returnConnection { s.world with trace := [] } h
  | createTables => exact hrun (.createTables _)
  | bootstrap => exact hrun .bootstrap
  | save source changes slot =>
    have hchange (o : Order) : (Session.changeAll changes o).Settles :=
      Action.Settles.present.bind fun _ => .ofExcept _
    have hs := hrun ((fetch_settles s source).bind fun o => (hchange o).bind (.save s.tables))
    simp only [Session.step]
    generalize s.run _ = c at hs
    obtain ⟨r, events, s'⟩ := c
    cases r <;> exact hs
  | find column value slot =>
    have hs := hrun (.find s.tables column value)
    simp only [Session.step]
    generalize s.run (Action.find s.tables column value) = c at hs
    obtain ⟨r, events, s'⟩ := c
    cases r with
    | error e => exact hs
    | ok found =>
      cases found with
      | none => exact hs
      | some o => cases slot <;> exact hs
  | search fields steps =>
    exact hrun ((Action.Settles.ofExcept _).bind fun q => .search _ _)
  | setResults rows count =>
    have hset : (Session.onDatabase fun db => { db with results := rows, count }).Settles :=
      .onDatabase fun _ hdb => hdb
    exact hrun hset
  | putRow row =>
    have hput : (Session.onDatabase (Database.putRow row)).Settles := .onDatabase fun _ _ => rfl
    exact hrun hput
  | setFaults faults =>
    have hset : (Session.onDatabase fun db => { db with faults }).Settles :=
      .onDatabase fun _ hdb => hdb
    exact hrun hset
  | dump => exact h

theorem settled_of_reachable {w : World} (hw : Reachable w) : w.database.Settled := by
  induction hw with
  | start now clock => rfl
  | step st hs ih => exact step_settled _ st ih
  | wait now clock hw ih => exact ih

/-- A save that fails has the error of its first step that cannot be done, and the store is as it was,
except for the identifiers that are used up. A save that returns has committed all its writes. -/
theorem save_atomic {w : World} (hw : Reachable w) (tables : Tables) (o : Order) :
    (∀ e, (Action.save tables o w).1 = .error e ↔ SaveFails tables o w e) ∧
    (∀ e, (Action.save tables o w).1 = .error e →
      (Action.save tables o w).2.database.contents = w.database.contents ∧
      (Action.save tables o w).2.database.committed = w.database.contents ∧
      w.database.nextId ≤ (Action.save tables o w).2.database.nextId) ∧
    (∀ r, (Action.save tables o w).1 = .ok r → ∃ stamp row db,
      w.stamp = .ok stamp ∧ savedColumns o stamp = .ok row ∧
      runAll (writing tables o row w.database.nextId) w.database = (.ok (), db) ∧
      r = { o with id := savedId o w.database.nextId, updatedAt := stamp } ∧
      (Action.save tables o w).2.database.contents = db.contents ∧
      (Action.save tables o w).2.database.committed = db.contents) := by
  have hsettled := settled_of_reachable hw
  refine ⟨fun e => Action.save_error_iff, ?_, ?_⟩
  · intro e he
    rcases Action.save_failed he with hd | ⟨db, hp, hd⟩
    · rw [hd]
      exact ⟨rfl, hsettled.symm, Nat.le_refl _⟩
    · have hc : db.committed = w.database.contents := hp.committed.trans hsettled.symm
      rw [hd]
      exact ⟨hc, hc, hp.nextId⟩
  · intro r hr
    obtain ⟨stamp, row, db, hs, -, hc, hrun, hr, hcontents, hcommitted, -⟩ := Action.save_ok hr
    exact ⟨stamp, row, db, hs, hc, hrun, hr, hcontents, hcommitted⟩

def lost : Error := .failure .operational "connection lost"

def refusing (now : WallClock) : Session :=
  let opened := ((Session.start .default now []).step (.openPool [])).2.2
  (opened.step (.setFaults (.on "COMMIT" lost))).2.2

def unsaved (stamp : Timestamp) : Order where
  orderNo := "A-1"
  type := "sale"
  status := "open"
  amount := .zero
  currency := .text "EUR"
  buyerId := .null
  createdAt := stamp
  updatedAt := stamp
  attributes := []
  relations := [(.text "parent", .list [.int 1, .int 2])]
  indexedFields := []
  id := .null

set_option maxRecDepth 4000 in
theorem save_atomic_refusing :
    let stamp : Timestamp := ⟨⟨2024, 1, 31, by decide⟩, .midnight⟩
    let w := (refusing (.ofTimestamp stamp)).world
    Reachable w ∧ (Action.save .default (unsaved stamp) w).1 = .error lost ∧
      (Action.save .default (unsaved stamp) w).2.database.contents = .empty := by
  intro stamp w
  have hw : Reachable w := .step _ (.step _ (.start (.ofTimestamp stamp) []))
  have he : (Action.save .default (unsaved stamp) w).1 = .error lost := rfl
  have hatomic := save_atomic hw .default (unsaved stamp)
  exact ⟨hw, he, (hatomic.2.1 lost he).1⟩

end OrderStore.Storage
