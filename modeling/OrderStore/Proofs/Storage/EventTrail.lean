import OrderStore.Proofs.Storage.ReadOnly
import OrderStore.Proofs.Storage.Saving
import OrderStore.Storage.Bootstrap

namespace OrderStore.Storage

open Sql

inductive Event.Kind where
  | pool
  | taken
  | returned
  | cursor
  | statement
  | commit
  | rollback
  | log (level : Log.Level)
  deriving DecidableEq, Repr

namespace Event

def kind : Event → Kind
  | .poolOpened .. | .poolClosed => .pool
  | .connectionTaken => .taken
  | .connectionReturned => .returned
  | .cursorOpened _ => .cursor
  | .executed .. | .executedMany .. => .statement
  | .committed => .commit
  | .rolledBack => .rollback
  | .logged r => .log r.level

def OnPool (e : Event) : Prop := e.kind = .pool ∨ e.kind = .taken ∨ e.kind = .returned

def IsWork (e : Event) : Prop := e.kind = .cursor ∨ e.kind = .statement

def IsReading : Event → Prop
  | .cursorOpened _ | .logged _ => True
  | .executed text _ => IsSelect text
  | _ => False

theorem IsWork.not_onPool {e : Event} (h : e.IsWork) : ¬ e.OnPool := by
  rcases h with h | h <;> simp [OnPool, h]

theorem IsReading.not_onPool {e : Event} (h : e.IsReading) : ¬ e.OnPool := by
  cases e <;> simp [OnPool, kind] <;> cases h

end Event

structure Trail (w w' : World) (es : List Event) : Prop where
  trace : w'.trace = w.trace ++ es
  isOpen : w'.isOpen = w.isOpen

theorem Trail.silent {w w' : World} (ht : w'.trace = w.trace) (ho : w'.isOpen = w.isOpen) :
    Trail w w' [] :=
  ⟨by rw [ht, List.append_nil], ho⟩

theorem Trail.emit (w : World) (e : Event) : Trail w (w.emit e) [e] := ⟨rfl, rfl⟩

theorem Trail.trans {w w' w'' : World} {es es' : List Event} (h : Trail w w' es) (h' : Trail w' w'' es') :
    Trail w w'' (es ++ es') :=
  ⟨by rw [h'.trace, h.trace, List.append_assoc], h'.isOpen.trans h.isOpen⟩

namespace Action

variable {α β : Type} {a : Action α} {S : Event → Prop}

def Emits (a : Action α) (S : Event → Prop) : Prop :=
  ∀ w, ∃ es, Trail w (a w).2 es ∧ ∀ e ∈ es, S e

namespace Emits

theorem silent (h : ∀ w, Trail w (a w).2 []) : a.Emits S :=
  fun w => ⟨[], h w, fun _ he => nomatch he⟩

theorem pure (x : α) : (pure x : Action α).Emits S := silent fun _ => .silent rfl rfl

theorem ofExcept (x : Except Error α) : (Action.ofExcept x).Emits S := silent fun _ => .silent rfl rfl

theorem present : Action.present.Emits S := silent fun _ => .silent rfl rfl

theorem onDatabase (f : Database → Except Error α × Database) : (Action.onDatabase f).Emits S :=
  silent fun _ => .silent rfl rfl

theorem emit {e : Event} (he : S e) : (Action.emit e).Emits S :=
  fun w => ⟨[e], .emit w e, List.forall_mem_singleton.mpr he⟩

theorem bind {b : α → Action β} (ha : a.Emits S) (hb : ∀ x, (b x).Emits S) : (a >>= b).Emits S := by
  intro w
  obtain ⟨es, htrail, hes⟩ := ha w
  rw [bind_apply]
  generalize a w = c at htrail
  obtain ⟨r, w'⟩ := c
  cases r with
  | error e => exact ⟨es, htrail, hes⟩
  | ok x =>
    obtain ⟨es', htrail', hes'⟩ := hb x w'
    exact ⟨es ++ es', htrail.trans htrail', List.forall_mem_append.mpr ⟨hes, hes'⟩⟩

theorem execute {s : Statement} (h : ∀ params, S (.executed s.text.squeeze params)) :
    (Action.execute s).Emits S :=
  (emit (h _)).bind fun _ => onDatabase _

end Emits

theorem loadOrder_reading (row : Order.Row) : (loadOrder row).Emits Event.IsReading := by
  have hlog (n : Nat) : (emitAll (List.replicate n (.logged malformedDocument))).Emits Event.IsReading := by
    intro w
    refine ⟨_, ⟨rfl, rfl⟩, ?_⟩
    intro e he
    rw [List.eq_of_mem_replicate he]
    trivial
  exact Emits.present.bind fun _ => (hlog _).bind fun _ => .ofExcept _

theorem loadOrders_reading (rows : List Order.Row) : (loadOrders rows).Emits Event.IsReading := by
  induction rows with
  | nil => exact .pure []
  | cons row rows ih => exact (loadOrder_reading row).bind fun _ => ih.bind fun _ => .pure _

theorem execute_reading {s : Statement} (h : s.isReading = true) :
    (execute s).Emits Event.IsReading :=
  .execute fun _ => Statement.isSelect_text h

def lookUp (tables : Tables) (column : LookupColumn) (value : Value) : Action (Option Order) := do
  openCursor true
  match ← execute (.lookup tables.orders column value) with
  | [] | [] :: _ => return none
  | row :: _ => return some (← loadOrder row)

def fetchPage (s : Search) : Action Page := do
  openCursor true
  let rows ← execute (.select s)
  let items ← loadOrders rows
  let total ← if s.counted then countOrders s else pure .null
  return ⟨items, total⟩

theorem lookUp_reading (tables : Tables) (column : LookupColumn) (value : Value) :
    (lookUp tables column value).Emits Event.IsReading := by
  apply (Emits.emit trivial).bind fun _ => (execute_reading rfl).bind ?_
  intro rows
  split
  · exact .pure none
  · exact .pure none
  · exact (loadOrder_reading _).bind fun _ => .pure _

theorem fetchPage_reading (s : Search) : (fetchPage s).Emits Event.IsReading := by
  apply (Emits.emit trivial).bind fun _ => (execute_reading rfl).bind fun rows =>
    (loadOrders_reading rows).bind ?_
  intro items
  dsimp only
  split
  · exact ((execute_reading rfl).bind fun _ => (Emits.ofExcept _).bind fun _ => .pure _).bind fun _ => .pure _
  · exact (Emits.pure _).bind fun _ => .pure _

theorem find_eq (tables : Tables) (column : LookupColumn) (value : Value) :
    find tables column value = withConnection (lookUp tables column value) := rfl

theorem search_eq {tables : Tables} {q : Query} {s : Search} (hs : Search.ofQuery tables q = .ok s) :
    search tables q = withConnection (fetchPage s) := by
  rw [search, hs]
  rfl

theorem search_unclear {tables : Tables} {q : Query} {e : Error} (he : Search.ofQuery tables q = .error e)
    (w : World) : search tables q w = (.error e, w) := by
  rw [search, he]
  rfl

theorem execute_work {s : Statement} : (execute s).Emits Event.IsWork :=
  .execute fun _ => .inr rfl

theorem writeOrder_work (tables : Tables) (o : Order) (stamp : Timestamp) :
    (writeOrder tables o stamp).Emits Event.IsWork := by
  unfold writeOrder
  split <;> exact (Emits.ofExcept _).bind fun _ => execute_work.bind fun _ => .pure _

theorem replaceTriples_work (tables : Tables) (side : Side) (orderId : Value) (entries : Value.Entries) :
    (replaceTriples tables side orderId entries).Emits Event.IsWork := by
  apply execute_work.bind
  intro _
  dsimp only
  split
  · exact .pure ()
  · exact (Emits.emit (.inr rfl)).bind fun _ => .onDatabase _

/-- A transaction that succeeds has been committed and says so; one that fails may have failed there. -/
def Ending {α : Type} : Except Error α → List Event → Prop
  | .ok _, es => ∃ note : Log.Record, note.level = .info ∧ es = [.committed, .logged note]
  | .error _, es => es = [] ∨ es = [.committed]

def Concludes (a : Action α) : Prop :=
  ∀ w, ∃ work ending, Trail w (a w).2 (work ++ ending) ∧ (∀ e ∈ work, e.IsWork) ∧ Ending (a w).1 ending

theorem Emits.concludes {b : α → Action β} (ha : a.Emits Event.IsWork) (hb : ∀ x, (b x).Concludes) :
    (a >>= b).Concludes := by
  intro w
  obtain ⟨work, htrail, hwork⟩ := ha w
  rw [bind_apply]
  generalize a w = c at htrail
  obtain ⟨r, w'⟩ := c
  cases r with
  | error e => exact ⟨work, [], by rw [List.append_nil]; exact htrail, hwork, .inl rfl⟩
  | ok x =>
    obtain ⟨work', ending, htrail', hwork', hending⟩ := hb x w'
    refine ⟨work ++ work', ending, ?_, List.forall_mem_append.mpr ⟨hwork, hwork'⟩, hending⟩
    rw [List.append_assoc]
    exact htrail.trans htrail'

theorem commit_concludes {rest : Action α} {note : Log.Record} (hlevel : note.level = .info)
    (hrest : ∀ w, ∃ x, rest w = (.ok x, w.log note)) : (commit >>= fun _ => rest).Concludes := by
  intro w
  have hcommit : commit w =
      (w.database.commit.1, { w.emit .committed with database := w.database.commit.2 }) := rfl
  rw [bind_apply, hcommit]
  cases w.database.commit.1 with
  | error e => exact ⟨[], [.committed], ⟨rfl, rfl⟩, List.forall_mem_nil _, .inr rfl⟩
  | ok _ =>
    obtain ⟨x, hx⟩ := hrest { w.emit .committed with database := w.database.commit.2 }
    refine ⟨[], [.committed, .logged note], ?_, List.forall_mem_nil _, ?_⟩
    · dsimp only
      rw [hx]
      exact ⟨List.append_assoc _ _ _, rfl⟩
    · dsimp only
      rw [hx]
      exact ⟨note, hlevel, rfl⟩

theorem saveAt_concludes (tables : Tables) (o : Order) (stamp : Timestamp) :
    (saveAt tables o stamp).Concludes := by
  have hfinish (id : Value) : (finishSave tables o stamp id).Concludes :=
    (replaceTriples_work tables .relations id o.relations).concludes fun _ =>
      (replaceTriples_work tables .indexed id o.indexedFields).concludes fun _ =>
        commit_concludes rfl fun _ => ⟨_, rfl⟩
  rw [saveAt_eq]
  have hcursor : (openCursor false).Emits Event.IsWork := .emit (.inl rfl)
  exact hcursor.concludes fun _ => (writeOrder_work tables o stamp).concludes hfinish

def createAll (logger : Text) : Action Unit := do
  openCursor false
  let _ ← execute (.createTables Tables.default)
  commit
  log .info logger "Database schema initialized successfully."

theorem createTables_eq (logger : Text) :
    createTables logger = transaction (createFailed logger) (createAll logger) := rfl

theorem createAll_concludes (logger : Text) : (createAll logger).Concludes := by
  have hcursor : (openCursor false).Emits Event.IsWork := .emit (.inl rfl)
  exact hcursor.concludes fun _ => execute_work.concludes fun _ =>
    commit_concludes rfl fun _ => ⟨(), rfl⟩

end Action

end OrderStore.Storage
