import OrderStore.Storage.Save
/-!
A save as a list of single operations on the database, which are done one after the other up to the
first that fails.
-/

namespace OrderStore.Storage

open Sql

inductive Operation where
  | statement (s : Statement)
  | addTriple (name : TableName) (target : Option Side) (t : Triple)
  | commit

namespace Operation

def run : Operation → Database → Except Error Unit × Database
  | statement s, db => ((db.execute s).1.map fun _ => (), (db.execute s).2)
  | addTriple name target t, db =>
    match db.check ((insertTripleText name).squeeze) with
    | (.error e, db) => (.error e, db)
    | (.ok _, db) => db.insertTriple target t
  | commit, db => db.commit

def runAll : List Operation → Database → Except Error Unit × Database
  | [], db => (.ok (), db)
  | op :: ops, db =>
    match op.run db with
    | (.error e, db) => (.error e, db)
    | (.ok _, db) => runAll ops db

theorem runAll_append (ops ops' : List Operation) (db : Database) :
    runAll (ops ++ ops') db =
      match runAll ops db with
      | (.error e, db) => (.error e, db)
      | (.ok _, db) => runAll ops' db := by
  induction ops generalizing db with
  | nil => rfl
  | cons op ops ih =>
    simp only [List.cons_append, runAll]
    obtain ⟨r, db'⟩ := op.run db
    cases r with
    | error e => rfl
    | ok _ => exact ih db'

theorem runAll_cons_ok {op : Operation} {ops : List Operation} {db db' : Database}
    (h : runAll (op :: ops) db = (.ok (), db')) :
    ∃ db₁, op.run db = (.ok (), db₁) ∧ runAll ops db₁ = (.ok (), db') := by
  rw [runAll] at h
  cases hr : op.run db with
  | mk r db₁ =>
    rw [hr] at h
    cases r with
    | error e => cases h
    | ok _ => exact ⟨db₁, rfl, h⟩

theorem runAll_append_ok {ops ops' : List Operation} {db db' : Database}
    (h : runAll (ops ++ ops') db = (.ok (), db')) :
    ∃ db₁, runAll ops db = (.ok (), db₁) ∧ runAll ops' db₁ = (.ok (), db') := by
  rw [runAll_append] at h
  cases hr : runAll ops db with
  | mk r db₁ =>
    rw [hr] at h
    cases r with
    | error e => cases h
    | ok _ => exact ⟨db₁, rfl, h⟩

theorem runAll_singleton (op : Operation) (db : Database) : runAll [op] db = op.run db := by
  simp only [runAll]
  obtain ⟨r, db'⟩ := op.run db
  cases r <;> rfl

theorem insertTriples_eq_runAll (name : TableName) (target : Option Side) (ts : List Triple)
    (db : Database) :
    db.insertTriples name target ts = runAll (ts.map (addTriple name target)) db := by
  induction ts generalizing db with
  | nil => rfl
  | cons t ts ih =>
    simp only [Database.insertTriples, List.map_cons, runAll, run]
    obtain ⟨r, db'⟩ := db.check ((insertTripleText name).squeeze)
    cases r with
    | error e => rfl
    | ok _ =>
      dsimp only
      obtain ⟨r, db''⟩ := db'.insertTriple target t
      cases r with
      | error e => rfl
      | ok _ => exact ih db''

def replacing (tables : Tables) (side : Side) (orderId : Value) (entries : Value.Entries) :
    List Operation :=
  statement (.deletePairs (tables.side side) (tables.target side) orderId) ::
    (triples orderId (Pairs.ofEntries entries)).map
      (addTriple (tables.side side) (tables.target side))

def mainWrite (tables : Tables) (o : Order) (row : Order.Row) : Statement :=
  if o.isPersisted then .updateOrder tables.orders (row ++ ([("id", o.id)] : Order.Row))
  else .insertOrder tables.orders
    (row ++ ([("order_no", .text o.orderNo), ("created_at", .text o.createdAt.text)] : Order.Row))

def savedId (o : Order) (nextId : Nat) : Value := if o.isPersisted then o.id else .int nextId

theorem isPersisted_new {o : Order} (ho : o.id = .null) : o.isPersisted = false := by
  rw [Order.isPersisted, ho]
  rfl

theorem isPersisted_known {o : Order} {n : Int} (ho : o.id = .int n) : o.isPersisted = true := by
  rw [Order.isPersisted, ho]
  rfl

theorem savedId_new {o : Order} (ho : o.id = .null) (nextId : Nat) : savedId o nextId = .int nextId := by
  rw [savedId, isPersisted_new ho]
  rfl

theorem savedId_known {o : Order} {n : Int} (ho : o.id = .int n) (nextId : Nat) :
    savedId o nextId = .int n := by
  rw [savedId, isPersisted_known ho, ← ho]
  rfl

def writing (tables : Tables) (o : Order) (row : Order.Row) (nextId : Nat) : List Operation :=
  statement (mainWrite tables o row) ::
    (replacing tables .relations (savedId o nextId) o.relations ++
      replacing tables .indexed (savedId o nextId) o.indexedFields)

def saving (tables : Tables) (o : Order) (row : Order.Row) (nextId : Nat) : List Operation :=
  writing tables o row nextId ++ [commit]

theorem commit_not_mem_writing (tables : Tables) (o : Order) (row : Order.Row) (nextId : Nat) :
    commit ∉ writing tables o row nextId := by
  simp [writing, replacing]

end Operation

namespace Action

open Operation

/-- Up to the trace and the clock, the action does `f` to the database and nothing else. -/
structure ActsAs {α : Type} (a : Action α) (f : Database → Except Error α × Database) : Prop where
  result : ∀ w, (a w).1 = (f w.database).1
  database : ∀ w, (a w).2.database = (f w.database).2
  pool : ∀ w, (a w).2.isOpen = w.isOpen

namespace ActsAs

variable {α β : Type} {a : Action α} {f : Database → Except Error α × Database}

theorem bind {b : α → Action β} {g : α → Database → Except Error β × Database}
    (ha : a.ActsAs f) (hb : ∀ x, (b x).ActsAs (g x)) :
    (a >>= b).ActsAs fun db =>
      match f db with
      | (.error e, db) => (.error e, db)
      | (.ok x, db) => g x db := by
  have split (w : World) : ∃ r w', a w = (r, w') ∧ f w.database = (r, w'.database) ∧
      w'.isOpen = w.isOpen := by
    refine ⟨(a w).1, (a w).2, rfl, ?_, ha.pool w⟩
    rw [ha.result w, ha.database w]
  refine ⟨fun w => ?_, fun w => ?_, fun w => ?_⟩ <;>
    obtain ⟨r, w', hw, hf, hp⟩ := split w <;> rw [bind_apply, hw] <;> cases r <;> simp only [hf]
  · exact (hb _).result w'
  · exact (hb _).database w'
  · exact hp
  · exact ((hb _).pool w').trans hp

theorem congr {g : Database → Except Error α × Database} (ha : a.ActsAs f) (h : ∀ db, f db = g db) :
    a.ActsAs g := by
  have he : f = g := funext h
  exact he ▸ ha

theorem pure (x : α) : (pure x : Action α).ActsAs fun db => (.ok x, db) :=
  ⟨fun _ => rfl, fun _ => rfl, fun _ => rfl⟩

theorem emit (e : Event) : (Action.emit e).ActsAs fun db => (.ok (), db) :=
  ⟨fun _ => rfl, fun _ => rfl, fun _ => rfl⟩

theorem ofExcept (x : Except Error α) : (Action.ofExcept x).ActsAs fun db => (x, db) :=
  ⟨fun _ => rfl, fun _ => rfl, fun _ => rfl⟩

theorem onDatabase (f : Database → Except Error α × Database) : (Action.onDatabase f).ActsAs f :=
  ⟨fun _ => rfl, fun _ => rfl, fun _ => rfl⟩

theorem andThen {b : Action β} {g : Database → Except Error β × Database} {a : Action Unit}
    (ha : a.ActsAs fun db => (.ok (), db)) (hb : b.ActsAs g) : (a >>= fun _ => b).ActsAs g :=
  (ha.bind fun _ => hb).congr fun _ => rfl

end ActsAs

theorem execute_actsAs (s : Statement) : (execute s).ActsAs (Database.execute s) :=
  .andThen (.emit _) (.onDatabase _)

theorem commit_actsAs : commit.ActsAs Operation.commit.run := .andThen (.emit _) (.onDatabase _)

theorem insertTriples_actsAs (name : TableName) (target : Option Side) (ts : List Triple) :
    (insertTriples name target ts).ActsAs (runAll (ts.map (addTriple name target))) :=
  (ActsAs.andThen (.emit _) (.onDatabase _)).congr (insertTriples_eq_runAll name target ts)

theorem replaceTriples_actsAs (tables : Tables) (side : Side) (orderId : Value)
    (entries : Value.Entries) :
    (replaceTriples tables side orderId entries).ActsAs
      (runAll (replacing tables side orderId entries)) := by
  have hrest (ts : List Triple) :
      (unless ts.isEmpty do insertTriples (tables.side side) (tables.target side) ts).ActsAs
        (runAll (ts.map (addTriple (tables.side side) (tables.target side)))) := by
    cases ts with
    | nil => exact .pure ()
    | cons t ts => exact insertTriples_actsAs _ _ _
  apply ((execute_actsAs _).bind fun _ => hrest _).congr
  intro db
  simp only [replacing, runAll, Operation.run]
  obtain ⟨r, db'⟩ := db.execute (.deletePairs (tables.side side) (tables.target side) orderId)
  cases r <;> rfl

theorem returnedId_insertOrder (orders : TableName) (row : Order.Row) (db : Database) :
    (db.execute (.insertOrder orders row)).1.map returnedId =
      (db.execute (.insertOrder orders row)).1.map fun _ => .int db.nextId := by
  have hn : (db.check ((Statement.insertOrder orders row).text.squeeze)).2.nextId = db.nextId :=
    Database.check_nextId _ db
  rw [Database.execute]
  generalize db.check ((Statement.insertOrder orders row).text.squeeze) = c at hn ⊢
  obtain ⟨r, db'⟩ := c
  cases r with
  | error e => rfl
  | ok _ =>
    simp only at hn
    simp only [Database.perform, Database.insertRow, hn]
    cases db'.contents.insertOrder db.nextId row <;> rfl

def writeOrder (tables : Tables) (o : Order) (stamp : Timestamp) : Action Value :=
  if o.isPersisted then updateOrder tables o stamp else insertOrder tables o stamp

def finishSave (tables : Tables) (o : Order) (stamp : Timestamp) (id : Value) : Action Order := do
  replaceTriples tables .relations id o.relations
  replaceTriples tables .indexed id o.indexedFields
  commit
  log .info storeLogger ("Saved order " ++ o.orderNo ++ " #" ++ id.display)
  return { o with id, updatedAt := stamp }

theorem saveAt_eq (tables : Tables) (o : Order) (stamp : Timestamp) :
    saveAt tables o stamp =
      openCursor false >>= fun _ => writeOrder tables o stamp >>= finishSave tables o stamp := by
  unfold saveAt writeOrder
  split <;> rfl

theorem mainWrite_actsAs (tables : Tables) (o : Order) {stamp : Timestamp} {row : Order.Row}
    (hrow : savedColumns o stamp = .ok row) :
    (writeOrder tables o stamp).ActsAs
      fun db =>
        (((Operation.statement (mainWrite tables o row)).run db).1.map fun _ => savedId o db.nextId,
          ((Operation.statement (mainWrite tables o row)).run db).2) := by
  unfold writeOrder mainWrite savedId
  split
  · apply ((ActsAs.ofExcept _).bind fun row => (execute_actsAs _).bind fun _ => .pure o.id).congr
    intro db
    simp only [hrow, Operation.run]
    obtain ⟨r, db'⟩ := db.execute (.updateOrder tables.orders (row ++ ([("id", o.id)] : Order.Row)))
    cases r <;> rfl
  · apply ((ActsAs.ofExcept _).bind fun row =>
      (execute_actsAs _).bind fun rows => .pure (returnedId rows)).congr
    intro db
    simp only [hrow, Operation.run]
    have hid := returnedId_insertOrder tables.orders
      (row ++ ([("order_no", .text o.orderNo), ("created_at", .text o.createdAt.text)] : Order.Row)) db
    revert hid
    generalize db.execute (.insertOrder tables.orders (row ++
      ([("order_no", .text o.orderNo), ("created_at", .text o.createdAt.text)] : Order.Row))) = c
    obtain ⟨r, db'⟩ := c
    intro hid
    cases r with
    | error e => rfl
    | ok rows =>
      simp only [Except.map] at hid ⊢
      rw [hid]

theorem mainWrite_unwritable (tables : Tables) (o : Order) {stamp : Timestamp} {e : Error}
    (he : savedColumns o stamp = .error e) :
    (writeOrder tables o stamp).ActsAs
      fun db => (.error e, db) := by
  unfold writeOrder
  split
  · apply ((ActsAs.ofExcept _).bind fun row => (execute_actsAs _).bind fun _ => .pure o.id).congr
    intro db
    simp only [he]
  · apply ((ActsAs.ofExcept _).bind fun row =>
      (execute_actsAs _).bind fun rows => .pure (returnedId rows)).congr
    intro db
    simp only [he]

theorem saveAt_actsAs (tables : Tables) (o : Order) (stamp : Timestamp) :
    (saveAt tables o stamp).ActsAs fun db =>
      match savedColumns o stamp with
      | .error e => (.error e, db)
      | .ok row =>
        ((runAll (saving tables o row db.nextId) db).1.map fun _ =>
            { o with id := savedId o db.nextId, updatedAt := stamp },
          (runAll (saving tables o row db.nextId) db).2) := by
  have hrest (id : Value) : (finishSave tables o stamp id).ActsAs _ :=
    (replaceTriples_actsAs tables .relations id o.relations).bind fun _ =>
      (replaceTriples_actsAs tables .indexed id o.indexedFields).bind fun _ =>
        commit_actsAs.bind fun _ => .andThen (.emit _) (.pure { o with id, updatedAt := stamp })
  rw [saveAt_eq]
  apply ActsAs.andThen (.emit _)
  cases hrow : savedColumns o stamp with
  | error e =>
    exact ((mainWrite_unwritable tables o hrow).bind hrest).congr fun _ => rfl
  | ok row =>
    apply ((mainWrite_actsAs tables o hrow).bind hrest).congr
    intro db
    simp only [saving, writing, List.cons_append, runAll, List.append_assoc, runAll_append]
    obtain ⟨r, db₁⟩ := (Operation.statement (mainWrite tables o row)).run db
    cases r with
    | error e => rfl
    | ok _ =>
      simp only [Except.map]
      obtain ⟨r, db₂⟩ := runAll (replacing tables .relations (savedId o db.nextId) o.relations) db₁
      cases r with
      | error e => rfl
      | ok _ =>
        dsimp only
        obtain ⟨r, db₃⟩ := runAll (replacing tables .indexed (savedId o db.nextId) o.indexedFields) db₂
        cases r with
        | error e => rfl
        | ok _ =>
          dsimp only
          obtain ⟨r, db₄⟩ := Operation.commit.run db₃
          cases r <;> rfl

end Action

end OrderStore.Storage
