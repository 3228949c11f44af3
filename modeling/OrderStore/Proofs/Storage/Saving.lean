import OrderStore.Proofs.Storage.Operation

namespace OrderStore.Storage

open Sql

def World.reading (w : World) : Value := w.clock.head?.getD .null

def World.stamp (w : World) : Except Error Timestamp := w.reading.toTimestamp w.now

namespace Database

structure Pending (db db' : Database) : Prop where
  committed : db'.committed = db.committed
  nextId : db.nextId ≤ db'.nextId

theorem Pending.refl (db : Database) : Pending db db := ⟨rfl, Nat.le_refl _⟩

theorem Pending.trans {a b c : Database} (hab : Pending a b) (hbc : Pending b c) : Pending a c :=
  ⟨hbc.committed.trans hab.committed, Nat.le_trans hab.nextId hbc.nextId⟩

theorem check_pending (text : Text) (db : Database) : Pending db (db.check text).2 :=
  ⟨check_committed text db, Nat.le_of_eq (check_nextId text db).symm⟩

theorem insertRow_pending (row : Order.Row) (db : Database) : Pending db (db.insertRow row).2 := by
  simp only [insertRow]
  cases db.contents.insertOrder db.nextId row <;> exact ⟨rfl, Nat.le_succ _⟩

theorem change_pending (db : Database) (x : Except Error Contents) : Pending db (db.change x).2 := by
  cases x <;> exact ⟨rfl, Nat.le_refl _⟩

theorem perform_pending (s : Statement) (db : Database) : Pending db (db.perform s).2 := by
  cases s with
  | insertOrder _ row => exact insertRow_pending row db
  | updateOrder _ row => exact change_pending db _
  | deletePairs _ target id =>
    cases target with
    | none => exact .refl _
    | some side => exact change_pending db _
  | _ => exact .refl _

theorem execute_pending (s : Statement) (db : Database) : Pending db (db.execute s).2 := by
  have hc := check_pending (s.text.squeeze) db
  rw [execute]
  generalize db.check (s.text.squeeze) = c at hc ⊢
  obtain ⟨r, db'⟩ := c
  cases r with
  | error e => exact hc
  | ok _ => exact hc.trans (perform_pending s db')

theorem insertTriple_pending (target : Option Side) (t : Triple) (db : Database) :
    Pending db (db.insertTriple target t).2 := by
  cases target with
  | some side => exact ⟨rfl, Nat.le_refl _⟩
  | none => exact insertRow_pending _ db

theorem commit_pending {db : Database} {e : Error} (h : db.commit.1 = .error e) :
    Pending db db.commit.2 := by
  have hc := check_pending "COMMIT" db
  rw [commit] at h ⊢
  generalize db.check "COMMIT" = c at h hc ⊢
  obtain ⟨r, db'⟩ := c
  cases r with
  | error e => exact hc
  | ok _ => cases h

theorem commit_ok {db : Database} (h : db.commit.1 = .ok ()) :
    db.commit.2.contents = db.contents ∧ db.commit.2.committed = db.contents ∧
      db.commit.2.nextId = db.nextId := by
  have hc := check_contents "COMMIT" db
  have hn := check_nextId "COMMIT" db
  rw [commit] at h ⊢
  generalize db.check "COMMIT" = c at h hc hn ⊢
  obtain ⟨r, db'⟩ := c
  cases r with
  | error e => cases h
  | ok _ => exact ⟨hc, hc, hn⟩

end Database

namespace Operation

open Database

theorem run_pending {op : Operation} (db : Database) (h : op ≠ commit) : Pending db (op.run db).2 := by
  cases op with
  | commit => exact absurd rfl h
  | statement s => exact execute_pending s db
  | addTriple name target t =>
    have hc := check_pending ((insertTripleText name).squeeze) db
    simp only [run]
    generalize db.check ((insertTripleText name).squeeze) = c at hc ⊢
    obtain ⟨r, db'⟩ := c
    cases r with
    | error e => exact hc
    | ok _ => exact hc.trans (insertTriple_pending target t db')

theorem runAll_pending {ops : List Operation} (db : Database) (h : commit ∉ ops) :
    Pending db (runAll ops db).2 := by
  induction ops generalizing db with
  | nil => exact .refl db
  | cons op ops ih =>
    have hop := run_pending db (List.ne_of_not_mem_cons h).symm
    simp only [runAll]
    generalize op.run db = c at hop ⊢
    obtain ⟨r, db'⟩ := c
    cases r with
    | error e => exact hop
    | ok _ => exact hop.trans (ih db' (List.not_mem_of_not_mem_cons h))

theorem runAll_error_iff {ops : List Operation} {db : Database} {e : Error} :
    (runAll ops db).1 = .error e ↔
      ∃ before op after db', ops = before ++ op :: after ∧ runAll before db = (.ok (), db') ∧
        (op.run db').1 = .error e := by
  constructor
  · intro h
    induction ops generalizing db with
    | nil => cases h
    | cons op ops ih =>
      simp only [runAll] at h
      cases hr : op.run db with
      | mk r db₁ =>
        rw [hr] at h
        cases r with
        | error e' => exact ⟨[], op, ops, db, rfl, rfl, by rw [hr]; exact h⟩
        | ok u =>
          obtain ⟨before, op', after, db', rfl, hb, he⟩ := ih h
          exact ⟨op :: before, op', after, db', rfl, by simp only [runAll, hr, hb], he⟩
  · rintro ⟨before, op, after, db', rfl, hb, he⟩
    rw [runAll_append, hb]
    simp only [runAll]
    generalize op.run db' = c at he
    obtain ⟨r, db₁⟩ := c
    subst he
    rfl

theorem saving_failed {tables : Tables} {o : Order} {row : Order.Row} {nextId : Nat} {e : Error}
    {db : Database} (h : (runAll (saving tables o row nextId) db).1 = .error e) :
    Pending db (runAll (saving tables o row nextId) db).2 := by
  have hw := runAll_pending db (commit_not_mem_writing tables o row nextId)
  rw [saving, runAll_append] at h ⊢
  generalize runAll (writing tables o row nextId) db = c at hw h ⊢
  obtain ⟨r, db'⟩ := c
  cases r with
  | error e' => exact hw
  | ok _ =>
    dsimp only at h ⊢
    rw [runAll_singleton] at h ⊢
    exact hw.trans (commit_pending h)

end Operation

open Operation

/-- Why a save fails: the first of its steps that cannot be done. -/
inductive SaveFails (tables : Tables) (o : Order) (w : World) : Error → Prop where
  | clock {e : Error} (hs : w.stamp = .error e) : SaveFails tables o w e
  | pool {stamp : Timestamp} (hs : w.stamp = .ok stamp) (hp : w.isOpen = false) :
    SaveFails tables o w .poolClosed
  | columns {stamp : Timestamp} {e : Error} (hs : w.stamp = .ok stamp) (hp : w.isOpen = true)
    (hc : savedColumns o stamp = .error e) : SaveFails tables o w e
  | operation {stamp : Timestamp} {row : Order.Row} {before after : List Operation} {op : Operation}
    {db : Database} {e : Error} (hs : w.stamp = .ok stamp) (hp : w.isOpen = true)
    (hc : savedColumns o stamp = .ok row)
    (hops : saving tables o row w.database.nextId = before ++ op :: after)
    (hb : runAll before w.database = (.ok (), db)) (he : (op.run db).1 = .error e) :
    SaveFails tables o w e

namespace Action

theorem readClock_apply (w : World) :
    ∃ w', readClock w = (.ok w.reading, w') ∧ w'.now = w.now ∧ w'.isOpen = w.isOpen ∧
      w'.database = w.database ∧ w'.trace = w.trace := by
  unfold readClock World.reading
  cases hc : w.clock with
  | nil => exact ⟨w, rfl, rfl, rfl, rfl, rfl⟩
  | cons v rest =>
    cases rest with
    | nil => exact ⟨w, rfl, rfl, rfl, rfl, rfl⟩
    | cons v' rest => exact ⟨{ w with clock := v' :: rest }, rfl, rfl, rfl, rfl, rfl⟩

theorem save_clock {tables : Tables} {o : Order} {w : World} {e : Error} (hs : w.stamp = .error e) :
    (save tables o w).1 = .error e ∧ (save tables o w).2.database = w.database ∧
      (save tables o w).2.trace = w.trace := by
  obtain ⟨w', hr, hn, -, hd, ht⟩ := readClock_apply w
  have hs' : w.reading.toTimestamp w'.now = .error e := by rw [hn]; exact hs
  simp only [save, bind_apply, hr, present, ofExcept, hs', hd, ht, and_self]

theorem save_transaction (tables : Tables) (o : Order) {w : World} {stamp : Timestamp}
    (hs : w.stamp = .ok stamp) :
    ∃ w', save tables o w = transaction (saveFailed o) (saveAt tables o stamp) w' ∧
      w'.isOpen = w.isOpen ∧ w'.database = w.database ∧ w'.trace = w.trace := by
  obtain ⟨w', hr, hn, hp, hd, ht⟩ := readClock_apply w
  have hs' : w.reading.toTimestamp w'.now = .ok stamp := by rw [hn]; exact hs
  refine ⟨w', ?_, hp, hd, ht⟩
  simp only [save, bind_apply, hr, present, ofExcept, hs']

theorem save_pool {tables : Tables} {o : Order} {w : World} {stamp : Timestamp}
    (hs : w.stamp = .ok stamp) (hp : w.isOpen = false) :
    (save tables o w).1 = .error .poolClosed ∧ (save tables o w).2.database = w.database ∧
      (save tables o w).2.trace = w.trace := by
  obtain ⟨w', hw, hp', hd, ht⟩ := save_transaction tables o hs
  rw [hw, transaction, withConnection_closed _ (hp'.trans hp)]
  exact ⟨rfl, hd, ht⟩

theorem transaction_open {α : Type} (failed : Error → Log.Record) {body : Action α}
    {f : Database → Except Error α × Database} (h : body.ActsAs f) {w : World} (hp : w.isOpen = true) :
    (transaction failed body w).1 = (f w.database).1 ∧
      (transaction failed body w).2.database =
        match (f w.database).1 with
        | .ok _ => (f w.database).2
        | .error _ => (f w.database).2.rollback := by
  have hr := h.result (w.emit .connectionTaken)
  have hd := h.database (w.emit .connectionTaken)
  have hback (w : World) : w.returnConnection.database = w.database := by
    unfold World.returnConnection
    split <;> rfl
  change _ = (f w.database).1 at hr
  change _ = (f w.database).2 at hd
  rw [transaction, withConnection_open _ hp, hback, ← hr, ← hd]
  unfold onFailure
  generalize body (w.emit .connectionTaken) = c
  obtain ⟨r, w'⟩ := c
  cases r <;> exact ⟨rfl, rfl⟩

theorem save_columns {tables : Tables} {o : Order} {w : World} {stamp : Timestamp} {e : Error}
    (hs : w.stamp = .ok stamp) (hp : w.isOpen = true) (hc : savedColumns o stamp = .error e) :
    (save tables o w).1 = .error e ∧ (save tables o w).2.database = w.database.rollback := by
  obtain ⟨w', hw, hp', hd, -⟩ := save_transaction tables o hs
  have ht := transaction_open (saveFailed o) (saveAt_actsAs tables o stamp) (hp'.trans hp)
  simp only [hc, hd] at ht
  rw [hw]
  exact ht

theorem save_operations {tables : Tables} {o : Order} {w : World} {stamp : Timestamp}
    {row : Order.Row} {x : Except Error Unit} {db : Database} (hs : w.stamp = .ok stamp)
    (hp : w.isOpen = true) (hc : savedColumns o stamp = .ok row)
    (hx : runAll (saving tables o row w.database.nextId) w.database = (x, db)) :
    (save tables o w).1 = x.map (fun _ =>
        { o with id := savedId o w.database.nextId, updatedAt := stamp }) ∧
      (save tables o w).2.database =
        match x with
        | .ok _ => db
        | .error _ => db.rollback := by
  obtain ⟨w', hw, hp', hd, -⟩ := save_transaction tables o hs
  have ht := transaction_open (saveFailed o) (saveAt_actsAs tables o stamp) (hp'.trans hp)
  simp only [hc, hd, hx] at ht
  rw [hw]
  cases x <;> exact ht

theorem save_error_iff {tables : Tables} {o : Order} {w : World} {e : Error} :
    (save tables o w).1 = .error e ↔ SaveFails tables o w e := by
  constructor
  · intro h
    -- The steps in their order: the clock, the pool, the columns, and the operations.
    cases hs : w.stamp with
    | error e' =>
      rw [(save_clock hs).1] at h
      cases h
      exact .clock hs
    | ok stamp =>
      cases hp : w.isOpen with
      | false =>
        rw [(save_pool hs hp).1] at h
        cases h
        exact .pool hs hp
      | true =>
        cases hc : savedColumns o stamp with
        | error e' =>
          rw [(save_columns hs hp hc).1] at h
          cases h
          exact .columns hs hp hc
        | ok row =>
          cases hx : runAll (saving tables o row w.database.nextId) w.database with
          | mk x db =>
            rw [(save_operations hs hp hc hx).1] at h
            cases x with
            | ok _ => cases h
            | error e' =>
              cases h
              obtain ⟨before, op, after, db', hops, hb, he⟩ :=
                runAll_error_iff.mp (congrArg Prod.fst hx)
              exact .operation hs hp hc hops hb he
  · intro h
    cases h with
    | clock hs => exact (save_clock hs).1
    | pool hs hp => exact (save_pool hs hp).1
    | columns hs hp hc => exact (save_columns hs hp hc).1
    | @operation stamp row before after op db e hs hp hc hops hb hop =>
      have he := runAll_error_iff.mpr ⟨before, op, after, db, hops, hb, hop⟩
      cases hx : runAll (saving tables o row w.database.nextId) w.database with
      | mk x db' =>
        have hx' : x = .error e := by rw [hx] at he; exact he
        rw [(save_operations hs hp hc hx).1, hx']
        rfl

theorem save_failed {tables : Tables} {o : Order} {w : World} {e : Error}
    (h : (save tables o w).1 = .error e) :
    (save tables o w).2.database = w.database ∨
      ∃ db, Database.Pending w.database db ∧ (save tables o w).2.database = db.rollback := by
  cases save_error_iff.mp h with
  | clock hs => exact .inl (save_clock hs).2.1
  | pool hs hp => exact .inl (save_pool hs hp).2.1
  | columns hs hp hc => exact .inr ⟨w.database, .refl _, (save_columns hs hp hc).2⟩
  | @operation stamp row before after op db e hs hp hc hops hb hop =>
    have he := runAll_error_iff.mpr ⟨before, op, after, db, hops, hb, hop⟩
    exact .inr ⟨_, saving_failed he, (save_operations hs hp hc (Prod.ext he rfl)).2⟩

theorem save_ok {tables : Tables} {o r : Order} {w : World} (h : (save tables o w).1 = .ok r) :
    ∃ stamp row db, w.stamp = .ok stamp ∧ w.isOpen = true ∧ savedColumns o stamp = .ok row ∧
      runAll (writing tables o row w.database.nextId) w.database = (.ok (), db) ∧
      r = { o with id := savedId o w.database.nextId, updatedAt := stamp } ∧
      (save tables o w).2.database.contents = db.contents ∧
      (save tables o w).2.database.committed = db.contents ∧
      (save tables o w).2.database.nextId = db.nextId := by
  cases hs : w.stamp with
  | error e => rw [(save_clock hs).1] at h; cases h
  | ok stamp =>
    cases hp : w.isOpen with
    | false => rw [(save_pool hs hp).1] at h; cases h
    | true =>
      cases hc : savedColumns o stamp with
      | error e => rw [(save_columns hs hp hc).1] at h; cases h
      | ok row =>
        cases hx : runAll (writing tables o row w.database.nextId) w.database with
        | mk x db =>
          cases hm : db.commit with
          | mk y db' =>
            cases x with
            | error e =>
              rw [(save_operations hs hp hc (by rw [saving, runAll_append, hx])).1] at h
              cases h
            | ok _ =>
              have hrun : runAll (saving tables o row w.database.nextId) w.database = (y, db') := by
                rw [saving, runAll_append, hx]
                exact (runAll_singleton .commit db).trans hm
              have hall := save_operations hs hp hc hrun
              rw [h] at hall
              cases y with
              | error e => cases hall.1
              | ok _ =>
                have hk := Database.commit_ok (congrArg Prod.fst hm)
                rw [hm] at hk
                injection hall.1 with hr
                refine ⟨stamp, row, db, rfl, rfl, hc, hx, hr, ?_⟩
                rw [hall.2]
                exact hk

end Action

end OrderStore.Storage
