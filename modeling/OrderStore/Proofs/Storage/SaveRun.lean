import OrderStore.Proofs.Storage.Atomicity
/-!
Runs of saves of any orders, as long as the identifiers that they bring along are integers. A run keeps
which orders were saved and what the saves gave back.
-/

namespace OrderStore

def Value.integer? : Value → Option Int
  | .int n => some n
  | _ => none

theorem Value.integer?_eq_some {v : Value} {n : Int} : v.integer? = some n ↔ v = .int n := by
  cases v <;> simp [integer?]

def Order.Numbered (o : Order) : Prop := o.id = .null ∨ ∃ n, o.id = .int n

namespace Storage

open Sql Operation

def rowNumber (row : Order.Row) : Option Int := (row.get? "id").bind Value.integer?

theorem rowNumber_eq_some {row : Order.Row} {n : Int} :
    rowNumber row = some n ↔ row.get? "id" = some (.int n) := by
  simp [rowNumber, Option.bind_eq_some_iff, Value.integer?_eq_some]

structure Saved where
  passed : Order
  returned : Order

/-- Runs of saves on a store that starts out empty, with the saves that succeeded. Between two saves the
time, the pool and the faults may change as they like, and identifiers may be used up. -/
inductive SaveRun (tables : Tables) : World → List Saved → Prop where
  | start {w : World} (hc : w.database.contents = .empty) (hk : w.database.committed = .empty) :
    SaveRun tables w []
  | saved {w : World} {history : List Saved} {o r : Order} (hw : SaveRun tables w history)
    (ho : o.Numbered) (hr : (Action.save tables o w).1 = .ok r) :
    SaveRun tables (Action.save tables o w).2 (history ++ [⟨o, r⟩])
  | failed {w : World} {history : List Saved} {o : Order} {e : Error} (hw : SaveRun tables w history)
    (he : (Action.save tables o w).1 = .error e) : SaveRun tables (Action.save tables o w).2 history
  | elsewhere {w w' : World} {history : List Saved} (hw : SaveRun tables w history)
    (hc : w'.database.contents = w.database.contents)
    (hk : w'.database.committed = w.database.committed)
    (hn : w.database.nextId ≤ w'.database.nextId) : SaveRun tables w' history

def lastSave (n : Int) (history : List Saved) : Option Saved :=
  (history.filter fun s => s.returned.id.integer? = some n).getLast?

theorem lastSave_append (n : Int) (history : List Saved) (s : Saved) :
    lastSave n (history ++ [s]) =
      if s.returned.id.integer? = some n then some s else lastSave n history := by
  rw [lastSave, List.filter_append]
  by_cases h : s.returned.id.integer? = some n
  · simp [h]
  · simp [h, lastSave]

theorem savedId_eq_int {o : Order} (ho : o.Numbered) (nextId : Nat) : ∃ n : Int, savedId o nextId = .int n := by
  rcases ho with h | ⟨n, h⟩
  · exact ⟨nextId, savedId_new h nextId⟩
  · exact ⟨n, savedId_known h nextId⟩

theorem save_returned {tables : Tables} {o r : Order} {w : World} (hr : (Action.save tables o w).1 = .ok r) :
    r.id = savedId o w.database.nextId := by
  obtain ⟨stamp, columns, db, -, -, -, -, rfl, -⟩ := Action.save_ok hr
  rfl

theorem save_failed_contents {tables : Tables} {o : Order} {w : World} {e : Error}
    (hw : w.database.Settled) (he : (Action.save tables o w).1 = .error e) :
    (Action.save tables o w).2.database.contents = w.database.contents ∧
      w.database.nextId ≤ (Action.save tables o w).2.database.nextId := by
  rcases Action.save_failed he with hd | ⟨db, hp, hd⟩
  · rw [hd]
    exact ⟨rfl, Nat.le_refl _⟩
  · rw [hd]
    exact ⟨hp.committed.trans hw.symm, hp.nextId⟩

theorem SaveRun.settled {tables : Tables} {w : World} {history : List Saved} (h : SaveRun tables w history) :
    w.database.Settled := by
  induction h with
  | start hc hk => exact hc.trans hk.symm
  | saved hw ho hr ih => exact Action.Settles.save _ _ _ ih
  | failed hw he ih => exact Action.Settles.save _ _ _ ih
  | elsewhere hw hc hk hn ih => exact hc.trans (ih.trans hk.symm)

end Storage

end OrderStore
