import Mathlib.Data.List.Nodup
import OrderStore.Proofs.Except
import OrderStore.Proofs.Storage.StoredRow
import OrderStore.Proofs.Value.Integer
/-!
The ledger of a store: the last saved version of each order, with its row. On the rows of a ledger,
inserting, updating and looking up do what they should do to the versions.
-/

namespace OrderStore.Storage

structure Entry where
  number : Nat
  order : Order
  row : Order.Row
  id_eq : order.id = .int number
  isRow : IsRowOf row order
  storable : order.Storable
  updatedAt : 1000 ≤ order.updatedAt.date.year

abbrev Ledger := List Entry

namespace Ledger

def rows (l : Ledger) : List Order.Row := l.map Entry.row

def numbers (l : Ledger) : List Nat := l.map Entry.number

def orderNos (l : Ledger) : List Text := l.map fun e => e.order.orderNo

def supersede (new : Entry) (l : Ledger) : Ledger :=
  l.map fun e => if e.number = new.number then new else e

theorem numbers_supersede (new : Entry) (l : Ledger) : (l.supersede new).numbers = l.numbers := by
  rw [numbers, supersede, List.map_map]
  apply List.map_congr_left
  intro e he
  by_cases h : e.number = new.number
  · simp [h]
  · simp [h]

theorem orderNos_supersede {new : Entry} {l : Ledger}
    (h : ∀ e ∈ l, e.number = new.number → e.order.orderNo = new.order.orderNo) :
    (l.supersede new).orderNos = l.orderNos := by
  rw [orderNos, supersede, List.map_map]
  apply List.map_congr_left
  intro e he
  by_cases hn : e.number = new.number
  · simp [hn, h e he hn]
  · simp [hn]

theorem mem_supersede {new e : Entry} {l : Ledger} (h : e ∈ l.supersede new) :
    e = new ∨ (e ∈ l ∧ e.number ≠ new.number) := by
  obtain ⟨x, hx, hxe⟩ := List.mem_map.mp h
  by_cases hn : x.number = new.number
  · rw [if_pos hn] at hxe
    exact .inl hxe.symm
  · rw [if_neg hn] at hxe
    subst hxe
    exact .inr ⟨hx, hn⟩

theorem new_mem_supersede {new old : Entry} {l : Ledger} (h : old ∈ l) (hn : old.number = new.number) :
    new ∈ l.supersede new :=
  List.mem_map.mpr ⟨old, h, if_pos hn⟩

theorem mem_supersede_of_ne {new e : Entry} {l : Ledger} (h : e ∈ l) (hn : e.number ≠ new.number) :
    e ∈ l.supersede new :=
  List.mem_map.mpr ⟨e, h, if_neg hn⟩

theorem eq_of_number_eq {l : Ledger} (hl : l.numbers.Nodup) {e e' : Entry} (he : e ∈ l) (he' : e' ∈ l)
    (h : e.number = e'.number) : e = e' :=
  List.inj_on_of_nodup_map hl he he' h

theorem eq_of_orderNo_eq {l : Ledger} (hl : l.orderNos.Nodup) {e e' : Entry} (he : e ∈ l) (he' : e' ∈ l)
    (h : e.order.orderNo = e'.order.orderNo) : e = e' :=
  List.inj_on_of_nodup_map hl he he' h

theorem hasOrderNoOf_rows {row : Order.Row} {t : Text} (l : Ledger)
    (hrow : Contents.column "order_no" row = .ok (.text t)) :
    Contents.hasOrderNoOf row l.rows = .ok (l.any fun e => decide (e.order.orderNo = t)) := by
  induction l with
  | nil => rfl
  | cons e l ih =>
    have hcolumn := e.isRow.column_orderNo
    change Contents.hasOrderNoOf row (e.row :: rows l) = _
    simp only [Contents.hasOrderNoOf, hcolumn, hrow, Value.equal_text, bind, Except.bind, ih,
      List.any_cons]
    by_cases h : e.order.orderNo = t
    · simp [h]
      rfl
    · simp [h]

theorem updateRows_rows (k : Nat) (values : Order.Row) (l : Ledger) :
    Contents.updateRows (.int k) values l.rows =
      .ok (l.map fun e => if e.number = k then Contents.overwrite e.row values else e.row) := by
  induction l with
  | nil => rfl
  | cons e l ih =>
    have hcolumn := e.isRow.column_id
    change Contents.updateRows (.int k) values (e.row :: rows l) = _
    simp only [Contents.updateRows, hcolumn, e.id_eq, Value.equal_int, Except.bind, ih, Except.map,
      List.map_cons]
    by_cases h : e.number = k
    · simp [h]
    · have hint : (e.number : Int) ≠ k := by omega
      simp [h, hint]

theorem lookupRows_rows {column : LookupColumn} {value : Value} {p : Entry → Bool} (l : Ledger)
    (hp : ∀ e, ∃ v, Contents.column column.name e.row = .ok v ∧ Contents.isFound column value v = .ok (p e)) :
    Contents.lookupRows column value l.rows = .ok (rows (l.filter p)) := by
  induction l with
  | nil => rfl
  | cons e l ih =>
    obtain ⟨v, hv, hfound⟩ := hp e
    change Contents.lookupRows column value (e.row :: rows l) = _
    simp only [Contents.lookupRows, hv, hfound, Except.bind, ih, Except.map]
    by_cases h : p e = true
    · rw [if_pos h, List.filter_cons_of_pos h]
      rfl
    · rw [if_neg h, List.filter_cons_of_neg h]

theorem lookupRows_id (value : Value) (l : Ledger) :
    Contents.lookupRows .id value l.rows =
      .ok (rows (l.filter fun e => e.order.id.display == value.display)) := by
  apply lookupRows_rows
  intro e
  exact ⟨e.order.id, e.isRow.column_id, rfl⟩

theorem lookupRows_orderNo (t : Text) (l : Ledger) :
    Contents.lookupRows .orderNo (.text t) l.rows =
      .ok (rows (l.filter fun e => decide (e.order.orderNo = t))) := by
  apply lookupRows_rows
  intro e
  exact ⟨.text e.order.orderNo, e.isRow.column_orderNo, Value.equal_text _ t⟩

end Ledger

theorem filter_eq_cons {α : Type} {l : List α} {p : α → Bool} {x : α} (hx : x ∈ l) (hp : p x = true)
    (hunique : ∀ y ∈ l, p y = true → y = x) : ∃ rest, l.filter p = x :: rest := by
  have hmem : x ∈ l.filter p := List.mem_filter.mpr ⟨hx, hp⟩
  cases hl : l.filter p with
  | nil =>
    rw [hl] at hmem
    cases hmem
  | cons y rest =>
    have hy : y ∈ l.filter p := hl ▸ List.mem_cons_self
    obtain ⟨hin, hpy⟩ := List.mem_filter.mp hy
    exact ⟨rest, by rw [hunique y hin hpy]⟩

theorem Database.execute_lookup {db : Database} (hf : db.faults = .none) (orders : Sql.TableName)
    (column : LookupColumn) (value : Value) :
    (db.execute (.lookup orders column value)).1 = Contents.lookupRows column value db.contents.orders := by
  simp only [execute, check, hf, Faults.none, perform]

namespace Action

theorem loadOrder_result (row : Order.Row) (w : World) :
    (loadOrder row w).1 = (Order.ofRow w.now row).result := rfl

def firstOrder (now : WallClock) : List Order.Row → Except Error (Option Order)
  | [] | [] :: _ => .ok none
  | row :: _ => (Order.ofRow now row).result.map some

theorem execute_apply (s : Statement) (w : World) :
    ∃ w', execute s w = ((w.database.execute s).1, w') ∧ w'.now = w.now :=
  ⟨_, rfl, rfl⟩

theorem find_open (tables : Sql.Tables) (column : LookupColumn) (value : Value) {w : World}
    (hp : w.isOpen = true) :
    (find tables column value w).1 =
      (w.database.execute (.lookup tables.orders column value)).1.bind (firstOrder w.now) := by
  have hdatabase : ((w.emit .connectionTaken).emit (.cursorOpened true)).database = w.database := rfl
  obtain ⟨w', hexecute, hnow⟩ := execute_apply (.lookup tables.orders column value)
    ((w.emit .connectionTaken).emit (.cursorOpened true))
  rw [hdatabase] at hexecute
  have hnow' : w'.now = w.now := hnow
  rw [find, withConnection_open _ hp]
  simp only [bind_apply, openCursor, emit, hexecute]
  generalize (w.database.execute (.lookup tables.orders column value)).1 = found
  cases found with
  | error e => rfl
  | ok rows =>
    cases rows with
    | nil => rfl
    | cons row rows =>
      cases row with
      | nil => rfl
      | cons c row =>
        have hload := loadOrder_result (c :: row) w'
        rw [hnow'] at hload
        dsimp only [Except.bind, firstOrder]
        rw [bind_apply, ← hload]
        generalize loadOrder (c :: row) w' = x
        obtain ⟨r, w''⟩ := x
        cases r <;> rfl

theorem find_result (tables : Sql.Tables) {column : LookupColumn} {value : Value} {w : World}
    {rows : List Order.Row} (hp : w.isOpen = true) (hf : w.database.faults = .none)
    (hrows : Contents.lookupRows column value w.database.contents.orders = .ok rows) :
    (find tables column value w).1 = firstOrder w.now rows := by
  rw [find_open tables column value hp, Database.execute_lookup hf, hrows]
  rfl

end Action

end OrderStore.Storage
