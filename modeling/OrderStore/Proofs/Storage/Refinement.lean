import OrderStore.Proofs.Order.Derived
import OrderStore.Proofs.Storage.Atomicity
import OrderStore.Proofs.Storage.Ledger
import OrderStore.Proofs.Storage.Rows

namespace OrderStore.Storage

open Sql Operation

/-- An order that was never saved, or one that revisions made of an order that a save gave back. -/
def Offered (history : List Order) (o : Order) : Prop :=
  o.id = .null ∨ ∃ r ∈ history, r.Derived o

/-- Runs of saves on a store that starts out empty, with the orders that they gave back. Between two
saves the time, the pool and the faults may change as they like. -/
inductive Run (tables : Tables) : World → List Order → Prop where
  | start {w : World} (hc : w.database.contents = .empty) (hk : w.database.committed = .empty) :
    Run tables w []
  | saved {w : World} {history : List Order} {o r : Order} (hw : Run tables w history)
    (ho : Offered history o) (hs : o.Storable)
    (hclock : ∀ stamp, w.stamp = .ok stamp → 1000 ≤ stamp.date.year)
    (hr : (Action.save tables o w).1 = .ok r) : Run tables (Action.save tables o w).2 (history ++ [r])
  | failed {w : World} {history : List Order} {o : Order} {e : Error} (hw : Run tables w history)
    (he : (Action.save tables o w).1 = .error e) : Run tables (Action.save tables o w).2 history
  | elsewhere {w w' : World} {history : List Order} (hw : Run tables w history)
    (hc : w'.database.contents = w.database.contents)
    (hk : w'.database.committed = w.database.committed)
    (hn : w'.database.nextId = w.database.nextId) : Run tables w' history

def IsLast (history : List Order) (l : Order) : Prop :=
  ∃ before after, history = before ++ l :: after ∧ ∀ s ∈ after, s.id ≠ l.id

theorem isLast_append (history : List Order) (r : Order) : IsLast (history ++ [r]) r :=
  ⟨history, [], rfl, by simp⟩

theorem IsLast.mem {history : List Order} {l : Order} (h : IsLast history l) : l ∈ history := by
  obtain ⟨before, after, rfl, -⟩ := h
  exact List.mem_append_right _ List.mem_cons_self

theorem IsLast.append {history : List Order} {l r : Order} (h : IsLast history l) (hr : r.id ≠ l.id) :
    IsLast (history ++ [r]) l := by
  obtain ⟨before, after, rfl, hafter⟩ := h
  refine ⟨before, after ++ [r], by simp, ?_⟩
  intro s hs
  rcases List.mem_append.mp hs with hs | hs
  · exact hafter s hs
  · rw [List.mem_singleton.mp hs]
    exact hr

structure Mirrors (l : Ledger) (history : List Order) (db : Database) : Prop where
  rows : db.contents.orders = l.rows
  settled : db.contents = db.committed
  bound : ∀ e ∈ l, e.number < db.nextId
  numbers : l.numbers.Nodup
  orderNos : l.orderNos.Nodup
  last : ∀ e ∈ l, IsLast history e.order
  known : ∀ r ∈ history, ∃ e ∈ l, r.SameIdentity e.order

namespace Mirrors

variable {l : Ledger} {history : List Order} {db db' : Database}

theorem empty (hc : db.contents = .empty) (hk : db.committed = .empty) : Mirrors [] [] db where
  rows := congrArg Contents.orders hc
  settled := hc.trans hk.symm
  bound := by simp
  numbers := List.nodup_nil
  orderNos := List.nodup_nil
  last := by simp
  known := by simp

theorem of_contents_eq (h : Mirrors l history db) (hc : db'.contents = db.contents)
    (hk : db'.committed = db.committed) (hn : db.nextId ≤ db'.nextId) : Mirrors l history db' where
  rows := (congrArg Contents.orders hc).trans h.rows
  settled := hc.trans (h.settled.trans hk.symm)
  bound := fun e he => Nat.lt_of_lt_of_le (h.bound e he) hn
  numbers := h.numbers
  orderNos := h.orderNos
  last := h.last
  known := h.known

theorem issue (h : Mirrors l history db) (new : Entry) (hrows : db'.contents.orders = l.rows ++ [new.row])
    (hs : db'.contents = db'.committed) (hnumber : new.number = db.nextId)
    (hn : db'.nextId = db.nextId + 1) (hfresh : ∀ e ∈ l, e.order.orderNo ≠ new.order.orderNo) :
    Mirrors (l ++ [new]) (history ++ [new.order]) db' where
  rows := by
    rw [hrows]
    simp [Ledger.rows]
  settled := hs
  bound := by
    intro e he
    rcases List.mem_append.mp he with he | he
    · have := h.bound e he
      omega
    · rw [List.mem_singleton.mp he]
      omega
  numbers := by
    rw [Ledger.numbers, List.map_append]
    apply List.nodup_append.mpr
    refine ⟨h.numbers, List.nodup_singleton _, ?_⟩
    intro n hmem m hm
    obtain ⟨e, he, rfl⟩ := List.mem_map.mp hmem
    have := h.bound e he
    rw [List.mem_singleton.mp hm]
    omega
  orderNos := by
    rw [Ledger.orderNos, List.map_append]
    apply List.nodup_append.mpr
    refine ⟨h.orderNos, List.nodup_singleton _, ?_⟩
    intro t hmem t' ht'
    obtain ⟨e, he, rfl⟩ := List.mem_map.mp hmem
    rw [List.mem_singleton.mp ht']
    exact hfresh e he
  last := by
    intro e he
    rcases List.mem_append.mp he with he | he
    · apply (h.last e he).append
      rw [new.id_eq, e.id_eq]
      intro hid
      injection hid with hid
      have := h.bound e he
      omega
    · rw [List.mem_singleton.mp he]
      exact isLast_append history new.order
  known := by
    intro r hr
    rcases List.mem_append.mp hr with hr | hr
    · obtain ⟨e, he, hsame⟩ := h.known r hr
      exact ⟨e, List.mem_append_left _ he, hsame⟩
    · rw [List.mem_singleton.mp hr]
      exact ⟨new, List.mem_append_right _ (List.mem_singleton_self new), .refl _⟩

theorem supersede (h : Mirrors l history db) {old new : Entry} (hold : old ∈ l)
    (hnumber : old.number = new.number) (hsame : old.order.SameIdentity new.order)
    (hrows : db'.contents.orders = (l.supersede new).rows) (hs : db'.contents = db'.committed)
    (hn : db'.nextId = db.nextId) : Mirrors (l.supersede new) (history ++ [new.order]) db' where
  rows := hrows
  settled := hs
  bound := by
    intro e he
    rw [hn]
    rcases Ledger.mem_supersede he with rfl | ⟨he, -⟩
    · rw [← hnumber]
      exact h.bound old hold
    · exact h.bound e he
  numbers := by
    rw [Ledger.numbers_supersede]
    exact h.numbers
  orderNos := by
    rw [Ledger.orderNos_supersede]
    · exact h.orderNos
    · intro e he hne
      rw [Ledger.eq_of_number_eq h.numbers he hold (hne.trans hnumber.symm)]
      exact hsame.orderNo.symm
  last := by
    intro e he
    rcases Ledger.mem_supersede he with rfl | ⟨he, hne⟩
    · exact isLast_append history e.order
    · apply (h.last e he).append
      rw [new.id_eq, e.id_eq]
      intro hid
      injection hid with hid
      omega
  known := by
    intro r hr
    rcases List.mem_append.mp hr with hr | hr
    · obtain ⟨e, he, hre⟩ := h.known r hr
      by_cases hne : e.number = new.number
      · rw [Ledger.eq_of_number_eq h.numbers he hold (hne.trans hnumber.symm)] at hre
        exact ⟨new, Ledger.new_mem_supersede hold hnumber, hre.trans hsame⟩
      · exact ⟨e, Ledger.mem_supersede_of_ne he hne, hre⟩
    · rw [List.mem_singleton.mp hr]
      exact ⟨new, Ledger.new_mem_supersede hold hnumber, .refl _⟩

end Mirrors

def stamped (o : Order) (id : Value) (stamp : Timestamp) : Order := { o with id, updatedAt := stamp }

theorem storable_stamped {o : Order} (h : o.Storable) (id : Value) (stamp : Timestamp) :
    (stamped o id stamp).Storable :=
  ⟨h.currency, h.buyer, h.amount, h.createdAt, h.attributes, h.relations, h.indexedFields⟩

theorem isRowOf_inserted {o : Order} {stamp : Timestamp} {row : Order.Row} (n : Nat)
    (hrow : savedColumns o stamp = .ok row) :
    IsRowOf (Named.put "id" (.int n)
        (row ++ ([("order_no", .text o.orderNo), ("created_at", .text o.createdAt.text)] : Order.Row)))
      (stamped o (.int n) stamp) := by
  refine ⟨row, hrow, ?_⟩
  obtain ⟨attributes, relations, indexedFields, -, -, -, rfl⟩ := savedColumns_ok hrow
  rfl

theorem isRowOf_updated {old o : Order} {stamp : Timestamp} {row oldRow : Order.Row}
    (hold : IsRowOf oldRow old) (hrow : savedColumns o stamp = .ok row) (hsame : old.SameIdentity o) :
    IsRowOf (Contents.overwrite oldRow (row ++ ([("id", o.id)] : Order.Row))) (stamped o o.id stamp) := by
  refine ⟨row, hrow, ?_⟩
  obtain ⟨oldColumns, hcolumns, rfl⟩ := hold
  obtain ⟨attributes, relations, indexedFields, -, -, -, rfl⟩ := savedColumns_ok hrow
  obtain ⟨attributes', relations', indexedFields', -, -, -, rfl⟩ := savedColumns_ok hcolumns
  rw [storedRow, ← hsame.orderNo, ← hsame.createdAt]
  rfl

namespace Mirrors

variable {tables : Tables} {l : Ledger} {history : List Order} {w : World}

theorem save_new (h : Mirrors l history w.database) {o : Order} (hnew : o.id = .null) (ho : o.Storable)
    {stamp : Timestamp} (hy : 1000 ≤ stamp.date.year) {row : Order.Row}
    (hrow : savedColumns o stamp = .ok row) {db db' : Database}
    (hrun : runAll (writing tables o row w.database.nextId) w.database = (.ok (), db))
    (hc : db'.contents = db.contents) (hk : db'.committed = db.contents) (hn : db'.nextId = db.nextId) :
    ∃ l', Mirrors l' (history ++ [stamped o (savedId o w.database.nextId) stamp]) db' := by
  obtain ⟨rows, db₁, hexecute, hside⟩ := writing_ok hrun
  rw [mainWrite, isPersisted_new hnew] at hexecute
  obtain ⟨hno, horders, hnext⟩ := insertOrder_execute hexecute
  obtain ⟨horders', hnext'⟩ := hside.of_nonempty (by rw [horders]; simp)
  let new : Entry :=
    { number := w.database.nextId
      order := stamped o (.int w.database.nextId) stamp
      row := _
      id_eq := rfl
      isRow := isRowOf_inserted w.database.nextId hrow
      storable := storable_stamped ho _ stamp
      updatedAt := hy }
  have hcolumn : Contents.column "order_no"
      (row ++ ([("order_no", .text o.orderNo), ("created_at", .text o.createdAt.text)] : Order.Row)) =
      .ok (.text o.orderNo) := by
    obtain ⟨attributes, relations, indexedFields, -, -, -, rfl⟩ := savedColumns_ok hrow
    rfl
  rw [h.rows, Ledger.hasOrderNoOf_rows l hcolumn] at hno
  injection hno with hno
  rw [savedId_new hnew]
  refine ⟨l ++ [new], h.issue new ?_ (hc.trans hk.symm) rfl ?_ ?_⟩
  · rw [hc, horders', horders, h.rows]
  · rw [hn, hnext', hnext]
  · intro e he heq
    have hfalse := List.any_eq_false.mp hno e he
    rw [decide_eq_true_eq] at hfalse
    exact hfalse heq

theorem save_version (h : Mirrors l history w.database) {old : Entry} (hold : old ∈ l) {o : Order}
    (hsame : old.order.SameIdentity o) (ho : o.Storable) {stamp : Timestamp}
    (hy : 1000 ≤ stamp.date.year) {row : Order.Row} (hrow : savedColumns o stamp = .ok row)
    {db db' : Database}
    (hrun : runAll (writing tables o row w.database.nextId) w.database = (.ok (), db))
    (hc : db'.contents = db.contents) (hk : db'.committed = db.contents) (hn : db'.nextId = db.nextId) :
    ∃ l', Mirrors l' (history ++ [stamped o (savedId o w.database.nextId) stamp]) db' := by
  have hoid : o.id = .int old.number := hsame.id.trans old.id_eq
  obtain ⟨rows, db₁, hexecute, hside⟩ := writing_ok hrun
  have hid : savedId o w.database.nextId = o.id := (savedId_known hoid _).trans hoid.symm
  let new : Entry :=
    { number := old.number
      order := stamped o o.id stamp
      row := _
      id_eq := hoid
      isRow := isRowOf_updated old.isRow hrow hsame
      storable := storable_stamped ho _ stamp
      updatedAt := hy }
  obtain ⟨hupdate, hnext⟩ := mainWrite_known hrow (isPersisted_known hoid) hexecute
  rw [h.rows, hoid, Ledger.updateRows_rows, ← hoid] at hupdate
  injection hupdate with hupdate
  have hrows : db₁.contents.orders = (l.supersede new).rows := by
    rw [← hupdate, Ledger.rows, Ledger.supersede, List.map_map]
    apply List.map_congr_left
    intro e he
    by_cases hne : e.number = old.number
    · rw [Ledger.eq_of_number_eq h.numbers he hold hne]
      simp [new]
    · simp [new, hne]
  have hnonempty : db₁.contents.orders ≠ [] := by
    intro hnil
    have hmem : new ∈ l.supersede new := Ledger.new_mem_supersede hold rfl
    rw [hrows] at hnil
    rw [List.map_eq_nil_iff.mp hnil] at hmem
    cases hmem
  obtain ⟨horders', hnext'⟩ := hside.of_nonempty hnonempty
  rw [hid]
  refine ⟨l.supersede new, h.supersede hold rfl ?_ ?_ (hc.trans hk.symm) ?_⟩
  · exact ⟨hsame.id, hsame.orderNo, hsame.createdAt⟩
  · rw [hc, horders', hrows]
  · rw [hn, hnext', hnext]

end Mirrors

theorem Run.mirrors {tables : Tables} {w : World} {history : List Order} (h : Run tables w history) :
    ∃ l, Mirrors l history w.database := by
  induction h with
  | start hc hk => exact ⟨[], .empty hc hk⟩
  | @saved w history o r hw ho hs hclock hr ih =>
    obtain ⟨l, hl⟩ := ih
    obtain ⟨stamp, row, db, hstamp, -, hrow, hrun, rfl, hc, hk, hn⟩ := Action.save_ok hr
    -- A new order opens an entry of the ledger. A known one has an entry, which it supersedes.
    rcases ho with hnew | ⟨r, hmem, hderived⟩
    · exact hl.save_new hnew hs (hclock stamp hstamp) hrow hrun hc hk hn
    · obtain ⟨e, he, hsame⟩ := hl.known r hmem
      have hversion := hsame.symm.trans hderived.sameIdentity
      exact hl.save_version he hversion hs (hclock stamp hstamp) hrow hrun hc hk hn
  | @failed w history o e hw he ih =>
    obtain ⟨l, hl⟩ := ih
    refine ⟨l, ?_⟩
    -- What the failed save did was not committed, and the contents were.
    rcases Action.save_failed he with hd | ⟨db, hp, hd⟩
    · rw [hd]
      exact hl
    · rw [hd]
      have hcommitted : db.committed = w.database.contents := hp.committed.trans hl.settled.symm
      exact hl.of_contents_eq hcommitted (hcommitted.trans hl.settled) hp.nextId
  | elsewhere hw hc hk hn ih =>
    obtain ⟨l, hl⟩ := ih
    exact ⟨l, hl.of_contents_eq hc hk (Nat.le_of_eq hn.symm)⟩

theorem firstOrder_rows (e : Entry) (l : Ledger) (now : WallClock) :
    Action.firstOrder now (Ledger.rows (e :: l)) = .ok (some e.order) := by
  have hload := ofRow_result e.isRow e.storable e.updatedAt now
  have hne := e.isRow.ne_nil
  change Action.firstOrder now (e.row :: Ledger.rows l) = _
  cases hrow : e.row with
  | nil => exact absurd hrow hne
  | cons c row =>
    rw [hrow] at hload
    rw [Action.firstOrder, hload]
    · rfl
    · intro h
      cases h

/-- After every run of saves, each order that a save gave back is found by its identifier and by its
order number as it was last saved, and nothing else is found. Orders of one order number have one
identifier. -/
theorem run_refines_ledger {tables : Tables} {w v : World} {history : List Order}
    (hrun : Run tables w history) (hv : v.database.contents = w.database.contents)
    (hp : v.isOpen = true) (hf : v.database.faults = .none) :
    (∀ r ∈ history, ∃ l, IsLast history l ∧ l.id = r.id ∧ l.orderNo = r.orderNo ∧
      (Action.find tables .id r.id v).1 = .ok (some l) ∧
      (Action.find tables .orderNo (.text r.orderNo) v).1 = .ok (some l) ∧ l.equal l = .ok true) ∧
    (∀ r ∈ history, ∀ s ∈ history, r.orderNo = s.orderNo ↔ r.id = s.id) ∧
    (∀ x : Value, (∀ r ∈ history, r.id.display ≠ x.display) →
      (Action.find tables .id x v).1 = .ok none) ∧
    (∀ t : Text, (∀ r ∈ history, r.orderNo ≠ t) →
      (Action.find tables .orderNo (.text t) v).1 = .ok none) := by
  -- The ledger of the run has one entry for each number and one for each order number, so a look-up finds it alone.
  obtain ⟨l, hl⟩ := hrun.mirrors
  have hrows : v.database.contents.orders = l.rows := by rw [hv, hl.rows]
  have hbyId (x : Value) := Action.find_result tables hp hf
    ((congrArg _ hrows).trans (Ledger.lookupRows_id x l))
  have hbyNo (t : Text) := Action.find_result tables hp hf
    ((congrArg _ hrows).trans (Ledger.lookupRows_orderNo t l))
  have hid (e : Entry) : e.order.id.display = (Value.int e.number).display := congrArg _ e.id_eq
  refine ⟨?_, ?_, ?_, ?_⟩
  · intro r hr
    obtain ⟨e, he, hsame⟩ := hl.known r hr
    refine ⟨e.order, hl.last e he, hsame.id, hsame.orderNo, ?_, ?_, Order.equal_self e.storable.amount⟩
    · obtain ⟨rest, hrest⟩ := filter_eq_cons (p := fun e' => e'.order.id.display == r.id.display) he
        (by rw [hsame.id]; exact beq_self_eq_true _) (by
          intro e' he' heq
          apply Ledger.eq_of_number_eq hl.numbers he' he
          apply Value.display_natCast
          rw [← hid, ← hid, hsame.id]
          exact beq_iff_eq.mp heq)
      rw [hbyId, hrest, firstOrder_rows]
    · obtain ⟨rest, hrest⟩ := filter_eq_cons (p := fun e' => decide (e'.order.orderNo = r.orderNo)) he
        (decide_eq_true hsame.orderNo) (by
          intro e' he' heq
          apply Ledger.eq_of_orderNo_eq hl.orderNos he' he
          exact (of_decide_eq_true heq).trans hsame.orderNo.symm)
      rw [hbyNo, hrest, firstOrder_rows]
  · intro r hr s hs
    obtain ⟨e, he, hre⟩ := hl.known r hr
    obtain ⟨e', he', hse⟩ := hl.known s hs
    constructor
    · intro hno
      have heq := Ledger.eq_of_orderNo_eq hl.orderNos he he'
        (hre.orderNo.trans (hno.trans hse.orderNo.symm))
      rw [← hre.id, ← hse.id, heq]
    · intro hids
      have hnumbers : e.number = e'.number := by
        have hint : Value.int e.number = .int e'.number := by
          rw [← e.id_eq, ← e'.id_eq, hre.id, hse.id, hids]
        injection hint with hint
        omega
      have heq := Ledger.eq_of_number_eq hl.numbers he he' hnumbers
      rw [← hre.orderNo, ← hse.orderNo, heq]
  · intro x hx
    have hnone : l.filter (fun e => e.order.id.display == x.display) = [] := by
      apply List.filter_eq_nil_iff.mpr
      intro e he heq
      exact hx e.order (hl.last e he).mem (beq_iff_eq.mp heq)
    rw [hbyId, hnone]
    rfl
  · intro t ht
    have hnone : l.filter (fun e => decide (e.order.orderNo = t)) = [] := by
      apply List.filter_eq_nil_iff.mpr
      intro e he heq
      exact ht e.order (hl.last e he).mem (of_decide_eq_true heq)
    rw [hbyNo, hnone]
    rfl

theorem unsaved_storable {stamp : Timestamp} (h : 1000 ≤ stamp.date.year) : (unsaved stamp).Storable where
  currency := ⟨"EUR", rfl, rfl⟩
  buyer := .inl rfl
  amount := rfl
  createdAt := h
  attributes := .map (by simp [unsaved]) (by simp [unsaved]) (by simp [unsaved])
  relations := by
    apply Value.Plain.map
    · intro e he
      rw [List.mem_singleton.mp he]
      exact ⟨_, rfl⟩
    · exact List.nodup_singleton _
    · intro e he
      rw [List.mem_singleton.mp he]
      apply Value.Plain.list
      simp [Value.Plain.int]
  indexedFields := .map (by simp [unsaved]) (by simp [unsaved]) (by simp [unsaved])

set_option maxRecDepth 8000 in
theorem run_refines_ledger_closed :
    let stamp : Timestamp := ⟨⟨2024, 1, 31, by decide⟩, .midnight⟩
    let start : World := ⟨.ofTimestamp stamp, [], .empty, true, []⟩
    let first := stamped (unsaved stamp) (.int 1) stamp
    let second := { first with status := "closed" }
    let w := (Action.save .default second (Action.save .default (unsaved stamp) start).2).2
    Run .default w [first, second] ∧
      ∃ l, IsLast [first, second] l ∧ (Action.find .default .id (.int 1) w).1 = .ok (some l) := by
  intro stamp start first second w
  have hs : (unsaved stamp).Storable := unsaved_storable (by decide)
  have hclock (w : World) (hw : w.stamp = .ok stamp) (s : Timestamp) (h : w.stamp = .ok s) :
      1000 ≤ s.date.year := by
    rw [hw] at h
    cases h
    decide
  have h₀ : Run .default start [] := .start rfl rfl
  have h₁ : Run .default (Action.save .default (unsaved stamp) start).2 ([] ++ [first]) :=
    .saved h₀ (.inl rfl) hs (hclock start rfl) rfl
  have hclosed : first.Derived second := by
    apply Order.Derived.revise (.ofTimestamp stamp) (r := .status (.text "closed")) _ .refl rfl
    intro v h
    cases h
  have h₂ : Run .default w ([first] ++ [second]) := by
    apply Run.saved h₁ (.inr ⟨first, List.mem_singleton_self first, hclosed⟩) _ (hclock _ rfl) rfl
    exact ⟨hs.currency, hs.buyer, hs.amount, hs.createdAt, hs.attributes, hs.relations, hs.indexedFields⟩
  obtain ⟨l, hlast, -, -, hfind, -⟩ := (run_refines_ledger h₂ rfl rfl rfl).1 second (by simp)
  exact ⟨h₂, l, hlast, hfind⟩

end OrderStore.Storage
