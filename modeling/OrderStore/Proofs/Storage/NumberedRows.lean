import OrderStore.Proofs.Storage.Ledger
import OrderStore.Proofs.Storage.SideTables

namespace OrderStore.Storage

open Sql Operation

/-! ## Numbers of rows -/

structure Numbering (numbers : List Nat) (db : Database) : Prop where
  rows : db.contents.orders.map rowNumber = numbers.map fun k : Nat => some (k : Int)
  distinct : numbers.Nodup
  issued : ∀ k ∈ numbers, k < db.nextId

namespace Numbering

variable {numbers : List Nat} {db db' : Database}

theorem empty (hc : db.contents = .empty) : Numbering [] db where
  rows := by
    rw [hc]
    rfl
  distinct := List.nodup_nil
  issued := by simp

theorem of_orders_eq (h : Numbering numbers db) (ho : db'.contents.orders = db.contents.orders)
    (hn : db.nextId ≤ db'.nextId) : Numbering numbers db' where
  rows := by
    rw [ho]
    exact h.rows
  distinct := h.distinct
  issued := fun k hk => Nat.lt_of_lt_of_le (h.issued k hk) hn

theorem issue (h : Numbering numbers db) {row : Order.Row} (hrow : rowNumber row = some (db.nextId : Int))
    (ho : db'.contents.orders = db.contents.orders ++ [row]) (hn : db'.nextId = db.nextId + 1) :
    Numbering (numbers ++ [db.nextId]) db' where
  rows := by
    rw [ho, List.map_append, List.map_append, h.rows, List.map_singleton, hrow]
    rfl
  distinct := by
    apply List.nodup_append.mpr
    refine ⟨h.distinct, List.nodup_singleton _, ?_⟩
    intro k hk m hm
    have := h.issued k hk
    rw [List.mem_singleton.mp hm]
    omega
  issued := by
    intro k hk
    rw [hn]
    rcases List.mem_append.mp hk with hk | hk
    · have := h.issued k hk
      omega
    · rw [List.mem_singleton.mp hk]
      omega

theorem rewrite (h : Numbering numbers db) {f : Order.Row → Order.Row}
    (hf : ∀ row, rowNumber (f row) = rowNumber row)
    (ho : db'.contents.orders = db.contents.orders.map f) (hn : db'.nextId = db.nextId) :
    Numbering numbers db' where
  rows := by
    rw [ho, List.map_map, ← h.rows]
    apply List.map_congr_left
    intro row hrow
    exact hf row
  distinct := h.distinct
  issued := by
    rw [hn]
    exact h.issued

theorem rowNumber_put (row : Order.Row) (k : Nat) : rowNumber (row.put "id" (.int k)) = some (k : Int) :=
  rowNumber_eq_some.mpr ((Assoc.get?_put _ _ _ _).trans (if_pos rfl))

theorem sideWrite (h : Numbering numbers db) (hw : SideWrite db db') : ∃ numbers', Numbering numbers' db' := by
  rcases hw with ⟨ho, hn⟩ | ⟨hnil, hn, t, ho⟩
  · exact ⟨numbers, h.of_orders_eq ho (Nat.le_of_eq hn.symm)⟩
  · have horders : db'.contents.orders = db.contents.orders ++ [t.params.put "id" (.int db.nextId)] := by
      rw [ho, hnil]
      rfl
    exact ⟨_, h.issue (rowNumber_put _ _) horders hn⟩

theorem exists_number (h : Numbering numbers db) {row : Order.Row} (hrow : row ∈ db.contents.orders) :
    ∃ k ∈ numbers, rowNumber row = some (k : Int) := by
  have hmem : rowNumber row ∈ numbers.map fun k : Nat => some (k : Int) := by
    rw [← h.rows]
    exact List.mem_map_of_mem hrow
  obtain ⟨k, hk, hnumber⟩ := List.mem_map.mp hmem
  exact ⟨k, hk, hnumber.symm⟩

theorem eq_of_rowNumber_eq (h : Numbering numbers db) {row row' : Order.Row}
    (hrow : row ∈ db.contents.orders) (hrow' : row' ∈ db.contents.orders)
    (heq : rowNumber row = rowNumber row') : row = row' := by
  have hnodup : (db.contents.orders.map rowNumber).Nodup := by
    rw [h.rows]
    apply h.distinct.map
    intro k m hkm
    injection hkm with hkm
    omega
  exact List.inj_on_of_nodup_map hnodup hrow hrow' heq

/-! ## Updates and look-ups -/

theorem column_id {row : Order.Row} {k : Int} (h : rowNumber row = some k) :
    Contents.column "id" row = .ok (.int k) := by
  rw [Contents.column, rowNumber_eq_some.mp h]

theorem updateRows_eq {rows : List Order.Row} (h : ∀ row ∈ rows, ∃ k, rowNumber row = some k) (n : Int)
    (values : Order.Row) :
    Contents.updateRows (.int n) values rows =
      .ok (rows.map fun row => if rowNumber row = some n then Contents.overwrite row values else row) := by
  induction rows with
  | nil => rfl
  | cons row rows ih =>
    obtain ⟨k, hk⟩ := h row List.mem_cons_self
    have hrest := ih fun row' hrow' => h row' (List.mem_cons_of_mem _ hrow')
    simp only [Contents.updateRows, column_id hk, Value.equal_int, Except.bind, hrest, Except.map, List.map_cons,
      hk, decide_eq_true_eq, Option.some.injEq]

theorem lookupRows_eq {rows : List Order.Row} (h : ∀ row ∈ rows, ∃ k, rowNumber row = some k) (n : Int) :
    Contents.lookupRows .id (.int n) rows = .ok (rows.filter fun row => rowNumber row = some n) := by
  induction rows with
  | nil => rfl
  | cons row rows ih =>
    obtain ⟨k, hk⟩ := h row List.mem_cons_self
    have hcolumn : Contents.column LookupColumn.id.name row = .ok (.int k) := column_id hk
    have hrest := ih fun row' hrow' => h row' (List.mem_cons_of_mem _ hrow')
    have hfound : ((Value.int k).display == (Value.int n).display) = decide (k = n) := by
      rw [Bool.eq_iff_iff, beq_iff_eq, decide_eq_true_eq]
      exact ⟨Value.display_int, fun hkn => by rw [hkn]⟩
    simp only [Contents.lookupRows, hcolumn, Contents.isFound, hfound, Except.bind, hrest, Except.map,
      List.filter_cons, hk, decide_eq_true_eq, Option.some.injEq]

theorem updateRows (h : Numbering numbers db) (n : Int) (values : Order.Row) :
    Contents.updateRows (.int n) values db.contents.orders =
      .ok (db.contents.orders.map fun row =>
        if rowNumber row = some n then Contents.overwrite row values else row) := by
  apply updateRows_eq
  intro row hrow
  obtain ⟨k, -, hk⟩ := h.exists_number hrow
  exact ⟨k, hk⟩

theorem lookupRows (h : Numbering numbers db) (n : Int) :
    Contents.lookupRows .id (.int n) db.contents.orders =
      .ok (db.contents.orders.filter fun row => rowNumber row = some n) := by
  apply lookupRows_eq
  intro row hrow
  obtain ⟨k, -, hk⟩ := h.exists_number hrow
  exact ⟨k, hk⟩

theorem lookupRows_known (h : Numbering numbers db) {row : Order.Row} {n : Int}
    (hrow : row ∈ db.contents.orders) (hn : rowNumber row = some n) :
    ∃ rest, Contents.lookupRows .id (.int n) db.contents.orders = .ok (row :: rest) := by
  obtain ⟨rest, hrest⟩ := filter_eq_cons (p := fun row => rowNumber row = some n) hrow
    (decide_eq_true hn) fun row' hrow' hn' =>
      h.eq_of_rowNumber_eq hrow' hrow ((of_decide_eq_true hn').trans hn.symm)
  exact ⟨rest, by rw [h.lookupRows, hrest]⟩

theorem lookupRows_unknown (h : Numbering numbers db) {n : Int}
    (hn : ∀ row ∈ db.contents.orders, rowNumber row ≠ some n) :
    Contents.lookupRows .id (.int n) db.contents.orders = .ok [] := by
  rw [h.lookupRows, List.filter_eq_nil_iff.mpr]
  intro row hrow
  rw [decide_eq_true_eq]
  exact hn row hrow

end Numbering

/-! ## The main write -/

variable {tables : Tables} {o r : Order} {stamp : Timestamp} {columns : Order.Row} {db db' : Database}
  {rows : List Order.Row} {numbers : List Nat}

theorem Numbering.mainWrite_known (h : Numbering numbers db) {n : Int} (hid : o.id = .int n)
    (hcolumns : savedColumns o stamp = .ok columns)
    (hw : db.execute (mainWrite tables o columns) = (.ok rows, db')) :
    db'.contents.orders = (db.contents.orders.map fun row =>
      if rowNumber row = some n then
        Contents.overwrite row (columns ++ ([("id", .int n)] : Order.Row))
      else row) ∧ db'.nextId = db.nextId := by
  obtain ⟨hupdate, hn⟩ := Storage.mainWrite_known hcolumns (isPersisted_known hid) hw
  rw [hid, h.updateRows] at hupdate
  injection hupdate with hupdate
  exact ⟨hupdate.symm, hn⟩

theorem Numbering.mainWrite (h : Numbering numbers db) (ho : o.Numbered)
    (hcolumns : savedColumns o stamp = .ok columns)
    (hw : db.execute (mainWrite tables o columns) = (.ok rows, db')) :
    ∃ numbers', Numbering numbers' db' := by
  rcases ho with hid | ⟨n, hid⟩
  · obtain ⟨horders, hn⟩ := mainWrite_new (isPersisted_new hid) hw
    exact ⟨_, h.issue (rowNumber_put _ _) horders hn⟩
  · obtain ⟨horders, hn⟩ := h.mainWrite_known hid hcolumns hw
    refine ⟨numbers, h.rewrite ?_ horders hn⟩
    intro row
    split
    · rename_i hnumber
      rw [hnumber]
      exact rowNumber_eq_some.mpr (get?_overwrite_concat row columns "id" (.int n))
    · rfl

theorem SaveRun.numbering {w : World} {history : List Saved} (hw : SaveRun tables w history) :
    ∃ numbers, Numbering numbers w.database := by
  induction hw with
  | start hc hk => exact ⟨[], .empty hc⟩
  | @saved w history o r hw ho hr ih =>
    obtain ⟨numbers, h⟩ := ih
    obtain ⟨stamp, columns, db, -, -, hcolumns, hrun, -, hc, -, hn⟩ := Action.save_ok hr
    obtain ⟨rows, db₁, hexecute, hside⟩ := writing_ok hrun
    obtain ⟨numbers₁, h₁⟩ := h.mainWrite ho hcolumns hexecute
    obtain ⟨numbers₂, h₂⟩ := h₁.sideWrite hside
    exact ⟨numbers₂, h₂.of_orders_eq (congrArg Contents.orders hc) (Nat.le_of_eq hn.symm)⟩
  | failed hw he ih =>
    obtain ⟨numbers, h⟩ := ih
    obtain ⟨hc, hn⟩ := save_failed_contents hw.settled he
    exact ⟨numbers, h.of_orders_eq (congrArg Contents.orders hc) hn⟩
  | elsewhere hw hc hk hn ih =>
    obtain ⟨numbers, h⟩ := ih
    exact ⟨numbers, h.of_orders_eq (congrArg Contents.orders hc) hn⟩

/-! ## The row of a saved order -/

structure IsVersion (row : Order.Row) (r : Order) : Prop where
  id : row.get? "id" = some r.id
  type : row.get? "type" = some (.text r.type)
  status : row.get? "status" = some (.text r.status)
  amount : row.get? "amount" = some (.decimal r.amount)
  currency : row.get? "currency" = some r.currency
  buyer : row.get? "buyer_id" = some (if r.buyerId.isNull then .null else .text r.buyerId.keyText)
  attributes : ∃ t, Column.encodeEntries r.attributes = .ok t ∧ row.get? "attributes_json" = some (.text t)
  relations : ∃ t, Column.encodeEntries r.relations = .ok t ∧ row.get? "relations_json" = some (.text t)
  indexedFields : ∃ t, Column.encodeEntries r.indexedFields = .ok t ∧
    row.get? "indexed_fields_json" = some (.text t)
  updatedAt : row.get? "updated_at" = some (.text r.updatedAt.text)

theorem isVersion_of_columns {row : Order.Row} (hcolumns : savedColumns r r.updatedAt = .ok columns)
    (hid : row.get? "id" = some r.id) (h : ∀ e ∈ columns, row.get? e.1 = some e.2) : IsVersion row r := by
  obtain ⟨attributes, relations, indexedFields, ha, hr, hi, rfl⟩ := savedColumns_ok hcolumns
  simp only [writtenColumns, List.forall_mem_cons] at h
  obtain ⟨htype, hstatus, hamount, hcurrency, hbuyer, hattributes, hrelations, hindexed, hupdated, -⟩ := h
  exact
    { id := hid
      type := htype
      status := hstatus
      amount := hamount
      currency := hcurrency
      buyer := hbuyer
      attributes := ⟨attributes, ha, hattributes⟩
      relations := ⟨relations, hr, hrelations⟩
      indexedFields := ⟨indexedFields, hi, hindexed⟩
      updatedAt := hupdated }

theorem isVersion_inserted (hcolumns : savedColumns o stamp = .ok columns) (k : Nat) :
    IsVersion (Named.put "id" (.int k) (columns ++
        ([("order_no", .text o.orderNo), ("created_at", .text o.createdAt.text)] : Order.Row)))
      { o with id := .int k, updatedAt := stamp } := by
  have hversion : savedColumns { o with id := .int k, updatedAt := stamp } stamp = .ok columns := hcolumns
  apply isVersion_of_columns hversion (rowNumber_eq_some.mp (Numbering.rowNumber_put _ _))
  obtain ⟨attributes, relations, indexedFields, -, -, -, rfl⟩ := savedColumns_ok hcolumns
  simp only [writtenColumns, List.forall_mem_cons]
  exact ⟨rfl, rfl, rfl, rfl, rfl, rfl, rfl, rfl, rfl, by simp⟩

theorem isVersion_overwritten (hcolumns : savedColumns o stamp = .ok columns) (row : Order.Row) (n : Int) :
    IsVersion (Contents.overwrite row (columns ++ ([("id", .int n)] : Order.Row)))
      { o with id := .int n, updatedAt := stamp } := by
  have hnames : ((columns ++ ([("id", .int n)] : Order.Row)).map Prod.fst).Nodup := by
    obtain ⟨attributes, relations, indexedFields, -, -, -, rfl⟩ := savedColumns_ok hcolumns
    exact (by decide : (updatedColumns ++ ([("id" : Text)])).Nodup)
  have hversion : savedColumns { o with id := .int n, updatedAt := stamp } stamp = .ok columns := hcolumns
  apply isVersion_of_columns hversion (get?_overwrite_concat row columns "id" (.int n))
  intro e he
  exact get?_overwrite hnames (List.mem_append_left _ he) row

theorem Numbering.mem_mainWrite_new (h : Numbering numbers db) (ho : o.id = .null)
    (hcolumns : savedColumns o stamp = .ok columns)
    (hw : db.execute (Operation.mainWrite tables o columns) = (.ok rows, db')) {row : Order.Row} {n : Int}
    (hrow : row ∈ db'.contents.orders) (hn : rowNumber row = some n) :
    ((db.nextId : Int) = n ∧ IsVersion row { o with id := .int n, updatedAt := stamp }) ∨
      ((db.nextId : Int) ≠ n ∧ row ∈ db.contents.orders) := by
  rw [(mainWrite_new (isPersisted_new ho) hw).1] at hrow
  rcases List.mem_append.mp hrow with hrow | hrow
  · obtain ⟨k, hk, hnumber⟩ := h.exists_number hrow
    have hlt := h.issued k hk
    rw [hn] at hnumber
    injection hnumber with hnumber
    exact .inr ⟨by omega, hrow⟩
  · rw [List.mem_singleton.mp hrow] at hn ⊢
    have hnumber := (rowNumber_put _ db.nextId).symm.trans hn
    injection hnumber with hnumber
    rw [← hnumber]
    exact .inl ⟨rfl, isVersion_inserted hcolumns _⟩

theorem Numbering.mem_mainWrite_known (h : Numbering numbers db) {m : Int} (ho : o.id = .int m)
    (hcolumns : savedColumns o stamp = .ok columns)
    (hw : db.execute (Operation.mainWrite tables o columns) = (.ok rows, db')) {row : Order.Row} {n : Int}
    (hrow : row ∈ db'.contents.orders) (hn : rowNumber row = some n) :
    (m = n ∧ IsVersion row { o with id := .int n, updatedAt := stamp }) ∨
      (m ≠ n ∧ row ∈ db.contents.orders) := by
  rw [(h.mainWrite_known ho hcolumns hw).1] at hrow
  obtain ⟨row, hmem, rfl⟩ := List.mem_map.mp hrow
  by_cases hnumber : rowNumber row = some m
  · rw [if_pos hnumber] at hn ⊢
    have hkeep := rowNumber_eq_some.mpr (get?_overwrite_concat row columns "id" (.int m))
    have hmn := hkeep.symm.trans hn
    injection hmn with hmn
    rw [← hmn]
    exact .inl ⟨rfl, isVersion_overwritten hcolumns row m⟩
  · rw [if_neg hnumber] at hn ⊢
    exact .inr ⟨fun hmn => hnumber (hmn ▸ hn), hmem⟩

theorem Numbering.mem_mainWrite (h : Numbering numbers db) (ho : o.Numbered)
    (hcolumns : savedColumns o stamp = .ok columns)
    (hw : db.execute (Operation.mainWrite tables o columns) = (.ok rows, db')) {row : Order.Row} {n : Int}
    (hrow : row ∈ db'.contents.orders) (hn : rowNumber row = some n) :
    (savedId o db.nextId = .int n ∧ IsVersion row { o with id := .int n, updatedAt := stamp }) ∨
      (savedId o db.nextId ≠ .int n ∧ row ∈ db.contents.orders) := by
  rcases ho with ho | ⟨m, ho⟩
  · rw [savedId_new ho, ne_eq, Value.int.injEq]
    exact h.mem_mainWrite_new ho hcolumns hw hrow hn
  · rw [savedId_known ho, ne_eq, Value.int.injEq]
    exact h.mem_mainWrite_known ho hcolumns hw hrow hn

theorem IsVersion.load {row : Order.Row} (h : IsVersion row r) {no : Text} {created : Timestamp}
    (hno : row.get? "order_no" = some (.text no))
    (hcreated : row.get? "created_at" = some (.text created.text)) (hs : r.Storable)
    (hc : 1000 ≤ created.date.year) (hu : 1000 ≤ r.updatedAt.date.year) (now : WallClock) :
    (Order.ofRow now row).result = .ok { r with orderNo := no, createdAt := created } := by
  obtain ⟨attributes, ha, hattributes⟩ := h.attributes
  obtain ⟨relations, hr, hrelations⟩ := h.relations
  obtain ⟨indexedFields, hi, hindexed⟩ := h.indexedFields
  let p : Order := { r with orderNo := no, createdAt := created }
  let canonical := storedRow p (writtenColumns r r.updatedAt attributes relations indexedFields)
  have hcanonical : IsRowOf canonical p := ⟨_, savedColumns_eq ha hr hi, rfl⟩
  have hp : p.Storable :=
    ⟨hs.currency, hs.buyer, hs.amount, hc, hs.attributes, hs.relations, hs.indexedFields⟩
  have hrow : Order.ofRow now row = Order.ofRow now canonical := by
    apply ofRow_congr
    · simp only [Order.plainColumns, List.forall_mem_cons]
      exact ⟨h.id, hno, h.type, h.status, h.amount, h.currency, h.buyer, hcreated, h.updatedAt, by simp⟩
    · simp only [Order.documentColumns, List.forall_mem_cons]
      exact ⟨hattributes, hrelations, hindexed, by simp⟩
  rw [hrow]
  exact ofRow_result hcanonical hp hu now

/-! ## One save -/

section

variable {w : World}

theorem save_new_kept (ho : o.id = .null) (hr : (Action.save tables o w).1 = .ok r) :
    ∃ row ∈ (Action.save tables o w).2.database.contents.orders, IsVersion row r := by
  obtain ⟨stamp, columns, db, -, -, hcolumns, hrun, rfl, hc, -⟩ := Action.save_ok hr
  obtain ⟨rows, db₁, hexecute, hside⟩ := writing_ok hrun
  have horders := (mainWrite_new (isPersisted_new ho) hexecute).1
  rw [hc, (hside.of_nonempty (by rw [horders]; simp)).1, horders, savedId_new ho]
  exact ⟨_, List.mem_append_right _ (List.mem_singleton_self _), isVersion_inserted hcolumns _⟩

theorem save_known_kept (h : Numbering numbers w.database) {n : Int} (ho : o.id = .int n)
    (hr : (Action.save tables o w).1 = .ok r) {row : Order.Row} (hrow : row ∈ w.database.contents.orders)
    (hn : rowNumber row = some n) :
    ∃ row' ∈ (Action.save tables o w).2.database.contents.orders, IsVersion row' r := by
  obtain ⟨stamp, columns, db, -, -, hcolumns, hrun, rfl, hc, -⟩ := Action.save_ok hr
  obtain ⟨rows, db₁, hexecute, hside⟩ := writing_ok hrun
  have horders := (h.mainWrite_known ho hcolumns hexecute).1
  have hne : db₁.contents.orders ≠ [] := by
    rw [horders]
    exact fun hnil => List.ne_nil_of_mem hrow (List.map_eq_nil_iff.mp hnil)
  rw [hc, (hside.of_nonempty hne).1, horders, savedId_known ho]
  refine ⟨_, List.mem_map.mpr ⟨row, hrow, if_pos hn⟩, isVersion_overwritten hcolumns row n⟩

theorem mainWrite_unknown (h : Numbering numbers db) {n : Int} (ho : o.id = .int n)
    (hcolumns : savedColumns o stamp = .ok columns)
    (hn : ∀ row ∈ db.contents.orders, rowNumber row ≠ some n)
    (hw : db.execute (mainWrite tables o columns) = (.ok rows, db')) :
    db'.contents.orders = db.contents.orders ∧ db'.nextId = db.nextId := by
  obtain ⟨horders, hnext⟩ := h.mainWrite_known ho hcolumns hw
  refine ⟨?_, hnext⟩
  rw [horders]
  exact (List.map_congr_left fun row hrow => if_neg (hn row hrow)).trans (List.map_id' _)

theorem save_unknown_lost (h : Numbering numbers w.database) {n : Int} (ho : o.id = .int n)
    (hr : (Action.save tables o w).1 = .ok r)
    (hn : ∀ row ∈ w.database.contents.orders, rowNumber row ≠ some n) {row : Order.Row}
    (hrow : row ∈ (Action.save tables o w).2.database.contents.orders) : ¬ IsVersion row r := by
  intro hversion
  have hid : r.id = .int n := (save_returned hr).trans (savedId_known ho _)
  obtain ⟨stamp, columns, db, -, -, hcolumns, hrun, -, hc, -⟩ := Action.save_ok hr
  obtain ⟨rows, db₁, hexecute, hside⟩ := writing_ok hrun
  have hsame := (mainWrite_unknown h ho hcolumns hn hexecute).1
  rw [hc] at hrow
  rcases hside with ⟨horders, -⟩ | ⟨-, -, t, horders⟩
  · rw [horders, hsame] at hrow
    exact hn row hrow (rowNumber_eq_some.mpr (hversion.id.trans (congrArg some hid)))
  · -- The only row is a triple, which has no column for a type.
    rw [horders] at hrow
    have htype := hversion.type
    rw [List.mem_singleton.mp hrow] at htype
    cases htype

theorem save_kept_iff (h : Numbering numbers w.database) (ho : o.Numbered)
    (hr : (Action.save tables o w).1 = .ok r) :
    (∃ row ∈ (Action.save tables o w).2.database.contents.orders, IsVersion row r) ↔
      o.id = .null ∨ ∃ row ∈ w.database.contents.orders, row.get? "id" = some o.id := by
  rcases ho with hnull | ⟨m, hm⟩
  · exact iff_of_true (save_new_kept hnull hr) (.inl hnull)
  · rw [hm]
    by_cases hknown : ∃ row ∈ w.database.contents.orders, rowNumber row = some m
    · obtain ⟨row, hrow, hnumber⟩ := hknown
      exact iff_of_true (save_known_kept h hm hr hrow hnumber)
        (.inr ⟨row, hrow, rowNumber_eq_some.mp hnumber⟩)
    · simp only [not_exists, not_and] at hknown
      apply iff_of_false
      · rintro ⟨row, hrow, hversion⟩
        exact save_unknown_lost h hm hr hknown hrow hversion
      · rintro (hnull | ⟨row, hrow, hnumber⟩)
        · cases hnull
        · exact hknown row hrow (rowNumber_eq_some.mpr hnumber)

theorem save_unknown_unchanged (ht : tables.Apart) (h : Numbering numbers w.database) {n : Int}
    (ho : o.id = .int n) (hr : (Action.save tables o w).1 = .ok r)
    (hn : ∀ row ∈ w.database.contents.orders, rowNumber row ≠ some n) :
    (Action.save tables o w).2.database.contents.orders = w.database.contents.orders := by
  obtain ⟨stamp, columns, db, -, -, hcolumns, hrun, -, hc, -⟩ := Action.save_ok hr
  obtain ⟨⟨rows, db₁, hexecute, horders⟩, -⟩ := writing_contents ht hrun
  rw [hc, horders]
  exact (mainWrite_unknown h ho hcolumns hn hexecute).1

end

theorem find_row (h : Numbering numbers db) {row : Order.Row} (hrow : row ∈ db.contents.orders) {n : Int}
    (hn : rowNumber row = some n) {v : World} (hc : v.database.contents = db.contents)
    (hp : v.isOpen = true) (hf : v.database.faults = .none) :
    (Action.find tables .id (.int n) v).1 = (Order.ofRow v.now row).result.map some := by
  obtain ⟨rest, hrows⟩ := h.lookupRows_known hrow hn
  rw [← hc] at hrows
  rw [Action.find_result tables hp hf hrows]
  cases row with
  | nil => cases hn
  | cons c row =>
    rw [Action.firstOrder]
    intro hnil
    cases hnil

theorem find_unknown (h : Numbering numbers db) {n : Int}
    (hn : ∀ row ∈ db.contents.orders, rowNumber row ≠ some n) {v : World}
    (hc : v.database.contents = db.contents) (hp : v.isOpen = true) (hf : v.database.faults = .none) :
    (Action.find tables .id (.int n) v).1 = .ok none := by
  have hrows := h.lookupRows_unknown hn
  rw [← hc] at hrows
  rw [Action.find_result tables hp hf hrows]
  rfl

/-- A save that returns leaves a row of the order behind exactly if the order was new or had a row before.
That row is the one that is found. Otherwise the orders are as before, and nothing is found. -/
theorem save_keeps_row_iff {w : World} {history : List Saved} (hw : SaveRun tables w history)
    (ho : o.Numbered) (hr : (Action.save tables o w).1 = .ok r) {v : World}
    (hc : v.database.contents = (Action.save tables o w).2.database.contents) (hp : v.isOpen = true)
    (hf : v.database.faults = .none) :
    ((∃ row ∈ v.database.contents.orders, IsVersion row r) ↔
      o.id = .null ∨ ∃ row ∈ w.database.contents.orders, row.get? "id" = some o.id) ∧
    (∀ row ∈ v.database.contents.orders, IsVersion row r →
      (Action.find tables .id r.id v).1 = (Order.ofRow v.now row).result.map some ∧
      ∀ (no : Text) (created : Timestamp), row.get? "order_no" = some (.text no) →
        row.get? "created_at" = some (.text created.text) → r.Storable →
        1000 ≤ created.date.year → 1000 ≤ r.updatedAt.date.year →
        (Action.find tables .id r.id v).1 = .ok (some { r with orderNo := no, createdAt := created })) ∧
    (tables.Apart → o.id ≠ .null → (∀ row ∈ w.database.contents.orders, row.get? "id" ≠ some o.id) →
      v.database.contents.orders = w.database.contents.orders ∧
      (Action.find tables .id r.id v).1 = .ok none) := by
  -- The rows are numbered before the save and after it, and the number of the order settles what is found.
  obtain ⟨numbers, h⟩ := hw.numbering
  obtain ⟨numbers', h'⟩ := (SaveRun.saved hw ho hr).numbering
  obtain ⟨n, hid⟩ := savedId_eq_int ho w.database.nextId
  rw [← save_returned hr] at hid
  refine ⟨?_, ?_, ?_⟩
  · rw [hc]
    exact save_kept_iff h ho hr
  · intro row hrow hversion
    have hnumber : rowNumber row = some n := rowNumber_eq_some.mpr (hversion.id.trans (congrArg some hid))
    rw [hc] at hrow
    have hfind : (Action.find tables .id (.int n) v).1 = (Order.ofRow v.now row).result.map some :=
      find_row h' hrow hnumber hc hp hf
    rw [← hid] at hfind
    refine ⟨hfind, ?_⟩
    intro no created hno hcreated hs hy hu
    rw [hfind, hversion.load hno hcreated hs hy hu]
    rfl
  · intro ht hne hunknown
    rcases ho with hnull | ⟨m, hm⟩
    · exact absurd hnull hne
    · have hrows : ∀ row ∈ w.database.contents.orders, rowNumber row ≠ some m := by
        intro row hrow hnumber
        exact hunknown row hrow ((rowNumber_eq_some.mp hnumber).trans (congrArg some hm.symm))
      have hsame := save_unknown_unchanged ht h hm hr hrows
      have hreturned : r.id = .int m := (save_returned hr).trans (savedId_known hm _)
      refine ⟨by rw [hc, hsame], ?_⟩
      rw [hreturned]
      apply find_unknown h' _ hc hp hf
      rw [hsame]
      exact hrows

set_option maxRecDepth 8000 in
theorem save_keeps_row_iff_new :
    let stamp : Timestamp := ⟨⟨2024, 1, 31, by decide⟩, .midnight⟩
    let start : World := ⟨.ofTimestamp stamp, [], .empty, true, []⟩
    let r := { unsaved stamp with id := .int 1 }
    let w := (Action.save .default (unsaved stamp) start).2
    SaveRun .default start [] ∧ (Action.save .default (unsaved stamp) start).1 = .ok r ∧
      ∃ row ∈ w.database.contents.orders, IsVersion row r ∧
        (Action.find .default .id (.int 1) w).1 = (Order.ofRow w.now row).result.map some := by
  intro stamp start r w
  have hstart : SaveRun .default start [] := .start rfl rfl
  have hr : (Action.save .default (unsaved stamp) start).1 = .ok r := rfl
  have hkeeps := save_keeps_row_iff (v := w) hstart (.inl rfl) hr rfl rfl rfl
  obtain ⟨row, hrow, hversion⟩ := hkeeps.1.mpr (.inl rfl)
  exact ⟨hstart, hr, row, hrow, hversion, (hkeeps.2.1 row hrow hversion).1⟩

set_option maxRecDepth 8000 in
theorem unknown_order_lost :
    let stamp : Timestamp := ⟨⟨2024, 1, 31, by decide⟩, .midnight⟩
    let start : World := ⟨.ofTimestamp stamp, [], .empty, true, []⟩
    let o := { unsaved stamp with id := .int 7, relations := [] }
    let w := (Action.save .default o start).2
    SaveRun .default start [] ∧ o.Numbered ∧ (Action.save .default o start).1 = .ok o ∧
      (¬ ∃ row ∈ w.database.contents.orders, IsVersion row o) ∧
      (Action.find .default .id (.int 7) w).1 = .ok none := by
  intro stamp start o w
  refine ⟨.start rfl rfl, .inr ⟨7, rfl⟩, rfl, ?_, rfl⟩
  rintro ⟨row, hrow, -⟩
  have hnil : w.database.contents.orders = [] := rfl
  rw [hnil] at hrow
  cases hrow

end OrderStore.Storage
