import OrderStore.Proofs.Except
import OrderStore.Proofs.Storage.Saving
import OrderStore.Proofs.Storage.StoredRow
/-!
What the writes of a save do to the table of orders: the main write changes it, and the triples leave
it alone.
-/

namespace OrderStore.Storage

open Sql Operation

theorem Contents.column_eq_ok {name : Text} {row : Order.Row} {v : Value}
    (h : column name row = .ok v) : row.get? name = some v := by
  rw [column] at h
  split at h
  · cases h
    assumption
  · cases h

theorem get?_overwrite_of_not_mem {name : Text} {values : Order.Row} (h : name ∉ values.map Prod.fst)
    (row : Order.Row) : (Contents.overwrite row values).get? name = row.get? name := by
  induction values generalizing row with
  | nil => rfl
  | cons e values ih =>
    rw [List.map_cons, List.mem_cons, not_or] at h
    change (Contents.overwrite (row.put e.1 e.2) values).get? name = _
    rw [ih h.2]
    exact (Assoc.get?_put _ _ _ _).trans (if_neg (Ne.symm h.1))

theorem get?_overwrite {values : Order.Row} (hn : (values.map Prod.fst).Nodup) {e : Text × Value}
    (he : e ∈ values) (row : Order.Row) : (Contents.overwrite row values).get? e.1 = some e.2 := by
  induction values generalizing row with
  | nil => cases he
  | cons e' values ih =>
    rw [List.map_cons, List.nodup_cons] at hn
    change (Contents.overwrite (row.put e'.1 e'.2) values).get? e.1 = _
    rcases List.mem_cons.mp he with rfl | he
    · rw [get?_overwrite_of_not_mem hn.1]
      exact (Assoc.get?_put _ _ _ _).trans (if_pos rfl)
    · exact ih hn.2 he _

theorem get?_overwrite_concat (row values : Order.Row) (name : Text) (v : Value) :
    (Contents.overwrite row (values ++ [(name, v)])).get? name = some v := by
  rw [Contents.overwrite, List.foldl_append]
  exact (Assoc.get?_put name name v _).trans (if_pos rfl)

theorem Database.execute_ok {s : Statement} {db db' : Database} {rows : List Order.Row}
    (h : db.execute s = (.ok rows, db')) :
    ∃ db₁ : Database,
      db₁.contents = db.contents ∧ db₁.nextId = db.nextId ∧ db₁.perform s = (.ok rows, db') := by
  have hc := check_contents (s.text.squeeze) db
  have hn := check_nextId (s.text.squeeze) db
  rw [execute] at h
  generalize db.check (s.text.squeeze) = c at h hc hn
  obtain ⟨r, db₁⟩ := c
  cases r with
  | error e => cases h
  | ok _ => exact ⟨db₁, hc, hn, h⟩

theorem Database.change_ok {db db' : Database} {x : Except Error Contents} {rows : List Order.Row}
    (h : db.change x = (.ok rows, db')) : ∃ c, x = .ok c ∧ db' = { db with contents := c } := by
  cases x with
  | error e => cases h
  | ok c =>
    cases h
    exact ⟨c, rfl, rfl⟩

theorem Contents.insertOrder_without (id : Nat) {row : Order.Row} {c : Contents} (hne : c.orders ≠ [])
    (hrow : row.get? "order_no" = none) : ∃ e, c.insertOrder id row = .error e := by
  cases h : c.insertOrder id row with
  | error e => exact ⟨e, rfl⟩
  | ok c' =>
    obtain ⟨b, hb, -⟩ := bind_eq_ok.mp h
    cases hc : c.orders with
    | nil => exact absurd hc hne
    | cons r rows =>
      rw [hc] at hb
      obtain ⟨v, -, hb⟩ := bind_eq_ok.mp hb
      obtain ⟨v', hv, -⟩ := bind_eq_ok.mp hb
      rw [column, hrow] at hv
      cases hv

theorem Contents.insertOrder_ok {id : Nat} {row : Order.Row} {c c' : Contents}
    (h : c.insertOrder id row = .ok c') :
    Contents.hasOrderNoOf row c.orders = .ok false ∧ c'.orders = c.orders ++ [row.put "id" (.int id)] := by
  obtain ⟨b, hb, h⟩ := bind_eq_ok.mp h
  cases b with
  | true => cases h
  | false =>
    cases h
    exact ⟨hb, rfl⟩

theorem insertOrder_execute {orders : TableName} {row : Order.Row} {db db' : Database}
    {rows : List Order.Row} (h : db.execute (.insertOrder orders row) = (.ok rows, db')) :
    Contents.hasOrderNoOf row db.contents.orders = .ok false ∧
      db'.contents.orders = db.contents.orders ++ [row.put "id" (.int db.nextId)] ∧
      db'.nextId = db.nextId + 1 := by
  obtain ⟨db₁, hc, hn, hp⟩ := Database.execute_ok h
  simp only [Database.perform, Database.insertRow, hc, hn] at hp
  cases hi : db.contents.insertOrder db.nextId row with
  | error e =>
    rw [hi] at hp
    cases hp
  | ok c =>
    rw [hi] at hp
    obtain ⟨hno, horders⟩ := Contents.insertOrder_ok hi
    cases hp
    exact ⟨hno, horders, rfl⟩

theorem updateOrder_execute {orders : TableName} {row : Order.Row} {db db' : Database} {id : Value}
    {rows : List Order.Row} (hid : Contents.column "id" row = .ok id)
    (h : db.execute (.updateOrder orders row) = (.ok rows, db')) :
    Contents.updateRows id row db.contents.orders = .ok db'.contents.orders ∧ db'.nextId = db.nextId := by
  obtain ⟨db₁, hc, hn, hp⟩ := Database.execute_ok h
  obtain ⟨c, hupdate, rfl⟩ := Database.change_ok hp
  obtain ⟨v, hv, hupdate⟩ := bind_eq_ok.mp hupdate
  rw [hid] at hv
  cases hv
  obtain ⟨orders', horders, hupdate⟩ := bind_eq_ok.mp hupdate
  cases hupdate
  rw [hc] at horders
  exact ⟨horders, hn⟩

theorem mainWrite_new {tables : Tables} {o : Order} {columns : Order.Row} {db db' : Database}
    {rows : List Order.Row} (ho : o.isPersisted = false)
    (h : db.execute (mainWrite tables o columns) = (.ok rows, db')) :
    db'.contents.orders = db.contents.orders ++ [Named.put "id" (.int db.nextId) (columns ++
      ([("order_no", .text o.orderNo), ("created_at", .text o.createdAt.text)] : Order.Row))] ∧
      db'.nextId = db.nextId + 1 := by
  rw [mainWrite, ho] at h
  exact (insertOrder_execute h).2

theorem mainWrite_known {tables : Tables} {o : Order} {stamp : Timestamp} {columns : Order.Row}
    {db db' : Database} {rows : List Order.Row} (hcolumns : savedColumns o stamp = .ok columns)
    (ho : o.isPersisted = true) (h : db.execute (mainWrite tables o columns) = (.ok rows, db')) :
    Contents.updateRows o.id (columns ++ ([("id", o.id)] : Order.Row)) db.contents.orders =
      .ok db'.contents.orders ∧ db'.nextId = db.nextId := by
  have hid : Contents.column "id" (columns ++ ([("id", o.id)] : Order.Row)) = .ok o.id := by
    obtain ⟨attributes, relations, indexedFields, -, -, -, rfl⟩ := savedColumns_ok hcolumns
    rfl
  rw [mainWrite, ho] at h
  exact updateOrder_execute hid h

/-- What a write to a side table does to the orders: nothing, or it puts a triple into the table, if both
tables are one and it was empty. -/
def SideWrite (db db' : Database) : Prop :=
  (db'.contents.orders = db.contents.orders ∧ db'.nextId = db.nextId) ∨
  (db.contents.orders = [] ∧ db'.nextId = db.nextId + 1 ∧
    ∃ t : Triple, db'.contents.orders = [Named.put "id" (.int db.nextId) t.params])

namespace SideWrite

variable {db db₁ db₂ : Database}

theorem refl (db : Database) : SideWrite db db := .inl ⟨rfl, rfl⟩

theorem of_nonempty (h : SideWrite db db₁) (hne : db.contents.orders ≠ []) :
    db₁.contents.orders = db.contents.orders ∧ db₁.nextId = db.nextId := by
  rcases h with h | ⟨hnil, -⟩
  · exact h
  · exact absurd hnil hne

theorem trans (h₁ : SideWrite db db₁) (h₂ : SideWrite db₁ db₂) : SideWrite db db₂ := by
  rcases h₁ with ⟨horders, hn⟩ | ⟨hnil, hn, t, horders⟩
  · rw [SideWrite, horders, hn] at h₂
    exact h₂
  · obtain ⟨horders', hn'⟩ := h₂.of_nonempty (by rw [horders]; simp)
    exact .inr ⟨hnil, hn'.trans hn, t, horders'.trans horders⟩

end SideWrite

namespace Operation

theorem run_statement_ok {s : Statement} {db db' : Database}
    (h : (statement s).run db = (.ok (), db')) : ∃ rows, db.execute s = (.ok rows, db') := by
  simp only [run, Prod.mk.injEq] at h
  obtain ⟨rows, hr, -⟩ := map_eq_ok.mp h.1
  exact ⟨rows, Prod.ext hr h.2⟩

theorem run_addTriple_ok {name : TableName} {target : Option Side} {t : Triple} {db db' : Database}
    (h : (addTriple name target t).run db = (.ok (), db')) :
    ∃ db₁ : Database, db₁.contents = db.contents ∧ db₁.nextId = db.nextId ∧
      db₁.insertTriple target t = (.ok (), db') := by
  have hc := Database.check_contents ((insertTripleText name).squeeze) db
  have hn := Database.check_nextId ((insertTripleText name).squeeze) db
  rw [run] at h
  generalize db.check ((insertTripleText name).squeeze) = c at h hc hn
  obtain ⟨r, db₁⟩ := c
  cases r with
  | error e => cases h
  | ok _ => exact ⟨db₁, hc, hn, h⟩

theorem deletePairs_sideWrite {name : TableName} {target : Option Side} {orderId : Value}
    {db db' : Database} (h : (statement (.deletePairs name target orderId)).run db = (.ok (), db')) :
    SideWrite db db' := by
  obtain ⟨rows, hr⟩ := run_statement_ok h
  obtain ⟨db₁, hc, hn, hp⟩ := Database.execute_ok hr
  have horders := congrArg Contents.orders hc
  cases target with
  | none =>
    cases hp
    exact .inl ⟨horders, hn⟩
  | some side =>
    obtain ⟨c, hdelete, rfl⟩ := Database.change_ok hp
    obtain ⟨ts, -, rfl⟩ := map_eq_ok.mp hdelete
    exact .inl ⟨horders, hn⟩

theorem addTriple_sideWrite {name : TableName} {target : Option Side} {t : Triple} {db db' : Database}
    (h : (addTriple name target t).run db = (.ok (), db')) : SideWrite db db' := by
  obtain ⟨db₁, hc, hn, h⟩ := run_addTriple_ok h
  have horders := congrArg Contents.orders hc
  cases target with
  | some side =>
    cases h
    exact .inl ⟨horders, hn⟩
  | none =>
    simp only [Database.insertTriple, Database.insertRow, hc, hn] at h
    cases hi : db.contents.insertOrder db.nextId t.params with
    | error e =>
      rw [hi] at h
      cases h
    | ok c =>
      have hnil : db.contents.orders = [] := by
        by_contra hne
        have hrow : t.params.get? "order_no" = none := rfl
        obtain ⟨e, he⟩ := Contents.insertOrder_without db.nextId hne hrow
        rw [hi] at he
        cases he
      have horders := (Contents.insertOrder_ok hi).2
      rw [hnil] at horders
      rw [hi] at h
      cases h
      exact .inr ⟨hnil, rfl, t, horders⟩

theorem replacing_sideWrite {tables : Tables} {side : Side} {orderId : Value} {entries : Value.Entries}
    {op : Operation} (hop : op ∈ replacing tables side orderId entries) {db db' : Database}
    (h : op.run db = (.ok (), db')) : SideWrite db db' := by
  rcases List.mem_cons.mp hop with rfl | hop
  · exact deletePairs_sideWrite h
  · obtain ⟨t, -, rfl⟩ := List.mem_map.mp hop
    exact addTriple_sideWrite h

theorem runAll_sideWrite {ops : List Operation}
    (hops : ∀ op ∈ ops, ∀ {db db' : Database}, op.run db = (.ok (), db') → SideWrite db db')
    {db db' : Database} (h : runAll ops db = (.ok (), db')) : SideWrite db db' := by
  induction ops generalizing db with
  | nil =>
    cases h
    exact .refl _
  | cons op ops ih =>
    obtain ⟨db₁, hr, h⟩ := runAll_cons_ok h
    have hrest := ih (fun op' hop' => hops op' (List.mem_cons_of_mem _ hop')) h
    exact (hops op List.mem_cons_self hr).trans hrest

theorem writing_ok {tables : Tables} {o : Order} {row : Order.Row} {nextId : Nat} {db db' : Database}
    (h : runAll (writing tables o row nextId) db = (.ok (), db')) :
    ∃ rows db₁, db.execute (mainWrite tables o row) = (.ok rows, db₁) ∧ SideWrite db₁ db' := by
  obtain ⟨db₁, hm, h⟩ := runAll_cons_ok h
  obtain ⟨rows, hr⟩ := run_statement_ok hm
  refine ⟨rows, db₁, hr, runAll_sideWrite ?_ h⟩
  intro op hop db db' hrun
  rcases List.mem_append.mp hop with hop | hop
  · exact replacing_sideWrite hop hrun
  · exact replacing_sideWrite hop hrun

end Operation

end OrderStore.Storage
