import OrderStore.Proofs.Storage.Rows
import OrderStore.Proofs.Storage.SaveRun
import OrderStore.Proofs.Storage.StoredRow
import OrderStore.Proofs.Value.Integer

namespace OrderStore

open Sql

/-- Each of the three tables has a name of its own; blanks around a name do not count. -/
structure Sql.Tables.Apart (t : Tables) : Prop where
  relations : t.relations.key ≠ t.orders.key
  indexed : t.indexed.key ≠ t.orders.key
  sides : t.indexed.key ≠ t.relations.key

theorem Sql.Tables.Apart.target_eq {t : Tables} (h : t.Apart) (side : Side) : t.target side = some side := by
  apply t.target_eq_some side _ h.sides
  cases side with
  | relations => exact h.relations
  | indexed => exact h.indexed

def Order.entriesOf (o : Order) : Side → Value.Entries
  | .relations => o.relations
  | .indexed => o.indexedFields

namespace Storage

open Operation

def triplesOf (n : Int) (ts : List Triple) : List Triple :=
  ts.filter fun t => t.orderId.integer? = some n

def pairsOf (n : Int) (ts : List Triple) : Pairs := (triplesOf n ts).map fun t => (t.key, t.value)

def rowsOf (n : Int) (rows : List Order.Row) : List Order.Row :=
  rows.filter fun row => rowNumber row = some n

theorem triplesOf_append (n : Int) (ts us : List Triple) :
    triplesOf n (ts ++ us) = triplesOf n ts ++ triplesOf n us :=
  List.filter_append ts us

theorem triplesOf_cons (n : Int) (t : Triple) (ts : List Triple) :
    triplesOf n (t :: ts) = if t.orderId.integer? = some n then t :: triplesOf n ts else triplesOf n ts := by
  simp only [triplesOf, List.filter_cons, decide_eq_true_eq]

theorem triplesOf_triples (n m : Int) (ps : Pairs) :
    triplesOf m (triples (.int n) ps) = if n = m then triples (.int n) ps else [] := by
  induction ps with
  | nil => simp [triples, triplesOf]
  | cons p ps ih =>
    change triplesOf m (⟨.int n, p.1, p.2⟩ :: triples (.int n) ps) = _
    rw [triplesOf_cons, ih]
    by_cases h : n = m
    · simp [h, triples, Value.integer?]
    · simp [h, Value.integer?]

theorem map_pair_triples (id : Value) (ps : Pairs) :
    (triples id ps).map (fun t => (t.key, t.value)) = ps := by
  rw [triples, List.map_map]
  exact List.map_id ps

theorem triplesOf_otherTriples {n : Int} (m : Int) {ts others : List Triple}
    (h : Contents.otherTriples (.int n) ts = .ok others) :
    triplesOf m others = if n = m then [] else triplesOf m ts := by
  induction ts generalizing others with
  | nil =>
    cases h
    simp [triplesOf]
  | cons t ts ih =>
    obtain ⟨found, hfound, h⟩ := bind_eq_ok.mp h
    obtain ⟨rest, hrest, rfl⟩ := map_eq_ok.mp h
    have hstep := ih hrest
    rw [triplesOf_cons]
    by_cases ht : t.orderId.integer? = some m
    · rw [Value.integer?_eq_some.mp ht, Value.equal_int] at hfound
      cases hfound
      by_cases hmn : m = n
      · simp [hmn] at hstep ⊢
        exact hstep
      · simp [triplesOf_cons, ht, hmn, Ne.symm hmn] at hstep ⊢
        exact hstep
    · rw [if_neg ht]
      cases found with
      | true => exact hstep
      | false =>
        rw [← hstep]
        simp [triplesOf_cons, ht]

theorem mem_of_otherTriples {id : Value} {ts others : List Triple} {t : Triple}
    (h : Contents.otherTriples id ts = .ok others) (ht : t ∈ others) : t ∈ ts := by
  induction ts generalizing others with
  | nil =>
    cases h
    exact ht
  | cons u ts ih =>
    obtain ⟨found, -, h⟩ := bind_eq_ok.mp h
    obtain ⟨rest, hrest, rfl⟩ := map_eq_ok.mp h
    cases found with
    | true => exact List.mem_cons_of_mem _ (ih hrest ht)
    | false =>
      rcases List.mem_cons.mp ht with rfl | ht
      · exact List.mem_cons_self
      · exact List.mem_cons_of_mem _ (ih hrest ht)

namespace Operation

variable {db db' : Database}

theorem deletePairs_ok {name : TableName} {side : Side} {id : Value}
    (h : (statement (.deletePairs name (some side) id)).run db = (.ok (), db')) :
    ∃ others, Contents.otherTriples id (db.contents.sides side) = .ok others ∧
      db'.contents = { db.contents with sides := assign side others db.contents.sides } := by
  obtain ⟨rows, hr⟩ := run_statement_ok h
  obtain ⟨db₁, hc, -, hp⟩ := Database.execute_ok hr
  obtain ⟨c, hdelete, rfl⟩ := Database.change_ok hp
  obtain ⟨others, hothers, rfl⟩ := map_eq_ok.mp hdelete
  rw [hc] at hothers
  refine ⟨others, hothers, ?_⟩
  simp only [hc]

theorem addTriple_ok {name : TableName} {side : Side} {t : Triple}
    (h : (addTriple name (some side) t).run db = (.ok (), db')) :
    db'.contents = db.contents.insertTriple side t := by
  obtain ⟨db₁, hc, -, h⟩ := run_addTriple_ok h
  cases h
  exact congrArg (Contents.insertTriple side t) hc

theorem addTriples_ok {name : TableName} {side : Side} {ts : List Triple}
    (h : runAll (ts.map (addTriple name (some side))) db = (.ok (), db')) :
    db'.contents.orders = db.contents.orders ∧
      db'.contents.sides side = db.contents.sides side ++ ts ∧
      ∀ other, other ≠ side → db'.contents.sides other = db.contents.sides other := by
  induction ts generalizing db with
  | nil =>
    cases h
    exact ⟨rfl, (List.append_nil _).symm, fun _ _ => rfl⟩
  | cons t ts ih =>
    obtain ⟨db₁, hr, h⟩ := runAll_cons_ok h
    obtain ⟨horders, hside, hothers⟩ := ih h
    rw [addTriple_ok hr] at horders hside hothers
    refine ⟨horders, ?_, ?_⟩
    · rw [hside, Contents.insertTriple]
      simp
    · intro other hne
      rw [hothers other hne]
      exact assign_other _ _ hne

theorem replacing_ok {tables : Tables} (ht : tables.Apart) {side : Side} {id : Value}
    {entries : Value.Entries} (h : runAll (replacing tables side id entries) db = (.ok (), db')) :
    db'.contents.orders = db.contents.orders ∧
      (∃ others, Contents.otherTriples id (db.contents.sides side) = .ok others ∧
        db'.contents.sides side = others ++ triples id (Pairs.ofEntries entries)) ∧
      ∀ other, other ≠ side → db'.contents.sides other = db.contents.sides other := by
  rw [replacing, ht.target_eq] at h
  obtain ⟨db₁, hr, h⟩ := runAll_cons_ok h
  obtain ⟨others, hothers, hc⟩ := deletePairs_ok hr
  obtain ⟨horders, hside, hrest⟩ := addTriples_ok h
  rw [hc] at horders hside hrest
  refine ⟨horders, ⟨others, hothers, ?_⟩, ?_⟩
  · rw [hside]
    exact congrArg (· ++ _) (assign_same side others db.contents.sides)
  · intro other hne
    rw [hrest other hne]
    exact assign_other _ _ hne

theorem mainWrite_sides {tables : Tables} {o : Order} {row : Order.Row}
    (h : (statement (mainWrite tables o row)).run db = (.ok (), db')) :
    db'.contents.sides = db.contents.sides := by
  obtain ⟨rows, hr⟩ := run_statement_ok h
  obtain ⟨db₁, hc, -, hp⟩ := Database.execute_ok hr
  have hsides : db₁.contents.sides = db.contents.sides := congrArg Contents.sides hc
  unfold mainWrite at hp
  split at hp
  · obtain ⟨c, hupdate, rfl⟩ := Database.change_ok hp
    obtain ⟨v, -, hupdate⟩ := bind_eq_ok.mp hupdate
    obtain ⟨orders, -, hupdate⟩ := bind_eq_ok.mp hupdate
    cases hupdate
    exact hsides
  · simp only [Database.perform, Database.insertRow] at hp
    generalize hi : db₁.contents.insertOrder db₁.nextId _ = x at hp
    cases x with
    | error e => cases hp
    | ok c =>
      obtain ⟨b, -, hi⟩ := bind_eq_ok.mp hi
      cases b with
      | true => cases hi
      | false =>
        cases hi
        cases hp
        exact hsides

theorem writing_contents {tables : Tables} (ht : tables.Apart) {o : Order} {row : Order.Row} {nextId : Nat}
    (h : runAll (writing tables o row nextId) db = (.ok (), db')) :
    (∃ rows db₁, db.execute (mainWrite tables o row) = (.ok rows, db₁) ∧
      db'.contents.orders = db₁.contents.orders) ∧
    ∀ side, ∃ others,
      Contents.otherTriples (savedId o nextId) (db.contents.sides side) = .ok others ∧
      db'.contents.sides side =
        others ++ triples (savedId o nextId) (Pairs.ofEntries (o.entriesOf side)) := by
  obtain ⟨db₁, hm, h⟩ := runAll_cons_ok h
  obtain ⟨db₂, hr, h⟩ := runAll_append_ok h
  obtain ⟨rows, hexecute⟩ := run_statement_ok hm
  have hsides := mainWrite_sides hm
  obtain ⟨horders, ⟨rels, hrels, hrelations⟩, hkeep⟩ := replacing_ok ht hr
  obtain ⟨horders', ⟨idxs, hidxs, hindexed⟩, hkeep'⟩ := replacing_ok ht h
  rw [hsides] at hrels hkeep
  refine ⟨⟨rows, db₁, hexecute, horders'.trans horders⟩, ?_⟩
  intro side
  cases side with
  | relations => exact ⟨rels, hrels, (hkeep' _ (by decide)).trans hrelations⟩
  | indexed => exact ⟨idxs, by rw [← hidxs, hkeep _ (by decide)], hindexed⟩

end Operation

theorem rowsOf_cons (n : Int) (row : Order.Row) (rows : List Order.Row) :
    rowsOf n (row :: rows) =
      if rowNumber row = some n then row :: rowsOf n rows else rowsOf n rows := by
  simp only [rowsOf, List.filter_cons, decide_eq_true_eq]

theorem rowsOf_updateRows {n m : Int} (hne : n ≠ m) {values : Order.Row} {rows rows' : List Order.Row}
    (h : Contents.updateRows (.int n) (values ++ ([("id", .int n)] : Order.Row)) rows = .ok rows') :
    rowsOf m rows' = rowsOf m rows := by
  induction rows generalizing rows' with
  | nil =>
    cases h
    rfl
  | cons row rows ih =>
    obtain ⟨v, hv, h⟩ := bind_eq_ok.mp h
    obtain ⟨found, hfound, h⟩ := bind_eq_ok.mp h
    obtain ⟨rest, hrest, rfl⟩ := map_eq_ok.mp h
    rw [rowsOf_cons, rowsOf_cons, ih hrest]
    cases found with
    | false => rfl
    | true =>
      -- The row that is overwritten had the identifier of the update, and keeps it.
      have hafter : rowNumber (Contents.overwrite row (values ++ ([("id", .int n)] : Order.Row))) ≠ some m := by
        rw [rowNumber_eq_some.mpr (get?_overwrite_concat row values "id" (.int n))]
        exact fun hm => hne (Option.some.inj hm)
      have hbefore : rowNumber row ≠ some m := by
        intro hm
        rw [rowNumber_eq_some, Contents.column_eq_ok hv] at hm
        cases hm
        rw [Value.equal_int] at hfound
        injection hfound with hfound
        exact hne (of_decide_eq_true hfound).symm
      rw [if_pos rfl, if_neg hafter, if_neg hbefore]

theorem rowsOf_mainWrite {tables : Tables} {o : Order} (ho : o.Numbered) {stamp : Timestamp}
    {row : Order.Row} {db db' : Database} {rows : List Order.Row} {m : Int}
    (hrow : savedColumns o stamp = .ok row) (hm : savedId o db.nextId ≠ .int m)
    (h : db.execute (mainWrite tables o row) = (.ok rows, db')) :
    rowsOf m db'.contents.orders = rowsOf m db.contents.orders := by
  rcases ho with ho | ⟨n, ho⟩
  · rw [savedId_new ho] at hm
    have hid : rowNumber (Named.put "id" (.int db.nextId) (row ++
        ([("order_no", .text o.orderNo), ("created_at", .text o.createdAt.text)] : Order.Row))) =
        some (db.nextId : Int) :=
      rowNumber_eq_some.mpr ((Assoc.get?_put _ _ _ _).trans (if_pos rfl))
    have hne : (db.nextId : Int) ≠ m := fun hn => hm (congrArg Value.int hn)
    rw [(mainWrite_new (isPersisted_new ho) h).1, rowsOf, List.filter_append, List.filter_cons, hid]
    simp [hne, rowsOf]
  · rw [savedId_known ho] at hm
    have hupdate := (mainWrite_known hrow (isPersisted_known ho) h).1
    rw [ho] at hupdate
    exact rowsOf_updateRows (fun hn => hm (congrArg Value.int hn)) hupdate

section

variable {tables : Tables} {o r : Order} {w : World}

theorem save_sides (ht : tables.Apart) (hr : (Action.save tables o w).1 = .ok r) (side : Side) :
    ∃ others, Contents.otherTriples r.id (w.database.contents.sides side) = .ok others ∧
      (Action.save tables o w).2.database.contents.sides side =
        others ++ triples r.id (Pairs.ofEntries (o.entriesOf side)) := by
  obtain ⟨stamp, row, db, -, -, -, hrun, rfl, hc, -⟩ := Action.save_ok hr
  rw [hc]
  exact (writing_contents ht hrun).2 side

theorem triplesOf_save (ht : tables.Apart) (ho : o.Numbered) (hr : (Action.save tables o w).1 = .ok r)
    (side : Side) (n : Int) :
    triplesOf n ((Action.save tables o w).2.database.contents.sides side) =
      if r.id.integer? = some n then triples r.id (Pairs.ofEntries (o.entriesOf side))
      else triplesOf n (w.database.contents.sides side) := by
  obtain ⟨others, hothers, hside⟩ := save_sides ht hr side
  obtain ⟨m, hm⟩ := savedId_eq_int ho w.database.nextId
  rw [save_returned hr, hm] at hothers hside ⊢
  rw [hside, triplesOf_append, triplesOf_otherTriples n hothers, triplesOf_triples]
  by_cases h : m = n
  · simp [h, Value.integer?]
  · simp [h, Value.integer?]

theorem rowsOf_save (ht : tables.Apart) (ho : o.Numbered) (hr : (Action.save tables o w).1 = .ok r)
    {m : Int} (hm : r.id ≠ .int m) :
    rowsOf m (Action.save tables o w).2.database.contents.orders = rowsOf m w.database.contents.orders := by
  rw [save_returned hr] at hm
  obtain ⟨stamp, row, db, -, -, hrow, hrun, -, hc, -⟩ := Action.save_ok hr
  obtain ⟨⟨rows, db₁, hexecute, horders⟩, -⟩ := writing_contents ht hrun
  rw [hc, horders]
  exact rowsOf_mainWrite ho hrow hm hexecute

end

def lastPairs (side : Side) (n : Int) (history : List Saved) : Pairs :=
  ((lastSave n history).map fun s => Pairs.ofEntries (s.passed.entriesOf side)).getD []

theorem SaveRun.pairs {tables : Tables} (ht : tables.Apart) {w : World} {history : List Saved}
    (hw : SaveRun tables w history) (side : Side) (n : Int) :
    pairsOf n (w.database.contents.sides side) = lastPairs side n history := by
  induction hw with
  | start hc hk =>
    rw [hc]
    rfl
  | @saved w history o r hw ho hr ih =>
    rw [pairsOf, triplesOf_save ht ho hr, lastPairs, lastSave_append]
    by_cases h : r.id.integer? = some n
    · rw [if_pos h, if_pos h]
      exact map_pair_triples _ _
    · rw [if_neg h, if_neg h]
      exact ih
  | failed hw he ih =>
    rw [(save_failed_contents hw.settled he).1]
    exact ih
  | elsewhere hw hc hk hn ih =>
    rw [hc]
    exact ih

theorem SaveRun.owner {tables : Tables} (ht : tables.Apart) {w : World} {history : List Saved}
    (hw : SaveRun tables w history) {side : Side} {t : Triple} (h : t ∈ w.database.contents.sides side) :
    ∃ s ∈ history, s.returned.id = t.orderId := by
  induction hw with
  | start hc hk =>
    rw [hc] at h
    cases h
  | @saved w history o r hw ho hr ih =>
    obtain ⟨others, hothers, hside⟩ := save_sides ht hr side
    rw [hside] at h
    rcases List.mem_append.mp h with h | h
    · obtain ⟨s, hs, hid⟩ := ih (mem_of_otherTriples hothers h)
      exact ⟨s, List.mem_append_left _ hs, hid⟩
    · obtain ⟨p, -, rfl⟩ := List.mem_map.mp h
      exact ⟨⟨o, r⟩, by simp, rfl⟩
  | failed hw he ih =>
    rw [(save_failed_contents hw.settled he).1] at h
    exact ih h
  | elsewhere hw hc hk hn ih =>
    rw [hc] at h
    exact ih h

/-- In every run of saves the side tables mirror the last successful save of each order, and hold
nothing else. A save that succeeds leaves the rows and triples of other orders as they were; one that
fails leaves everything. -/
theorem sides_mirror_saves {tables : Tables} (ht : tables.Apart) {w : World} {history : List Saved}
    (hw : SaveRun tables w history) :
    w.database.Settled ∧
    (∀ side n, pairsOf n (w.database.contents.sides side) = lastPairs side n history) ∧
    (∀ side, ∀ t ∈ w.database.contents.sides side, ∃ s ∈ history, s.returned.id = t.orderId) ∧
    (∀ o r, o.Numbered → (Action.save tables o w).1 = .ok r → ∀ m : Int, r.id ≠ .int m →
      rowsOf m (Action.save tables o w).2.database.contents.orders =
        rowsOf m w.database.contents.orders ∧
      ∀ side, triplesOf m ((Action.save tables o w).2.database.contents.sides side) =
        triplesOf m (w.database.contents.sides side)) ∧
    (∀ o e, (Action.save tables o w).1 = .error e →
      (Action.save tables o w).2.database.contents = w.database.contents) := by
  refine ⟨hw.settled, hw.pairs ht, fun side t h => hw.owner ht h, ?_, ?_⟩
  · intro o r ho hr m hm
    refine ⟨rowsOf_save ht ho hr hm, ?_⟩
    intro side
    rw [triplesOf_save ht ho hr, if_neg fun h => hm (Value.integer?_eq_some.mp h)]
  · intro o e he
    exact (save_failed_contents hw.settled he).1

theorem default_apart : Tables.default.Apart := ⟨by decide, by decide, by decide⟩

set_option maxRecDepth 8000 in
theorem sides_mirror_saves_emptied :
    let stamp : Timestamp := ⟨⟨2024, 1, 31, by decide⟩, .midnight⟩
    let first := { unsaved stamp with id := .int 1 }
    let second := { first with relations := [] }
    let saved := (Action.save .default (unsaved stamp) ⟨.ofTimestamp stamp, [], .empty, true, []⟩).2
    let broken := { saved with database := { saved.database with faults := .on "COMMIT" lost } }
    let failed := (Action.save .default second broken).2
    let mended := { failed with database := { failed.database with faults := .none } }
    let w := (Action.save .default second mended).2
    Tables.default.Apart ∧ SaveRun .default failed [⟨unsaved stamp, first⟩] ∧
      SaveRun .default w [⟨unsaved stamp, first⟩, ⟨second, second⟩] ∧
      pairsOf 1 (failed.database.contents.sides .relations) =
        ([("parent", "1"), ("parent", "2")] : Pairs) ∧
      pairsOf 1 (w.database.contents.sides .relations) = [] := by
  intro stamp first second saved broken failed mended w
  have hstart : SaveRun .default ⟨.ofTimestamp stamp, [], .empty, true, []⟩ [] := .start rfl rfl
  have hsaved : SaveRun .default saved ([] ++ [⟨unsaved stamp, first⟩]) := .saved hstart (.inl rfl) rfl
  have hbroken : SaveRun .default broken ([] ++ [⟨unsaved stamp, first⟩]) :=
    .elsewhere hsaved rfl rfl (Nat.le_refl _)
  have hfailed : SaveRun .default failed ([] ++ [⟨unsaved stamp, first⟩]) :=
    .failed hbroken (show (Action.save .default second broken).1 = .error lost from rfl)
  have hmended : SaveRun .default mended ([] ++ [⟨unsaved stamp, first⟩]) :=
    .elsewhere hfailed rfl rfl (Nat.le_refl _)
  have hw : SaveRun .default w ([⟨unsaved stamp, first⟩] ++ [⟨second, second⟩]) :=
    .saved hmended (.inr ⟨1, rfl⟩) rfl
  refine ⟨default_apart, hfailed, hw, ?_, ?_⟩
  · exact (sides_mirror_saves default_apart hfailed).2.1 .relations 1
  · exact (sides_mirror_saves default_apart hw).2.1 .relations 1

end Storage

end OrderStore
