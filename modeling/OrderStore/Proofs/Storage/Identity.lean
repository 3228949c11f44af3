import Mathlib.Logic.Relation
import OrderStore.Proofs.Storage.NumberedRows

namespace OrderStore.Storage

open Sql Operation

structure Identity where
  id : Option Value
  orderNo : Option Value
  createdAt : Option Value

def identityOf (row : Order.Row) : Identity :=
  ⟨row.get? "id", row.get? "order_no", row.get? "created_at"⟩

def Contents.identities (c : Contents) : List Identity := c.orders.map identityOf

section

variable {tables : Tables} {o r : Order} {stamp : Timestamp} {columns row : Order.Row} {w w' : World}
  {db db' db₁ : Database} {rows : List Order.Row} {numbers : List Nat} {history : List Saved}

theorem identityOf_overwrite (hcolumns : savedColumns o stamp = .ok columns) {n : Int}
    (hn : rowNumber row = some n) :
    identityOf (Contents.overwrite row (columns ++ ([("id", .int n)] : Order.Row))) = identityOf row := by
  have hnames : (columns ++ ([("id", .int n)] : Order.Row)).map Prod.fst =
      updatedColumns ++ ([("id" : Text)]) := by
    obtain ⟨attributes, relations, indexedFields, -, -, -, rfl⟩ := savedColumns_ok hcolumns
    rfl
  have hother {name : Text} (hname : name ∉ updatedColumns ++ ([("id" : Text)])) :
      (Contents.overwrite row (columns ++ ([("id", .int n)] : Order.Row))).get? name = row.get? name :=
    get?_overwrite_of_not_mem (hnames ▸ hname) row
  rw [identityOf, identityOf, get?_overwrite_concat, hother (by decide), hother (by decide),
    rowNumber_eq_some.mp hn]

theorem identityOf_inserted (hcolumns : savedColumns o stamp = .ok columns) (k : Nat) :
    identityOf (Named.put "id" (.int k) (columns ++
        ([("order_no", .text o.orderNo), ("created_at", .text o.createdAt.text)] : Order.Row))) =
      ⟨some (.int k), some (.text o.orderNo), some (.text o.createdAt.text)⟩ := by
  obtain ⟨attributes, relations, indexedFields, -, -, -, rfl⟩ := savedColumns_ok hcolumns
  rfl

theorem orderNo_fresh {t : Text} (hrow : row.get? "order_no" = some (.text t))
    (h : Contents.hasOrderNoOf row rows = .ok false) :
    ∀ row' ∈ rows, row'.get? "order_no" ≠ some (.text t) := by
  induction rows with
  | nil => exact List.forall_mem_nil _
  | cons row' rows ih =>
    obtain ⟨v, hv, h⟩ := bind_eq_ok.mp h
    obtain ⟨v', hv', h⟩ := bind_eq_ok.mp h
    obtain ⟨found, hfound, h⟩ := bind_eq_ok.mp h
    have horderNo : some v' = some (.text t) := (Contents.column_eq_ok hv').symm.trans hrow
    injection horderNo with horderNo
    cases found with
    | true => cases h
    | false =>
      refine List.forall_mem_cons.mpr ⟨?_, ih h⟩
      intro hsame
      have hequal : v = .text t := by
        have := (Contents.column_eq_ok hv).symm.trans hsame
        injection this
      rw [hequal, horderNo, Value.equal_text, decide_eq_true rfl] at hfound
      cases hfound

/-- All rows keep their identities, and at most one is added: at the end, with an identifier that was not
given out before and an order number of its own. -/
inductive Grows (db db' : Database) : Prop where
  | kept (hi : db'.contents.identities = db.contents.identities) (hn : db.nextId ≤ db'.nextId) :
    Grows db db'
  | added {i : Identity} {k : Nat} (hi : db'.contents.identities = db.contents.identities ++ [i])
    (hid : i.id = some (.int k)) (hk : db.nextId ≤ k) (hn : k < db'.nextId)
    (hno : ∀ j ∈ db.contents.identities, j.orderNo ≠ i.orderNo) : Grows db db'

structure Ascending (identities : List Identity) (nextId : Nat) : Prop where
  ids : ∃ numbers : List Nat, identities.map Identity.id = numbers.map (fun k : Nat => some (.int k)) ∧
    numbers.Pairwise (· < ·) ∧ ∀ k ∈ numbers, k < nextId
  orderNos : (identities.map Identity.orderNo).Nodup

theorem Ascending.mono {identities : List Identity} {nextId nextId' : Nat} (h : Ascending identities nextId)
    (hle : nextId ≤ nextId') : Ascending identities nextId' := by
  obtain ⟨numbers, hids, hsorted, hbound⟩ := h.ids
  exact ⟨⟨numbers, hids, hsorted, fun k hk => Nat.lt_of_lt_of_le (hbound k hk) hle⟩, h.orderNos⟩

theorem Ascending.grows (h : Ascending db.contents.identities db.nextId) (hg : Grows db db') :
    Ascending db'.contents.identities db'.nextId := by
  obtain ⟨numbers, hids, hsorted, hbound⟩ := h.ids
  cases hg with
  | kept hi hn =>
    rw [hi]
    exact h.mono hn
  | @added i k hi hid hk hn hno =>
    rw [hi]
    refine ⟨⟨numbers ++ [k], ?_, ?_, ?_⟩, ?_⟩
    · rw [List.map_append, List.map_append, hids, List.map_singleton, List.map_singleton, hid]
    · refine List.pairwise_append.mpr ⟨hsorted, List.pairwise_singleton _ _, ?_⟩
      intro m hm k' hk'
      have := hbound m hm
      rw [List.mem_singleton.mp hk']
      omega
    · intro m hm
      rcases List.mem_append.mp hm with hm | hm
      · have := hbound m hm
        omega
      · rw [List.mem_singleton.mp hm]
        exact hn
    · rw [List.map_append, List.map_singleton]
      refine List.nodup_append.mpr ⟨h.orderNos, List.nodup_singleton _, ?_⟩
      intro a ha b hb
      obtain ⟨j, hj, rfl⟩ := List.mem_map.mp ha
      rw [List.mem_singleton.mp hb]
      exact hno j hj

theorem identities_mainWrite_new (ho : o.id = .null) (hcolumns : savedColumns o stamp = .ok columns)
    (hw : db.execute (mainWrite tables o columns) = (.ok rows, db')) :
    db'.contents.identities = db.contents.identities ++
        [⟨some (.int db.nextId), some (.text o.orderNo), some (.text o.createdAt.text)⟩] ∧
      db'.nextId = db.nextId + 1 ∧
      ∀ j ∈ db.contents.identities, j.orderNo ≠ some (.text o.orderNo) := by
  obtain ⟨horders, hn⟩ := mainWrite_new (isPersisted_new ho) hw
  rw [mainWrite, isPersisted_new ho] at hw
  have hfree := (insertOrder_execute hw).1
  refine ⟨?_, hn, ?_⟩
  · rw [Contents.identities, horders, List.map_append, List.map_singleton, identityOf_inserted hcolumns]
    rfl
  · intro j hj
    obtain ⟨row, hrow, rfl⟩ := List.mem_map.mp hj
    have hno : (columns ++ ([("order_no", .text o.orderNo),
        ("created_at", .text o.createdAt.text)] : Order.Row)).get? "order_no" = some (.text o.orderNo) := by
      obtain ⟨attributes, relations, indexedFields, -, -, -, rfl⟩ := savedColumns_ok hcolumns
      rfl
    exact orderNo_fresh hno hfree row hrow

theorem Numbering.identities_mainWrite_known (h : Numbering numbers db) {n : Int} (ho : o.id = .int n)
    (hcolumns : savedColumns o stamp = .ok columns)
    (hw : db.execute (Operation.mainWrite tables o columns) = (.ok rows, db')) :
    db'.contents.identities = db.contents.identities := by
  rw [Contents.identities, (h.mainWrite_known ho hcolumns hw).1, List.map_map]
  apply List.map_congr_left
  intro row hrow
  by_cases hnumber : rowNumber row = some n
  · rw [Function.comp_apply, if_pos hnumber]
    exact identityOf_overwrite hcolumns hnumber
  · rw [Function.comp_apply, if_neg hnumber]

theorem Numbering.mainWrite_grows (h : Numbering numbers db) (ho : o.Numbered)
    (hcolumns : savedColumns o stamp = .ok columns)
    (hw : db.execute (Operation.mainWrite tables o columns) = (.ok rows, db')) : Grows db db' := by
  rcases ho with ho | ⟨n, ho⟩
  · obtain ⟨hi, hn, hno⟩ := identities_mainWrite_new ho hcolumns hw
    exact .added hi rfl (Nat.le_refl _) (by omega) hno
  · exact .kept (h.identities_mainWrite_known ho hcolumns hw)
      (Nat.le_of_eq (h.mainWrite_known ho hcolumns hw).2.symm)

theorem Grows.sideWrite (h : Grows db db₁) (hside : SideWrite db₁ db') : Grows db db' := by
  cases h with
  | kept hi hn =>
    rcases hside with ⟨horders, hnext⟩ | ⟨hnil, hnext, t, horders⟩
    · exact .kept ((congrArg (List.map identityOf) horders).trans hi) (by omega)
    · -- The side table has the name of the table of orders, which is empty, and its row is the first.
      have hempty : db.contents.identities = [] := by
        rw [← hi, Contents.identities, hnil]
        rfl
      have hadded : db'.contents.identities =
          db.contents.identities ++ [identityOf (Named.put "id" (.int db₁.nextId) t.params)] := by
        rw [hempty, Contents.identities, horders]
        rfl
      refine .added hadded (Assoc.get?_put _ _ _ _ |>.trans (if_pos rfl)) hn (by omega) ?_
      rw [hempty]
      exact List.forall_mem_nil _
  | @added i k hi hid hk hn hno =>
    have hne : db₁.contents.orders ≠ [] := by
      intro hnil
      have hlength := congrArg List.length hi
      rw [Contents.identities, hnil] at hlength
      simp at hlength
    obtain ⟨horders, hnext⟩ := hside.of_nonempty hne
    exact .added ((congrArg (List.map identityOf) horders).trans hi) hid hk (by omega) hno

theorem Grows.of_contents_eq (h : Grows db db₁) (hc : db'.contents = db₁.contents)
    (hn : db'.nextId = db₁.nextId) : Grows db db' := by
  have hidentities : db'.contents.identities = db₁.contents.identities := congrArg Contents.identities hc
  cases h with
  | kept hi hnext => exact .kept (hidentities.trans hi) (hn ▸ hnext)
  | added hi hid hk hnext hno => exact .added (hidentities.trans hi) hid hk (hn ▸ hnext) hno

theorem save_grows (hw : SaveRun tables w history) (ho : o.Numbered) :
    Grows w.database (Action.save tables o w).2.database := by
  cases hr : (Action.save tables o w).1 with
  | error e =>
    obtain ⟨hc, hn⟩ := save_failed_contents hw.settled hr
    exact .kept (congrArg Contents.identities hc) hn
  | ok r =>
    obtain ⟨numbers, h⟩ := hw.numbering
    obtain ⟨stamp, columns, db, -, -, hcolumns, hrun, -, hc, -, hn⟩ := Action.save_ok hr
    obtain ⟨rows, db₁, hexecute, hside⟩ := writing_ok hrun
    exact ((h.mainWrite_grows ho hcolumns hexecute).sideWrite hside).of_contents_eq hc hn

theorem save_new_identities (ho : o.id = .null) (hr : (Action.save tables o w).1 = .ok r) :
    (Action.save tables o w).2.database.contents.identities = w.database.contents.identities ++
      [⟨some r.id, some (.text o.orderNo), some (.text o.createdAt.text)⟩] := by
  obtain ⟨stamp, columns, db, -, -, hcolumns, hrun, rfl, hc, -⟩ := Action.save_ok hr
  obtain ⟨rows, db₁, hexecute, hside⟩ := writing_ok hrun
  have hidentities := (identities_mainWrite_new ho hcolumns hexecute).1
  have hne : db₁.contents.orders ≠ [] := by
    rw [(mainWrite_new (isPersisted_new ho) hexecute).1]
    simp
  rw [hc, Contents.identities, (hside.of_nonempty hne).1, savedId_new ho]
  exact hidentities

theorem save_known_identities (ht : tables.Apart) (hw : SaveRun tables w history) {n : Int}
    (ho : o.id = .int n) (hr : (Action.save tables o w).1 = .ok r) :
    (Action.save tables o w).2.database.contents.identities = w.database.contents.identities := by
  obtain ⟨numbers, h⟩ := hw.numbering
  obtain ⟨stamp, columns, db, -, -, hcolumns, hrun, -, hc, -⟩ := Action.save_ok hr
  obtain ⟨⟨rows, db₁, hexecute, horders⟩, -⟩ := writing_contents ht hrun
  rw [hc, Contents.identities, horders]
  exact h.identities_mainWrite_known ho hcolumns hexecute

structure Passes (tables : Tables) (o : Order) (w : World) (db : Database) : Prop where
  isOpen : w.isOpen = true
  reached : ∃ stamp columns done rest, w.stamp = .ok stamp ∧ savedColumns o stamp = .ok columns ∧
    saving tables o columns w.database.nextId = done ++ rest ∧ runAll done w.database = (.ok (), db)

theorem run_nextId_le (op : Operation) (db : Database) : db.nextId ≤ (op.run db).2.nextId := by
  by_cases hop : op = commit
  · subst hop
    cases hr : (commit.run db).1 with
    | error e => exact (Database.commit_pending hr).nextId
    | ok _ => exact Nat.le_of_eq (Database.commit_ok hr).2.2.symm
  · exact (run_pending db hop).nextId

theorem runAll_nextId_le (ops : List Operation) (db : Database) : db.nextId ≤ (runAll ops db).2.nextId := by
  induction ops generalizing db with
  | nil => exact Nat.le_refl _
  | cons op ops ih =>
    have hop := run_nextId_le op db
    rw [runAll]
    generalize op.run db = c at hop ⊢
    obtain ⟨x, db₁⟩ := c
    cases x with
    | error e => exact hop
    | ok _ => exact Nat.le_trans hop (ih db₁)

theorem afterMainWrite_sideWrite {op : Operation} {nextId : Nat}
    (hop : op ∈ replacing tables .relations (savedId o nextId) o.relations ++
      replacing tables .indexed (savedId o nextId) o.indexedFields ++ [commit])
    (h : op.run db = (.ok (), db')) : SideWrite db db' := by
  rcases List.mem_append.mp hop with hop | hop
  · rcases List.mem_append.mp hop with hop | hop
    · exact replacing_sideWrite hop h
    · exact replacing_sideWrite hop h
  · rw [List.mem_singleton.mp hop] at h
    have hc := Database.commit_ok (congrArg Prod.fst h)
    rw [show db.commit = (.ok (), db') from h] at hc
    exact .inl ⟨congrArg Contents.orders hc.1, hc.2.2⟩

theorem Passes.grows (hp : Passes tables o w db) (hw : SaveRun tables w history) (ho : o.Numbered) :
    Grows w.database db := by
  obtain ⟨numbers, h⟩ := hw.numbering
  obtain ⟨stamp, columns, done, rest, -, hcolumns, hops, hrun⟩ := hp.reached
  cases done with
  | nil =>
    cases hrun
    exact .kept rfl (Nat.le_refl _)
  | cons op done =>
    rw [saving, writing, List.cons_append, List.cons_append, List.cons.injEq] at hops
    obtain ⟨hop, hops⟩ := hops
    obtain ⟨db₁, hmain, hdone⟩ := runAll_cons_ok hrun
    rw [← hop] at hmain
    obtain ⟨rows, hexecute⟩ := run_statement_ok hmain
    -- The first operation writes the order; all others write to side tables.
    refine (h.mainWrite_grows ho hcolumns hexecute).sideWrite (runAll_sideWrite ?_ hdone)
    intro op hmem db db' h
    have hafter := List.mem_append_left rest hmem
    rw [← hops] at hafter
    exact afterMainWrite_sideWrite hafter h

theorem Passes.nextId_le (hp : Passes tables o w db) :
    db.nextId ≤ (Action.save tables o w).2.database.nextId := by
  obtain ⟨stamp, columns, done, rest, hs, hcolumns, hops, hrun⟩ := hp.reached
  have hrest : runAll (saving tables o columns w.database.nextId) w.database = runAll rest db := by
    rw [hops, runAll_append, hrun]
  have hle := runAll_nextId_le rest db
  cases hx : runAll rest db with
  | mk x db' =>
    rw [hx] at hle
    rw [(Action.save_operations hs hp.isOpen hcolumns (hrest.trans hx)).2]
    cases x <;> exact hle

inductive Step (tables : Tables) : World → World → Prop where
  | save {w : World} {o : Order} (ho : o.Numbered) : Step tables w (Action.save tables o w).2
  | elsewhere {w w' : World} (hc : w'.database.contents = w.database.contents)
    (hk : w'.database.committed = w.database.committed) (hn : w.database.nextId ≤ w'.database.nextId) :
    Step tables w w'

def Onward (tables : Tables) : World → World → Prop := Relation.ReflTransGen (Step tables)

theorem Step.saveRun (h : Step tables w w') (hw : SaveRun tables w history) :
    ∃ history', SaveRun tables w' history' := by
  cases h with
  | @save o ho =>
    cases hr : (Action.save tables o w).1 with
    | error e => exact ⟨history, .failed hw hr⟩
    | ok r => exact ⟨_, .saved hw ho hr⟩
  | elsewhere hc hk hn => exact ⟨history, .elsewhere hw hc hk hn⟩

theorem Step.grows (h : Step tables w w') (hw : SaveRun tables w history) : Grows w.database w'.database := by
  cases h with
  | save ho => exact save_grows hw ho
  | elsewhere hc hk hn => exact .kept (congrArg Contents.identities hc) hn

theorem SaveRun.committed (hw : SaveRun tables w history) :
    w.database.committed.identities = w.database.contents.identities :=
  congrArg Contents.identities hw.settled.symm

theorem SaveRun.ascending (hw : SaveRun tables w history) :
    Ascending w.database.contents.identities w.database.nextId := by
  induction hw with
  | start hc hk =>
    rw [hc]
    exact ⟨⟨[], rfl, .nil, List.forall_mem_nil _⟩, List.nodup_nil⟩
  | saved hw ho hr ih => exact ih.grows (save_grows hw ho)
  | failed hw he ih =>
    obtain ⟨hc, hn⟩ := save_failed_contents hw.settled he
    exact ih.grows (.kept (congrArg Contents.identities hc) hn)
  | elsewhere hw hc hk hn ih => exact ih.grows (.kept (congrArg Contents.identities hc) hn)

theorem Onward.saveRun (h : Onward tables w w') (hw : SaveRun tables w history) :
    ∃ history', SaveRun tables w' history' := by
  induction h with
  | refl => exact ⟨history, hw⟩
  | tail h hstep ih =>
    obtain ⟨history', hw'⟩ := ih
    exact hstep.saveRun hw'

theorem Onward.identities (h : Onward tables w w') (hw : SaveRun tables w history) :
    w.database.nextId ≤ w'.database.nextId ∧
      ∃ added, w'.database.contents.identities = w.database.contents.identities ++ added ∧
        ∀ i ∈ added, ∃ k : Nat, i.id = some (.int k) ∧ w.database.nextId ≤ k := by
  induction h with
  | refl => exact ⟨Nat.le_refl _, [], (List.append_nil _).symm, List.forall_mem_nil _⟩
  | tail h hstep ih =>
    obtain ⟨history', hw'⟩ := Onward.saveRun h hw
    obtain ⟨hle, added, hadded, hids⟩ := ih
    cases hstep.grows hw' with
    | kept hi hn => exact ⟨Nat.le_trans hle hn, added, hi.trans hadded, hids⟩
    | @added i k hi hid hk hn hno =>
      refine ⟨by omega, added ++ [i], ?_, ?_⟩
      · rw [hi, hadded, List.append_assoc]
      · intro j hj
        rcases List.mem_append.mp hj with hj | hj
        · exact hids j hj
        · rw [List.mem_singleton.mp hj]
          exact ⟨k, hid, by omega⟩

/-- In every run the identifiers of the stored rows ascend in the order of insertion, and their order
numbers are distinct. An insertion keeps the order number and the time of creation that it was given; a
save of a known order and a save that fails change no identity. Whatever a save has inserted at some
moment, no later row gets its identifier. From then on identities are only added. -/
theorem stored_identity_constant (hw : SaveRun tables w history) :
    Ascending w.database.committed.identities w.database.nextId ∧
    (∀ o, o.Numbered →
      (∀ r, (Action.save tables o w).1 = .ok r → o.id = .null →
        (Action.save tables o w).2.database.committed.identities = w.database.committed.identities ++
          [⟨some r.id, some (.text o.orderNo), some (.text o.createdAt.text)⟩]) ∧
      (tables.Apart → o.id ≠ .null →
        (Action.save tables o w).2.database.committed.identities = w.database.committed.identities) ∧
      (∀ e, (Action.save tables o w).1 = .error e →
        (Action.save tables o w).2.database.committed.identities = w.database.committed.identities) ∧
      ∀ db, Passes tables o w db → Grows w.database db ∧
        Ascending db.contents.identities (Action.save tables o w).2.database.nextId) ∧
    ∀ w', Onward tables w w' → w.database.nextId ≤ w'.database.nextId ∧
      ∃ added, w'.database.committed.identities = w.database.committed.identities ++ added ∧
        ∀ i ∈ added, ∃ k : Nat, i.id = some (.int k) ∧ w.database.nextId ≤ k := by
  have hafter (o : Order) : (Action.save tables o w).2.database.committed.identities =
      (Action.save tables o w).2.database.contents.identities :=
    congrArg Contents.identities (Action.Settles.save tables o w hw.settled).symm
  rw [hw.committed]
  refine ⟨hw.ascending, ?_, ?_⟩
  · intro o ho
    rw [hafter o]
    have hfailed (e : Error) (he : (Action.save tables o w).1 = .error e) :
        (Action.save tables o w).2.database.contents.identities = w.database.contents.identities := by
      rw [(save_failed_contents hw.settled he).1]
    refine ⟨fun r hr hnull => save_new_identities hnull hr, ?_, hfailed, ?_⟩
    · intro ht hne
      obtain ⟨n, hn⟩ := ho.resolve_left hne
      cases hr : (Action.save tables o w).1 with
      | error e => exact hfailed e hr
      | ok r => exact save_known_identities ht hw hn hr
    · intro db hp
      have hgrows := hp.grows hw ho
      exact ⟨hgrows, (hw.ascending.grows hgrows).mono hp.nextId_le⟩
  · intro w' h
    obtain ⟨history', hw'⟩ := h.saveRun hw
    rw [hw'.committed]
    exact h.identities hw

end

set_option maxRecDepth 8000 in
theorem stored_identity_constant_forged :
    let stamp : Timestamp := ⟨⟨2024, 1, 31, by decide⟩, .midnight⟩
    let other : Timestamp := ⟨⟨1999, 1, 31, by decide⟩, .midnight⟩
    let first := { unsaved stamp with id := .int 1 }
    let second := { unsaved other with orderNo := "B-2" }
    let forged := { second with id := .int 1 }
    let w := (Action.save .default (unsaved stamp) ⟨.ofTimestamp stamp, [], .empty, true, []⟩).2
    let refused := (Action.save .default (unsaved other) w).2
    let added := (Action.save .default second refused).2
    let w' := (Action.save .default forged added).2
    SaveRun .default w [⟨unsaved stamp, first⟩] ∧
      (Action.save .default (unsaved other) w).1 = .error .duplicateOrderNo ∧
      (Action.save .default forged added).1.isOk = true ∧
      Onward .default w w' ∧
      w'.database.committed.identities =
        [⟨some (.int 1), some (.text "A-1"), some (.text stamp.text)⟩,
          ⟨some (.int 3), some (.text "B-2"), some (.text other.text)⟩] := by
  intro stamp other first second forged w refused added w'
  have hstart : SaveRun .default ⟨.ofTimestamp stamp, [], .empty, true, []⟩ [] := .start rfl rfl
  have hw : SaveRun .default w ([] ++ [⟨unsaved stamp, first⟩]) := .saved hstart (.inl rfl) rfl
  have hrefused : (Action.save .default (unsaved other) w).1 = .error .duplicateOrderNo := rfl
  have hadded : (Action.save .default second refused).1 =
      .ok { second with id := .int 3, updatedAt := stamp } := rfl
  have hforged : (Action.save .default forged added).1.isOk = true := by decide +kernel
  have honward : Onward .default w w' := by
    have h₁ : Step .default w refused := .save (.inl rfl)
    have h₂ : Step .default refused added := .save (.inl rfl)
    have h₃ : Step .default added w' := .save (.inr ⟨1, rfl⟩)
    exact ((Relation.ReflTransGen.single h₁).tail h₂).tail h₃
  have hrun := SaveRun.failed hw hrefused
  have hfirst : w.database.committed.identities =
      [⟨some (.int 1), some (.text "A-1"), some (.text stamp.text)⟩] := rfl
  have hsame := ((stored_identity_constant hw).2.1 _ (.inl rfl)).2.2.1 _ hrefused
  have hnew := ((stored_identity_constant hrun).2.1 _ (.inl rfl)).1 _ hadded rfl
  have hthen : SaveRun .default added _ := hrun.saved (.inl rfl) hadded
  have hkept := ((stored_identity_constant hthen).2.1 forged (.inr ⟨1, rfl⟩)).2.1 default_apart
    (by simp [forged])
  have hlast : w' = (Action.save .default forged added).2 := rfl
  refine ⟨hw, hrefused, hforged, honward, ?_⟩
  rw [hlast, hkept, hnew, hsame, hfirst]
  rfl

end OrderStore.Storage
