import OrderStore.Proofs.Sql.Shape
import OrderStore.Proofs.Storage.Atomicity
import OrderStore.Storage.Find

namespace OrderStore

structure Order.Shape where
  isPersisted : Bool
  hasRelations : Bool
  hasIndexedFields : Bool
  deriving DecidableEq, Repr

def Order.shape (o : Order) : Order.Shape where
  isPersisted := o.isPersisted
  hasRelations := !(Pairs.ofEntries o.relations).isEmpty
  hasIndexedFields := !(Pairs.ofEntries o.indexedFields).isEmpty

namespace Storage

open Sql

def Event.statement? : Event → Option Text
  | .executed text _ | .executedMany text _ => some text
  | _ => none

def World.issued (w : World) : List Text := w.trace.filterMap Event.statement?

@[simp] theorem World.issued_emit (e : Event) (w : World) :
    (w.emit e).issued = w.issued ++ e.statement?.toList := by
  rw [issued, emit, List.filterMap_append]
  cases h : e.statement? <;> simp [issued, h]

@[simp] theorem World.issued_returnConnection (w : World) : w.returnConnection.issued = w.issued := by
  rw [returnConnection]
  split
  · simp [Event.statement?]
  · rfl

theorem World.issued_rollback (w : World) : w.rollback.issued = w.issued := by
  change (w.emit .rolledBack).issued = w.issued
  simp [Event.statement?]

theorem World.issued_log (r : Log.Record) (w : World) : (w.log r).issued = w.issued := by
  simp [log, Event.statement?]

namespace Action

variable {α β : Type} {a : Action α} {texts : List Text}

/-- An action issues these texts, one after the other; if it fails, it may do so after some of them. -/
def Issues (a : Action α) (texts : List Text) : Prop :=
  ∀ w, ∃ sent, (a w).2.issued = w.issued ++ sent ∧ sent <+: texts ∧ ∀ x, (a w).1 = .ok x → sent = texts

theorem Issues.of_ok (h : a.Issues texts) {w : World} {x : α} (hx : (a w).1 = .ok x) :
    (a w).2.issued = w.issued ++ texts := by
  obtain ⟨sent, hsent, -, hall⟩ := h w
  rw [hsent, hall x hx]

theorem Issues.silent (h : a.Issues []) (w : World) : (a w).2.issued = w.issued := by
  obtain ⟨sent, hsent, hprefix, -⟩ := h w
  rw [hsent, List.prefix_nil.mp hprefix, List.append_nil]

theorem issues_nil (h : ∀ w, (a w).2.issued = w.issued) : a.Issues [] :=
  fun w => ⟨[], by rw [h w, List.append_nil], List.prefix_rfl, fun _ _ => rfl⟩

namespace Issues

theorem pure (x : α) : (pure x : Action α).Issues [] := issues_nil fun _ => rfl

theorem ofExcept (x : Except Error α) : (ofExcept x).Issues [] := issues_nil fun _ => rfl

theorem onDatabase (f : Database → Except Error α × Database) : (onDatabase f).Issues [] :=
  issues_nil fun _ => rfl

theorem present : present.Issues [] := issues_nil fun _ => rfl

theorem emit (e : Event) : (Action.emit e).Issues e.statement?.toList :=
  fun w => ⟨_, w.issued_emit e, List.prefix_rfl, fun _ _ => rfl⟩

theorem readClock : readClock.Issues [] := by
  apply issues_nil
  intro w
  rw [Action.readClock]
  split <;> rfl

theorem bind {b : α → Action β} {rest : List Text} (ha : a.Issues texts) (hb : ∀ x, (b x).Issues rest) :
    (a >>= b).Issues (texts ++ rest) := by
  intro w
  obtain ⟨sent, hsent, hprefix, hall⟩ := ha w
  rw [bind_apply]
  generalize a w = c at hsent hall ⊢
  obtain ⟨r, w'⟩ := c
  cases r with
  | error e => exact ⟨sent, hsent, hprefix.trans (List.prefix_append _ _), fun _ h => nomatch h⟩
  | ok x =>
    obtain ⟨sent', hsent', hprefix', hall'⟩ := hb x w'
    -- The rest runs only after all of `texts` were sent, and goes on from there.
    have hw' : w'.issued = w.issued ++ texts := by rw [hsent, hall x rfl]
    refine ⟨texts ++ sent', ?_, (List.prefix_append_right_inj texts).mpr hprefix', ?_⟩
    · rw [hsent', hw', List.append_assoc]
    · intro y hy
      rw [hall' y hy]

theorem andThen {a : Action Unit} {b : Action β} (ha : a.Issues []) (hb : b.Issues texts) :
    (a >>= fun _ => b).Issues texts :=
  ha.bind fun _ => hb

theorem ensuring {last : World → World} (ha : a.Issues texts) (hlast : ∀ w, (last w).issued = w.issued) :
    (ensuring last a).Issues texts := by
  intro w
  rw [ensuring_apply, hlast]
  exact ha w

theorem onFailure {change : Error → World → World} (ha : a.Issues texts)
    (hchange : ∀ e w, (change e w).issued = w.issued) : (onFailure change a).Issues texts := by
  intro w
  obtain ⟨sent, hsent, hprefix, hall⟩ := ha w
  rw [Action.onFailure]
  generalize a w = c at hsent hall ⊢
  obtain ⟨r, w'⟩ := c
  cases r with
  | error e => exact ⟨sent, (hchange e w').trans hsent, hprefix, fun _ h => nomatch h⟩
  | ok x => exact ⟨sent, hsent, hprefix, hall⟩

theorem takeConnection : takeConnection.Issues [] := by
  apply issues_nil
  intro w
  rw [Action.takeConnection]
  split
  · simp [Event.statement?]
  · rfl

theorem withConnection (ha : a.Issues texts) : (withConnection a).Issues texts :=
  takeConnection.andThen (ha.ensuring World.issued_returnConnection)

theorem transaction (failed : Error → Log.Record) (ha : a.Issues texts) :
    (transaction failed a).Issues texts := by
  apply withConnection (ha.onFailure _)
  intro e w
  rw [World.issued_log, World.issued_rollback]

end Issues

theorem execute_issues (s : Statement) : (execute s).Issues [s.text.squeeze] :=
  (Issues.emit _).bind fun _ => .onDatabase _

theorem insertTriples_issues (name : TableName) (target : Option Side) (ts : List Triple) :
    (insertTriples name target ts).Issues [(insertTripleText name).squeeze] :=
  (Issues.emit _).bind fun _ => .onDatabase _

theorem commit_issues : commit.Issues [] := (Issues.emit _).bind fun _ => .onDatabase _

def mainText (orders : TableName) (isPersisted : Bool) : Text :=
  if isPersisted then (Statement.updateOrder orders []).text else (Statement.insertOrder orders []).text

def sideTexts (name : TableName) (hasEntries : Bool) : List Text :=
  (Statement.deletePairs name none .null).text.squeeze ::
    if hasEntries then [(insertTripleText name).squeeze] else []

def savedTexts (tables : Tables) (s : Order.Shape) : List Text :=
  (mainText tables.orders s.isPersisted).squeeze ::
    (sideTexts tables.relations s.hasRelations ++ sideTexts tables.indexed s.hasIndexedFields)

theorem writeOrder_issues (tables : Tables) (o : Order) (stamp : Timestamp) :
    (writeOrder tables o stamp).Issues [(mainText tables.orders o.isPersisted).squeeze] := by
  rw [writeOrder, mainText]
  split
  · exact (Issues.ofExcept _).bind fun row => (execute_issues _).bind fun _ => .pure _
  · exact (Issues.ofExcept _).bind fun row => (execute_issues _).bind fun _ => .pure _

theorem replaceTriples_issues (tables : Tables) (side : Side) (id : Value) (entries : Value.Entries) :
    (replaceTriples tables side id entries).Issues
      (sideTexts (tables.side side) (!(Pairs.ofEntries entries).isEmpty)) := by
  apply (execute_issues _).bind
  intro _
  cases Pairs.ofEntries entries with
  | nil => exact .pure ()
  | cons p ps => exact insertTriples_issues _ _ _

theorem finishSave_issues (tables : Tables) (o : Order) (stamp : Timestamp) (id : Value) :
    (finishSave tables o stamp id).Issues
      (sideTexts tables.relations o.shape.hasRelations ++
        sideTexts tables.indexed o.shape.hasIndexedFields) := by
  rw [finishSave, ← List.append_nil (sideTexts tables.indexed _)]
  exact (replaceTriples_issues tables .relations id o.relations).bind fun _ =>
    (replaceTriples_issues tables .indexed id o.indexedFields).bind fun _ =>
      commit_issues.andThen ((Issues.emit _).andThen (.pure _))

theorem save_issues (tables : Tables) (o : Order) : (save tables o).Issues (savedTexts tables o.shape) := by
  have hsave (stamp : Timestamp) : (saveAt tables o stamp).Issues (savedTexts tables o.shape) := by
    rw [saveAt_eq]
    have hcursor : (openCursor false).Issues [] := .emit _
    exact hcursor.andThen ((writeOrder_issues tables o stamp).bind (finishSave_issues tables o stamp))
  exact Issues.readClock.bind fun reading => Issues.present.bind fun now =>
    (Issues.ofExcept _).bind fun stamp => (hsave stamp).transaction _

theorem bind_issued {b : α → Action β} (hb : ∀ x, (b x).Issues []) (w : World) :
    ((a >>= b) w).2.issued = (a w).2.issued := by
  rw [bind_apply]
  generalize a w = c
  obtain ⟨r, w'⟩ := c
  cases r with
  | error e => rfl
  | ok x => exact (hb x).silent w'

theorem execute_issued (s : Statement) (w : World) :
    (execute s w).2.issued = w.issued ++ [s.text.squeeze] := by
  rw [execute, bind_apply]
  exact w.issued_emit _

theorem emitAll_logs_issues (n : Nat) (r : Log.Record) :
    (emitAll (List.replicate n (.logged r))).Issues [] := by
  apply issues_nil
  intro w
  change (w.trace ++ _).filterMap Event.statement? = _
  rw [List.filterMap_append, List.filterMap_replicate_of_none rfl, List.append_nil]
  rfl

theorem loadOrder_issues (row : Order.Row) : (loadOrder row).Issues [] :=
  Issues.present.bind fun _ => (emitAll_logs_issues _ _).andThen (.ofExcept _)

theorem find_issued (tables : Tables) (column : LookupColumn) (value : Value) (w : World) :
    (find tables column value w).2.issued =
      w.issued ++ if w.isOpen then [(Statement.lookup tables.orders column .null).text.squeeze] else [] := by
  rw [find]
  cases hw : w.isOpen with
  | false =>
    rw [withConnection_closed _ hw, if_neg Bool.false_ne_true, List.append_nil]
  | true =>
    rw [withConnection_open _ hw, World.issued_returnConnection, if_pos rfl]
    change ((execute (.lookup tables.orders column value) >>= _)
      ((w.emit .connectionTaken).emit (.cursorOpened true))).2.issued = _
    rw [bind_issued, execute_issued, World.issued_emit, World.issued_emit]
    · simp only [Event.statement?, Option.toList_none, List.append_nil]
      rfl
    · intro rows
      split
      · exact .pure none
      · exact .pure none
      · exact (loadOrder_issues _).bind fun o => .pure (some o)

theorem ofExcept_ok_bind (x : α) (b : α → Action β) : (ofExcept (.ok x) >>= b) = b x := rfl

theorem loadOrders_issues (rows : List Order.Row) : (loadOrders rows).Issues [] := by
  induction rows with
  | nil => exact .pure []
  | cons row rows ih => exact (loadOrder_issues row).bind fun o => ih.bind fun os => .pure (o :: os)

theorem countOrders_issues (s : Search) : (countOrders s).Issues [s.countText.squeeze] :=
  (execute_issues (.count s)).bind fun _ => (Issues.ofExcept _).bind fun _ => .pure _

def searchTexts (t : Search.Texts) : List Text := t.select.squeeze :: (t.count.map Text.squeeze).toList

theorem search_issues {tables : Tables} {q : Query} {s : Search} (hs : Search.ofQuery tables q = .ok s) :
    (search tables q).Issues (searchTexts s.texts) := by
  have hcursor : (openCursor true).Issues [] := .emit _
  have hselect := execute_issues (.select s)
  rw [search, hs, ofExcept_ok_bind, searchTexts, Search.texts]
  cases s.counted with
  | false =>
    exact .withConnection (hcursor.andThen (hselect.bind fun rows => (loadOrders_issues rows).bind fun items =>
      (Issues.pure Value.null).bind fun total => .pure (Page.mk items total)))
  | true =>
    exact .withConnection (hcursor.andThen (hselect.bind fun rows => (loadOrders_issues rows).bind fun items =>
      (countOrders_issues s).bind fun total => .pure (Page.mk items total)))

theorem search_ok {tables : Tables} {q : Query} {w : World} {p : Page}
    (hp : (search tables q w).1 = .ok p) :
    ∃ s, Search.ofQuery tables q = .ok s ∧ (search tables q w).2.issued = w.issued ++ searchTexts s.texts := by
  cases hs : Search.ofQuery tables q with
  | error e =>
    rw [search, hs] at hp
    cases hp
  | ok s => exact ⟨s, rfl, (search_issues hs).of_ok hp⟩

end Action

/-- Texts of searches, saves and lookups depend on shapes only, and not on values. -/
theorem texts_hold_no_values (tables : Tables) :
    (∀ q q' : Query, ∀ s s', q.shape = q'.shape → Search.ofQuery tables q = .ok s →
      Search.ofQuery tables q' = .ok s' → s.texts = s'.texts) ∧
    (∀ q, Searchable q → ∃ s, Search.ofQuery tables q = .ok s) ∧
    (∀ q s, Search.ofQuery tables q = .ok s → s.texts.sorting ∈ Sorting.texts) ∧
    (∀ q q' : Query, ∀ p p' w w', q.shape = q'.shape → (Action.search tables q w).1 = .ok p →
      (Action.search tables q' w').1 = .ok p' →
      ∃ texts, (Action.search tables q w).2.issued = w.issued ++ texts ∧
        (Action.search tables q' w').2.issued = w'.issued ++ texts) ∧
    (∀ o o' r r' : Order, ∀ w w', o.shape = o'.shape → (Action.save tables o w).1 = .ok r →
      (Action.save tables o' w').1 = .ok r' →
      ∃ texts, (Action.save tables o w).2.issued = w.issued ++ texts ∧
        (Action.save tables o' w').2.issued = w'.issued ++ texts) ∧
    (∀ column, ∃ text, ∀ value w,
      (Action.find tables column value w).2.issued = w.issued ++ if w.isOpen then [text] else []) := by
  refine ⟨fun q q' s s' => Search.texts_eq_of_shape, ?_, ?_, ?_, ?_, ?_⟩
  · intro q hq
    obtain ⟨cs, hcs⟩ := hq.exists_clauses tables
    exact ⟨_, map_eq_ok.mpr ⟨cs, hcs, rfl⟩⟩
  · intro q s hs
    obtain ⟨cs, -, rfl⟩ := map_eq_ok.mp hs
    exact Sorting.text_mem_texts q
  · intro q q' p p' w w' hq hp hp'
    obtain ⟨s, hs, hissued⟩ := Action.search_ok hp
    obtain ⟨s', hs', hissued'⟩ := Action.search_ok hp'
    rw [← Search.texts_eq_of_shape hq hs hs'] at hissued'
    exact ⟨_, hissued, hissued'⟩
  · intro o o' r r' w w' ho hr hr'
    refine ⟨Action.savedTexts tables o.shape, (Action.save_issues tables o).of_ok hr, ?_⟩
    rw [ho]
    exact (Action.save_issues tables o').of_ok hr'
  · intro column
    exact ⟨_, fun value w => Action.find_issued tables column value w⟩

set_option maxRecDepth 8000 in
theorem texts_hold_no_values_attack :
    let attack : Text := "0); DROP TABLE orders; --"
    let q : Query := assignAll [(.types, .tuple [.text attack]), (.column, .text attack)] Query.default
    let q' : Query := assignAll [(.types, .tuple [.text "sale"])] Query.default
    let stamp : Timestamp := ⟨⟨2024, 1, 31, by decide⟩, .midnight⟩
    let o := { unsaved stamp with orderNo := attack, relations := [(.text attack, .bool true)] }
    let w : World := ⟨.ofTimestamp stamp, [], .empty, true, []⟩
    q.shape = q'.shape ∧ o.shape = (unsaved stamp).shape ∧ Searchable q ∧ Searchable q' ∧
    (∃ s s', Search.ofQuery .default q = .ok s ∧ Search.ofQuery .default q' = .ok s' ∧ s.texts = s'.texts ∧
      s.texts.sorting ∈ Sorting.texts) ∧
    (∃ texts, (Action.search .default q w).2.issued = [] ++ texts ∧
      (Action.search .default q' w).2.issued = [] ++ texts) ∧
    (∃ texts, (Action.save .default o w).2.issued = [] ++ texts ∧
      (Action.save .default (unsaved stamp) w).2.issued = [] ++ texts) ∧
    ∃ text, (Action.find .default .id (.text attack) w).2.issued = [] ++ [text] ∧
      (Action.find .default .id (.int 7) w).2.issued = [] ++ [text] := by
  intro attack q q' stamp o w
  obtain ⟨compiled, compiles, sorted, searched, saved, found⟩ := texts_hold_no_values .default
  have hq : Searchable q := ⟨⟨_, rfl⟩, ⟨_, rfl⟩, ⟨_, rfl⟩, .inl rfl, .inl rfl, .inl rfl, .inl rfl⟩
  have hq' : Searchable q' := ⟨⟨_, rfl⟩, ⟨_, rfl⟩, ⟨_, rfl⟩, .inl rfl, .inl rfl, .inl rfl, .inl rfl⟩
  have hshape : q.shape = q'.shape := rfl
  have ho : o.shape = (unsaved stamp).shape := rfl
  refine ⟨hshape, ho, hq, hq', ?_, ?_, ?_, ?_⟩
  · obtain ⟨s, hs⟩ := compiles q hq
    obtain ⟨s', hs'⟩ := compiles q' hq'
    exact ⟨s, s', hs, hs', compiled q q' s s' hshape hs hs', sorted q s hs⟩
  · have hp : (Action.search .default q w).1 = .ok ⟨[], .int 0⟩ := rfl
    have hp' : (Action.search .default q' w).1 = .ok ⟨[], .int 0⟩ := rfl
    exact searched q q' _ _ w w hshape hp hp'
  · have hr : (Action.save .default o w).1 = .ok { o with id := .int 1 } := rfl
    have hr' : (Action.save .default (unsaved stamp) w).1 = .ok { unsaved stamp with id := .int 1 } := rfl
    exact saved o _ _ _ w w ho hr hr'
  · obtain ⟨text, htext⟩ := found .id
    exact ⟨text, htext (.text attack) w, htext (.int 7) w⟩

end Storage

end OrderStore
