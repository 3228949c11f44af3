import OrderStore.Proofs.Sql.SameFilter
import OrderStore.Proofs.Sql.Shape
import OrderStore.Proofs.Sql.Statement
import OrderStore.Proofs.Storage.EventTrail

namespace OrderStore.Storage

open Sql

def World.seen (checks : Nat) (trace : List Event) (w : World) : World :=
  { w with database := { w.database with checks }, trace }

namespace Action

variable {α β : Type}

def Does (w : World) (a : Action α) (r : Except Error α) (es : List Event) : Prop :=
  ∀ checks trace, ∃ checks', a (w.seen checks trace) = (r, w.seen checks' (trace ++ es))

namespace Does

variable {w : World} {a : Action α} {b : α → Action β} {x : α} {e : Error} {r : Except Error α}
  {s : Except Error β} {es fs : List Event}

theorem bind (ha : Does w a (.ok x) es) (hb : Does w (b x) s fs) : Does w (a >>= b) s (es ++ fs) := by
  intro checks trace
  obtain ⟨checks, h⟩ := ha checks trace
  obtain ⟨checks, h'⟩ := hb checks (trace ++ es)
  refine ⟨checks, ?_⟩
  rw [bind_apply, h, ← List.append_assoc]
  exact h'

theorem bind_error (ha : Does w a (.error e) es) (b : α → Action β) : Does w (a >>= b) (.error e) es := by
  intro checks trace
  obtain ⟨checks, h⟩ := ha checks trace
  refine ⟨checks, ?_⟩
  rw [bind_apply, h]

theorem silent (h : ∀ w', a w' = (r, w')) : Does w a r [] := by
  intro checks trace
  refine ⟨checks, ?_⟩
  rw [h, List.append_nil]

theorem pure (x : α) : Does w (pure x) (.ok x) [] := silent fun _ => rfl

theorem ofExcept (r : Except Error α) : Does w (Action.ofExcept r) r [] := silent fun _ => rfl

theorem emit (e : Event) : Does w (Action.emit e) (.ok ()) [e] := fun checks _ => ⟨checks, rfl⟩

theorem withConnection (hp : w.isOpen = true) (h : Does w a r es) :
    Does w (withConnection a) r ([.connectionTaken] ++ es ++ [.connectionReturned]) := by
  intro checks trace
  have hopen (checks : Nat) (trace : List Event) : (w.seen checks trace).isOpen = true := hp
  obtain ⟨checks', h⟩ := h checks (trace ++ [.connectionTaken])
  refine ⟨checks', ?_⟩
  have htaken : (w.seen checks trace).emit .connectionTaken = w.seen checks (trace ++ [.connectionTaken]) := rfl
  rw [withConnection_open _ (hopen _ _), htaken, h, World.returnConnection, if_pos (hopen _ _)]
  simp [World.seen, World.emit]

theorem execute {q : Statement} (hq : q.isReading = true) (hf : w.database.faults = .none) :
    Does w (execute q) (w.database.perform q).1 [.executed q.text.squeeze q.params] := by
  intro checks trace
  refine ⟨checks + 1, ?_⟩
  let w' := w.seen checks (trace ++ [.executed q.text.squeeze q.params])
  have hcheck : w'.database.check q.text.squeeze = (.ok (), { w'.database with checks := checks + 1 }) := by
    rw [Database.check]
    simp only [w', World.seen, hf, Faults.none]
  have hexecute : w'.database.execute q = ((w.database.perform q).1, { w'.database with checks := checks + 1 }) := by
    rw [Database.execute, hcheck]
    cases q with
    | lookup | select | count => rfl
    | _ => cases hq
  change ((w'.database.execute q).1, { w' with database := (w'.database.execute q).2 }) = _
  rw [hexecute]
  rfl

end Does

def warnings (now : WallClock) (row : Order.Row) : List Event :=
  List.replicate (Order.ofRow now row).malformed (.logged malformedDocument)

def allWarnings (now : WallClock) : List Order.Row → List Event
  | [] => []
  | row :: rows => warnings now row ++
    match (Order.ofRow now row).result with
    | .ok _ => allWarnings now rows
    | .error _ => []

theorem does_loadOrder (w : World) (row : Order.Row) :
    Does w (loadOrder row) (Order.ofRow w.now row).result (warnings w.now row) :=
  fun checks _ => ⟨checks, rfl⟩

theorem does_loadOrders (w : World) (rows : List Order.Row) :
    Does w (loadOrders rows) (rows.mapM fun row => (Order.ofRow w.now row).result) (allWarnings w.now rows) := by
  induction rows with
  | nil => exact .pure []
  | cons row rows ih =>
    have hrow := does_loadOrder w row
    rw [List.mapM_cons, loadOrders, allWarnings]
    cases hresult : (Order.ofRow w.now row).result with
    | error e =>
      rw [hresult] at hrow
      rw [List.append_nil]
      exact hrow.bind_error _
    | ok o =>
      rw [hresult] at hrow
      apply hrow.bind
      cases hrest : rows.mapM fun row => (Order.ofRow w.now row).result with
      | error e =>
        rw [hrest] at ih
        exact ih.bind_error _
      | ok items =>
        rw [hrest] at ih
        rw [← List.append_nil (allWarnings w.now rows)]
        exact ih.bind (.pure (o :: items))

def loaded (w : World) : Except Error (List Order) :=
  w.database.results.mapM fun row => (Order.ofRow w.now row).result

def selection (s : Search) : Event := .executed s.selectText.squeeze s.selectParams

def counting (s : Search) : Event := .executed s.countText.squeeze s.params

section

variable {w : World} {n : Int} {tables : Tables} {q : Query} {s : Search}

theorem does_countOrders (hf : w.database.faults = .none) (hn : w.database.count = .int n) (s : Search) :
    Does w (countOrders s) (.ok (.int n)) [counting s] := by
  have hcount : Does w (execute (.count s)) (.ok [[("count", .int n)]]) [counting s] := by
    rw [← hn]
    exact .execute rfl hf
  exact hcount.bind ((Does.ofExcept (.ok n)).bind (.pure _))

theorem does_fetchPage_error (hf : w.database.faults = .none) {e : Error} (he : loaded w = .error e) (s : Search) :
    Does w (fetchPage s) (.error e) ([.cursorOpened true, selection s] ++ allWarnings w.now w.database.results) := by
  have hselect : Does w (execute (.select s)) (.ok w.database.results) [selection s] := .execute rfl hf
  have hload := does_loadOrders w w.database.results
  rw [loaded] at he
  rw [he] at hload
  exact (Does.emit _).bind (hselect.bind (hload.bind_error _))

def total (s : Search) (n : Int) : Value := if s.counted then .int n else .null

def totalEvents (s : Search) : List Event := if s.counted then [counting s] else []

def fetchTotal (s : Search) : Action Value := if s.counted then countOrders s else pure .null

theorem fetchPage_eq (s : Search) :
    fetchPage s = openCursor true >>= fun _ => execute (.select s) >>= fun rows => loadOrders rows >>= fun items =>
      fetchTotal s >>= fun total => pure ⟨items, total⟩ := by
  rw [fetchPage]
  simp only [fetchTotal]
  cases s.counted <;> rfl

theorem does_fetchTotal (hf : w.database.faults = .none) (hn : w.database.count = .int n) (s : Search) :
    Does w (fetchTotal s) (.ok (total s n)) (totalEvents s) := by
  rw [fetchTotal, total, totalEvents]
  cases s.counted with
  | true => exact does_countOrders hf hn s
  | false => exact .pure Value.null

theorem does_fetchPage_ok (hf : w.database.faults = .none) (hn : w.database.count = .int n) {items : List Order}
    (hitems : loaded w = .ok items) (s : Search) :
    Does w (fetchPage s) (.ok ⟨items, total s n⟩)
      ([.cursorOpened true, selection s] ++ allWarnings w.now w.database.results ++ totalEvents s) := by
  have hselect : Does w (execute (.select s)) (.ok w.database.results) [selection s] := .execute rfl hf
  have hload := does_loadOrders w w.database.results
  rw [loaded] at hitems
  rw [hitems] at hload
  have htotal : Does w (fetchTotal s >>= fun total => pure (Page.mk items total)) (.ok ⟨items, total s n⟩)
    (totalEvents s ++ []) := (does_fetchTotal hf hn s).bind (.pure _)
  rw [List.append_nil] at htotal
  rw [fetchPage_eq, List.append_assoc]
  exact (Does.emit (.cursorOpened true)).bind (hselect.bind (hload.bind htotal))

theorem Does.exists_eq {α : Type} {a : Action α} {r : Except Error α} {es : List Event} (h : Does w a r es) :
    ∃ checks, a w = (r, w.seen checks (w.trace ++ es)) := h w.database.checks w.trace

/-- The page and the count of a search have the same conditions with the same parameters, and no others; whatever
only arranges the page leaves them as they are. The page is selected and then, if all its rows are orders and a
total is asked for, counted once. -/
structure CountsPage (tables : Tables) (q : Query) (s : Search) : Prop where
  arranged : ∀ xs : List Query.Call, (∀ x ∈ xs, x.Arranges) → ∃ s', Search.ofQuery tables (q.follow xs) = .ok s' ∧
    s'.whereText = s.whereText ∧ s'.params = s.params ∧ s'.texts.count = s.texts.count
  selectText : s.selectText = "SELECT * FROM " ++ tables.orders.text ++ Search.spaced s.whereText ++ " " ++
    (Sorting.ofQuery q).text ++ " LIMIT " ++ placeholder "limit" ++ " OFFSET " ++ placeholder "offset"
  countText : s.countText = "SELECT COUNT(*) FROM " ++ tables.orders.text ++ Search.spaced s.whereText
  counted : s.texts.count = if q.wantsTotal then some s.countText else none
  selectParams : s.selectParams = s.params ++ ([("limit", q .limit), ("offset", q .offset)] : Named)
  page : ∀ (w : World) (n : Int) items, w.isOpen = true → w.database.faults = .none →
    w.database.count = .int n → loaded w = .ok items →
    ∃ checks, search tables q w = (.ok ⟨items, if q.wantsTotal then .int n else .null⟩, w.seen checks (w.trace ++
      ([.connectionTaken, .cursorOpened true, selection s] ++ allWarnings w.now w.database.results ++
        (if q.wantsTotal then [counting s] else []) ++ [.connectionReturned])))
  failure : ∀ (w : World) e, w.isOpen = true → w.database.faults = .none → loaded w = .error e →
    ∃ checks, search tables q w = (.error e, w.seen checks (w.trace ++
      ([.connectionTaken, .cursorOpened true, selection s] ++ allWarnings w.now w.database.results ++
        [.connectionReturned])))

theorem total_counts_page (hq : q.Built) (tables : Tables) :
    ∃ s, Search.ofQuery tables q = .ok s ∧ CountsPage tables q s := by
  obtain ⟨cs, hcs⟩ := exists_ofQuery tables hq.admits
  have hs : Search.ofQuery tables q = .ok _ := map_eq_ok.mpr ⟨cs, hcs, rfl⟩
  refine ⟨_, hs, ?_, Search.selectText_eq _, Search.countText_eq _, rfl, rfl, ?_, ?_⟩
  -- Calls that only arrange lead to a query with the same filter.
  · intro xs hxs
    have hsearch := (hq.sameFilter_follow hxs).search tables
    rw [hs] at hsearch
    exact ⟨_, hsearch, rfl, rfl, rfl⟩
  · intro w n items hp hf hn hitems
    rw [search_eq hs]
    exact ((does_fetchPage_ok hf hn hitems _).withConnection hp).exists_eq
  · intro w e hp hf he
    rw [search_eq hs]
    exact ((does_fetchPage_error hf he _).withConnection hp).exists_eq

def anyClock : WallClock := .ofTimestamp ⟨⟨2024, 1, 31, by decide⟩, .midnight⟩

def malformedRow : Order.Row :=
  [("id", .int 1), ("order_no", .text "A-1"), ("type", .text "sale"), ("status", .text "new"),
    ("amount", .int 5), ("currency", .text "EUR"), ("buyer_id", .null), ("created_at", .moment anyClock.shown),
    ("updated_at", .moment anyClock.shown), ("attributes_json", .text "[")]

theorem ofRow_malformedRow : ∃ o, Order.ofRow anyClock malformedRow = ⟨1, .ok o⟩ := ⟨_, rfl⟩

theorem total_counts_page_sales :
    let q : Query := assignAll [(.types, .tuple [.text "sale"])] Query.default
    let w (rows : List Order.Row) : World :=
      ⟨anyClock, [], { Database.empty with results := rows, count := .int 40 }, true, []⟩
    let one := w [malformedRow]
    let two := w [malformedRow, []]
    q.Built ∧ ∃ s, Search.ofQuery .default q = .ok s ∧ CountsPage .default q s ∧
      (∃ o checks, search .default q one = (.ok ⟨[o], .int 40⟩, one.seen checks
        [.connectionTaken, .cursorOpened true, selection s, .logged malformedDocument, counting s,
          .connectionReturned])) ∧
      ∃ checks, search .default q two = (.error (.missing "id"), two.seen checks
        [.connectionTaken, .cursorOpened true, selection s, .logged malformedDocument, .connectionReturned]) := by
  intro q w one two
  have hrefine : Query.default.refine anyClock (.type (.text "sale")) = .ok q := rfl
  have hq : q.Built := .refine .default hrefine
  obtain ⟨s, hs, h⟩ := total_counts_page hq .default
  obtain ⟨o, ho⟩ := ofRow_malformedRow
  have hempty : Order.ofRow anyClock [] = ⟨0, .error (.missing "id")⟩ := rfl
  have hone : loaded one = .ok [o] := by
    simp only [loaded, one, w, List.mapM_cons, List.mapM_nil, ho]
    rfl
  have htwo : loaded two = .error (.missing "id") := by
    simp only [loaded, two, w, List.mapM_cons, List.mapM_nil, ho, hempty]
    rfl
  have hwarnings (rows : List Order.Row) (hrows : rows = [] ∨ rows = [[]]) :
      allWarnings anyClock (malformedRow :: rows) = [.logged malformedDocument] := by
    rcases hrows with rfl | rfl <;> simp [allWarnings, warnings, ho, hempty]
  refine ⟨hq, s, hs, h, ?_, ?_⟩
  · obtain ⟨checks, hsearch⟩ := h.page one 40 _ rfl rfl rfl hone
    rw [hwarnings [] (.inl rfl)] at hsearch
    exact ⟨o, checks, hsearch⟩
  · obtain ⟨checks, hsearch⟩ := h.failure two _ rfl rfl htwo
    rw [hwarnings [[]] (.inr rfl)] at hsearch
    exact ⟨checks, hsearch⟩

end

end Action

end OrderStore.Storage
