import OrderStore.Proofs.Pool.Moves
import OrderStore.Session
import OrderStore.Proofs.Except
/-!
What the steps of a session do with the pool: each of them takes one of a few turns, and which one
depends on whether the pool is open and on whether the step comes to ask for a connection.
-/

namespace OrderStore

open Storage Sql

def SessionStep.IsCall : SessionStep → Prop
  | .createTables | .save .. | .find .. | .search .. => True
  | _ => False

def SessionStep.Opens : SessionStep → Prop
  | .openPool arguments => arguments.length ≤ 2
  | .bootstrap => True
  | _ => False

theorem SessionStep.IsCall.not_opens {x : SessionStep} (hx : x.IsCall) : ¬ x.Opens := by
  cases x <;> simp [IsCall, Opens] at hx ⊢

namespace Storage.Action

variable {α β : Type} {a : Action α}

def Notes (a : Action α) : Prop :=
  ∀ w, ∃ es, (a w).2 = { w with trace := w.trace ++ es } ∧ ∀ e ∈ es, ¬ e.OnPool

namespace Notes

theorem silent (h : ∀ w, (a w).2 = w) : a.Notes := by
  intro w
  refine ⟨[], ?_, List.forall_mem_nil _⟩
  rw [h w, List.append_nil]

theorem ofExcept (x : Except Error α) : (Action.ofExcept x).Notes := silent fun _ => rfl

theorem present : Action.present.Notes := silent fun _ => rfl

theorem bind {b : α → Action β} (ha : a.Notes) (hb : ∀ x, (b x).Notes) : (a >>= b).Notes := by
  intro w
  obtain ⟨es, hw, hes⟩ := ha w
  rw [bind_apply]
  generalize a w = c at hw
  obtain ⟨r, w'⟩ := c
  cases r with
  | error e => exact ⟨es, hw, hes⟩
  | ok x =>
    obtain ⟨es', hw', hes'⟩ := hb x w'
    refine ⟨es ++ es', hw'.trans ?_, List.forall_mem_append.mpr ⟨hes, hes'⟩⟩
    rw [show w' = _ from hw, List.append_assoc]

theorem loadOrder (row : Order.Row) : (Action.loadOrder row).Notes := by
  intro w
  refine ⟨_, rfl, fun e he => ?_⟩
  rw [List.eq_of_mem_replicate he]
  exact Event.IsReading.not_onPool trivial

theorem signals (h : a.Notes) (w : World) : Signals a w [] := by
  obtain ⟨es, hw, hes⟩ := h w
  refine ⟨es, ?_, signals_eq_nil hes⟩
  rw [hw]
  exact ⟨rfl, rfl⟩

end Notes

end Storage.Action

namespace Session

variable {α : Type} {s : Session} {x : SessionStep} {a : Action α}

def ready (s : Session) : World := { s.world with trace := [] }

def after (s : Session) (x : SessionStep) : Session := (s.step x).2.2

def signals (s : Session) (x : SessionStep) : List Signal :=
  Storage.signals s.world.connects (s.step x).2.1

def draft (s : Session) (source : Source) (changes : List OrderStep) : Action Order := do
  changeAll changes (← s.fetch source)

def asked (s : Session) (fields : Named) (steps : List WorksheetStep) : Except Error Search :=
  (Query.make fields).bind fun q =>
    Search.ofQuery s.tables ((Worksheet.start q).run s.world.now steps).current.query

/-- Whether a step comes to the point where it asks for a connection. -/
def Asks (s : Session) : SessionStep → Prop
  | .takeConnection | .createTables | .find .. => True
  | .bootstrap => s.world.isOpen = true ∨ s.world.connects = true
  | .save source changes _ =>
    (∃ o, (s.draft source changes s.ready).1 = .ok o) ∧ ∃ stamp, s.world.stamp = .ok stamp
  | .search fields steps => ∃ search, s.asked fields steps = .ok search
  | _ => False

def poolAt (s : Session) : SessionStep → Bool
  | .bootstrap => s.world.isOpen || s.world.connects
  | _ => s.world.isOpen

theorem poolAt_of_open (x : SessionStep) (h : s.world.isOpen = true) : s.poolAt x = true := by
  cases x with
  | bootstrap => rw [poolAt, h, Bool.true_or]
  | _ => exact h

theorem poolAt_of_call {x : SessionStep} (s : Session) (hx : x.IsCall) :
    s.poolAt x = s.world.isOpen := by
  cases x with
  | bootstrap => cases hx
  | _ => rfl

/-- The step runs this action: it leaves the same events and the same world, and fails alike. -/
structure Runs (s : Session) (x : SessionStep) (a : Action α) : Prop where
  events : (s.step x).2.1 = (a s.ready).2.trace
  world : (s.after x).world = (a s.ready).2
  taken : (s.after x).taken = s.taken
  error : ∀ e, (s.step x).1 = .error e ↔ (a s.ready).1 = .error e

theorem run_eq {r : Except Error α} {w : World} (ha : a s.ready = (r, w)) :
    s.run a = (r, w.trace, { s with world := w }) := by
  unfold run
  rw [show a { s.world with trace := [] } = (r, w) from ha]

theorem Runs.of_eq {r : Except Error α} {w : World} {answer : Except Error Answer}
    {slots : List (Text × Order)} (ha : a s.ready = (r, w))
    (hstep : s.step x = (answer, w.trace, { s with world := w, slots }))
    (herror : ∀ e, answer = .error e ↔ r = .error e) : Runs s x a := by
  constructor <;> simp only [after, hstep, ha]
  exact herror

theorem Runs.of_answer {f : α → Answer} (h : s.step x = s.answer a f) : Runs s x a := by
  cases ha : a s.ready with
  | mk r w =>
    have hstep : s.step x = (r.map f, w.trace, { s with world := w }) := by rw [h, answer, run_eq ha]
    exact .of_eq ha hstep fun e => map_eq_error

theorem runs_save (source : Source) (changes : List OrderStep) (slot : Text) :
    Runs s (.save source changes slot) (s.draft source changes >>= Action.save s.tables) := by
  have haction : (do Action.save s.tables (← changeAll changes (← s.fetch source))) =
      s.draft source changes >>= Action.save s.tables := (bind_assoc _ _ _).symm
  cases ha : (s.draft source changes >>= Action.save s.tables) s.ready with
  | mk r w =>
    cases r with
    | error e => exact .of_eq ha (by rw [step, haction, run_eq ha]) fun _ => by simp
    | ok o => exact .of_eq ha (by rw [step, haction, run_eq ha]; rfl) fun _ => by simp

theorem runs_find (column : LookupColumn) (value : Value) (slot : Option Text) :
    Runs s (.find column value slot) (Action.find s.tables column value) := by
  cases ha : Action.find s.tables column value s.ready with
  | mk r w =>
    cases r with
    | error e => exact .of_eq ha (by rw [step, run_eq ha]) fun _ => by simp
    | ok found =>
      cases found with
      | none => exact .of_eq ha (by rw [step, run_eq ha]) fun _ => by simp
      | some o =>
        cases slot with
        | none => exact .of_eq ha (by rw [step, run_eq ha]; rfl) fun _ => by simp
        | some name => exact .of_eq ha (by rw [step, run_eq ha]; rfl) fun _ => by simp

/-! ## Calls -/

theorem fetch_notes (s : Session) (source : Source) : (s.fetch source).Notes := by
  have hbuilt (maker : Maker) (data : Named) :
      (do Action.ofExcept (maker.build (← Action.present) data)).Notes :=
    Action.Notes.present.bind fun _ => .ofExcept _
  cases source with
  | built maker data =>
    cases maker with
    | row => exact .loadOrder data
    | _ => exact hbuilt _ data
  | slot name =>
    unfold fetch
    dsimp only
    split <;> exact .silent fun _ => rfl

theorem draft_notes (s : Session) (source : Source) (changes : List OrderStep) :
    (s.draft source changes).Notes :=
  (fetch_notes s source).bind fun _ => Action.Notes.present.bind fun _ => .ofExcept _

theorem saving_signals (s : Session) (source : Source) (changes : List OrderStep) (slot : Text) :
    (s.Asks (.save source changes slot) →
      Action.Borrows (s.draft source changes >>= Action.save s.tables) s.ready) ∧
    (¬ s.Asks (.save source changes slot) →
      Action.Signals (s.draft source changes >>= Action.save s.tables) s.ready []) := by
  have hquiet := (draft_notes s source changes).signals s.ready
  obtain ⟨es, hnotes, -⟩ := draft_notes s source changes s.ready
  cases hd : s.draft source changes s.ready with
  | mk r w =>
    rw [hd] at hnotes
    have hstamp : w.stamp = s.world.stamp := by
      rw [show w = _ from hnotes]
      rfl
    cases r with
    | error e =>
      refine ⟨fun h => ?_, fun _ => (hquiet.bind_error (by rw [hd])).2⟩
      obtain ⟨⟨o, ho⟩, -⟩ := h
      rw [hd] at ho
      cases ho
    | ok o =>
      cases hs : s.world.stamp with
      | error e =>
        refine ⟨fun h => ?_, fun _ => hquiet.bind_ok hd (Action.save_spares s.tables o (hstamp.trans hs))⟩
        obtain ⟨-, stamp, h⟩ := h
        rw [hs] at h
        cases h
      | ok stamp =>
        refine ⟨fun _ => .after hquiet hd (.save s.tables o (hstamp.trans hs)), fun h => absurd ?_ h⟩
        exact ⟨⟨o, by rw [hd]⟩, stamp, hs⟩

def searching (s : Session) (fields : Named) (steps : List WorksheetStep) : Action Page := do
  let q ← Action.ofExcept (Query.make fields)
  let sheet := (Worksheet.start q).run s.world.now steps
  Action.search s.tables sheet.current.query

theorem searching_signals (s : Session) (fields : Named) (steps : List WorksheetStep) :
    (s.Asks (.search fields steps) → Action.Borrows (s.searching fields steps) s.ready) ∧
    (¬ s.Asks (.search fields steps) → Action.Signals (s.searching fields steps) s.ready []) := by
  have hquiet : Action.Signals (Action.ofExcept (Query.make fields)) s.ready [] :=
    ⟨[], .silent rfl rfl, fun _ => rfl⟩
  cases hq : Query.make fields with
  | error e =>
    refine ⟨fun h => ?_, fun _ => ?_⟩
    · obtain ⟨search, h⟩ := h
      rw [asked, hq] at h
      cases h
    · exact (hquiet.bind_error hq).2
  | ok q =>
    have hok : Action.ofExcept (Query.make fields) s.ready = (.ok q, s.ready) := by
      rw [hq]
      rfl
    have hasked : s.asked fields steps =
        Search.ofQuery s.tables ((Worksheet.start q).run s.world.now steps).current.query := by
      rw [asked, hq]
      rfl
    refine ⟨fun h => ?_, fun h => ?_⟩
    · obtain ⟨search, h⟩ := h
      exact .after hquiet hok (.search (hasked.symm.trans h) _)
    · cases hs : s.asked fields steps with
      | ok search => exact absurd ⟨search, hs⟩ h
      | error e =>
        have hunclear := hasked.symm.trans hs
        exact hquiet.bind_ok hok (Action.search_spares hunclear _)

theorem call_runs (s : Session) {x : SessionStep} (hx : x.IsCall) :
    ∃ (α : Type) (a : Action α), Runs s x a ∧ (s.Asks x → Action.Borrows a s.ready) ∧
      (¬ s.Asks x → Action.Signals a s.ready []) := by
  cases x with
  | createTables =>
    exact ⟨_, _, .of_answer rfl, fun _ => .createTables _ _, fun h => absurd trivial h⟩
  | find column value slot =>
    exact ⟨_, _, runs_find column value slot, fun _ => .find _ _ _ _, fun h => absurd trivial h⟩
  | save source changes slot =>
    exact ⟨_, _, runs_save source changes slot, saving_signals s source changes slot⟩
  | search fields steps =>
    exact ⟨_, s.searching fields steps, .of_answer rfl, searching_signals s fields steps⟩
  | _ => cases hx

/-! ## Opening -/

theorem openPoolWith_eq (arguments : List Value) :
    (arguments.length ≤ 2 ∧ ∃ minimum maximum,
      Action.openPoolWith ⟨arguments, []⟩ = Action.openPool minimum maximum) ∨
    (2 < arguments.length ∧
      Action.openPoolWith ⟨arguments, []⟩ = Action.ofExcept (.error .wrongArguments)) := by
  rcases arguments with _ | ⟨v, _ | ⟨w, _ | ⟨u, rest⟩⟩⟩
  · exact .inl ⟨Nat.zero_le _, _, _, rfl⟩
  · exact .inl ⟨Nat.le_succ 1, _, _, rfl⟩
  · exact .inl ⟨Nat.le_refl 2, _, _, rfl⟩
  · refine .inr ⟨?_, rfl⟩
    simp only [List.length_cons]
    omega

theorem openPool_open (arguments : List Value) (h : s.world.isOpen = true) :
    s.step (.openPool arguments) =
      (if arguments.length ≤ 2 then .ok .nothing else .error .wrongArguments, [],
        { s with world := s.ready }) := by
  change s.answer (Action.openPoolWith ⟨arguments, []⟩) (fun _ => .nothing) = _
  rcases openPoolWith_eq arguments with ⟨hlength, minimum, maximum, ha⟩ | ⟨hlong, ha⟩
  · rw [ha, answer, run_eq (Action.openPool_open minimum maximum h), if_pos hlength]
    rfl
  · rw [ha, if_neg (by omega)]
    rfl

def creating : Action Text := do
  Action.createTables "__main__"
  return "✅ Database schema created successfully.\n"

theorem creating_borrows (w : World) : Action.Borrows creating w :=
  .bind (.createTables "__main__" w) fun _ _ => ⟨[], .silent rfl rfl, fun _ => rfl⟩

theorem runs_bootstrap (s : Session) : ∃ minimum maximum,
    Runs s .bootstrap (Action.openPool minimum maximum >>= fun _ => creating) :=
  ⟨_, _, .of_answer rfl⟩

theorem runs_openPool (s : Session) {arguments : List Value} (h : arguments.length ≤ 2) :
    ∃ minimum maximum,
      Runs s (.openPool arguments) (Action.openPool minimum maximum >>= fun _ => pure ()) := by
  rcases openPoolWith_eq arguments with ⟨-, minimum, maximum, ha⟩ | ⟨hlong, -⟩
  · refine ⟨minimum, maximum, .of_answer (f := fun _ => .nothing) ?_⟩
    rw [bind_pure_unit, ← ha]
    rfl
  · exact absurd h (by omega)

theorem bootstrap_open (h : s.world.isOpen = true) :
    ∃ a : Action Text, Runs s .bootstrap a ∧ Action.Borrows a s.ready := by
  obtain ⟨minimum, maximum, hruns⟩ := runs_bootstrap s
  have hopen := Action.openPool_open minimum maximum (w := s.ready) h
  refine ⟨_, hruns, .after ?_ hopen (creating_borrows _)⟩
  rw [Action.Signals, hopen]
  exact ⟨[], .silent rfl rfl, fun _ => rfl⟩

variable {minimum maximum : Value} {rest : Unit → Action α}

theorem Runs.connects (hruns : Runs s x (Action.openPool minimum maximum >>= rest))
    (h : s.world.isOpen = false) (hr : s.world.refusal = none) {ss : List Signal}
    (hrest : ∀ w, w.isOpen = true → Action.Signals (rest ()) w ss) :
    s.signals x = .opened :: ss ∧ (s.after x).world.isOpen = true := by
  obtain ⟨es, w, ha, htrace, hopen, hsignals⟩ :=
    Action.openPool_connects (w := s.ready) minimum maximum h hr
  obtain ⟨es', htrail, hsignals'⟩ := hrest w hopen
  have hconnects : s.world.connects = true := by rw [World.connects, hr]; rfl
  rw [signals, hruns.events, hruns.world, Action.bind_apply, ha]
  refine ⟨?_, htrail.isOpen.trans hopen⟩
  rw [htrail.trace, htrace, hconnects, signals_append, signals_append, hsignals, hsignals']
  rfl

theorem Runs.refused (hruns : Runs s x (Action.openPool minimum maximum >>= rest)) {e : Error}
    (h : s.world.isOpen = false) (hr : s.world.refusal = some e) :
    s.signals x = [.refused] ∧ (s.after x).world.isOpen = false ∧ (s.step x).1 = .error e := by
  obtain ⟨es, w, ha, htrace, hopen, hsignals⟩ :=
    Action.openPool_refused (w := s.ready) minimum maximum h hr
  have hconnects : s.world.connects = false := by rw [World.connects, hr]; rfl
  rw [hruns.error, signals, hruns.events, hruns.world, Action.bind_apply, ha, htrace, hconnects,
    signals_append, hsignals]
  exact ⟨rfl, hopen, rfl⟩

theorem Runs.signals {ss : List Signal} (hruns : Runs s x a) (ha : Action.Signals a s.ready ss) :
    s.signals x = ss ∧ (s.after x).world.isOpen = s.world.isOpen := by
  obtain ⟨es, htrail, hes⟩ := ha
  rw [Session.signals, hruns.events, hruns.world, htrail.trace]
  exact ⟨hes _, htrail.isOpen⟩

/-! ## Single steps -/

theorem closePool_closed (h : s.world.isOpen = false) :
    s.step .closePool = (.ok .nothing, [], { s with world := s.ready }) := by
  have ha : Action.closePool s.ready = (.ok (), s.ready) := by rw [Action.closePool, ready, h]; rfl
  rw [step, answer, run_eq ha]
  rfl

theorem closePool_open (h : s.world.isOpen = true) :
    s.signals .closePool = [.closed] ∧ (s.after .closePool).world.isOpen = false := by
  have ha : Action.closePool s.ready = (.ok (), (Action.closePool s.ready).2) := by
    rw [Action.closePool, ready, h]
    rfl
  rw [signals, after, step, answer, run_eq ha, Action.closePool, ready, h]
  exact ⟨rfl, rfl⟩

theorem takeConnection_closed (h : s.world.isOpen = false) :
    s.step .takeConnection = (.error .poolClosed, [], { s with world := s.ready }) := by
  have ha : Action.takeConnection s.ready = (.error .poolClosed, s.ready) := by
    rw [Action.takeConnection, ready, h]
    rfl
  rw [step, answer, run_eq ha]
  rfl

theorem takeConnection_open (h : s.world.isOpen = true) :
    s.step .takeConnection = (.ok .nothing, [.connectionTaken],
      { s with world := s.ready.emit .connectionTaken, taken := s.taken + 1 }) := by
  have ha : Action.takeConnection s.ready = (.ok (), s.ready.emit .connectionTaken) := by
    rw [Action.takeConnection, ready, h]
    rfl
  rw [step, answer, run_eq ha]
  rfl

theorem returnConnection_closed (h : s.world.isOpen = false) :
    s.step .returnConnection =
      (.ok .nothing, [], { s with world := s.ready, taken := s.taken - 1 }) := by
  have ha : s.ready.returnConnection = s.ready := by rw [World.returnConnection, ready, h]; rfl
  change (Except.ok Answer.nothing, s.ready.returnConnection.trace,
    { s with world := s.ready.returnConnection, taken := s.taken - 1 }) = _
  rw [ha]
  rfl

theorem returnConnection_open (h : s.world.isOpen = true) :
    s.step .returnConnection = (.ok .nothing, [.connectionReturned],
      { s with world := s.ready.emit .connectionReturned, taken := s.taken - 1 }) := by
  have ha : s.ready.returnConnection = s.ready.emit .connectionReturned := by
    rw [World.returnConnection, ready, h]
    rfl
  change (Except.ok Answer.nothing, s.ready.returnConnection.trace,
    { s with world := s.ready.returnConnection, taken := s.taken - 1 }) = _
  rw [ha]
  rfl

/-! ## Turns -/

/-- What a step may do and when: the signals, whether the pool is open afterwards, and how many connections
are out then. -/
inductive Turn (s : Session) (x : SessionStep) : List Signal → Bool → Nat → Prop
  | rest (hx : ¬ s.Asks x) (ho : x.Opens → s.world.isOpen = true) :
    Turn s x [] s.world.isOpen s.taken
  | fail (hx : s.Asks x) (ho : s.poolAt x = false) (he : (s.step x).1 = .error .poolClosed) :
    Turn s x [] s.world.isOpen s.taken
  | borrow (hx : s.Asks x) (ho : s.world.isOpen = true) : Turn s x [.lent, .returned] true s.taken
  | take (hx : x = .takeConnection) (ho : s.world.isOpen = true) : Turn s x [.lent] true (s.taken + 1)
  | giveBack (hx : x = .returnConnection) (ho : s.world.isOpen = true) :
    Turn s x [.returned] true (s.taken - 1)
  | drop (hx : x = .returnConnection) (ho : s.world.isOpen = false) : Turn s x [] false (s.taken - 1)
  | connect (hx : ¬ s.Asks x) (ho : s.world.isOpen = false) (hr : s.world.refusal = none) :
    Turn s x [.opened] true s.taken
  | connectAndBorrow (hx : x = .bootstrap) (ho : s.world.isOpen = false) (hr : s.world.refusal = none) :
    Turn s x [.opened, .lent, .returned] true s.taken
  | refuse (e : Error) (hx : ¬ s.Asks x) (ho : s.world.isOpen = false) (hr : s.world.refusal = some e)
    (he : (s.step x).1 = .error e) : Turn s x [.refused] false s.taken
  | close (hx : x = .closePool) (ho : s.world.isOpen = true) : Turn s x [.closed] false s.taken

def Turns (s : Session) (x : SessionStep) : Prop :=
  Turn s x (s.signals x) (s.after x).world.isOpen (s.after x).taken

theorem Runs.rests (hruns : Runs s x a) (ha : Action.Signals a s.ready []) (hx : ¬ s.Asks x)
    (ho : x.Opens → s.world.isOpen = true) : s.Turns x := by
  obtain ⟨hsignals, hopen⟩ := hruns.signals ha
  rw [Turns, hsignals, hopen, hruns.taken]
  exact .rest hx ho

theorem Runs.borrows (hruns : Runs s x a) (ha : Action.Borrows a s.ready) (hx : s.Asks x)
    (hp : s.poolAt x = s.world.isOpen) : s.Turns x := by
  cases h : s.world.isOpen with
  | false =>
    obtain ⟨he, hs⟩ := ha.fails h
    obtain ⟨hsignals, hopen⟩ := hruns.signals hs
    rw [Turns, hsignals, hopen, hruns.taken]
    exact .fail hx (hp.trans h) ((hruns.error _).mpr he)
  | true =>
    obtain ⟨hsignals, hopen⟩ := hruns.signals (ha.lends h)
    rw [Turns, hsignals, hopen, hruns.taken, h]
    exact .borrow hx h

theorem Runs.opens (hruns : Runs s x (Action.openPool minimum maximum >>= rest))
    (h : s.world.isOpen = false) {ss : List Signal}
    (hrest : ∀ w, w.isOpen = true → Action.Signals (rest ()) w ss)
    (hconnects : s.world.refusal = none → Turn s x (.opened :: ss) true s.taken)
    (hrefused : s.world.refusal ≠ none → ¬ s.Asks x) : s.Turns x := by
  cases hr : s.world.refusal with
  | none =>
    obtain ⟨hsignals, hopen⟩ := hruns.connects h hr hrest
    rw [Turns, hsignals, hopen, hruns.taken]
    exact hconnects hr
  | some e =>
    obtain ⟨hsignals, hopen, he⟩ := hruns.refused h hr
    rw [Turns, hsignals, hopen, hruns.taken]
    exact .refuse e (hrefused (by simp [hr])) h hr he

theorem openPool_turns (arguments : List Value) : s.Turns (.openPool arguments) := by
  cases h : s.world.isOpen with
  | true =>
    rw [Turns, signals, after, openPool_open arguments h]
    exact .rest nofun fun _ => h
  | false =>
    rcases openPoolWith_eq arguments with ⟨hlength, -⟩ | ⟨hlong, ha⟩
    · obtain ⟨minimum, maximum, hruns⟩ := runs_openPool s hlength
      exact hruns.opens h (fun w _ => ⟨[], .silent rfl rfl, fun _ => rfl⟩) (.connect nofun h)
        fun _ => nofun
    · have hruns : Runs s (.openPool arguments) (Action.openPoolWith ⟨arguments, []⟩) := .of_answer rfl
      rw [ha] at hruns
      refine hruns.rests ⟨[], .silent rfl rfl, fun _ => rfl⟩ nofun fun hx => ?_
      exact absurd (show arguments.length ≤ 2 from hx) (by omega)

theorem bootstrap_turns (s : Session) : s.Turns .bootstrap := by
  cases h : s.world.isOpen with
  | true =>
    obtain ⟨a, hruns, ha⟩ := bootstrap_open h
    exact hruns.borrows ha (.inl h) ((poolAt_of_open _ h).trans h.symm)
  | false =>
    obtain ⟨minimum, maximum, hruns⟩ := runs_bootstrap s
    refine hruns.opens h (fun w hw => (creating_borrows w).lends hw) (.connectAndBorrow rfl h) ?_
    rintro hr (hopen | hconnects)
    · rw [h] at hopen
      cases hopen
    · exact hr (Option.isNone_iff_eq_none.mp hconnects)

theorem takeConnection_turns (s : Session) : s.Turns .takeConnection := by
  cases h : s.world.isOpen with
  | true =>
    rw [Turns, signals, after, takeConnection_open h]
    change Turn _ _ _ s.world.isOpen _
    rw [h]
    exact .take rfl h
  | false =>
    have hstep := takeConnection_closed h
    rw [Turns, signals, after, hstep]
    exact .fail trivial h (by rw [hstep])

theorem returnConnection_turns (s : Session) : s.Turns .returnConnection := by
  cases h : s.world.isOpen with
  | true =>
    rw [Turns, signals, after, returnConnection_open h]
    change Turn _ _ _ s.world.isOpen _
    rw [h]
    exact .giveBack rfl h
  | false =>
    rw [Turns, signals, after, returnConnection_closed h]
    change Turn _ _ _ s.world.isOpen _
    rw [h]
    exact .drop rfl h

theorem closePool_turns (s : Session) : s.Turns .closePool := by
  cases h : s.world.isOpen with
  | true =>
    have hruns : Runs s .closePool Action.closePool := .of_answer rfl
    obtain ⟨hsignals, hopen⟩ := closePool_open h
    rw [Turns, hsignals, hopen, hruns.taken]
    exact .close rfl h
  | false =>
    rw [Turns, signals, after, closePool_closed h]
    exact .rest nofun nofun

theorem call_turns (hx : x.IsCall) : s.Turns x := by
  obtain ⟨α, a, hruns, hasks, hspares⟩ := call_runs s hx
  by_cases h : s.Asks x
  · exact hruns.borrows (hasks h) h (poolAt_of_call s hx)
  · exact hruns.rests (hspares h) h fun hopens => absurd hopens hx.not_opens

theorem step_turns (s : Session) (x : SessionStep) : s.Turns x := by
  have hrest (f : Storage.Database → Storage.Database) (h : s.step x = s.answer (onDatabase f) fun _ => .nothing)
      (hx : ¬ s.Asks x) (ho : ¬ x.Opens) : s.Turns x :=
    (Runs.of_answer h).rests ⟨[], .silent rfl rfl, fun _ => rfl⟩ hx fun h => absurd h ho
  cases x with
  | openPool arguments => exact openPool_turns arguments
  | bootstrap => exact bootstrap_turns s
  | closePool => exact closePool_turns s
  | takeConnection => exact takeConnection_turns s
  | returnConnection => exact returnConnection_turns s
  | createTables => exact call_turns trivial
  | save source changes slot => exact call_turns trivial
  | find column value slot => exact call_turns trivial
  | search fields steps => exact call_turns trivial
  | setResults rows count => exact hrest (fun db => { db with results := rows, count }) rfl nofun nofun
  | putRow row => exact hrest _ rfl nofun nofun
  | setFaults faults => exact hrest (fun db => { db with faults }) rfl nofun nofun
  | dump => exact .rest nofun nofun

end Session

end OrderStore
