import OrderStore.Proofs.Storage.CallTrace
/-!
What actions ask of the pool of connections: most leave it alone, or take one connection and give it back.
-/

namespace OrderStore

open Storage Sql

inductive Signal where
  | opened
  | refused
  | lent
  | returned
  | closed
  deriving DecidableEq, Repr

namespace Storage

def Event.signal? (connects : Bool) : Event → Option Signal
  | .poolOpened .. => some (if connects then .opened else .refused)
  | .connectionTaken => some .lent
  | .connectionReturned => some .returned
  | .poolClosed => some .closed
  | _ => none

def signals (connects : Bool) (es : List Event) : List Signal :=
  es.filterMap (Event.signal? connects)

theorem signals_append (c : Bool) (es es' : List Event) :
    signals c (es ++ es') = signals c es ++ signals c es' := List.filterMap_append

theorem Event.signal?_eq_none {e : Event} (h : ¬ e.OnPool) (c : Bool) : e.signal? c = none := by
  cases e with
  | poolOpened => exact absurd (.inl rfl) h
  | poolClosed => exact absurd (.inl rfl) h
  | connectionTaken => exact absurd (.inr (.inl rfl)) h
  | connectionReturned => exact absurd (.inr (.inr rfl)) h
  | _ => rfl

theorem signals_eq_nil {es : List Event} (h : ∀ e ∈ es, ¬ e.OnPool) (c : Bool) : signals c es = [] :=
  List.filterMap_eq_nil_iff.mpr fun e he => Event.signal?_eq_none (h e he) c

theorem Bracketed.signals {es : List Event} (h : Bracketed es) (c : Bool) :
    signals c es = [.lent, .returned] := by
  obtain ⟨body, rfl, hbody⟩ := h
  change .lent :: Storage.signals c (body ++ [.connectionReturned]) = _
  rw [signals_append, signals_eq_nil hbody]
  rfl

def World.refusal (w : World) : Option Error := w.database.faults w.database.checks "CONNECT"

def World.connects (w : World) : Bool := w.refusal.isNone

namespace Action

variable {α β : Type} {a : Action α} {w : World}

def Signals (a : Action α) (w : World) (ss : List Signal) : Prop :=
  ∃ es, Trail w (a w).2 es ∧ ∀ c, signals c es = ss

/-- One connection of an open pool is taken and given back; without a pool there is an error. -/
structure Borrows (a : Action α) (w : World) : Prop where
  lends : w.isOpen = true → Signals a w [.lent, .returned]
  fails : w.isOpen = false → (a w).1 = .error .poolClosed ∧ Signals a w []

theorem Emits.mono {S T : Event → Prop} (h : a.Emits S) (hST : ∀ e, S e → T e) : a.Emits T := by
  intro w
  obtain ⟨es, htrail, hes⟩ := h w
  exact ⟨es, htrail, fun e he => hST e (hes e he)⟩

namespace Signals

theorem bind_error {ss : List Signal} {b : α → Action β} {e : Error} (h : Signals a w ss)
    (ha : (a w).1 = .error e) : ((a >>= b) w).1 = .error e ∧ Signals (a >>= b) w ss := by
  have hbind : (a >>= b) w = (.error e, (a w).2) := by
    rw [bind_apply]
    generalize a w = c at ha
    obtain ⟨r, w'⟩ := c
    cases ha
    rfl
  unfold Signals
  rw [hbind]
  exact ⟨rfl, h⟩

theorem bind_ok {ss ss' : List Signal} {b : α → Action β} {x : α} {w' : World} (h : Signals a w ss)
    (ha : a w = (.ok x, w')) (hb : Signals (b x) w' ss') : Signals (a >>= b) w (ss ++ ss') := by
  obtain ⟨es, htrail, hes⟩ := h
  obtain ⟨es', htrail', hes'⟩ := hb
  rw [ha] at htrail
  refine ⟨es ++ es', ?_, fun c => ?_⟩
  · rw [bind_apply, ha]
    exact htrail.trans htrail'
  · rw [signals_append, hes, hes']

theorem isOpen {ss : List Signal} (h : Signals a w ss) : (a w).2.isOpen = w.isOpen := by
  obtain ⟨es, htrail, -⟩ := h
  exact htrail.isOpen

end Signals

namespace Borrows

theorem after {b : α → Action β} {x : α} {w' : World} (ha : Signals a w []) (hx : a w = (.ok x, w'))
    (hb : Borrows (b x) w') : Borrows (a >>= b) w := by
  have hopen : w'.isOpen = w.isOpen := by
    have h := ha.isOpen
    rwa [hx] at h
  refine ⟨fun h => ha.bind_ok hx (hb.lends (hopen.trans h)), fun h => ?_⟩
  obtain ⟨he, hs⟩ := hb.fails (hopen.trans h)
  refine ⟨?_, ha.bind_ok hx hs⟩
  rw [bind_apply, hx]
  exact he

theorem bind {b : α → Action β} (ha : Borrows a w) (hb : ∀ x w, Signals (b x) w []) :
    Borrows (a >>= b) w := by
  refine ⟨fun h => ?_, fun h => ?_⟩
  · have hs := ha.lends h
    cases hr : a w with
    | mk r w' =>
      cases r with
      | error e => exact (hs.bind_error (by rw [hr])).2
      | ok x => exact hs.bind_ok hr (hb x w')
  · obtain ⟨he, hs⟩ := ha.fails h
    exact hs.bind_error he

theorem withConnection (h : a.Emits fun e => ¬ e.OnPool) (w : World) :
    Borrows (withConnection a) w := by
  refine ⟨fun hp => ?_, fun hp => ?_⟩
  · obtain ⟨es, htrail, hes⟩ := h (w.emit .connectionTaken)
    have hbracket : Bracketed (.connectionTaken :: (es ++ [.connectionReturned])) := ⟨es, rfl, hes⟩
    refine ⟨_, ⟨withConnection_trace hp htrail, ?_⟩, hbracket.signals⟩
    rw [withConnection_open _ hp]
    unfold World.returnConnection
    split <;> exact htrail.isOpen
  · rw [Signals, withConnection_closed _ hp]
    exact ⟨rfl, [], .silent rfl rfl, fun _ => rfl⟩

theorem transaction {failed : Error → Log.Record} (h : a.Concludes) (w : World) :
    Borrows (transaction failed a) w := by
  apply withConnection
  intro w
  obtain ⟨work, closing, htrail, hwork, hclosing⟩ := onFailure_concludes failed h w
  refine ⟨_, htrail, fun e he => ?_⟩
  rcases List.mem_append.mp he with he | he
  · exact (hwork e he).not_onPool
  · exact hclosing.not_onPool e he

theorem find (tables : Tables) (column : LookupColumn) (value : Value) (w : World) :
    Borrows (Action.find tables column value) w := by
  rw [find_eq]
  exact withConnection ((lookUp_reading tables column value).mono fun _ => Event.IsReading.not_onPool) w

theorem search {tables : Tables} {q : Query} {s : Search} (hs : Search.ofQuery tables q = .ok s)
    (w : World) : Borrows (Action.search tables q) w := by
  rw [search_eq hs]
  exact withConnection ((fetchPage_reading s).mono fun _ => Event.IsReading.not_onPool) w

theorem createTables (logger : Text) (w : World) : Borrows (Action.createTables logger) w := by
  rw [createTables_eq]
  exact transaction (createAll_concludes logger) w

theorem save (tables : Tables) (o : Order) {stamp : Timestamp} (hs : w.stamp = .ok stamp) :
    Borrows (Action.save tables o) w := by
  obtain ⟨w', hw, hp, -, ht⟩ := save_transaction tables o hs
  have hb : Borrows (Action.transaction (saveFailed o) (saveAt tables o stamp)) w' :=
    transaction (saveAt_concludes tables o stamp) w'
  have hsignals {ss : List Signal}
      (h : Signals (Action.transaction (saveFailed o) (saveAt tables o stamp)) w' ss) :
      Signals (Action.save tables o) w ss := by
    obtain ⟨es, htrail, hes⟩ := h
    refine ⟨es, ?_, hes⟩
    rw [hw]
    exact ⟨by rw [htrail.trace, ht], htrail.isOpen.trans hp⟩
  refine ⟨fun h => hsignals (hb.lends (hp.trans h)), fun h => ?_⟩
  obtain ⟨he, hs⟩ := hb.fails (hp.trans h)
  rw [hw]
  exact ⟨he, hsignals hs⟩

end Borrows

theorem search_spares {tables : Tables} {q : Query} {e : Error}
    (he : Search.ofQuery tables q = .error e) (w : World) : Signals (search tables q) w [] := by
  rw [Signals, search_unclear he]
  exact ⟨[], .silent rfl rfl, fun _ => rfl⟩

theorem save_spares (tables : Tables) (o : Order) {e : Error} (hs : w.stamp = .error e) :
    Signals (save tables o) w [] := by
  obtain ⟨w', hr, hn, hp, -, ht⟩ := readClock_apply w
  have hs' : w.reading.toTimestamp w'.now = .error e := by rw [hn]; exact hs
  have hw : save tables o w = (.error e, w') := by
    simp only [save, bind_apply, hr, present, ofExcept, hs']
  rw [Signals, hw]
  exact ⟨[], .silent ht hp, fun _ => rfl⟩

theorem openPool_open (minimum maximum : Value) (h : w.isOpen = true) :
    openPool minimum maximum w = (.ok (), w) := if_pos h

theorem openPool_closed (minimum maximum : Value) (h : w.isOpen = false) :
    openPool minimum maximum w = onFailure logOpenFailure (tryOpen minimum maximum) w := by
  rw [openPool, h]
  rfl

theorem openPool_connects (minimum maximum : Value) (h : w.isOpen = false) (hr : w.refusal = none) :
    ∃ es w', openPool minimum maximum w = (.ok (), w') ∧ w'.trace = w.trace ++ es ∧
      w'.isOpen = true ∧ signals true es = [.opened] := by
  have hcheck := Database.check.eq_def "CONNECT" w.database
  rw [show w.database.faults w.database.checks "CONNECT" = none from hr] at hcheck
  rw [openPool_closed minimum maximum h]
  simp only [tryOpen, onFailure, bind_apply, emit, World.emit, onDatabase, hcheck, connect, log]
  exact ⟨_, _, rfl, List.append_assoc .., rfl, rfl⟩

theorem openPool_refused (minimum maximum : Value) {e : Error} (h : w.isOpen = false)
    (hr : w.refusal = some e) :
    ∃ es w', openPool minimum maximum w = (.error e, w') ∧ w'.trace = w.trace ++ es ∧
      w'.isOpen = false ∧ signals false es = [.refused] := by
  have hcheck := Database.check.eq_def "CONNECT" w.database
  rw [show w.database.faults w.database.checks "CONNECT" = some e from hr] at hcheck
  rw [openPool_closed minimum maximum h]
  simp only [tryOpen, onFailure, bind_apply, emit, World.emit, onDatabase, hcheck, logOpenFailure]
  split
  · exact ⟨_, _, rfl, List.append_assoc .., h, rfl⟩
  · exact ⟨_, _, rfl, rfl, h, rfl⟩

end Action

end Storage

end OrderStore
