import OrderStore.Proofs.Storage.EventTrail

namespace OrderStore.Storage

open Sql

def Bracketed (es : List Event) : Prop :=
  ∃ body : List Event, es = .connectionTaken :: (body ++ [.connectionReturned]) ∧ ∀ e ∈ body, ¬ e.OnPool

def kinds (es : List Event) : List Event.Kind := es.map Event.kind

theorem not_mem_kinds_work {work : List Event} (hwork : ∀ e ∈ work, e.IsWork) {k : Event.Kind}
    (hcursor : k ≠ .cursor) (hstatement : k ≠ .statement) : k ∉ kinds work := by
  intro hk
  obtain ⟨e, he, rfl⟩ := List.mem_map.mp hk
  rcases hwork e he with h | h
  · exact hcursor h
  · exact hstatement h

/-- It succeeds if and only if it commits once and undoes nothing, and fails if and only if it is rolled
back once: after all that was done, and right before the only report of an error. -/
structure Transacts {α : Type} (result : Except Error α) (es : List Event) : Prop where
  succeeds : (∃ x, result = .ok x) ↔ (kinds es).count .commit = 1 ∧ (kinds es).count .rollback = 0
  fails : (∃ e, result = .error e) ↔ (kinds es).count .rollback = 1
  committed : ∀ x, result = .ok x → ∃ before, kinds es = before ++ [.commit, .log .info, .returned]
  undone : ∀ e, result = .error e →
    ∃ before, kinds es = before ++ [.rollback, .log .error, .returned] ∧ .log .error ∉ before

theorem Transacts.of_ok {α : Type} {x : α} {es : List Event} (hcommit : (kinds es).count .commit = 1)
    (hrollback : (kinds es).count .rollback = 0)
    (hend : ∃ before, kinds es = before ++ [.commit, .log .info, .returned]) : Transacts (.ok x) es := by
  refine ⟨⟨fun _ => ⟨hcommit, hrollback⟩, fun _ => ⟨x, rfl⟩⟩, ⟨?_, ?_⟩, fun _ _ => hend, ?_⟩
  · rintro ⟨e, he⟩
    cases he
  · intro h
    rw [hrollback] at h
    cases h
  · intro e he
    cases he

theorem Transacts.of_error {α : Type} {e : Error} {es : List Event}
    (hrollback : (kinds es).count .rollback = 1)
    (hend : ∃ before, kinds es = before ++ [.rollback, .log .error, .returned] ∧ .log .error ∉ before) :
    Transacts (.error e : Except Error α) es := by
  refine ⟨⟨?_, ?_⟩, ⟨fun _ => hrollback, fun _ => ⟨e, rfl⟩⟩, ?_, fun _ _ => hend⟩
  · rintro ⟨x, hx⟩
    cases hx
  · rintro ⟨-, h⟩
    rw [hrollback] at h
    cases h
  · intro x hx
    cases hx

theorem Transacts.map {α β : Type} {result : Except Error α} {es : List Event} (h : Transacts result es)
    (f : α → β) : Transacts (result.map f) es := by
  cases result with
  | ok x =>
    obtain ⟨hcommit, hrollback⟩ := h.succeeds.mp ⟨x, rfl⟩
    exact .of_ok hcommit hrollback (h.committed x rfl)
  | error e => exact .of_error (h.fails.mp ⟨e, rfl⟩) (h.undone e rfl)

def Closing {α : Type} (failed : Error → Log.Record) : Except Error α → List Event → Prop
  | .ok _, es => ∃ note : Log.Record, note.level = .info ∧ es = [.committed, .logged note]
  | .error e, es => es = [.rolledBack, .logged (failed e)] ∨
      es = [.committed, .rolledBack, .logged (failed e)]

theorem Closing.not_onPool {α : Type} {failed : Error → Log.Record} {result : Except Error α}
    {closing : List Event} (h : Closing failed result closing) : ∀ e ∈ closing, ¬ e.OnPool := by
  cases result with
  | ok x =>
    obtain ⟨note, -, rfl⟩ := h
    simp [Event.OnPool, Event.kind]
  | error e => rcases h with rfl | rfl <;> simp [Event.OnPool, Event.kind]

theorem transacts {α : Type} {failed : Error → Log.Record} (hfailed : ∀ e, (failed e).level = .error)
    {result : Except Error α} {work closing : List Event} (hwork : ∀ e ∈ work, e.IsWork)
    (hclosing : Closing failed result closing) :
    Transacts result (.connectionTaken :: (work ++ closing ++ [.connectionReturned])) := by
  have hkinds : kinds (.connectionTaken :: (work ++ closing ++ [.connectionReturned])) =
      .taken :: (kinds work ++ (kinds closing ++ [.returned])) := by
    simp [kinds, Event.kind]
  -- What comes before the end neither commits nor goes back nor reports.
  have hcount (k : Event.Kind) (hk : k ≠ .cursor ∧ k ≠ .statement ∧ k ≠ .taken ∧ k ≠ .returned) :
      (kinds (.connectionTaken :: (work ++ closing ++ [.connectionReturned]))).count k =
        (kinds closing).count k := by
    have hzero := List.count_eq_zero.mpr (not_mem_kinds_work hwork hk.1 hk.2.1)
    rw [hkinds, List.count_cons_of_ne hk.2.2.1.symm, List.count_append, hzero, List.count_append,
      List.count_singleton, if_neg (by simpa using hk.2.2.2.symm)]
    omega
  have herror : Event.Kind.log .error ∉ kinds work := not_mem_kinds_work hwork (by decide) (by decide)
  have hcommit := hcount .commit (by decide)
  have hrollback := hcount .rollback (by decide)
  cases result with
  | ok x =>
    obtain ⟨note, hlevel, rfl⟩ := hclosing
    have hclose : kinds [.committed, .logged note] = [.commit, .log .info] := by
      simp [kinds, Event.kind, hlevel]
    rw [hclose] at hkinds hcommit hrollback
    exact .of_ok hcommit hrollback ⟨.taken :: kinds work, hkinds⟩
  | error e =>
    obtain ⟨refused, hrefused, hclose⟩ : ∃ refused, (refused = [] ∨ refused = [Event.Kind.commit]) ∧
        kinds closing = refused ++ [.rollback, .log .error] := by
      rcases hclosing with rfl | rfl
      · exact ⟨[], .inl rfl, by simp [kinds, Event.kind, hfailed]⟩
      · exact ⟨[.commit], .inr rfl, by simp [kinds, Event.kind, hfailed]⟩
    have hone : (kinds closing).count .rollback = 1 := by
      rw [hclose]
      rcases hrefused with rfl | rfl <;> rfl
    rw [hone] at hrollback
    refine .of_error hrollback ⟨.taken :: (kinds work ++ refused), ?_, ?_⟩
    · rw [hkinds, hclose]
      simp
    · rcases hrefused with rfl | rfl <;> simpa using herror

namespace Action

variable {α : Type} {body : Action α} {w : World} {es : List Event}

theorem withConnection_trace (hp : w.isOpen = true)
    (h : Trail (w.emit .connectionTaken) (body (w.emit .connectionTaken)).2 es) :
    (withConnection body w).2.trace = w.trace ++ .connectionTaken :: (es ++ [.connectionReturned]) := by
  have hopen : (body (w.emit .connectionTaken)).2.isOpen = true := h.isOpen.trans hp
  rw [withConnection_open _ hp]
  dsimp only
  rw [World.returnConnection, if_pos hopen, World.emit, h.trace, World.emit]
  simp

theorem withConnection_reads (hp : w.isOpen = true) (h : body.Emits Event.IsReading) :
    ∃ es, (withConnection body w).2.trace = w.trace ++ es ∧ Bracketed es ∧
      ∀ e ∈ es, e.OnPool ∨ e.IsReading := by
  obtain ⟨es, htrail, hes⟩ := h (w.emit .connectionTaken)
  refine ⟨_, withConnection_trace hp htrail, ⟨es, rfl, fun e he => (hes e he).not_onPool⟩, ?_⟩
  intro e he
  rcases List.mem_cons.mp he with rfl | he
  · exact .inl (.inr (.inl rfl))
  rcases List.mem_append.mp he with he | he
  · exact .inr (hes e he)
  · rw [List.mem_singleton.mp he]
    exact .inl (.inr (.inr rfl))

theorem onFailure_concludes (failed : Error → Log.Record) (h : body.Concludes) (w : World) :
    ∃ work closing, Trail w (onFailure (fun e w => w.rollback.log (failed e)) body w).2 (work ++ closing) ∧
      (∀ e ∈ work, e.IsWork) ∧
      Closing failed (onFailure (fun e w => w.rollback.log (failed e)) body w).1 closing := by
  obtain ⟨work, ending, htrail, hwork, hending⟩ := h w
  unfold onFailure
  generalize body w = c at htrail hending
  obtain ⟨r, w'⟩ := c
  cases r with
  | ok x => exact ⟨work, ending, htrail, hwork, hending⟩
  | error e =>
    refine ⟨work, ending ++ [.rolledBack, .logged (failed e)], ?_, hwork, ?_⟩
    · have hundo : Trail w' (w'.rollback.log (failed e)) [.rolledBack, .logged (failed e)] :=
        ⟨List.append_assoc _ _ _, rfl⟩
      rw [← List.append_assoc]
      exact htrail.trans hundo
    · rcases hending with rfl | rfl
      · exact .inl rfl
      · exact .inr rfl

theorem transaction_transacts {failed : Error → Log.Record} (hfailed : ∀ e, (failed e).level = .error)
    (h : body.Concludes) (hp : w.isOpen = true) :
    ∃ es, (transaction failed body w).2.trace = w.trace ++ es ∧ Bracketed es ∧
      Transacts (transaction failed body w).1 es := by
  obtain ⟨work, closing, htrail, hwork, hclosing⟩ :=
    onFailure_concludes failed h (w.emit .connectionTaken)
  refine ⟨_, withConnection_trace hp htrail, ⟨_, rfl, ?_⟩, ?_⟩
  · intro e he
    rcases List.mem_append.mp he with he | he
    · exact (hwork e he).not_onPool
    · exact hclosing.not_onPool e he
  · rw [transaction, withConnection_open _ hp]
    exact transacts hfailed hwork hclosing

end Action

inductive Call where
  | save (o : Order)
  | find (column : LookupColumn) (value : Value)
  | search (q : Query)
  | createTables (logger : Text)

namespace Call

def run (tables : Tables) : Call → Action Unit
  | save o => do let _ ← Action.save tables o
  | find column value => do let _ ← Action.find tables column value
  | search q => do let _ ← Action.search tables q
  | createTables logger => Action.createTables logger

def writes : Call → Bool
  | save _ | createTables _ => true
  | find .. | search _ => false

def Ready (tables : Tables) (w : World) : Call → Prop
  | save _ => w.isOpen = true ∧ ∃ stamp, w.stamp = .ok stamp
  | search q => w.isOpen = true ∧ ∃ s, Search.ofQuery tables q = .ok s
  | find .. | createTables _ => w.isOpen = true

end Call

namespace Action

variable {α : Type} {a : Action α} {w : World}

theorem forget_apply (a : Action α) (w : World) :
    (do let _ ← a : Action Unit) w = ((a w).1.map fun _ => (), (a w).2) := by
  rw [bind_apply]
  obtain ⟨r, w'⟩ := a w
  cases r <;> rfl

theorem save_trace (tables : Tables) (o : Order) {stamp : Timestamp} (hs : w.stamp = .ok stamp)
    (hp : w.isOpen = true) :
    ∃ es, (save tables o w).2.trace = w.trace ++ es ∧ Bracketed es ∧
      Transacts (save tables o w).1 es := by
  obtain ⟨w', hw, hp', -, ht⟩ := save_transaction tables o hs
  rw [hw, ← ht]
  exact transaction_transacts (fun _ => rfl) (saveAt_concludes tables o stamp) (hp'.trans hp)

theorem save_unready {tables : Tables} {o : Order}
    (h : ¬ (w.isOpen = true ∧ ∃ stamp, w.stamp = .ok stamp)) :
    (∃ e, (save tables o w).1 = .error e) ∧ (save tables o w).2.trace = w.trace := by
  cases hs : w.stamp with
  | error e => exact ⟨⟨e, (save_clock hs).1⟩, (save_clock hs).2.2⟩
  | ok stamp =>
    have hp : w.isOpen = false := Bool.eq_false_iff.mpr fun hp => h ⟨hp, stamp, hs⟩
    exact ⟨⟨_, (save_pool hs hp).1⟩, (save_pool hs hp).2.2⟩

theorem search_unready {tables : Tables} {q : Query}
    (h : ¬ (w.isOpen = true ∧ ∃ s, Search.ofQuery tables q = .ok s)) :
    (∃ e, (search tables q w).1 = .error e) ∧ (search tables q w).2.trace = w.trace := by
  cases hs : Search.ofQuery tables q with
  | error e =>
    rw [search_unclear hs]
    exact ⟨⟨e, rfl⟩, rfl⟩
  | ok s =>
    have hp : w.isOpen = false := Bool.eq_false_iff.mpr fun hp => h ⟨hp, s, hs⟩
    rw [search_eq hs, withConnection_closed _ hp]
    exact ⟨⟨_, rfl⟩, rfl⟩

end Action

namespace Call

open OrderStore.Storage.Action

theorem unready {tables : Tables} {c : Call} {w : World} (h : ¬ c.Ready tables w) :
    (∃ e, (c.run tables w).1 = .error e) ∧ (c.run tables w).2.trace = w.trace := by
  have forget {α : Type} {a : Action α}
      (ha : (∃ e, (a w).1 = .error e) ∧ (a w).2.trace = w.trace) :
      (∃ e, ((do let _ ← a : Action Unit) w).1 = .error e) ∧
        ((do let _ ← a : Action Unit) w).2.trace = w.trace := by
    obtain ⟨⟨e, he⟩, ht⟩ := ha
    rw [forget_apply, he]
    exact ⟨⟨e, rfl⟩, ht⟩
  cases c with
  | save o => exact forget (save_unready h)
  | search q => exact forget (search_unready h)
  | find column value =>
    apply forget
    rw [find_eq, withConnection_closed _ (Bool.eq_false_iff.mpr h)]
    exact ⟨⟨_, rfl⟩, rfl⟩
  | createTables logger =>
    rw [run, createTables_eq, transaction, withConnection_closed _ (Bool.eq_false_iff.mpr h)]
    exact ⟨⟨_, rfl⟩, rfl⟩

theorem reads (tables : Tables) {c : Call} (hc : c.writes = false) : (c.run tables).Reads := by
  cases c with
  | find column value => exact (Reads.find tables column value).bind fun _ => .pure ()
  | search q => exact (Reads.search tables q).bind fun _ => .pure ()
  | _ => cases hc

theorem reading_trace {tables : Tables} {c : Call} {w : World} (hc : c.writes = false)
    (h : c.Ready tables w) :
    ∃ es, (c.run tables w).2.trace = w.trace ++ es ∧ Bracketed es ∧ ∀ e ∈ es, e.OnPool ∨ e.IsReading := by
  cases c with
  | find column value =>
    rw [run, forget_apply, find_eq]
    exact withConnection_reads h (lookUp_reading tables column value)
  | search q =>
    obtain ⟨hp, s, hs⟩ := h
    rw [run, forget_apply, search_eq hs]
    exact withConnection_reads hp (fetchPage_reading s)
  | _ => cases hc

theorem writing_trace {tables : Tables} {c : Call} {w : World} (hc : c.writes = true)
    (h : c.Ready tables w) :
    ∃ es, (c.run tables w).2.trace = w.trace ++ es ∧ Bracketed es ∧ Transacts (c.run tables w).1 es := by
  cases c with
  | save o =>
    obtain ⟨hp, stamp, hs⟩ := h
    obtain ⟨es, ht, hb, htr⟩ := save_trace tables o hs hp
    rw [run, forget_apply]
    exact ⟨es, ht, hb, htr.map _⟩
  | createTables logger =>
    rw [run, createTables_eq]
    exact transaction_transacts (fun _ => rfl) (createAll_concludes logger) h
  | _ => cases hc

end Call

/-- A call fails without a trace before it takes a connection, or the trace shows one connection that is
taken first and given back last. Calls that write end in one commit or in one rollback; calls that read
only select, and leave the store as it is. -/
theorem connections_and_transactions (tables : Tables) (c : Call) (w : World) :
    ∃ es, (c.run tables w).2.trace = w.trace ++ es ∧
      (¬ c.Ready tables w → (∃ e, (c.run tables w).1 = .error e) ∧ es = []) ∧
      (c.Ready tables w → Bracketed es) ∧
      (c.Ready tables w → c.writes = true → Transacts (c.run tables w).1 es) ∧
      (c.writes = false → (∀ e ∈ es, e.OnPool ∨ e.IsReading) ∧
        (c.run tables w).2.database.contents = w.database.contents ∧
        (c.run tables w).2.database.committed = w.database.committed) := by
  have hcontents (hc : c.writes = false) :
      (c.run tables w).2.database.contents = w.database.contents ∧
        (c.run tables w).2.database.committed = w.database.committed := by
    obtain ⟨checks, trace, hw⟩ := Call.reads tables hc w
    rw [hw]
    exact ⟨rfl, rfl⟩
  by_cases h : c.Ready tables w
  · cases hc : c.writes with
    | true =>
      obtain ⟨es, ht, hb, htr⟩ := Call.writing_trace hc h
      exact ⟨es, ht, fun hn => absurd h hn, fun _ => hb, fun _ _ => htr, nofun⟩
    | false =>
      obtain ⟨es, ht, hb, hes⟩ := Call.reading_trace hc h
      exact ⟨es, ht, fun hn => absurd h hn, fun _ => hb, nofun, fun _ => ⟨hes, hcontents hc⟩⟩
  · obtain ⟨he, ht⟩ := Call.unready h
    refine ⟨[], by rw [ht, List.append_nil], fun _ => ⟨he, rfl⟩, fun hr => absurd hr h,
      fun hr => absurd hr h, fun hc => ⟨List.forall_mem_nil _, hcontents hc⟩⟩

theorem commit_refused_undone :
    let w : World := ⟨.ofTimestamp ⟨⟨2024, 1, 31, by decide⟩, .midnight⟩, [],
      { Database.empty with faults := fun n _ => if n = 1 then some .poolClosed else none }, true, []⟩
    let c := Call.createTables "db.init_db"
    let lookup := Call.find .id (.int 7)
    (∃ es, (c.run .default w).2.trace = w.trace ++ es ∧ Bracketed es ∧ (kinds es).count .rollback = 1 ∧
      kinds es = [.taken, .cursor, .statement, .commit, .rollback, .log .error, .returned]) ∧
    (∃ es, (lookup.run .default w).2.trace = w.trace ++ es ∧ Bracketed es ∧
      ∀ e ∈ es, e.OnPool ∨ e.IsReading) ∧
    ∃ e, (c.run .default { w with isOpen := false }).1 = .error e := by
  intro w c lookup
  have hfails : (c.run .default w).1 = .error .poolClosed := rfl
  have hready : c.Ready .default w := rfl
  refine ⟨?_, ?_, ?_⟩
  · obtain ⟨es, ht, -, hb, htr, -⟩ := connections_and_transactions .default c w
    have hes : (c.run .default w).2.trace = es := ht
    have hkinds : kinds (c.run .default w).2.trace =
      [.taken, .cursor, .statement, .commit, .rollback, .log .error, .returned] := rfl
    rw [hes] at hkinds
    exact ⟨es, ht, hb hready, (htr hready rfl).fails.mp ⟨_, hfails⟩, hkinds⟩
  · obtain ⟨es, ht, -, hb, -, hreads⟩ := connections_and_transactions .default lookup w
    exact ⟨es, ht, hb rfl, (hreads rfl).1⟩
  · obtain ⟨es, -, hunready, -⟩ := connections_and_transactions .default c { w with isOpen := false }
    exact (hunready nofun).1

end OrderStore.Storage
