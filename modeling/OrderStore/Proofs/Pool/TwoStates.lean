import Mathlib.Data.List.Chain
import Mathlib.Data.List.Induction
import OrderStore.Proofs.Pool.Turns

namespace OrderStore

open Storage

namespace Signal

def next : Signal → Bool → Option Bool
  | .opened, false => some true
  | .refused, false => some false
  | .lent, true => some true
  | .returned, true => some true
  | .closed, true => some false
  | _, _ => none

def follow (o : Bool) (ss : List Signal) : Option Bool := ss.foldlM (fun o x => x.next o) o

theorem follow_append (o : Bool) (ss ss' : List Signal) :
    follow o (ss ++ ss') = (follow o ss).bind fun o' => follow o' ss' := List.foldlM_append

theorem follow_cons (o : Bool) (x : Signal) (ss : List Signal) :
    follow o (x :: ss) = (x.next o).bind fun o' => follow o' ss := List.foldlM_cons

def switches : Signal → Bool
  | .opened | .closed => true
  | _ => false

def lastSwitch (ss : List Signal) : Option Signal := (ss.filter switches).getLast?

/-- Pools are opened and closed in turn, the first of them is opened first, and after all the pool is in
the given state. -/
structure InTurn (ss : List Signal) (o : Bool) : Prop where
  chain : (ss.filter switches).IsChain (· ≠ ·)
  first : (ss.filter switches).head? ≠ some .closed
  last : lastSwitch ss = some .opened ↔ o = true

theorem InTurn.keep {ss : List Signal} {o : Bool} {x : Signal} (h : InTurn ss o)
    (hx : x.switches = false) : InTurn (ss ++ [x]) o := by
  have hfilter : (ss ++ [x]).filter switches = ss.filter switches := by
    rw [List.filter_append, List.filter_cons_of_neg (by simp [hx]), List.filter_nil, List.append_nil]
  refine ⟨?_, ?_, ?_⟩
  · rw [hfilter]; exact h.chain
  · rw [hfilter]; exact h.first
  · rw [lastSwitch, hfilter]; exact h.last

theorem InTurn.switch {ss : List Signal} {o : Bool} {x : Signal} (h : InTurn ss o)
    (hx : x.switches = true) (hlast : lastSwitch ss ≠ some x)
    (hfirst : x = .closed → lastSwitch ss = some .opened) : InTurn (ss ++ [x]) (x == .opened) := by
  have hfilter : (ss ++ [x]).filter switches = ss.filter switches ++ [x] := by
    rw [List.filter_append, List.filter_cons_of_pos hx, List.filter_nil]
  refine ⟨?_, ?_, ?_⟩
  · rw [hfilter, List.isChain_append]
    refine ⟨h.chain, .singleton x, fun y hy z hz => ?_⟩
    cases hz
    rintro rfl
    exact hlast hy
  · rw [hfilter, List.head?_append]
    intro hhead
    rcases Option.or_eq_some_iff.mp hhead with hclosed | ⟨hnone, hclosed⟩
    · exact h.first hclosed
    · have hopened := hfirst (Option.some.inj hclosed)
      rw [lastSwitch, List.head?_eq_none_iff.mp hnone] at hopened
      cases hopened
  · rw [lastSwitch, hfilter, List.getLast?_concat]
    simp

theorem InTurn.next {ss : List Signal} {o o' : Bool} {x : Signal} (h : InTurn ss o)
    (hx : x.next o = some o') : InTurn (ss ++ [x]) o' := by
  cases o with
  | false =>
    have hlast : lastSwitch ss ≠ some .opened := fun hopened => nomatch h.last.mp hopened
    cases x with
    | opened => cases hx; exact h.switch rfl hlast nofun
    | refused => cases hx; exact h.keep rfl
    | _ => cases hx
  | true =>
    have hlast := h.last.mpr rfl
    cases x with
    | lent => cases hx; exact h.keep rfl
    | returned => cases hx; exact h.keep rfl
    | closed => cases hx; exact h.switch rfl (by simp [hlast]) fun _ => hlast
    | _ => cases hx

theorem inTurn_of_follow {ss : List Signal} {o : Bool} (h : follow false ss = some o) : InTurn ss o := by
  induction ss using List.reverseRecOn generalizing o with
  | nil =>
    cases h
    exact ⟨.nil, nofun, by simp [lastSwitch]⟩
  | append_singleton ss x ih =>
    rw [follow_append] at h
    obtain ⟨o', ho', hx⟩ := Option.bind_eq_some_iff.mp h
    rw [follow_cons] at hx
    obtain ⟨o'', hnext, ho⟩ := Option.bind_eq_some_iff.mp hx
    cases ho
    exact (ih ho').next hnext

def OfOpenPool (x : Signal) : Prop := x = .lent ∨ x = .returned ∨ x = .closed

theorem ofOpenPool_iff {x : Signal} {o o' : Bool} (h : x.next o = some o') :
    x.OfOpenPool ↔ o = true := by
  cases o <;> cases x <;> simp [next, OfOpenPool] at h ⊢

theorem split_of_follow {before after : List Signal} {x : Signal} {o : Bool}
    (h : follow false (before ++ x :: after) = some o) :
    lastSwitch before = some .opened ↔ x.OfOpenPool := by
  rw [follow_append] at h
  obtain ⟨o', ho', hx⟩ := Option.bind_eq_some_iff.mp h
  rw [follow_cons] at hx
  obtain ⟨o'', hnext, -⟩ := Option.bind_eq_some_iff.mp hx
  exact (inTurn_of_follow ho').last.trans (ofOpenPool_iff hnext).symm

end Signal

namespace Session

variable {s : Session} {x : SessionStep}

def afterAll (s : Session) (xs : List SessionStep) : Session := xs.foldl after s

def history (s : Session) : List SessionStep → List Signal
  | [] => []
  | x :: xs => s.signals x ++ (s.after x).history xs

theorem Turn.follows {ss : List Signal} {o : Bool} {n : Nat} (h : Turn s x ss o n) :
    Signal.follow s.world.isOpen ss = some o := by
  cases h with
  | rest => rfl
  | fail => rfl
  | borrow _ ho => rw [ho]; rfl
  | take _ ho => rw [ho]; rfl
  | giveBack _ ho => rw [ho]; rfl
  | drop _ ho => rw [ho]; rfl
  | connect _ ho => rw [ho]; rfl
  | connectAndBorrow _ ho => rw [ho]; rfl
  | refuse _ _ ho => rw [ho]; rfl
  | close _ ho => rw [ho]; rfl

theorem history_follows (s : Session) (xs : List SessionStep) :
    Signal.follow s.world.isOpen (s.history xs) = some (s.afterAll xs).world.isOpen := by
  induction xs generalizing s with
  | nil => rfl
  | cons x xs ih =>
    rw [history, Signal.follow_append, (step_turns s x).follows]
    exact ih (s.after x)

def Unserved (s : Session) (x : SessionStep) : Prop :=
  (∃ e, (s.step x).1 = .error e ∧ e.kind = .runtime ∧
    e.message = "Database pool not initialized. Call init_pool() first.") ∧ s.signals x = []

section Turns

variable {ss : List Signal} {o : Bool} {n : Nat}

theorem Turn.lent_iff (h : Turn s x ss o n) :
    .lent ∈ ss ↔ s.Asks x ∧ s.poolAt x = true := by
  cases h with
  | rest hx ho => simp [hx]
  | fail hx ho he => simp [ho]
  | borrow hx ho => simp [hx, poolAt_of_open x ho]
  | take hx ho => simp [hx, Asks, poolAt_of_open _ ho]
  | giveBack hx ho => simp [hx, Asks]
  | drop hx ho => simp [hx, Asks]
  | connect hx ho hr => simp [hx]
  | connectAndBorrow hx ho hr => simp [hx, Asks, poolAt, World.connects, hr]
  | refuse e hx ho hr he => simp [hx]
  | close hx ho => simp [hx, Asks]

theorem Turn.fails (h : Turn s x ss o n) (hx : s.Asks x) (hp : s.poolAt x = false) :
    (s.step x).1 = .error .poolClosed ∧ ss = [] := by
  have hlent : .lent ∉ ss := fun hl => by simp [(h.lent_iff.mp hl).2] at hp
  cases h with
  | rest hx' => exact absurd hx hx'
  | fail _ _ he => exact ⟨he, rfl⟩
  | giveBack hx' => subst hx'; cases hx
  | drop hx' => subst hx'; cases hx
  | connect hx' => exact absurd hx hx'
  | refuse _ hx' => exact absurd hx hx'
  | close hx' => subst hx'; cases hx
  | _ => simp at hlent

theorem Turn.refused (h : Turn s x ss o n) (hx : .refused ∈ ss) :
    o = false ∧ ∃ e, s.world.refusal = some e ∧ (s.step x).1 = .error e := by
  cases h with
  | refuse e _ _ hr he => exact ⟨rfl, e, hr, he⟩
  | _ => simp at hx

theorem poolAt_of_opens (hx : x.Opens) (h : s.Asks x) : s.poolAt x = true := by
  cases x with
  | bootstrap => exact (Bool.or_eq_true _ _).mpr h
  | openPool => cases h
  | _ => cases hx

theorem Turn.tries (h : Turn s x ss o n) (hx : x.Opens) (ho : s.world.isOpen = false) :
    ss.head? = some (if s.world.connects then .opened else .refused) ∧ o = s.world.connects := by
  cases h with
  | rest _ hopen => simp [hopen hx] at ho
  | fail hasks hp => simp [poolAt_of_opens hx hasks] at hp
  | drop hx' => subst hx'; cases hx
  | connect _ _ hr => simp [World.connects, hr]
  | connectAndBorrow _ _ hr => simp [World.connects, hr]
  | refuse e _ _ hr => simp [World.connects, hr]
  | borrow _ hopen => simp [hopen] at ho
  | take _ hopen => simp [hopen] at ho
  | giveBack _ hopen => simp [hopen] at ho
  | close _ hopen => simp [hopen] at ho

end Turns

theorem asks_unserved (h : s.Asks x) : s.Unserved x ↔ s.poolAt x = false := by
  have hturn := step_turns s x
  constructor
  · rintro ⟨-, hs⟩
    by_contra hp
    have hlent := hturn.lent_iff.mpr ⟨h, by simpa using hp⟩
    rw [hs] at hlent
    cases hlent
  · intro hp
    obtain ⟨he, hs⟩ := hturn.fails h hp
    exact ⟨⟨_, he, rfl, rfl⟩, hs⟩

end Session

/-- Pools are opened and closed in turn; connections are lent and given back, and a pool is closed, only
while it is open. A step that comes to ask for a connection fails for want of a pool if and only if no
pool is open then. A refused attempt leaves the pool closed, and the next one is made all the same.
Opening an open pool, closing a closed one and giving back to a closed one change nothing. -/
theorem pool_two_states (tables : Sql.Tables) (now : WallClock) (clock : List Value)
    (xs : List SessionStep) :
    let s := (Session.start tables now clock).afterAll xs
    let past := (Session.start tables now clock).history xs
    Signal.InTurn past s.world.isOpen ∧
    (∀ before x after, past = before ++ x :: after →
      (Signal.lastSwitch before = some .opened ↔ x.OfOpenPool)) ∧
    (∀ x, (.lent ∈ s.signals x ↔ s.Asks x ∧ s.poolAt x = true) ∧
      (s.Asks x → (s.Unserved x ↔ s.poolAt x = false)) ∧
      (.refused ∈ s.signals x → (s.after x).world.isOpen = false ∧
        ∃ e, s.world.refusal = some e ∧ (s.step x).1 = .error e) ∧
      (x.Opens → s.world.isOpen = false →
        (s.signals x).head? = some (if s.world.connects then .opened else .refused) ∧
        (s.after x).world.isOpen = s.world.connects)) ∧
    (s.world.isOpen = true → ∀ arguments, s.step (.openPool arguments) =
      (if arguments.length ≤ 2 then .ok .nothing else .error .wrongArguments, [],
        { s with world := s.ready })) ∧
    (s.world.isOpen = false →
      s.step .closePool = (.ok .nothing, [], { s with world := s.ready }) ∧
      s.step .returnConnection =
        (.ok .nothing, [], { s with world := s.ready, taken := s.taken - 1 })) := by
  intro s past
  -- The history is a run of the machine from the closed state, by induction on the steps.
  have hfollow : Signal.follow false past = some s.world.isOpen :=
    Session.history_follows (Session.start tables now clock) xs
  refine ⟨Signal.inTurn_of_follow hfollow, ?_, ?_, ?_, ?_⟩
  · intro before x after hpast
    rw [hpast] at hfollow
    exact Signal.split_of_follow hfollow
  · intro x
    have hturn := Session.step_turns s x
    exact ⟨hturn.lent_iff, Session.asks_unserved, hturn.refused, hturn.tries⟩
  · exact fun h arguments => Session.openPool_open arguments h
  · exact fun h => ⟨Session.closePool_closed h, Session.returnConnection_closed h⟩

def reopening : List SessionStep :=
  [.setFaults fun n _ => if n = 0 then some (.failure .data "invalid settings") else none,
    .openPool [], .openPool [], .closePool]

theorem pool_two_states_reopened :
    let now : WallClock := .ofTimestamp ⟨⟨2024, 1, 31, by decide⟩, .midnight⟩
    let s := (Session.start .default now []).afterAll reopening
    s.world.isOpen = false ∧ Signal.InTurn [.refused, .opened, .closed] false ∧
      s.Unserved (.find .id (.int 7) none) ∧ (s.signals (.openPool [])).head? = some .opened := by
  intro now s
  have hhistory : (Session.start .default now []).history reopening =
    [.refused, .opened, .closed] := rfl
  have hopen : s.world.isOpen = false := rfl
  obtain ⟨hturn, -, hsteps, -, -⟩ := pool_two_states .default now [] reopening
  rw [hhistory] at hturn
  refine ⟨hopen, hturn, (hsteps (.find .id (.int 7) none)).2.1 trivial |>.mpr hopen, ?_⟩
  exact ((hsteps (.openPool [])).2.2.2 (Nat.zero_le 2) hopen).1

end OrderStore
