import OrderStore.Proofs.Pool.TwoStates

namespace OrderStore

open Storage

namespace Signal

def owe : Signal → Nat → Option Nat
  | .lent, n => some (n + 1)
  | .returned, n + 1 => some n
  | .returned, 0 => none
  | _, n => some n

def settle (n : Nat) (ss : List Signal) : Option Nat := ss.foldlM (fun n x => x.owe n) n

theorem settle_append (n : Nat) (ss ss' : List Signal) :
    settle n (ss ++ ss') = (settle n ss).bind fun m => settle m ss' := List.foldlM_append

theorem settle_cons (n : Nat) (x : Signal) (ss : List Signal) :
    settle n (x :: ss) = (x.owe n).bind fun m => settle m ss := List.foldlM_cons

theorem owe_count {x : Signal} {n m : Nat} (h : x.owe n = some m) :
    [x].count .returned + m = [x].count .lent + n := by
  cases x with
  | returned =>
    cases n with
    | zero => cases h
    | succ n => cases h; simp [Nat.add_comm]
  | lent => cases h; simp [Nat.add_comm]
  | _ => cases h; simp

theorem settle_count {ss : List Signal} {n m : Nat} (h : settle n ss = some m) :
    ss.count .returned + m = ss.count .lent + n := by
  induction ss generalizing n with
  | nil => cases h; rfl
  | cons x ss ih =>
    rw [settle_cons] at h
    obtain ⟨k, hk, h⟩ := Option.bind_eq_some_iff.mp h
    have hx := owe_count hk
    have hrest := ih h
    rw [List.count_cons, List.count_cons]
    rw [List.count_singleton, List.count_singleton] at hx
    omega

theorem count_le_of_settle {p ss : List Signal} {n m : Nat} (h : settle n ss = some m) (hp : p <+: ss) :
    p.count .returned ≤ p.count .lent + n := by
  obtain ⟨q, rfl⟩ := hp
  rw [settle_append] at h
  obtain ⟨k, hk, -⟩ := Option.bind_eq_some_iff.mp h
  have hcount := settle_count hk
  omega

end Signal

namespace Session

variable {s : Session} {x : SessionStep}

def Disciplined (s : Session) : List SessionStep → Prop
  | [] => True
  | x :: xs => (x = .returnConnection → 0 < s.taken) ∧ (s.after x).Disciplined xs

theorem Disciplined.append {xs ys : List SessionStep} (h : s.Disciplined (xs ++ ys)) :
    (s.afterAll xs).Disciplined ys := by
  induction xs generalizing s with
  | nil => exact h
  | cons x xs ih => exact ih h.2

section Turns

variable {ss : List Signal} {o : Bool} {n : Nat}

theorem Turn.settles (h : Turn s x ss o n) (ho : s.world.isOpen = true)
    (hx : x = .returnConnection → 0 < s.taken) : Signal.settle s.taken ss = some n := by
  cases h with
  | giveBack hx' =>
    obtain ⟨k, hk⟩ := Nat.exists_eq_add_one.mpr (hx hx')
    rw [hk]
    rfl
  | drop _ ho' => simp [ho] at ho'
  | _ => rfl

theorem Turn.stays_open (h : Turn s x ss o n) (ho : s.world.isOpen = true) (hc : .closed ∉ ss) :
    o = true := by
  cases h with
  | close => simp at hc
  | rest => exact ho
  | fail => exact ho
  | drop _ ho' => simp [ho] at ho'
  | refuse _ _ ho' => simp [ho] at ho'
  | _ => rfl

theorem Turn.opened {first : List Signal} (h : Turn s x (.opened :: first) o n) :
    o = true ∧ Signal.settle s.taken first = some n := by
  cases h <;> exact ⟨rfl, rfl⟩

end Turns

theorem history_settles {xs : List SessionStep} (ho : s.world.isOpen = true) (hd : s.Disciplined xs)
    (hc : .closed ∉ s.history xs) :
    Signal.settle s.taken (s.history xs) = some (s.afterAll xs).taken := by
  induction xs generalizing s with
  | nil => rfl
  | cons x xs ih =>
    have hturn := step_turns s x
    rw [history, List.mem_append, not_or] at hc
    rw [history, Signal.settle_append, hturn.settles ho hd.1]
    exact ih (hturn.stays_open ho hc.1) hd.2 hc.2

end Session

/-- Between the opening of a pool and its end, at any moment, no more connections have come back to it than
it has lent and were out before; and the connections that are out are accounted for. -/
theorem returned_le_lent_add (tables : Sql.Tables) (now : WallClock) (clock : List Value)
    (xs : List SessionStep) (y : SessionStep) (zs : List SessionStep) (first : List Signal)
    (hd : (Session.start tables now clock).Disciplined (xs ++ y :: zs))
    (hy : ((Session.start tables now clock).afterAll xs).signals y = .opened :: first) :
    let s := (Session.start tables now clock).afterAll xs
    let during := first ++ (s.after y).history zs
    .closed ∉ during →
      (∀ p, p <+: during → p.count .returned ≤ p.count .lent + s.taken) ∧
      during.count .returned + (s.afterAll (y :: zs)).taken = during.count .lent + s.taken := by
  intro s during hc
  have hturn := Session.step_turns s y
  rw [Session.Turns, hy] at hturn
  obtain ⟨hopen, hfirst⟩ := hturn.opened
  have hsettle : Signal.settle s.taken during = some (s.afterAll (y :: zs)).taken := by
    rw [Signal.settle_append, hfirst]
    exact Session.history_settles hopen hd.append.2 fun h => hc (List.mem_append_right first h)
  exact ⟨fun p => Signal.count_le_of_settle hsettle, Signal.settle_count hsettle⟩

/-- A connection of the pool that was closed comes back to the one that was opened next. -/
theorem reopened_receives_more :
    let start := Session.start .default (.ofTimestamp ⟨⟨2024, 1, 31, by decide⟩, .midnight⟩) []
    let s := start.afterAll [.openPool [], .takeConnection, .closePool]
    let during := (s.after (.openPool [])).history [.returnConnection]
    start.Disciplined
        [.openPool [], .takeConnection, .closePool, .openPool [], .returnConnection] ∧
      s.signals (.openPool []) = [.opened] ∧ .closed ∉ during ∧
      during.count .lent < during.count .returned := by
  intro start s during
  have hduring : during = [.returned] := rfl
  have htaken : (s.after (.openPool [])).taken = 1 := rfl
  refine ⟨⟨nofun, nofun, nofun, nofun, fun _ => ?_, trivial⟩, rfl, ?_, ?_⟩
  · exact htaken ▸ Nat.one_pos
  · rw [hduring]; decide
  · rw [hduring]; decide

theorem returned_le_lent_add_reopened :
    let start := Session.start .default (.ofTimestamp ⟨⟨2024, 1, 31, by decide⟩, .midnight⟩) []
    let s := start.afterAll [.openPool [], .takeConnection, .closePool]
    s.taken = 1 ∧ ∀ p, p <+: [Signal.lent, .returned, .returned] →
      p.count .returned ≤ p.count .lent + 1 := by
  intro start s
  have hduring : (s.after (.openPool [])).history
    [.createTables, .returnConnection] = [.lent, .returned, .returned] := rfl
  have hd : start.Disciplined ([.openPool [], .takeConnection, .closePool] ++
      .openPool [] :: [.createTables, .returnConnection]) :=
    ⟨nofun, nofun, nofun, nofun, nofun, fun _ => Nat.one_pos, trivial⟩
  have hclosed : .closed ∉ [] ++ (s.after (.openPool [])).history
      [.createTables, .returnConnection] := by
    rw [List.nil_append, hduring]
    decide
  have hbound := (returned_le_lent_add .default _ [] [.openPool [], .takeConnection, .closePool]
    (.openPool []) [.createTables, .returnConnection] [] hd rfl hclosed).1
  refine ⟨rfl, fun p hp => hbound p ?_⟩
  rw [List.nil_append]
  exact hduring ▸ hp

end OrderStore
