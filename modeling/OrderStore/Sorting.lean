import OrderStore.Sorting.Merge
import OrderStore.Sorting.Run
/-!
Stable sorting by an order that may fail or be partial: runs are taken from the front, kept on a
stack, and merged with their neighbours so that the merges stay balanced. Which elements are compared,
and when, is part of what it does: the first comparison that fails decides the failure, and a partial
order is asked about the same pairs.
-/

namespace OrderStore.Sorting

variable {α ε : Type}

structure Run (α : Type) where
  start : Nat
  elements : List α
  power : Nat
  deriving Repr

def powerWithin : Nat → Nat → Nat → Nat → Nat
  | 0, _, _, _ => 1
  | fuel + 1, n, a, b => if a / n = b / n then powerWithin fuel n (2 * a) (2 * b) + 1 else 1

/-- The power of the border between two neighbouring runs of `n` elements, from their midpoints. -/
def power (n start left right : Nat) : Nat :=
  powerWithin n n (2 * start + left) (2 * start + 2 * left + right)

/-- Merges the top run with those below whose border has a greater power. -/
def collapse (less : α → α → Except ε Bool) (power : Nat) :
    Nat → Run α → List (Run α) → Except ε (Nat × List (Run α))
  | patience, top, [] => .ok (patience, [{ top with power }])
  | patience, top, below :: stack =>
    if power < below.power then
      (mergeRuns less patience below.elements top.elements).bind fun (patience, xs) =>
        collapse less power patience { below with elements := xs } stack
    else .ok (patience, { top with power } :: below :: stack)

def push (less : α → α → Except ε Bool) (n patience : Nat) (run : List α) :
    List (Run α) → Except ε (Nat × List (Run α))
  | [] => .ok (patience, [⟨0, run, 0⟩])
  | top :: stack =>
    let length := top.elements.length
    (collapse less (power n top.start length run.length) patience top stack).map
      fun (patience, stack) => (patience, ⟨top.start + length, run, 0⟩ :: stack)

/-- Merges what is on the stack; of three runs at the top the middle one goes to the shorter
neighbour. -/
def collapseAll (less : α → α → Except ε Bool) : Nat → List (Run α) → Except ε (List α)
  | _, [] => .ok []
  | _, [run] => .ok run.elements
  | patience, [top, below] => (mergeRuns less patience below.elements top.elements).map Prod.snd
  | patience, top :: below :: third :: stack =>
    if third.elements.length < top.elements.length then
      (mergeRuns less patience third.elements below.elements).bind fun (patience, xs) =>
        collapseAll less patience (top :: { third with elements := xs } :: stack)
    else
      (mergeRuns less patience below.elements top.elements).bind fun (patience, xs) =>
        collapseAll less patience ({ below with elements := xs } :: third :: stack)
termination_by _ stack => stack.length

def sortWith (less : α → α → Except ε Bool) (n : Nat) :
    Nat → Nat → List (Run α) → List α → Except ε (List α)
  | 0, patience, stack, _ => collapseAll less patience stack
  | _, patience, stack, [] => collapseAll less patience stack
  | fuel + 1, patience, stack, xs =>
    (takeRun less (leastRun n) xs).bind fun (run, rest) =>
      (push less n patience run stack).bind fun (patience, stack) =>
        sortWith less n fuel patience stack rest

def sort (less : α → α → Except ε Bool) (xs : List α) : Except ε (List α) :=
  sortWith less xs.length xs.length Merge.stretch [] xs

end OrderStore.Sorting
