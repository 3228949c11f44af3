import OrderStore.Sorting.Search
/-!
Merging of two neighbouring runs. Elements are taken one by one until one run wins often in a row;
from then on whole stretches are taken, as long as they are long. How often a run has to win is the
patience of the merge; it adapts to the runs and goes on from one merge to the next.
-/

namespace OrderStore.Sorting

variable {α ε : Type}

/-- A merge under way: what is merged, last first, and the rests of both runs. -/
structure Merge (α : Type) where
  merged : List α
  short : List α
  long : List α
  deriving Repr

namespace Merge

/-- The last element of the short run goes behind all of the long run, so it need not be compared. -/
def isOver (m : Merge α) : Bool :=
  match m.short, m.long with
  | _ :: _ :: _, _ :: _ => false
  | _, _ => true

def result (m : Merge α) : List α := m.merged.reverse ++ (m.long ++ m.short)

def size (m : Merge α) : Nat := m.short.length + m.long.length

def takeShort (n : Nat) (m : Merge α) : Merge α :=
  { m with merged := (m.short.take n).reverse ++ m.merged, short := m.short.drop n }

def takeLong (n : Nat) (m : Merge α) : Merge α :=
  { m with merged := (m.long.take n).reverse ++ m.merged, long := m.long.drop n }

def start (short long : List α) : Merge α := takeLong 1 ⟨[], short, long⟩

def stretch : Nat := 7

/-- Takes elements one by one until a run has won as often in a row as the patience says. The test
tells whether an element of the long run comes before one of the short run; `fuel` bounds the number
of elements. -/
def oneByOne (wins : α → α → Except ε Bool) (patience : Nat) :
    Nat → Nat → Nat → Merge α → Except ε (Merge α)
  | 0, _, _, m => .ok m
  | fuel + 1, shortRow, longRow, m =>
    match m.short, m.long with
    | x :: _, y :: _ =>
      (wins x y).bind fun longWins =>
        let m := if longWins then m.takeLong 1 else m.takeShort 1
        let shortRow := if longWins then 0 else shortRow + 1
        let longRow := if longWins then longRow + 1 else 0
        if m.isOver || patience ≤ max shortRow longRow then .ok m
        else oneByOne wins patience fuel shortRow longRow m
    | _, _ => .ok m

def gallopShort (wins : α → α → Except ε Bool) (lower : Bool) (m : Merge α) :
    Except ε (Nat × Merge α) :=
  match m.isOver, m.long with
  | false, y :: _ =>
    (leading (fun x => (wins x y).map not) lower m.short).map fun n =>
      let m := m.takeShort n
      (n, if m.isOver then m else m.takeLong 1)
  | _, _ => .ok (0, m)

def gallopLong (wins : α → α → Except ε Bool) (lower : Bool) (m : Merge α) :
    Except ε (Nat × Merge α) :=
  match m.isOver, m.short with
  | false, x :: _ =>
    (leading (wins x) lower m.long).map fun n =>
      let m := m.takeLong n
      (n, if m.isOver then m else m.takeShort 1)
  | _, _ => .ok (0, m)

def gallopBoth (wins : α → α → Except ε Bool) (mirrored : Bool) (m : Merge α) :
    Except ε (Bool × Merge α) :=
  let left := if mirrored then gallopLong wins mirrored else gallopShort wins mirrored
  let right := if mirrored then gallopShort wins mirrored else gallopLong wins mirrored
  (left m).bind fun (a, m) => (right m).map fun (b, m) => (stretch ≤ max a b, m)

/-- Takes stretches while they are long. Each pair of them makes the patience less, and the return to
single elements makes it more. -/
def gallopAll (wins : α → α → Except ε Bool) (mirrored : Bool) :
    Nat → Nat → Merge α → Except ε (Nat × Merge α)
  | 0, patience, m => .ok (patience, m)
  | fuel + 1, patience, m =>
    let patience := max 1 (patience - 1)
    (gallopBoth wins mirrored m).bind fun (long, m) =>
      if m.isOver then .ok (patience, m)
      else if long then gallopAll wins mirrored fuel patience m
      else .ok (patience + 1, m)

def run (wins : α → α → Except ε Bool) (mirrored : Bool) :
    Nat → Nat → Merge α → Except ε (Nat × List α)
  | 0, patience, m => .ok (patience, m.result)
  | fuel + 1, patience, m =>
    if m.isOver then .ok (patience, m.result)
    else
      (oneByOne wins patience m.size 0 0 m).bind fun m =>
        if m.isOver then .ok (patience, m.result)
        else
          (gallopAll wins mirrored m.size (patience + 1) m).bind fun (patience, m) =>
            run wins mirrored fuel patience m

end Merge

/-- Merges two parts whose ends are known to change places: from the front if the left one is not
longer, else from the back. -/
def mergeParts (less : α → α → Except ε Bool) (patience : Nat) (left right : List α) :
    Except ε (Nat × List α) :=
  let fuel := left.length + right.length
  if left.length ≤ right.length then
    Merge.run (fun x y => less y x) false fuel patience (.start left right)
  else
    (Merge.run less true fuel patience (.start right.reverse left.reverse)).map fun (patience, xs) =>
      (patience, xs.reverse)

def mergeRuns (less : α → α → Except ε Bool) (patience : Nat) (left right : List α) :
    Except ε (Nat × List α) :=
  match right with
  | [] => .ok (patience, left)
  | first :: _ =>
    (leading (fun x => (less first x).map not) false left).bind fun before =>
      match (left.drop before).getLast? with
      | none => .ok (patience, left ++ right)
      | some last =>
        (leading (fun y => (less y last).map not) true right.reverse).bind fun behind =>
          let moved := right.length - behind
          (mergeParts less patience (left.drop before) (right.take moved)).map fun (patience, xs) =>
            (patience, left.take before ++ xs ++ right.drop moved)

end OrderStore.Sorting
