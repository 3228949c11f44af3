import OrderStore.Sorting.Search

namespace OrderStore.Sorting

variable {α ε : Type}

def spanRun (less : α → α → Except ε Bool) (falling : Bool) : α → List α → Except ε (List α × List α)
  | _, [] => .ok ([], [])
  | last, x :: xs =>
    (less x last).bind fun falls =>
      if falls == falling then (spanRun less falling x xs).map fun (run, rest) => (x :: run, rest)
      else .ok ([], x :: xs)

def leadingRun (less : α → α → Except ε Bool) : List α → Except ε (List α × List α)
  | x :: y :: rest =>
    (less y x).bind fun falling =>
      (spanRun less falling y rest).map fun (run, rest) =>
        (if falling then (x :: y :: run).reverse else x :: y :: run, rest)
  | xs => .ok (xs, [])

def insert (less : α → α → Except ε Bool) (sorted : List α) (x : α) : Except ε (List α) :=
  (bisect (fun y => (less x y).map not) false sorted 0 sorted.length).map fun i =>
    sorted.take i ++ x :: sorted.drop i

/-- The least length of the runs of `n` elements: `n` halved until it is below 64, rounded up. -/
def leastRun (n : Nat) : Nat :=
  if n < 64 then n
  else
    let size := Nat.pow 2 (n.log2 - 5)
    (n + size - 1) / size

def takeRun (less : α → α → Except ε Bool) (least : Nat) (xs : List α) :
    Except ε (List α × List α) :=
  (leadingRun less xs).bind fun (run, rest) =>
    let missing := least - run.length
    ((rest.take missing).foldlM (insert less) run).map fun run => (run, rest.drop missing)

end OrderStore.Sorting
