namespace OrderStore.Sorting

variable {α ε : Type}

def middle (lower : Bool) (low high : Nat) : Nat :=
  if lower then (low + high - 1) / 2 else (low + high) / 2

theorem le_middle (lower : Bool) {low high : Nat} (h : low < high) : low ≤ middle lower low high := by
  unfold middle; split <;> omega

theorem middle_lt (lower : Bool) {low high : Nat} (h : low < high) : middle lower low high < high := by
  unfold middle; split <;> omega

def bisect (test : α → Except ε Bool) (lower : Bool) (xs : List α) (low high : Nat) : Except ε Nat :=
  if low < high then
    match xs[middle lower low high]? with
    | none => .ok low
    | some x =>
      (test x).bind fun passes =>
        if passes then bisect test lower xs (middle lower low high + 1) high
        else bisect test lower xs low (middle lower low high)
  else .ok low
termination_by high - low
decreasing_by
  · have := le_middle lower ‹low < high›; omega
  · exact Nat.sub_lt_sub_right (le_middle lower ‹low < high›) (middle_lt lower ‹low < high›)

def gallop (test : α → Except ε Bool) (lower : Bool) (xs : List α) (last next : Nat) : Except ε Nat :=
  if next < xs.length then
    match xs[next]? with
    | none => .ok xs.length
    | some x =>
      (test x).bind fun passes =>
        if passes then gallop test lower xs next (2 * next + 1)
        else bisect test lower xs (last + 1) next
  else bisect test lower xs (last + 1) xs.length
termination_by xs.length - next

def leading (test : α → Except ε Bool) (lower : Bool) : List α → Except ε Nat
  | [] => .ok 0
  | x :: xs => (test x).bind fun passes => if passes then gallop test lower (x :: xs) 0 1 else .ok 0

end OrderStore.Sorting
