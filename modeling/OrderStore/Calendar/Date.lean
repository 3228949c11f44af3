/-!
Dates of the years 1 to 9999 in the Gregorian calendar, their day numbers, and ISO weeks. Day
number zero is Monday, the first of January of year 1.
-/

namespace OrderStore

inductive CalendarFault where
  | year (year : Nat)
  | month
  | day
  | hour
  | minute
  | second
  deriving DecidableEq, Repr

namespace Calendar

def isLeap (year : Nat) : Bool := year % 4 == 0 && (year % 100 != 0 || year % 400 == 0)

def yearLength (year : Nat) : Nat := if isLeap year then 366 else 365

def monthLengths (year : Nat) : List Nat :=
  [31, if isLeap year then 29 else 28, 31, 30, 31, 30, 31, 31, 30, 31, 30, 31]

def monthLength (year month : Nat) : Nat := ((monthLengths year)[month - 1]?).getD 0

def cycle : List Nat := (List.range 400).map fun i => yearLength (i + 1)

def cycleLength : Nat := 146097

/-- Walks over consecutive spans: the index of the span that `n` falls into and the place in it. -/
def walk : List Nat → Nat → Nat × Nat
  | [], n => (0, n)
  | span :: spans, n =>
    if n < span then (0, n)
    else
      let (i, place) := walk spans (n - span)
      (i + 1, place)

def start : List Nat → Nat → Nat
  | span :: spans, i + 1 => span + start spans i
  | _, _ => 0

def daysBefore (year : Nat) : Nat :=
  (year - 1) / 400 * cycleLength + start cycle ((year - 1) % 400)

theorem start_walk_add {spans : List Nat} {n : Nat} (hn : n < start spans spans.length) :
    start spans (walk spans n).1 + (walk spans n).2 = n := by
  induction spans generalizing n with
  | nil => simp [start] at hn
  | cons span spans ih =>
    rw [walk]
    split
    · simp [start]
    · simp only [List.length_cons, start] at hn
      have h := ih (n := n - span) (by omega)
      simp only [start]
      omega

end Calendar

open Calendar

def IsDate (year month day : Nat) : Prop :=
  1 ≤ year ∧ year ≤ 9999 ∧ 1 ≤ month ∧ month ≤ 12 ∧ 1 ≤ day ∧ day ≤ monthLength year month

instance (year month day : Nat) : Decidable (IsDate year month day) := by
  unfold IsDate; infer_instance

structure Date where
  year : Nat
  month : Nat
  day : Nat
  isDate : IsDate year month day
  deriving DecidableEq, Repr

namespace Date

def make (year month day : Nat) : Except CalendarFault Date :=
  if h : IsDate year month day then .ok ⟨year, month, day, h⟩
  else if year < 1 ∨ 9999 < year then .error (.year year)
  else if month < 1 ∨ 12 < month then .error .month
  else .error .day

def dayNumber (d : Date) : Nat :=
  daysBefore d.year + start (monthLengths d.year) (d.month - 1) + (d.day - 1)

def ofDayNumber? (n : Nat) : Option Date :=
  let (i, place) := walk cycle (n % cycleLength)
  let year := n / cycleLength * 400 + i + 1
  let (m, place) := walk (monthLengths year) place
  if h : IsDate year (m + 1) (place + 1) then some ⟨year, m + 1, place + 1, h⟩ else none

def weekday (dayNumber : Nat) : Nat := dayNumber % 7

def firstMonday (year : Nat) : Nat :=
  let start := daysBefore year
  let monday := start - weekday start
  if 3 < weekday start then monday + 7 else monday

/-- A year has a week 53 if it starts on a Thursday, or on a Wednesday and is a leap year. -/
def hasWeek (year week : Nat) : Bool :=
  let first := weekday (daysBefore year)
  1 ≤ week && (week ≤ 52 || (week == 53 && (first == 3 || (first == 2 && isLeap year))))

theorem make_self (d : Date) : make d.year d.month d.day = .ok d := by
  simp [make, d.isDate]

end Date

end OrderStore
