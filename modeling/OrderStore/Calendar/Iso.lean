import OrderStore.Calendar.Moment
import OrderStore.Text
/-!
Reader of ISO 8601 dates and times: calendar and week dates with or without hyphens, any one
character before the time, times with or without colons, fractions of any length of which six
digits count, and offsets.
-/

namespace OrderStore.Iso

inductive Fault where
  | malformed
  | calendar (fault : CalendarFault)
  | offset (micros : Int)
  deriving DecidableEq, Repr

def takeDigits? (count : Nat) (cs : List Char) : Option (Nat × List Char) :=
  if cs.length < count then none
  else (Text.readNat? (cs.take count)).map fun n => (n, cs.drop count)

/-- How many characters belong to the date, judged by its fifth and sixth character. Where a week
date leaves two readings, a hyphen separates and an even run of digits after the week is a time. -/
def dateLength (cs : List Char) : Nat :=
  if cs.length = 7 then 7
  else if cs[4]? = some '-' then
    if cs[5]? = some 'W' then
      if cs[8]? = some '-' ∧ ¬ (cs[10]?.any Text.isDigit) then 10 else 8
    else 10
  else if cs[4]? = some 'W' then
    let run := ((cs.drop 7).takeWhile Text.isDigit).length
    if run < 2 then 7 + run else if run % 2 = 1 then 7 else 8
  else 8

def weekDate (year week day : Nat) : Except Fault (Nat × Nat × Nat) :=
  if !Date.hasWeek year week || day < 1 || 7 < day then .error .malformed
  else if year = 0 then .ok (1, 0, 0)
  else
    let n := Date.firstMonday year + (week - 1) * 7 + (day - 1)
    match Date.ofDayNumber? n with
    | some d => .ok (d.year, d.month, d.day)
    | none => .ok (10000, 1, 1)

def readDate (cs : List Char) : Except Fault (Nat × Nat × Nat) :=
  match takeDigits? 4 cs with
  | none => .error .malformed
  | some (year, rest) =>
    let hyphens := rest.head? == some '-'
    let rest := if hyphens then rest.drop 1 else rest
    if rest.head? == some 'W' then
      match takeDigits? 2 (rest.drop 1) with
      | none => .error .malformed
      | some (week, []) => weekDate year week 1
      | some (week, c :: rest) =>
        if hyphens && c != '-' then .error .malformed
        else
          match takeDigits? 1 (if hyphens then rest else c :: rest) with
          | some (day, []) => weekDate year week day
          | _ => .error .malformed
    else
      match takeDigits? 2 rest with
      | none => .error .malformed
      | some (month, rest) =>
        if hyphens && rest.head? != some '-' then .error .malformed
        else
          match takeDigits? 2 (if hyphens then rest.drop 1 else rest) with
          | some (day, []) => .ok (year, month, day)
          | _ => .error .malformed

/-- The parts of a time as they are written. `tidy` says that nothing was left over at its end. -/
structure Parts where
  hour : Nat := 0
  minute : Nat := 0
  second : Nat := 0
  micro : Nat := 0
  tidy : Bool := true

def Parts.set (p : Parts) (place value : Nat) : Parts :=
  match place with
  | 0 => { p with hour := value }
  | 1 => { p with minute := value }
  | _ => { p with second := value }

def isOver : List Char → Bool
  | [] => true
  | c :: _ => c == '\x00'

def readFraction (p : Parts) (cs : List Char) : Option Parts :=
  let count := min 6 cs.length
  (takeDigits? count cs).map fun (n, rest) =>
    { p with micro := n * Nat.pow 10 (6 - count), tidy := isOver (rest.dropWhile Text.isDigit) }

/-- Reads the parts from `place` on. One character may follow the last part; a comma or a point
starts the fraction; without colons the digits of the parts follow each other. -/
def readParts : (remaining : Nat) → (colons : Bool) → (place : Nat) → Parts → List Char → Option Parts
  | 0, _, _, p, cs => readFraction p cs
  | remaining + 1, colons, place, p, cs =>
    match takeDigits? 2 cs with
    | none => none
    | some (n, rest) =>
      let p := p.set place n
      match rest with
      | [] => some p
      | [c] => some { p with tidy := c == '\x00' }
      | c :: rest =>
        let colons := if place = 0 then c == ':' else colons
        if colons && c == ':' then readParts remaining colons (place + 1) p rest
        else if c == '.' || c == ',' then readFraction p rest
        else if !colons then readParts remaining colons (place + 1) p (c :: rest)
        else none

/-- A character beyond ASCII is as good as two that fit nowhere. -/
def widen (cs : List Char) : List Char :=
  cs.flatMap fun c => if c.toNat < 128 then [c] else [c, c]

def isZoneMark (c : Char) : Bool := c == '+' || c == '-' || c == 'Z'

/-- The microseconds of an offset. One of no whole seconds counts as universal time. -/
def offsetMicros (negative : Bool) (p : Parts) : Int :=
  let seconds := p.hour * 3600 + p.minute * 60 + p.second
  let n : Int := if seconds = 0 then 0 else seconds * 1000000 + p.micro
  if negative then -n else n

def readTime (cs : List Char) : Except Fault (Parts × Option Int) :=
  let cs := widen cs
  let front := cs.takeWhile fun c => !isZoneMark c
  match readParts 3 true 0 {} front, cs.dropWhile fun c => !isZoneMark c with
  | none, _ => .error .malformed
  | some p, [] => if p.tidy then .ok (p, none) else .error .malformed
  | some p, 'Z' :: rest => if isOver rest then .ok (p, some 0) else .error .malformed
  | some p, mark :: rest =>
    match readParts 3 true 0 {} rest with
    | some zone => if zone.tidy then .ok (p, some (offsetMicros (mark == '-') zone)) else .error .malformed
    | none => .error .malformed

def checkOffset (micros : Int) : Except Fault Offset :=
  if h : -86400000000 < micros ∧ micros < 86400000000 then .ok ⟨micros, h⟩ else .error (.offset micros)

def checked {α : Type} (x : Except CalendarFault α) : Except Fault α := x.mapError .calendar

/-- Reads a moment. An offset out of range is reported before the date, the date before the time. -/
def readChars (cs : List Char) : Except Fault Moment := do
  if cs.length < 7 then throw .malformed
  let length := dateLength cs
  let (year, month, day) ← readDate (cs.take length)
  let (p, zone) ← match cs.drop length with
    | [] => pure ({}, none)
    | _ :: rest => readTime rest
  let offset ← zone.mapM checkOffset
  let date ← checked (Date.make year month day)
  let time ← checked (ClockTime.make p.hour p.minute p.second)
  return ⟨⟨date, time⟩, ⟨p.micro % 1000000, Nat.mod_lt _ (by decide)⟩, offset⟩

def read (t : Text) : Except Fault Moment :=
  let cs := t.chars
  if (t.codes.eraseIdx (dateLength cs)).all fun c => c.char?.isSome then readChars cs
  else .error .malformed

end OrderStore.Iso
