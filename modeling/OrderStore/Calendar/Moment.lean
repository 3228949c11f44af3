import OrderStore.Calendar.Date
import OrderStore.Text.Digits

namespace OrderStore

structure ClockTime where
  hour : Fin 24
  minute : Fin 60
  second : Fin 60
  deriving DecidableEq, Repr

namespace ClockTime

def midnight : ClockTime := ⟨0, 0, 0⟩

def make (hour minute second : Nat) : Except CalendarFault ClockTime :=
  if hh : hour < 24 then
    if hm : minute < 60 then
      if hs : second < 60 then .ok ⟨⟨hour, hh⟩, ⟨minute, hm⟩, ⟨second, hs⟩⟩
      else .error .second
    else .error .minute
  else .error .hour

def seconds (t : ClockTime) : Nat := t.hour * 3600 + t.minute * 60 + t.second

def ofSeconds (n : Nat) : ClockTime :=
  ⟨⟨n / 3600 % 24, Nat.mod_lt _ (by decide)⟩, ⟨n / 60 % 60, Nat.mod_lt _ (by decide)⟩,
    ⟨n % 60, Nat.mod_lt _ (by decide)⟩⟩

def chars (t : ClockTime) : List Char :=
  Text.padded 2 t.hour ++ ':' :: Text.padded 2 t.minute ++ ':' :: Text.padded 2 t.second

theorem seconds_lt (t : ClockTime) : t.seconds < 86400 := by
  have := t.hour.isLt; have := t.minute.isLt; have := t.second.isLt
  unfold seconds; omega

theorem ofSeconds_seconds (t : ClockTime) : ofSeconds t.seconds = t := by
  obtain ⟨⟨h, hh⟩, ⟨m, hm⟩, ⟨s, hs⟩⟩ := t
  simp only [ofSeconds, seconds, ClockTime.mk.injEq, Fin.mk.injEq]
  omega

theorem seconds_ofSeconds {n : Nat} (h : n < 86400) : (ofSeconds n).seconds = n := by
  simp only [ofSeconds, seconds]; omega

end ClockTime

structure Timestamp where
  date : Date
  time : ClockTime
  deriving DecidableEq, Repr

namespace Timestamp

def seconds (t : Timestamp) : Nat := t.date.dayNumber * 86400 + t.time.seconds

def ofSeconds? (n : Int) : Option Timestamp :=
  if n < 0 then none
  else
    (Date.ofDayNumber? (n.toNat / 86400)).map fun date => ⟨date, .ofSeconds (n.toNat % 86400)⟩

/-- The stored form; the year is written without leading zeros. -/
def chars (t : Timestamp) : List Char :=
  Text.natChars t.date.year ++ '-' :: Text.padded 2 t.date.month ++ '-' :: Text.padded 2 t.date.day ++
    ' ' :: t.time.chars

def text (t : Timestamp) : String := String.ofList t.chars

end Timestamp

structure Offset where
  micros : Int
  isShort : -86400000000 < micros ∧ micros < 86400000000
  deriving DecidableEq, Repr

structure Moment where
  stamp : Timestamp
  micro : Fin 1000000
  offset : Option Offset
  deriving DecidableEq, Repr

namespace Moment

def ofTimestamp (t : Timestamp) : Moment := ⟨t, ⟨0, by decide⟩, none⟩

/-- Microseconds of universal time since the start of year 1; without an offset, of local time. -/
def micros (m : Moment) : Int :=
  (m.stamp.seconds : Int) * 1000000 + m.micro - (m.offset.map Offset.micros).getD 0

def equal (a b : Moment) : Bool :=
  a.offset.isSome == b.offset.isSome && a.micros == b.micros

def dateChars (d : Date) : List Char :=
  Text.padded 4 d.year ++ '-' :: Text.padded 2 d.month ++ '-' :: Text.padded 2 d.day

def fractionChars (micro : Nat) : List Char :=
  if micro = 0 then [] else '.' :: Text.padded 6 micro

def offsetChars (o : Offset) : List Char :=
  let n := o.micros.natAbs
  let seconds := n / 1000000
  (if o.micros < 0 then '-' else '+') :: Text.padded 2 (seconds / 3600) ++
    ':' :: Text.padded 2 (seconds / 60 % 60) ++
    if n % 60000000 = 0 then []
    else ':' :: Text.padded 2 (seconds % 60) ++ fractionChars (n % 1000000)

def chars (separator : Char) (m : Moment) : List Char :=
  dateChars m.stamp.date ++ separator :: m.stamp.time.chars ++ fractionChars m.micro ++
    (m.offset.map offsetChars).getD []

def isoText (m : Moment) : String := String.ofList (m.chars 'T')

def text (m : Moment) : String := String.ofList (m.chars ' ')

end Moment

/-- How many seconds the clocks of a place are ahead of universal time, at each second of that. -/
structure Zone where
  shift : Int → Int
  isShort : ∀ n, -86400 < shift n ∧ shift n < 86400

def Zone.utc : Zone := ⟨fun _ => 0, fun _ => by decide⟩

def Zone.shown? (z : Zone) (n : Int) : Option Timestamp :=
  (Timestamp.ofSeconds? n).bind fun _ => Timestamp.ofSeconds? (n + z.shift n)

/-- The whole second of a moment: in local time if it has an offset, else as it stands. -/
def Moment.settle? (z : Zone) (m : Moment) : Option Timestamp :=
  match m.offset with
  | none => some m.stamp
  | some _ => z.shown? (m.micros.fdiv 1000000)

structure WallClock where
  shown : Moment
  zone : Zone

def WallClock.ofTimestamp (t : Timestamp) : WallClock := ⟨.ofTimestamp t, .utc⟩

def Date.text (d : Date) : String := String.ofList (Moment.dateChars d)

end OrderStore
