import OrderStore.Calendar.Moment
import OrderStore.Number.Binary64
import OrderStore.Text.Blank

namespace OrderStore.Log

inductive Level where
  | unset
  | debug
  | info
  | warning
  | error
  | critical
  deriving DecidableEq, Repr

namespace Level

def all : List Level := [unset, debug, info, warning, error, critical]

def name : Level → Text
  | unset => "NOTSET"
  | debug => "DEBUG"
  | info => "INFO"
  | warning => "WARNING"
  | error => "ERROR"
  | critical => "CRITICAL"

def number : Level → Nat
  | unset => 0
  | debug => 10
  | info => 20
  | warning => 30
  | error => 40
  | critical => 50

def ofName? (t : Text) : Option Level :=
  if t = "WARN" then some warning
  else if t = "FATAL" then some critical
  else all.find? fun l => l.name == t

/-- The word that a line shows for a name. A name of no level is shown as it is, marked twice. -/
def word (name : Text) : Text :=
  match ofName? name with
  | some l => l.name
  | none => "Level Level " ++ name

theorem ofName?_name (l : Level) : ofName? l.name = some l := by cases l <;> rfl

end Level

structure Record where
  level : Level
  logger : Text
  message : Text
  deriving DecidableEq, Repr

def epoch : Int := 62135596800

/-- The clock of the log counts the seconds from 1970 as a binary number and goes by their whole part,
so that the last microseconds of a far second may count to the next one. -/
def clockSecond (now : Moment) : Int :=
  let micros := now.micros - epoch * 1000000
  epoch + ((Binary64.ofRatio (micros < 0) micros.natAbs 1000000).floor?.getD 0)

def clockText (now : Moment) : String :=
  match Timestamp.ofSeconds? (clockSecond now) with
  | some t => t.text
  | none => "10000-01-01 00:00:00"

def line (now : Moment) (level logger message : Text) : Text :=
  .intercalate " | " [clockText now, Text.padRight 8 (Level.word level), logger, message]

end OrderStore.Log
