import OrderStore.Text.Blank
import OrderStore.Text.Digits

namespace OrderStore.Numeral

def maxDigits : Nat := 4300

inductive Fault where
  | malformed
  | tooLong (digits : Nat)
  deriving DecidableEq, Repr

def isMargin (c : Char) : Bool :=
  Text.isBlank c && !(28 ≤ c.toNat && c.toNat < 32)

/-- The digits at the front and what follows them; `fresh` says that a digit may not be preceded
by an underscore any more. An underscore that no digit follows, or a second one, is a fault. -/
def scan (fresh : Bool) : List Char → Option (List Nat × List Char)
  | [] => if fresh then none else some ([], [])
  | c :: cs =>
    match Text.digit? c with
    | some d => (scan false cs).map fun (ds, rest) => (d :: ds, rest)
    | none => if fresh then none else if c == '_' then scan true cs else some ([], c :: cs)

def readDigits (cs : List Char) : Except Fault Nat :=
  match scan true cs with
  | none => .error .malformed
  | some (ds, rest) =>
    if maxDigits < ds.length then .error (.tooLong ds.length)
    else if rest.all isMargin then .ok (Text.ofDigits ds)
    else .error .malformed

def read (cs : List Char) : Except Fault Int :=
  match cs.dropWhile isMargin with
  | '-' :: rest => (readDigits rest).map fun n => -(n : Int)
  | '+' :: rest => (readDigits rest).map fun n => (n : Int)
  | rest => (readDigits rest).map fun n => (n : Int)

end OrderStore.Numeral
