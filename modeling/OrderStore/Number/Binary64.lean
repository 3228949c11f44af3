import OrderStore.Number.Decimal

namespace OrderStore

/-- A finite number is `mantissa * 2 ^ exponent` with its sign, where the mantissa has 53 bits
unless the exponent is the least one, -1074. The tag of a NaN tells it apart from other NaNs. -/
inductive Binary64 where
  | finite (negative : Bool) (mantissa : Nat) (exponent : Int)
  | infinite (negative : Bool)
  | nan (tag : Nat)
  deriving DecidableEq, Repr

namespace Binary64

def divNearest (num den : Nat) : Nat :=
  let q := num / den
  let r := num % den
  if 2 * r < den then q
  else if den < 2 * r then q + 1
  else if q % 2 = 0 then q else q + 1

def scaled (num den : Nat) (exponent : Int) : Nat × Nat :=
  if 0 ≤ exponent then (num, den * Nat.pow 2 exponent.toNat) else (num * Nat.pow 2 exponent.natAbs, den)

def exponentFor (num den : Nat) : Int :=
  let width : Int := (num.log2 : Int) - den.log2
  let (n, d) := scaled num den width
  max (if n < d then width - 53 else width - 52) (-1074)

def ofRatio (negative : Bool) (num den : Nat) : Binary64 :=
  if num = 0 then .finite negative 0 (-1074)
  else
    let exponent := exponentFor num den
    let (n, d) := scaled num den exponent
    let mantissa := divNearest n d
    let (mantissa, exponent) :=
      if mantissa = Nat.pow 2 53 then (Nat.pow 2 52, exponent + 1) else (mantissa, exponent)
    if 971 < exponent then .infinite negative else .finite negative mantissa exponent

/-- The number nearest to a decimal. Far exponents are settled without computing the power. -/
def ofScientific (negative : Bool) (coefficient : Nat) (exponent : Int) : Binary64 :=
  let adjusted := exponent + (Text.digits coefficient).length
  if coefficient = 0 || adjusted < -330 then .finite negative 0 (-1074)
  else if 330 < adjusted then .infinite negative
  else if 0 ≤ exponent then ofRatio negative (coefficient * Nat.pow 10 exponent.toNat) 1
  else ofRatio negative coefficient (Nat.pow 10 exponent.natAbs)

def readUnsigned? (negative : Bool) (cs : List Char) : Option Binary64 :=
  if Decimal.afterWord? "nan".toList cs == some [] then some (.nan 0)
  else if Decimal.isInfinityWord cs then some (.infinite negative)
  else
    (Decimal.readScientific? cs).map fun (coefficient, exponent) =>
      ofScientific negative coefficient exponent

def read? (s : String) : Option Binary64 := Decimal.readSigned? readUnsigned? s.toList

def toDecimal : Binary64 → Decimal
  | .finite negative mantissa exponent =>
    if 0 ≤ exponent then .finite negative (mantissa * Nat.pow 2 exponent.toNat) 0
    else .finite negative (mantissa * Nat.pow 5 exponent.natAbs) exponent
  | .infinite negative => .infinite negative
  | .nan tag => .nan false false 0 tag

def isZero : Binary64 → Bool
  | .finite _ mantissa _ => mantissa == 0
  | _ => false

def truncate (negative : Bool) (mantissa : Nat) (exponent : Int) : Int :=
  let n := if 0 ≤ exponent then mantissa * Nat.pow 2 exponent.toNat else mantissa / Nat.pow 2 exponent.natAbs
  if negative then -(n : Int) else n

def floor? : Binary64 → Option Int
  | .finite negative mantissa exponent =>
    let n : Int := if negative then -mantissa else mantissa
    some (if 0 ≤ exponent then n * Nat.pow 2 exponent.toNat else n.fdiv (Nat.pow 2 exponent.natAbs))
  | _ => none

/-- The reals that round to a number, as multiples of `2 ^ unit / 4`, with the number itself. -/
structure Interval where
  low : Nat
  value : Nat
  high : Nat
  unit : Int
  closed : Bool

def interval (mantissa : Nat) (exponent : Int) : Interval where
  low := if mantissa = Nat.pow 2 52 ∧ -1074 < exponent then 4 * mantissa - 1 else 4 * mantissa - 2
  value := 4 * mantissa
  high := 4 * mantissa + 2
  unit := exponent
  closed := mantissa % 2 = 0

def Interval.ratio (i : Interval) (n : Nat) : Nat × Nat :=
  if 0 ≤ i.unit then (n * Nat.pow 2 i.unit.toNat, 4) else (n, 4 * Nat.pow 2 i.unit.natAbs)

def compareScaled (a : Nat) (power : Int) (n d : Nat) : Ordering :=
  if 0 ≤ power then compare (a * Nat.pow 10 power.toNat * d) n else compare (a * d) (n * Nat.pow 10 power.natAbs)

def Interval.contains (i : Interval) (a : Nat) (power : Int) : Bool :=
  let (ln, ld) := i.ratio i.low
  let (hn, hd) := i.ratio i.high
  match compareScaled a power ln ld, compareScaled a power hn hd with
  | .gt, .lt => true
  | .eq, _ => i.closed
  | _, .eq => i.closed
  | _, _ => false

def Interval.floor (i : Interval) (power : Int) : Nat :=
  let (n, d) := i.ratio i.value
  if 0 ≤ power then n / (d * Nat.pow 10 power.toNat) else n * Nat.pow 10 power.natAbs / d

def Interval.nearer (i : Interval) (a : Nat) (power : Int) : Nat :=
  let (n, d) := i.ratio i.value
  match compareScaled (2 * a + 1) power (2 * n) d with
  | .lt => a + 1
  | .gt => a
  | .eq => if a % 2 = 0 then a else a + 1

def Interval.hit? (i : Interval) (power : Int) : Option Nat :=
  let a := i.floor power
  match i.contains a power, i.contains (a + 1) power with
  | true, true => some (i.nearer a power)
  | true, false => some a
  | false, true => some (a + 1)
  | false, false => none

def Interval.magnitude (i : Interval) : Int :=
  let (n, d) := i.ratio i.value
  if d ≤ n then ((Text.digits (n / d)).length : Int) - 1
  else -((Text.digits ((d - 1) / n)).length : Int)

def Interval.shortest (i : Interval) : Nat → Int → Nat × Int
  | 0, power => (i.floor power, power)
  | tries + 1, power =>
    match i.hit? power with
    | some a => (a, power)
    | none => i.shortest tries (power - 1)

def shortestDigits (mantissa : Nat) (exponent : Int) : Nat × Int :=
  let i := interval mantissa exponent
  let (a, power) := i.shortest 17 i.magnitude
  Decimal.normal a power

def powerChars (power : Int) : List Char :=
  let ds := Text.natChars power.natAbs
  'e' :: (if power < 0 then '-' else '+') :: (if ds.length < 2 then '0' :: ds else ds)

def finiteChars (mantissa : Nat) (exponent : Int) : List Char :=
  if mantissa = 0 then "0.0".toList
  else
    let (a, power) := shortestDigits mantissa exponent
    let ds := Text.natChars a
    let adjusted := power + ds.length - 1
    if -4 ≤ adjusted ∧ adjusted < 16 then
      if 0 ≤ power then ds ++ List.replicate power.toNat '0' ++ ['.', '0']
      else Decimal.pointed ds power.natAbs
    else Decimal.pointed ds (ds.length - 1) ++ powerChars adjusted

def text : Binary64 → String
  | .finite negative mantissa exponent =>
    String.ofList (Decimal.signChars negative ++ finiteChars mantissa exponent)
  | .infinite negative => String.ofList (Decimal.signChars negative ++ "inf".toList)
  | .nan _ => "nan"

end Binary64

end OrderStore
