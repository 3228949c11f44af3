import OrderStore.Text.Blank
import OrderStore.Text.Digits

namespace OrderStore

/-- A finite number is `coefficient * 10 ^ exponent` with its sign; the exponent is kept as
written, so that `1.50` and `1.5` are two decimals of one value. The tag of a NaN tells it apart from
other NaNs; no text shows it. -/
inductive Decimal where
  | finite (negative : Bool) (coefficient : Nat) (exponent : Int)
  | infinite (negative : Bool)
  | nan (negative signaling : Bool) (payload tag : Nat)
  deriving DecidableEq, Repr

namespace Decimal

def zero : Decimal := .finite false 0 0

def ofInt (n : Int) : Decimal := .finite (n < 0) n.natAbs 0

def isNaN : Decimal → Bool
  | .nan .. => true
  | _ => false

def isSignaling : Decimal → Bool
  | .nan _ signaling _ _ => signaling
  | _ => false

def withTag (tag : Nat) : Decimal → Decimal
  | .nan negative signaling payload _ => .nan negative signaling payload tag
  | d => d

def maxAdjusted : Int := 999999999999999999

def minExponent : Int := -1999999999999999997

def Representable (coefficient : Nat) (exponent : Int) : Prop :=
  minExponent ≤ exponent ∧
    (if coefficient = 0 then exponent else exponent + (Text.digits coefficient).length - 1) ≤ maxAdjusted

instance (coefficient : Nat) (exponent : Int) : Decidable (Representable coefficient exponent) := by
  unfold Representable; infer_instance

def signChars (negative : Bool) : List Char := if negative then ['-'] else []

def pointed (ds : List Char) (places : Nat) : List Char :=
  if places = 0 then ds
  else if places < ds.length then
    ds.take (ds.length - places) ++ '.' :: ds.drop (ds.length - places)
  else '0' :: '.' :: (List.replicate (places - ds.length) '0' ++ ds)

def scientific (ds : List Char) (adjusted : Int) : List Char :=
  pointed ds (ds.length - 1) ++
    'E' :: (if adjusted < 0 then '-' else '+') :: Text.natChars adjusted.natAbs

def chars : Decimal → List Char
  | .finite negative coefficient exponent =>
    let ds := Text.natChars coefficient
    let adjusted := exponent + ds.length - 1
    signChars negative ++
      if exponent ≤ 0 ∧ -6 ≤ adjusted then pointed ds exponent.natAbs else scientific ds adjusted
  | .infinite negative => signChars negative ++ "Infinity".toList
  | .nan negative signaling payload _ =>
    signChars negative ++ (if signaling then ['s'] else []) ++ "NaN".toList ++
      if payload = 0 then [] else Text.natChars payload

def text (d : Decimal) : String := String.ofList d.chars

/-- Digits of all scripts become ASCII and blanks become spaces; underscores are dropped. Any other
character beyond ASCII, and the null character, makes the whole text unreadable. -/
def plain? : List Char → Option (List Char)
  | [] => some []
  | c :: cs =>
    if c == '_' then plain? cs
    else if 0 < c.toNat && c.toNat < 128 then (plain? cs).map (c :: ·)
    else if Text.isBlank c then (plain? cs).map (' ' :: ·)
    else (Text.digit? c).bind fun d => (plain? cs).map (Text.digitChar d :: ·)

def spanDigits (cs : List Char) : List Char × List Char :=
  (cs.takeWhile Text.isDigit, cs.dropWhile Text.isDigit)

def digitsValue (cs : List Char) : Nat := Text.ofDigits (cs.map fun c => c.toNat - 48)

def readExponent? : List Char → Option Int
  | [] => some 0
  | c :: cs =>
    if c != 'e' && c != 'E' then none
    else
      let (negative, ds) := match cs with
        | '-' :: ds => (true, ds)
        | '+' :: ds => (false, ds)
        | ds => (false, ds)
      if ds.isEmpty || !ds.all Text.isDigit then none
      else some (if negative then -(digitsValue ds : Int) else digitsValue ds)

def readFraction : List Char → List Char × List Char
  | '.' :: cs => spanDigits cs
  | cs => ([], cs)

def readScientific? (cs : List Char) : Option (Nat × Int) :=
  let (whole, rest) := spanDigits cs
  let (part, rest) := readFraction rest
  if whole.isEmpty && part.isEmpty then none
  else (readExponent? rest).map fun power => (digitsValue (whole ++ part), power - part.length)

def readFinite? (negative : Bool) (cs : List Char) : Option Decimal :=
  (readScientific? cs).bind fun (coefficient, exponent) =>
    if Representable coefficient exponent then some (.finite negative coefficient exponent) else none

def afterWord? (word : List Char) (cs : List Char) : Option (List Char) :=
  if (cs.take word.length).map Char.toLower == word then some (cs.drop word.length) else none

def readPayload? (negative signaling : Bool) (cs : List Char) : Option Decimal :=
  if cs.all Text.isDigit then some (.nan negative signaling (digitsValue cs) 0) else none

def isInfinityWord (cs : List Char) : Bool :=
  afterWord? "inf".toList cs == some [] || afterWord? "infinity".toList cs == some []

def readUnsigned? (negative : Bool) (cs : List Char) : Option Decimal :=
  match afterWord? "nan".toList cs with
  | some rest => readPayload? negative false rest
  | none =>
    match afterWord? "snan".toList cs with
    | some rest => readPayload? negative true rest
    | none =>
      if isInfinityWord cs then some (.infinite negative) else readFinite? negative cs

def readSigned? {α : Type} (readUnsigned? : Bool → List Char → Option α) (cs : List Char) : Option α :=
  (plain? (Text.trimWith Text.isBlank cs)).bind fun cs =>
    match cs with
    | '-' :: cs => readUnsigned? true cs
    | '+' :: cs => readUnsigned? false cs
    | cs => readUnsigned? false cs

def readChars? (cs : List Char) : Option Decimal := readSigned? readUnsigned? cs

def read? (s : String) : Option Decimal := readChars? s.toList

/-- Moves factors of ten from the coefficient to the exponent; `fuel` bounds their number. -/
def stripZeros : Nat → Nat → Int → Nat × Int
  | 0, coefficient, exponent => (coefficient, exponent)
  | fuel + 1, coefficient, exponent =>
    if coefficient % 10 = 0 then stripZeros fuel (coefficient / 10) (exponent + 1)
    else (coefficient, exponent)

def normal (coefficient : Nat) (exponent : Int) : Nat × Int :=
  if coefficient = 0 then (0, 0) else stripZeros coefficient.log2 coefficient exponent

def equal : Decimal → Decimal → Bool
  | .finite s c e, .finite s' c' e' => (c == 0 || s == s') && normal c e == normal c' e'
  | .infinite s, .infinite s' => s == s'
  | _, _ => false

/-- Whether `c * 10 ^ e` is less than `c' * 10 ^ e'`. Leading digits at different places decide
without computing a power. -/
def magnitudeLess (c : Nat) (e : Int) (c' : Nat) (e' : Int) : Bool :=
  if c' = 0 then false
  else if c = 0 then true
  else
    let top := e + (Text.digits c).length
    let top' := e' + (Text.digits c').length
    if top = top' then c * Nat.pow 10 (e - min e e').toNat < c' * Nat.pow 10 (e' - min e e').toNat
    else top < top'

def less : Decimal → Decimal → Bool
  | .finite s c e, .finite s' c' e' =>
    match s && c != 0, s' && c' != 0 with
    | false, false => magnitudeLess c e c' e'
    | true, true => magnitudeLess c' e' c e
    | negative, _ => negative
  | .infinite s, .infinite s' => s && !s'
  | .infinite s, .finite .. => s
  | .finite .., .infinite s => !s
  | _, _ => false

def isZero : Decimal → Bool
  | .finite _ coefficient _ => coefficient == 0
  | _ => false

def wholePart (coefficient : Nat) (exponent : Int) : Nat :=
  if exponent + (Text.digits coefficient).length ≤ 0 || coefficient = 0 then 0
  else if 0 ≤ exponent then coefficient * Nat.pow 10 exponent.toNat
  else coefficient / Nat.pow 10 exponent.natAbs

def isStorable (coefficient : Nat) (exponent : Int) : Bool :=
  coefficient == 0 || exponent + (Text.digits coefficient).length ≤ 10000000

def truncate (negative : Bool) (coefficient : Nat) (exponent : Int) : Int :=
  if negative then -(wholePart coefficient exponent : Int) else wholePart coefficient exponent

theorem ofInt_ne_nan (n : Int) : (ofInt n).isNaN = false := rfl

end Decimal

end OrderStore
