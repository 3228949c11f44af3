import OrderStore.Calendar.Iso
import OrderStore.Value.Comparison

namespace OrderStore.Value

def shown (v : Value) : Except Error Text := if v.isShown then .ok v.display else .error .unshownInteger

/-- Numbers are read from their text, so that no amount passes through binary rounding. -/
def toAmount : Value → Except Error Decimal
  | .decimal d => .ok d
  | .bool b => .error (.notAmount (.bool b))
  | v => v.shown.bind fun t =>
    match Decimal.readChars? t.chars with
    | some d => .ok d
    | none => .error (.notAmount v)

def ofIsoFault (text : Text) : Iso.Fault → Error
  | .malformed => .notTimestamp text
  | .calendar fault => .calendar fault
  | .offset micros => .offset micros

def settle (z : Zone) (m : Moment) : Except Error Timestamp :=
  match m.settle? z with
  | some t => .ok t
  | none => .error .beyondCalendar

def readMoment (t : Text) : Except Error Moment :=
  let t := t.trim
  (Iso.read t).mapError (ofIsoFault t)

/-- Nothing, and the word `now`, mean the present moment; a date means its midnight. -/
def toTimestamp (now : WallClock) : Value → Except Error Timestamp
  | .null => settle now.zone now.shown
  | .moment m => settle now.zone m
  | .date d => .ok ⟨d, .midnight⟩
  | v => v.shown.bind fun t => if t = "now" then settle now.zone now.shown else (readMoment t).bind (settle now.zone)

def ofNumeralFault (v : Value) : Numeral.Fault → Error
  | .malformed => .notNumeral v
  | .tooLong digits => .longNumeral digits

def asciiOf (bs : List UInt8) : List Char :=
  bs.map fun b => if b < 0x80 then Char.ofNat b.toNat else '\uFFFD'

def toInteger : Value → Except Error Int
  | .bool b => .ok (if b then 1 else 0)
  | .int n => .ok n
  | .float (.finite negative mantissa exponent) => .ok (Binary64.truncate negative mantissa exponent)
  | .float (.infinite _) => .error .infiniteInteger
  | .float (.nan _) => .error (.nanInteger true)
  | .decimal (.finite negative coefficient exponent) =>
    if Decimal.isStorable coefficient exponent then .ok (Decimal.truncate negative coefficient exponent)
    else .error .hugeInteger
  | .decimal (.infinite _) => .error .infiniteInteger
  | .decimal (.nan ..) => .error (.nanInteger false)
  | .text t => (Numeral.read t.chars).mapError (ofNumeralFault (.text t))
  | .bytes bs => (Numeral.read (asciiOf bs)).mapError (ofNumeralFault (.bytes bs))
  | _ => .error .wrongType

def isBlankByte (b : UInt8) : Bool := (9 ≤ b && b ≤ 13) || b == 32

def toTrimmed (v : Value) : Except Error (Option Text) :=
  if v.isEmpty then .ok none
  else
    match v with
    | .text t =>
      let t := t.trim
      .ok (if t.isEmpty then none else some t)
    | .bytes bs =>
      let bs := Text.trimWith isBlankByte bs
      .ok (if bs.isEmpty then none else some (Text.quoteBytes bs))
    | _ => .error .unknownOperation

def toPair (index : Nat) (v : Value) : Except Error (Value × Value) :=
  match v.elements? with
  | none => .error .wrongType
  | some [k, v] => if k.canBeKey then .ok (k, v) else .error .wrongType
  | some xs => .error (.pairLength index xs.length)

def addPairs (es : Entries) : Nat → List Value → Except Error Entries
  | _, [] => .ok es
  | index, x :: xs => (toPair index x).bind fun (k, v) => addPairs (es.put k v) (index + 1) xs

def toEntries (v : Value) : Except Error Entries :=
  if v.isEmpty then .ok []
  else
    match v with
    | .map es => .ok es
    | v =>
      match v.elements? with
      | none => .error .wrongType
      | some xs => addPairs [] 0 xs

def toElements (v : Value) : Except Error (List Value) :=
  match v.elements? with
  | some xs => .ok xs
  | none => .error .wrongType

@[simp] theorem shown_text (t : Text) : shown (.text t) = .ok t := rfl

theorem shown_of_isShown {v : Value} (h : v.isShown = true) : v.shown = .ok v.display := if_pos h

theorem shown_of_not_isShown {v : Value} (h : v.isShown = false) : v.shown = .error .unshownInteger :=
  if_neg (by simp [h])

theorem toAmount_decimal (d : Decimal) : toAmount (.decimal d) = .ok d := rfl

theorem toEntries_map (es : Entries) : toEntries (.map es) = .ok es := by
  cases es with
  | nil => rfl
  | cons e es => rfl

theorem toTimestamp_moment_ofTimestamp (now : WallClock) (t : Timestamp) :
    toTimestamp now (.moment (.ofTimestamp t)) = .ok t := rfl

end OrderStore.Value
