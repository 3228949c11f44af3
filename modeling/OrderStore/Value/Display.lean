import OrderStore.Number.Numeral
import OrderStore.Text.Quoted
import OrderStore.Value

namespace OrderStore

open Text

def durationText (micros : Int) : String :=
  let days := micros.fdiv 86400000000
  let rest := micros - days * 86400000000
  let parts := [("days", days), ("seconds", rest / 1000000), ("microseconds", rest % 1000000)]
  let shown := (parts.filter fun p => p.2 != 0).map fun p => p.1 ++ "=" ++ intText p.2
  "datetime.timedelta(" ++ (if shown.isEmpty then "0" else ", ".intercalate shown) ++ ")"

def Offset.quoted (o : Offset) : String :=
  if o.micros == 0 then "datetime.timezone.utc"
  else "datetime.timezone(" ++ durationText o.micros ++ ")"

def Date.quoted (d : Date) : String :=
  "datetime.date(" ++ ", ".intercalate ([d.year, d.month, d.day].map natText) ++ ")"

def Moment.quoted (m : Moment) : String :=
  let d := m.stamp.date
  let t := m.stamp.time
  let tail : List Nat :=
    if m.micro.val != 0 then [t.second, m.micro] else if t.second.val != 0 then [t.second] else []
  let parts := ([d.year, d.month, d.day, t.hour, t.minute] ++ tail).map natText
  let zone := match m.offset with
    | none => []
    | some o => ["tzinfo=" ++ o.quoted]
  "datetime.datetime(" ++ ", ".intercalate (parts ++ zone) ++ ")"

def tupleText : List String → String
  | [x] => "(" ++ x ++ ",)"
  | xs => "(" ++ ", ".intercalate xs ++ ")"

namespace Value

mutual

def quoted : Value → String
  | .null => "None"
  | .bool b => if b then "True" else "False"
  | .int n => intText n
  | .float x => x.text
  | .text t => quote t
  | .decimal d => "Decimal('" ++ d.text ++ "')"
  | .moment m => m.quoted
  | .date d => d.quoted
  | .bytes bs => quoteBytes bs
  | .list xs => "[" ++ ", ".intercalate (quotedAll xs) ++ "]"
  | .tuple xs => tupleText (quotedAll xs)
  | .set xs => if xs.isEmpty then "set()" else "\x7b" ++ ", ".intercalate (quotedAll xs) ++ "\x7d"
  | .map es => "\x7b" ++ ", ".intercalate (quotedEntries es) ++ "\x7d"
  | .scalar v => "Scalar(value=" ++ v.quoted ++ ")"
  | .oneOf vs => "OneOf(values=" ++ tupleText (quotedAll vs) ++ ")"

def quotedAll : List Value → List String
  | [] => []
  | x :: xs => x.quoted :: quotedAll xs

def quotedEntries : List (Value × Value) → List String
  | [] => []
  | (k, v) :: es => (k.quoted ++ ": " ++ v.quoted) :: quotedEntries es

end

mutual

/-- An integer of more digits than can be read back has no text, nor has a value that holds one. -/
def isShown : Value → Bool
  | .int n => (Text.digits n.natAbs).length ≤ Numeral.maxDigits
  | .list xs | .tuple xs | .set xs | .oneOf xs => areShown xs
  | .map es => entriesShown es
  | .scalar v => v.isShown
  | _ => true

def areShown : List Value → Bool
  | [] => true
  | x :: xs => x.isShown && areShown xs

def entriesShown : List (Value × Value) → Bool
  | [] => true
  | (k, v) :: es => k.isShown && v.isShown && entriesShown es

end

def display : Value → Text
  | .text t => t
  | .decimal d => d.text
  | .moment m => m.text
  | .date d => d.text
  | v => v.quoted

/-- The text of a key or value in a side table: truth values are written as digits. -/
def keyText : Value → Text
  | .bool b => if b then "1" else "0"
  | v => v.display

/-- The sets that are named are keys of maps, which cannot change. -/
def kindName : Value → String
  | .null => "NoneType"
  | .bool _ => "bool"
  | .int _ => "int"
  | .float _ => "float"
  | .text _ => "str"
  | .decimal _ => "decimal.Decimal"
  | .moment _ => "datetime.datetime"
  | .date _ => "datetime.date"
  | .bytes _ => "bytes"
  | .list _ => "list"
  | .tuple _ => "tuple"
  | .set _ => "frozenset"
  | .map _ => "dict"
  | .scalar _ => "Scalar"
  | .oneOf _ => "OneOf"

@[simp] theorem keyText_text (t : Text) : keyText (.text t) = t := rfl

end Value

end OrderStore
