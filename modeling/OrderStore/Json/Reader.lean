import OrderStore.Json
import OrderStore.Assoc
import OrderStore.Number.Numeral
import OrderStore.Text.Encoding
/-!
Reader of JSON documents. It takes the words for NaN and the infinities, refuses control characters
in texts and integers of too many digits, and keeps the last of several members of one name. All
documents share one NaN. A document that is too deep is told from one that is malformed.
-/

namespace OrderStore.Json

def isGap : Text.Code → Bool
  | .char c => c == ' ' || c == '\t' || c == '\n' || c == '\r'
  | .surrogate _ => false

def skip (cs : List Text.Code) : List Text.Code := cs.dropWhile isGap

def after? (word : String) (cs : List Text.Code) : Option (List Text.Code) :=
  if (Text.ofString word).codes.isPrefixOf cs then some (cs.drop word.length) else none

def simpleEscape? (c : Char) : Option Char :=
  if c == '"' || c == '\\' || c == '/' then some c
  else if c == 'b' then some '\x08'
  else if c == 'f' then some '\x0c'
  else if c == 'n' then some '\n'
  else if c == 'r' then some '\r'
  else if c == 't' then some '\t'
  else none

def hexUnit? (a b c d : Char) : Option Nat := do
  return (((← Text.hexValue? a) * 16 + (← Text.hexValue? b)) * 16 + (← Text.hexValue? c)) * 16 +
    (← Text.hexValue? d)

def readPieces : List Text.Code → Option (List Text.Piece × List Text.Code)
  | [] => none
  | .surrogate i :: cs => (readPieces cs).map fun (ps, rest) => (.code (.surrogate i) :: ps, rest)
  | .char c :: cs =>
    if c == '"' then some ([], cs)
    else if c == '\\' then
      match cs with
      | .char 'u' :: .char a :: .char b :: .char c :: .char d :: cs =>
        (hexUnit? a b c d).bind fun u =>
          (readPieces cs).map fun (ps, rest) => (.ofUnit u :: ps, rest)
      | .char e :: cs =>
        (simpleEscape? e).bind fun c =>
          (readPieces cs).map fun (ps, rest) => (.code (.char c) :: ps, rest)
      | _ => none
    else if c.toNat < 32 then none
    else (readPieces cs).map fun (ps, rest) => (.code (.char c) :: ps, rest)

def readText (cs : List Text.Code) : Option (Text × List Text.Code) :=
  (readPieces cs).map fun (ps, rest) => (⟨Text.Piece.join ps⟩, rest)

def spanDigits : List Text.Code → List Char × List Text.Code
  | .char c :: cs =>
    if Text.isDigit c then
      let (ds, rest) := spanDigits cs
      (c :: ds, rest)
    else ([], .char c :: cs)
  | cs => ([], cs)

def readWhole (cs : List Text.Code) : Option (List Char × List Text.Code) :=
  match cs with
  | .char '0' :: rest => some (['0'], rest)
  | cs =>
    match spanDigits cs with
    | ([], _) => none
    | (ds, rest) => some (ds, rest)

def readFraction (cs : List Text.Code) : List Char × List Text.Code :=
  match cs with
  | .char '.' :: rest =>
    match spanDigits rest with
    | ([], _) => ([], cs)
    | (ds, rest) => (ds, rest)
  | cs => ([], cs)

def readPower (cs : List Text.Code) : Option Int × List Text.Code :=
  match cs with
  | .char e :: rest =>
    if e == 'e' || e == 'E' then
      let (negative, rest) := match rest with
        | .char '-' :: rest => (true, rest)
        | .char '+' :: rest => (false, rest)
        | rest => (false, rest)
      match spanDigits rest with
      | ([], _) => (none, cs)
      | (ds, rest) =>
        let n : Int := Decimal.digitsValue ds
        (some (if negative then -n else n), rest)
    else (none, cs)
  | cs => (none, cs)

def readUnsigned (negative : Bool) (cs : List Text.Code) : Option (Json × List Text.Code) :=
  match readWhole cs with
  | none => none
  | some (whole, rest) =>
    let (part, rest) := readFraction rest
    let (power, rest) := readPower rest
    if part.isEmpty && power.isNone then
      if Numeral.maxDigits < whole.length then none
      else
        let n : Int := Decimal.digitsValue whole
        some (.int (if negative then -n else n), rest)
    else
      some (.float (.ofScientific negative (Decimal.digitsValue (whole ++ part))
        (power.getD 0 - part.length)), rest)

def readNumber (cs : List Text.Code) : Option (Json × List Text.Code) :=
  match cs with
  | .char '-' :: cs => readUnsigned true cs
  | cs => readUnsigned false cs

def words : List (String × Json) :=
  [("null", .null), ("true", .bool true), ("false", .bool false), ("NaN", .float (.nan 0)),
    ("Infinity", .float (.infinite false)), ("-Infinity", .float (.infinite true))]

def readAtom (cs : List Text.Code) : Option (Json × List Text.Code) :=
  match words.findSome? fun (word, j) => (after? word cs).map fun rest => (j, rest) with
  | some found => some found
  | none => readNumber cs

def ofMembers (ms : List (Text × Json)) : Json := .object (Assoc.ofList (fun a b => a == b) ms)

inductive Fault where
  | malformed
  | tooDeep (inObject : Bool)
  deriving DecidableEq, Repr

def orMalformed {α : Type} : Option α → Except Fault α
  | some a => .ok a
  | none => .error .malformed

mutual

/-- The value at the front, with at most `depth` lists and objects inside each other; `fuel` bounds
the number of parts. -/
def readValue : Nat → Nat → List Text.Code → Except Fault (Json × List Text.Code)
  | 0, _, _ => .error .malformed
  | _ + 1, _, [] => .error .malformed
  | fuel + 1, depth, c :: rest =>
    if c == .char '"' then (orMalformed (readText rest)).map fun (t, rest) => (.text t, rest)
    else if c == .char '[' then
      match depth with
      | 0 => .error (.tooDeep false)
      | depth + 1 =>
        match skip rest with
        | .char ']' :: rest => .ok (.list [], rest)
        | rest => (readElements fuel depth rest).map fun (xs, rest) => (.list xs, rest)
    else if c == .char '\x7b' then
      match depth with
      | 0 => .error (.tooDeep true)
      | depth + 1 =>
        match skip rest with
        | .char '\x7d' :: rest => .ok (.object [], rest)
        | rest => (readMembers fuel depth rest).map fun (ms, rest) => (ofMembers ms, rest)
    else orMalformed (readAtom (c :: rest))

def readElements : Nat → Nat → List Text.Code → Except Fault (List Json × List Text.Code)
  | 0, _, _ => .error .malformed
  | fuel + 1, depth, cs =>
    (readValue fuel depth cs).bind fun (x, rest) =>
      match skip rest with
      | .char ']' :: rest => .ok ([x], rest)
      | .char ',' :: rest => (readElements fuel depth (skip rest)).map fun (xs, rest) => (x :: xs, rest)
      | _ => .error .malformed

def readMembers : Nat → Nat → List Text.Code →
    Except Fault (List (Text × Json) × List Text.Code)
  | 0, _, _ => .error .malformed
  | fuel + 1, depth, cs =>
    match cs with
    | .char '"' :: rest =>
      (orMalformed (readText rest)).bind fun (name, rest) =>
        match skip rest with
        | .char ':' :: rest =>
          (readValue fuel depth (skip rest)).bind fun (x, rest) =>
            match skip rest with
            | .char '\x7d' :: rest => .ok ([(name, x)], rest)
            | .char ',' :: rest =>
              (readMembers fuel depth (skip rest)).map fun (ms, rest) => ((name, x) :: ms, rest)
            | _ => .error .malformed
        | _ => .error .malformed
    | _ => .error .malformed

end

def readCodes (cs : List Text.Code) : Except Fault Json :=
  (readValue (2 * cs.length + 2) maxDepth (skip cs)).bind fun (j, rest) =>
    if (skip rest).isEmpty then .ok j else .error .malformed

def read (t : Text) : Except Fault Json :=
  match t.codes with
  | .char '\uFEFF' :: _ => .error .malformed
  | cs => readCodes cs

def readBytes (bs : List UInt8) : Except Fault Json :=
  (orMalformed (Text.decodeBytes? bs)).bind readCodes

end OrderStore.Json
