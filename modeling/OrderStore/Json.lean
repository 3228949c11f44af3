import OrderStore.Number.Binary64
import OrderStore.Text.Quoted

namespace OrderStore

inductive Json where
  | null
  | bool (b : Bool)
  | int (n : Int)
  | float (x : Binary64)
  | text (t : Text)
  | list (xs : List Json)
  | object (ms : List (Text × Json))
  deriving Repr, Inhabited

namespace Json

def escapeChar (c : Char) : List Char :=
  if c == '"' then ['\\', '"']
  else if c == '\\' then ['\\', '\\']
  else if c == '\n' then ['\\', 'n']
  else if c == '\r' then ['\\', 'r']
  else if c == '\t' then ['\\', 't']
  else if c == '\x08' then ['\\', 'b']
  else if c == '\x0c' then ['\\', 'f']
  else if c.toNat < 32 then '\\' :: 'u' :: Text.hexPadded 4 c.toNat
  else [c]

def escape : Text.Code → List Text.Code
  | .char c => (escapeChar c).map .char
  | .surrogate i => [.surrogate i]

def textCodes (t : Text) : List Text.Code := .char '"' :: t.codes.flatMap escape ++ [.char '"']

def intChars (n : Int) : List Char := Decimal.signChars (n < 0) ++ Text.natChars n.natAbs

def floatChars : Binary64 → List Char
  | .finite negative mantissa exponent =>
    Decimal.signChars negative ++ Binary64.finiteChars mantissa exponent
  | .infinite negative => Decimal.signChars negative ++ "Infinity".toList
  | .nan _ => "NaN".toList

mutual

def codes : Json → List Text.Code
  | .null => (Text.ofString "null").codes
  | .bool b => (Text.ofString (if b then "true" else "false")).codes
  | .int n => (intChars n).map .char
  | .float x => (floatChars x).map .char
  | .text t => textCodes t
  | .list [] => [.char '[', .char ']']
  | .list (x :: xs) => .char '[' :: (x.codes ++ tailCodes xs)
  | .object [] => [.char '\x7b', .char '\x7d']
  | .object ((name, x) :: ms) =>
    .char '\x7b' :: (textCodes name ++ .char ':' :: .char ' ' :: (x.codes ++ memberTailCodes ms))

def tailCodes : List Json → List Text.Code
  | [] => [.char ']']
  | x :: xs => .char ',' :: .char ' ' :: (x.codes ++ tailCodes xs)

def memberTailCodes : List (Text × Json) → List Text.Code
  | [] => [.char '\x7d']
  | (name, x) :: ms =>
    .char ',' :: .char ' ' ::
      (textCodes name ++ .char ':' :: .char ' ' :: (x.codes ++ memberTailCodes ms))

end

def written (j : Json) : Text := ⟨j.codes⟩

mutual

def depth : Json → Nat
  | .list xs => depths xs + 1
  | .object ms => memberDepths ms + 1
  | _ => 0

def depths : List Json → Nat
  | [] => 0
  | x :: xs => max x.depth (depths xs)

def memberDepths : List (Text × Json) → Nat
  | [] => 0
  | (_, x) :: ms => max x.depth (memberDepths ms)

end

/-- The room on the stack: documents that are deeper are neither written nor read. -/
def maxDepth : Nat := 990

end Json

end OrderStore
