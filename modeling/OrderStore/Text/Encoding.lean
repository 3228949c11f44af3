import OrderStore.Text.Code

namespace OrderStore.Text

inductive Encoding where
  | utf8
  | utf16 (bigEndian : Bool)
  | utf32 (bigEndian : Bool)
  deriving DecidableEq, Repr

/-- Without a mark, zero bytes among the first tell the unit of an ASCII document. -/
def guessEncoding (bs : List UInt8) : Encoding :=
  match bs with
  | [a, b] => if a == 0 then .utf16 true else if b == 0 then .utf16 false else .utf8
  | a :: b :: c :: d :: _ =>
    if a == 0 then (if b != 0 then .utf16 true else .utf32 true)
    else if b == 0 then (if c != 0 || d != 0 then .utf16 false else .utf32 false)
    else .utf8
  | _ => .utf8

def detectEncoding (bs : List UInt8) : Encoding × List UInt8 :=
  if [0xFF, 0xFE, 0, 0].isPrefixOf bs then (.utf32 false, bs.drop 4)
  else if [0, 0, 0xFE, 0xFF].isPrefixOf bs then (.utf32 true, bs.drop 4)
  else if [0xFF, 0xFE].isPrefixOf bs then (.utf16 false, bs.drop 2)
  else if [0xFE, 0xFF].isPrefixOf bs then (.utf16 true, bs.drop 2)
  else if [0xEF, 0xBB, 0xBF].isPrefixOf bs then (.utf8, bs.drop 3)
  else (guessEncoding bs, bs)

def continuation? (b : UInt8) : Option Nat :=
  if 0x80 ≤ b && b < 0xC0 then some (b.toNat % 64) else none

def decodeUtf8 : List UInt8 → Option (List Code)
  | [] => some []
  | a :: bs =>
    if a < 0x80 then return .char (Char.ofNat a.toNat) :: (← decodeUtf8 bs)
    else if a < 0xC2 then none
    else if a < 0xE0 then
      match bs with
      | b :: bs => do
        let x ← continuation? b
        return .char (Char.ofNat (a.toNat % 32 * 64 + x)) :: (← decodeUtf8 bs)
      | [] => none
    else if a < 0xF0 then
      match bs with
      | b :: c :: bs => do
        let n := a.toNat % 16 * 4096 + (← continuation? b) * 64 + (← continuation? c)
        if n < 0x800 then none
        return (← Code.ofNat? n) :: (← decodeUtf8 bs)
      | _ => none
    else if a < 0xF5 then
      match bs with
      | b :: c :: d :: bs => do
        let n := a.toNat % 8 * 262144 + (← continuation? b) * 4096 + (← continuation? c) * 64 +
          (← continuation? d)
        if n < 0x10000 then none
        return (← Code.ofNat? n) :: (← decodeUtf8 bs)
      | _ => none
    else none

def units16 (bigEndian : Bool) : List UInt8 → Option (List Nat)
  | [] => some []
  | a :: b :: bs => do
    let unit := if bigEndian then a.toNat * 256 + b.toNat else b.toNat * 256 + a.toNat
    return unit :: (← units16 bigEndian bs)
  | _ => none

def decodeUtf32 (bigEndian : Bool) : List UInt8 → Option (List Code)
  | [] => some []
  | a :: b :: c :: d :: bs => do
    let n := if bigEndian then ((a.toNat * 256 + b.toNat) * 256 + c.toNat) * 256 + d.toNat
      else ((d.toNat * 256 + c.toNat) * 256 + b.toNat) * 256 + a.toNat
    return (← Code.ofNat? n) :: (← decodeUtf32 bigEndian bs)
  | _ => none

def decodeBytes? (bs : List UInt8) : Option (List Code) :=
  match detectEncoding bs with
  | (.utf8, bs) => decodeUtf8 bs
  | (.utf16 bigEndian, bs) => (units16 bigEndian bs).map fun us => Piece.join (us.map Piece.ofUnit)
  | (.utf32 bigEndian, bs) => decodeUtf32 bigEndian bs

end OrderStore.Text
