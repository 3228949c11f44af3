/-!
Codes of texts: characters, and surrogates without a partner, which are codes of no character. Bytes
and escapes may hold surrogates; two that belong together are one character.
-/

namespace OrderStore.Text

/-- A character or a surrogate. Surrogates are counted from the first one; the first half are high. -/
inductive Code where
  | char (c : Char)
  | surrogate (i : Fin 2048)
  deriving DecidableEq, Repr, Inhabited

def surrogate? (n : Nat) : Option (Fin 2048) :=
  if h : 0xD800 ≤ n ∧ n < 0xE000 then some ⟨n - 0xD800, by omega⟩ else none

namespace Code

def ofNat? (n : Nat) : Option Code :=
  match surrogate? n with
  | some i => some (.surrogate i)
  | none => if n < 0x110000 then some (.char (Char.ofNat n)) else none

def toNat : Code → Nat
  | .char c => c.toNat
  | .surrogate i => 0xD800 + i

def char? : Code → Option Char
  | .char c => some c
  | .surrogate _ => none

theorem surrogate?_toNat (c : Char) : surrogate? c.toNat = none := by
  have h := c.valid
  simp only [UInt32.isValidChar, Nat.isValidChar] at h
  have hn : c.toNat = c.val.toNat := rfl
  rw [surrogate?, dif_neg (by omega)]

end Code

def joinSurrogates (high low : Fin 2048) : Char :=
  Char.ofNat (0x10000 + high * 1024 + (low - 1024))

inductive Piece where
  | code (c : Code)
  | half (i : Fin 2048)
  deriving DecidableEq, Repr, Inhabited

namespace Piece

def ofUnit (n : Nat) : Piece :=
  match surrogate? n with
  | some i => .half i
  | none => .code (.char (Char.ofNat n))

def join : List Piece → List Code
  | [] => []
  | .code c :: ps => c :: join ps
  | [.half i] => [.surrogate i]
  | .half i :: .code c :: ps => .surrogate i :: c :: join ps
  | .half i :: .half j :: ps =>
    if i < 1024 ∧ 1024 ≤ j then .char (joinSurrogates i j) :: join ps
    else .surrogate i :: join (.half j :: ps)

theorem join_map_code (cs : List Code) : join (cs.map .code) = cs := by
  induction cs with
  | nil => rfl
  | cons c cs ih => simp [join, ih]

end Piece

end OrderStore.Text
