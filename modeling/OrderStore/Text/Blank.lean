import OrderStore.Text

namespace OrderStore.Text

def isBlank (c : Char) : Bool :=
  let n := c.toNat
  (9 ≤ n && n ≤ 13) || (28 ≤ n && n ≤ 32) || n == 0x85 || n == 0xA0 || n == 0x1680 ||
    (0x2000 ≤ n && n ≤ 0x200A) || n == 0x2028 || n == 0x2029 || n == 0x202F || n == 0x205F ||
    n == 0x3000

def trimWith {α : Type} (p : α → Bool) (xs : List α) : List α :=
  ((xs.dropWhile p).reverse.dropWhile p).reverse

def Code.isBlank (c : Code) : Bool := c.char?.any Text.isBlank

def trim (t : Text) : Text := ⟨trimWith Code.isBlank t.codes⟩

def wordsFrom : List Code → List Code → List (List Code)
  | [], [] => []
  | run@(_ :: _), [] => [run.reverse]
  | [], c :: cs => if c.isBlank then wordsFrom [] cs else wordsFrom [c] cs
  | run@(_ :: _), c :: cs => if c.isBlank then run.reverse :: wordsFrom [] cs else wordsFrom (c :: run) cs

def words (t : Text) : List Text := (wordsFrom [] t.codes).map Text.mk

def squeeze (t : Text) : Text := intercalate " " (words t)

def holdsCodes (part : List Code) : List Code → Bool
  | [] => part.isEmpty
  | c :: cs => part.isPrefixOf (c :: cs) || holdsCodes part cs

def holds (part t : Text) : Bool := holdsCodes part.codes t.codes

def padRight (width : Nat) (t : Text) : Text :=
  ⟨t.codes ++ List.replicate (width - t.codes.length) (.char ' ')⟩

theorem trimWith_eq_self {α : Type} {p : α → Bool} {xs : List α}
    (hl : ∀ x, xs.head? = some x → p x = false) (hr : ∀ x, xs.getLast? = some x → p x = false) :
    trimWith p xs = xs := by
  have drop_self : ∀ ys : List α, (∀ y, ys.head? = some y → p y = false) → ys.dropWhile p = ys := by
    intro ys h
    cases ys with
    | nil => rfl
    | cons y ys => simp [h y rfl]
  rw [trimWith, drop_self xs hl, drop_self xs.reverse (by simpa using hr), List.reverse_reverse]

end OrderStore.Text
