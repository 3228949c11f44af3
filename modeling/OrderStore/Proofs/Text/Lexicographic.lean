import Mathlib.Data.List.Lex
import OrderStore.Proofs.Text.Digits

namespace OrderStore.Text

theorem append_lt_append_iff {as bs xs ys : List Nat} (h : as.length = bs.length) :
    as ++ xs < bs ++ ys ↔ as < bs ∨ as = bs ∧ xs < ys := by
  induction as generalizing bs with
  | nil =>
    obtain rfl : bs = [] := List.eq_nil_of_length_eq_zero h.symm
    simp
  | cons a as ih =>
    cases bs with
    | nil => simp at h
    | cons b bs =>
      simp only [List.cons_append, List.cons_lt_cons_iff, List.cons.injEq, ih (Nat.succ.inj h)]
      tauto

def ranks (cs : List Char) : List Nat := cs.map Char.toNat

@[simp] theorem ranks_append (cs ds : List Char) : ranks (cs ++ ds) = ranks cs ++ ranks ds := List.map_append

@[simp] theorem ranks_cons (c : Char) (cs : List Char) : ranks (c :: cs) = c.toNat :: ranks cs := rfl

@[simp] theorem length_ranks (cs : List Char) : (ranks cs).length = cs.length := List.length_map _

theorem ranks_padded (width n : Nat) :
    ranks (padded (width + 1) n) = ranks (padded width (n / 10)) ++ [48 + n % 10] := by
  have hdigit : ∀ d < 10, (digitChar d).toNat = 48 + d := by decide
  rw [padded, ranks_append, ← hdigit (n % 10) (Nat.mod_lt n (by decide))]
  rfl

theorem ranks_padded_lt_iff {width m n : Nat} (hm : m < 10 ^ width) (hn : n < 10 ^ width) :
    (ranks (padded width m) < ranks (padded width n) ↔ m < n) ∧
      (ranks (padded width m) = ranks (padded width n) ↔ m = n) := by
  induction width generalizing m n with
  | zero =>
    have hm : m = 0 := by omega
    have hn : n = 0 := by omega
    subst hm hn
    simp
  | succ width ih =>
    rw [Nat.pow_succ] at hm hn
    obtain ⟨hlt, heq⟩ := ih (m := m / 10) (n := n / 10) (by omega) (by omega)
    have hlength : (ranks (padded width (m / 10))).length = (ranks (padded width (n / 10))).length := by
      simp only [length_ranks, padded_length]
    rw [ranks_padded, ranks_padded, append_lt_append_iff hlength,
      List.append_eq_append_iff_of_size_eq_left hlength, hlt, heq]
    simp only [List.cons_lt_cons_iff, List.not_lt_nil, and_false, or_false, List.cons.injEq, and_true]
    omega

theorem ranks_padded_append_lt_iff {width m n : Nat} (hm : m < 10 ^ width) (hn : n < 10 ^ width) (c : Char)
    (cs ds : List Char) :
    ranks (padded width m ++ c :: cs) < ranks (padded width n ++ c :: ds) ↔
      m < n ∨ m = n ∧ ranks cs < ranks ds := by
  have hlength : (ranks (padded width m)).length = (ranks (padded width n)).length := by
    simp only [length_ranks, padded_length]
  obtain ⟨hlt, heq⟩ := ranks_padded_lt_iff hm hn
  simp [append_lt_append_iff hlength, hlt, heq]

theorem ofChars_lt_iff (cs ds : List Char) : ofChars cs < ofChars ds ↔ ranks cs < ranks ds := by
  have hranks (cs : List Char) : (ofChars cs).codes.map Code.toNat = ranks cs := by
    simp [ranks, Code.toNat]
  rw [← hranks, ← hranks]
  rfl

end OrderStore.Text
