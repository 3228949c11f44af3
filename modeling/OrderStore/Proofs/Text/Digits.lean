import Mathlib.Algebra.Group.Nat.Defs
import OrderStore.Number.Decimal

namespace OrderStore.Text

theorem digitsWithin_eq {fuel fuel' n : Nat} (h : n ≤ fuel) (h' : n ≤ fuel') :
    digitsWithin fuel n = digitsWithin fuel' n := by
  induction fuel generalizing fuel' n with
  | zero =>
    obtain rfl : n = 0 := by omega
    cases fuel' <;> rfl
  | succ fuel ih =>
    cases fuel' with
    | zero =>
      obtain rfl : n = 0 := by omega
      rfl
    | succ fuel' =>
      simp only [digitsWithin]
      split
      · rfl
      · rw [ih (by omega) (by omega : n / 10 ≤ fuel')]

theorem digits_of_lt {n : Nat} (h : n < 10) : digits n = [n] := by
  cases n with
  | zero => rfl
  | succ n =>
    rw [digits, digitsWithin]
    exact if_pos h

theorem digits_of_le {n : Nat} (h : 10 ≤ n) : digits n = digits (n / 10) ++ [n % 10] := by
  cases n with
  | zero => omega
  | succ n =>
    rw [digits, digitsWithin, if_neg (by omega), digits]
    rw [digitsWithin_eq (by omega) (Nat.le_refl ((n + 1) / 10))]

theorem head?_digits {n : Nat} (h : 0 < n) : ∃ d ds, digits n = d :: ds ∧ 0 < d := by
  by_cases hn : n < 10
  · exact ⟨n, [], digits_of_lt hn, h⟩
  · obtain ⟨d, ds, hd, hpos⟩ := head?_digits (n := n / 10) (by omega)
    refine ⟨d, ds ++ [n % 10], ?_, hpos⟩
    rw [digits_of_le (by omega), hd]
    rfl
termination_by n

theorem natChars_injective {m n : Nat} (h : natChars m = natChars n) : m = n := by
  have hm := readNat?_natChars m
  rw [h, readNat?_natChars] at hm
  exact (Option.some.inj hm).symm

theorem natChars_ne_nil (n : Nat) : natChars n ≠ [] := by
  intro h
  exact digits_ne_nil n (List.map_eq_nil_iff.mp h)

theorem isDigit_digitChar : ∀ d < 10, isDigit (digitChar d) = true := by decide

theorem digitChar_ne_zero : ∀ d < 10, 0 < d → digitChar d ≠ '0' := by decide

theorem toNat_digitChar : ∀ d < 10, (digitChar d).toNat - 48 = d := by decide

theorem ne_of_isDigit {c x : Char} (hc : isDigit c = true) (hx : isDigit x = false) : x ≠ c := by
  rintro rfl
  rw [hc] at hx
  cases hx

theorem toNat_of_isDigit {c : Char} (hc : isDigit c = true) : 48 ≤ c.toNat ∧ c.toNat ≤ 57 := by
  rw [isDigit, Bool.and_eq_true, decide_eq_true_eq, decide_eq_true_eq] at hc
  exact hc

theorem isDigit_of_mem_natChars {n : Nat} {c : Char} (h : c ∈ natChars n) : isDigit c = true := by
  obtain ⟨d, hd, rfl⟩ := List.mem_map.mp h
  exact isDigit_digitChar d (lt_ten_of_mem_digits hd)

theorem map_toNat_map_digitChar {ds : List Nat} (h : ∀ d ∈ ds, d < 10) :
    (ds.map digitChar).map (fun c => c.toNat - 48) = ds := by
  induction ds with
  | nil => rfl
  | cons d ds ih =>
    rw [List.map_cons, List.map_cons, toNat_digitChar d (h d List.mem_cons_self)]
    rw [ih fun x hx => h x (List.mem_cons_of_mem _ hx)]

theorem digitsValue_natChars (n : Nat) : Decimal.digitsValue (natChars n) = n := by
  rw [Decimal.digitsValue, natChars, map_toNat_map_digitChar fun d => lt_ten_of_mem_digits]
  exact ofDigits_digits n

theorem readNat?_eq_none {cs : List Char} {c : Char} (hc : c ∈ cs) (hdigit : isDigit c = false) :
    readNat? cs = none := by
  have hmap : cs.mapM asciiDigit? = none := by
    induction cs with
    | nil => cases hc
    | cons x xs ih =>
      rw [List.mapM_cons]
      rcases List.mem_cons.mp hc with rfl | hc
      · rw [asciiDigit?, hdigit]
        rfl
      · rw [ih hc]
        cases asciiDigit? x <;> rfl
  rw [readNat?, hmap]
  split <;> rfl

theorem padded_length (width n : Nat) : (padded width n).length = width := by
  induction width generalizing n with
  | zero => rfl
  | succ width ih => rw [padded, List.length_append, ih, List.length_singleton]

theorem isDigit_of_mem_padded {width n : Nat} {c : Char} (h : c ∈ padded width n) :
    isDigit c = true := by
  induction width generalizing n with
  | zero => cases h
  | succ width ih =>
    rw [padded, List.mem_append, List.mem_singleton] at h
    rcases h with h | rfl
    · exact ih h
    · exact isDigit_digitChar _ (Nat.mod_lt _ (by decide))

theorem natChars_eq_padded {width n : Nat} (hl : 10 ^ width ≤ n) (hu : n < 10 ^ (width + 1)) :
    natChars n = padded (width + 1) n := by
  induction width generalizing n with
  | zero =>
    have hn : n < 10 := by omega
    rw [natChars, digits_of_lt hn, padded, padded, Nat.mod_eq_of_lt hn]
    rfl
  | succ width ih =>
    rw [Nat.pow_succ] at hl hu
    have hstep := ih (n := n / 10) (by omega) (by omega)
    have hten : 10 ≤ n := by
      have := Nat.one_le_pow width 10 (by decide)
      omega
    rw [natChars, digits_of_le hten, List.map_append]
    rw [padded, ← hstep]
    rfl

theorem natChars_length_le {width n : Nat} (h : n < 10 ^ (width + 1)) : (natChars n).length ≤ width + 1 := by
  induction width generalizing n with
  | zero =>
    rw [natChars, digits_of_lt (by omega)]
    exact Nat.le_refl 1
  | succ width ih =>
    by_cases hn : n < 10
    · rw [natChars, digits_of_lt hn]
      exact Nat.le_add_left 1 _
    · rw [Nat.pow_succ] at h
      have hstep := ih (n := n / 10) (by omega)
      rw [natChars, List.length_map] at hstep ⊢
      rw [digits_of_le (by omega), List.length_append, List.length_singleton]
      omega

theorem lt_ten_pow_length_digits (n : Nat) : n < 10 ^ (digits n).length := by
  by_cases h : n < 10
  · simpa [digits_of_lt h] using h
  · have hstep := lt_ten_pow_length_digits (n / 10)
    rw [digits_of_le (by omega), List.length_append, List.length_singleton, Nat.pow_succ]
    omega
termination_by n

theorem length_digits_le_iff {k n : Nat} (hk : 0 < k) : (digits n).length ≤ k ↔ n < 10 ^ k := by
  obtain ⟨width, rfl⟩ : ∃ width, k = width + 1 := ⟨k - 1, by omega⟩
  constructor
  · intro h
    exact Nat.lt_of_lt_of_le (lt_ten_pow_length_digits n) (Nat.pow_le_pow_right (by decide) h)
  · intro h
    have hlength := natChars_length_le h
    rwa [natChars, List.length_map] at hlength

theorem padded_eq_map (width n : Nat) :
    ∃ ds, padded width n = ds.map digitChar ∧ (∀ d ∈ ds, d < 10) ∧ ofDigits ds = n % 10 ^ width := by
  induction width generalizing n with
  | zero => exact ⟨[], rfl, by simp, by simp [ofDigits, Nat.mod_one]⟩
  | succ width ih =>
    obtain ⟨ds, hds, hlt, hv⟩ := ih (n / 10)
    refine ⟨ds ++ [n % 10], ?_, ?_, ?_⟩
    · rw [padded, hds, List.map_append]
      rfl
    · intro d hd
      rw [List.mem_append, List.mem_singleton] at hd
      rcases hd with hd | rfl
      · exact hlt d hd
      · exact Nat.mod_lt n (by decide)
    · rw [ofDigits_append_singleton, hv, Nat.pow_succ', Nat.mod_mul]
      omega

theorem readNat?_padded (width : Nat) {n : Nat} (h : n < 10 ^ (width + 1)) :
    readNat? (padded (width + 1) n) = some n := by
  obtain ⟨ds, hds, hlt, hv⟩ := padded_eq_map (width + 1) n
  have hne : (padded (width + 1) n).isEmpty = false := by
    simp [padded]
  rw [readNat?, hne, hds, mapM_asciiDigit?_map_digitChar hlt, Option.map_some, hv, Nat.mod_eq_of_lt h]
  rfl

end OrderStore.Text
