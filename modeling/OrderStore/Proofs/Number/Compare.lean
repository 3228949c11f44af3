import Mathlib.Algebra.Order.Field.Power
import Mathlib.Data.Rat.Cast.Order
import Mathlib.Order.WithBot
import Mathlib.Tactic.Linarith
import Mathlib.Tactic.Ring
import OrderStore.Proofs.Value.Number
/-!
Decimals that are no NaN have values, rational numbers or infinite ones, and are compared by them. So they are
ordered in a line.
-/

namespace OrderStore

namespace Text

theorem ten_pow_length_digits_le {n : Nat} (hn : 0 < n) : 10 ^ (digits n).length ≤ 10 * n := by
  by_cases h : n < 10
  · simp [digits_of_lt h]
    omega
  · have hstep := ten_pow_length_digits_le (n := n / 10) (by omega)
    rw [digits_of_le (by omega), List.length_append, List.length_singleton, Nat.pow_succ]
    omega
termination_by n

end Text

namespace Decimal

open Text

variable {c c' m m' k : Nat} {e e' f f' : Int}

def magnitude (c : Nat) (e : Int) : ℚ := c * 10 ^ e

theorem magnitude_nonneg (c : Nat) (e : Int) : 0 ≤ magnitude c e := by
  apply mul_nonneg
  · exact Nat.cast_nonneg c
  · exact zpow_nonneg (by norm_num) e

@[simp] theorem magnitude_zero (e : Int) : magnitude 0 e = 0 := by simp [magnitude]

theorem magnitude_eq_zero_iff : magnitude c e = 0 ↔ c = 0 := by
  have hpow : (10 : ℚ) ^ e ≠ 0 := zpow_ne_zero e (by norm_num)
  simp [magnitude, hpow]

theorem magnitude_lt_iff_of_same : magnitude c e < magnitude c' e ↔ c < c' := by
  have hpow : (0 : ℚ) < 10 ^ e := zpow_pos (by norm_num) e
  rw [magnitude, magnitude, mul_lt_mul_iff_left₀ hpow, Nat.cast_lt]

theorem magnitude_inj_of_same (h : magnitude c e = magnitude c' e) : c = c' := by
  apply Nat.le_antisymm <;> apply Nat.le_of_not_lt <;> intro hlt
  · exact absurd h.symm (magnitude_lt_iff_of_same.mpr hlt).ne
  · exact absurd h (magnitude_lt_iff_of_same.mpr hlt).ne

theorem magnitude_mul_pow (c k : Nat) (e : Int) : magnitude (c * 10 ^ k) e = magnitude c (e + k) := by
  have hten : (10 : ℚ) ≠ 0 := by norm_num
  simp only [magnitude, Nat.cast_mul, Nat.cast_pow, Nat.cast_ofNat, zpow_add₀ hten, zpow_natCast]
  ring

theorem ten_pow_eq_magnitude (k : Nat) (e : Int) : (10 : ℚ) ^ (e + k) = magnitude (10 ^ k) e := by
  rw [← Nat.one_mul (10 ^ k), magnitude_mul_pow, magnitude, Nat.cast_one, one_mul]

theorem magnitude_lt_pow (c : Nat) (e : Int) : magnitude c e < 10 ^ (e + (digits c).length) := by
  rw [ten_pow_eq_magnitude, magnitude_lt_iff_of_same]
  exact lt_ten_pow_length_digits c

theorem pow_le_magnitude (hc : c ≠ 0) : (10 : ℚ) ^ (e + (digits c).length) ≤ 10 * magnitude c e := by
  have hten : 10 * magnitude c e = magnitude (10 * c) e := by
    simp only [magnitude, Nat.cast_mul, Nat.cast_ofNat, mul_assoc]
  rw [ten_pow_eq_magnitude, hten, ← not_lt, magnitude_lt_iff_of_same, Nat.not_lt]
  exact ten_pow_length_digits_le (Nat.pos_of_ne_zero hc)

theorem magnitude_lt_of_top (hc' : c' ≠ 0) (h : e + (digits c).length < e' + (digits c').length) :
    magnitude c e < magnitude c' e' := by
  have hten : (10 : ℚ) ≠ 0 := by norm_num
  have hpow : (10 : ℚ) ^ (e + (digits c).length + 1) ≤ 10 ^ (e' + (digits c').length) :=
    zpow_le_zpow_right₀ (by norm_num) h
  have hlt := magnitude_lt_pow c e
  have hle := pow_le_magnitude (e := e') hc'
  rw [zpow_add₀ hten, zpow_one] at hpow
  linarith

theorem magnitudeLess_iff : magnitudeLess c e c' e' = true ↔ magnitude c e < magnitude c' e' := by
  unfold magnitudeLess
  by_cases hc' : c' = 0
  · simp [hc', magnitude_nonneg c e]
  by_cases hc : c = 0
  · have hpos : 0 < magnitude c' e' :=
      lt_of_le_of_ne (magnitude_nonneg c' e') (Ne.symm (mt magnitude_eq_zero_iff.mp hc'))
    simp [hc, hc', hpos]
  rw [if_neg hc', if_neg hc]
  rcases lt_trichotomy (e + (digits c).length : Int) (e' + (digits c').length) with h | h | h
  · have hlt := magnitude_lt_of_top hc' h
    simp [h.ne, h, hlt]
  · have hscale : magnitude (c * 10 ^ (e - min e e').toNat) (min e e') = magnitude c e := by
      rw [magnitude_mul_pow]
      congr 1
      omega
    have hscale' : magnitude (c' * 10 ^ (e' - min e e').toNat) (min e e') = magnitude c' e' := by
      rw [magnitude_mul_pow]
      congr 1
      omega
    simp only [h, if_true, decide_eq_true_eq]
    rw [← hscale, ← hscale', magnitude_lt_iff_of_same]
    rfl
  · have hlt := magnitude_lt_of_top hc h
    simp [h.ne', h.le.not_gt, hlt.le]

theorem magnitude_inj (hm : m % 10 ≠ 0) (hm' : m' % 10 ≠ 0) (h : magnitude m f = magnitude m' f') :
    m = m' ∧ f = f' := by
  wlog hle : f ≤ f' generalizing m m' f f'
  · obtain ⟨hmm, hff⟩ := this hm' hm h.symm (by omega)
    exact ⟨hmm.symm, hff.symm⟩
  obtain ⟨k, rfl⟩ := Int.le.dest hle
  rw [← magnitude_mul_pow] at h
  have hmm := magnitude_inj_of_same h
  cases k with
  | zero => exact ⟨by simpa using hmm, by simp⟩
  | succ k =>
    rw [Nat.pow_succ, ← Nat.mul_assoc] at hmm
    omega

theorem stripZeros_mod_ten {fuel : Nat} (hc : c ≠ 0) (h : c < 2 ^ (fuel + 1)) :
    (stripZeros fuel c e).1 % 10 ≠ 0 := by
  induction fuel generalizing c e with
  | zero =>
    simp only [stripZeros]
    omega
  | succ fuel ih =>
    rw [stripZeros]
    split
    · rw [Nat.pow_succ] at h
      exact ih (by omega) (by omega)
    · assumption

theorem exists_normal (hc : c ≠ 0) (e : Int) :
    ∃ m f, normal c e = (m, f) ∧ m % 10 ≠ 0 ∧ magnitude m f = magnitude c e := by
  rw [normal, if_neg hc]
  obtain ⟨k, hf, hm⟩ := stripZeros_eq (Prod.mk.eta (p := stripZeros c.log2 c e)).symm
  refine ⟨_, _, rfl, stripZeros_mod_ten hc Nat.lt_log2_self, ?_⟩
  rw [hf, ← magnitude_mul_pow, ← hm]

theorem normal_eq_iff : normal c e = normal c' e' ↔ magnitude c e = magnitude c' e' := by
  have hzero (c : Nat) (e : Int) : (0, 0) = normal c e ↔ 0 = magnitude c e := by
    rw [eq_comm (a := (0 : ℚ)), magnitude_eq_zero_iff]
    constructor
    · intro h
      exact normal_fst_eq_zero (congrArg Prod.fst h.symm)
    · intro h
      rw [normal, if_pos h]
  by_cases hc : c = 0
  · rw [hc, magnitude_zero, ← hzero]
    rfl
  by_cases hc' : c' = 0
  · rw [hc', magnitude_zero, eq_comm, eq_comm (b := (0 : ℚ)), ← hzero]
    rfl
  obtain ⟨m, f, hn, hm, hmagnitude⟩ := exists_normal hc e
  obtain ⟨m', f', hn', hm', hmagnitude'⟩ := exists_normal hc' e'
  rw [hn, hn', ← hmagnitude, ← hmagnitude', Prod.mk.injEq]
  constructor
  · rintro ⟨rfl, rfl⟩
    rfl
  · exact magnitude_inj hm hm'

def signed (negative : Bool) (c : Nat) (e : Int) : ℚ := if negative then -magnitude c e else magnitude c e

def value? : Decimal → Option (WithBot (WithTop ℚ))
  | .finite negative coefficient exponent => some (WithBot.some (WithTop.some (signed negative coefficient exponent)))
  | .infinite negative => some (if negative then ⊥ else ⊤)
  | .nan .. => none

theorem value?_eq_none_iff {d : Decimal} : d.value? = none ↔ d.isNaN = true := by
  cases d <;> simp [value?, isNaN]

theorem signed_eq_iff {s s' : Bool} :
    signed s c e = signed s' c' e' ↔ (c = 0 ∨ s = s') ∧ magnitude c e = magnitude c' e' := by
  have hx := magnitude_nonneg c e
  have hy := magnitude_nonneg c' e'
  rw [← magnitude_eq_zero_iff (c := c) (e := e)]
  cases s <;> cases s' <;> simp only [signed, Bool.false_eq_true, if_true, if_false, or_true, true_and, neg_inj]
  · constructor
    · intro h
      refine ⟨.inl ?_, ?_⟩ <;> linarith
    · rintro ⟨h | h, hxy⟩
      · linarith
      · cases h
  · constructor
    · intro h
      refine ⟨.inl ?_, ?_⟩ <;> linarith
    · rintro ⟨h | h, hxy⟩
      · linarith
      · cases h

theorem signed_eq_neg {s : Bool} (h : (s && c != 0) = true) :
    signed s c e = -magnitude c e ∧ 0 < magnitude c e := by
  rw [Bool.and_eq_true, bne_iff_ne] at h
  refine ⟨if_pos h.1, lt_of_le_of_ne (magnitude_nonneg c e) (Ne.symm ?_)⟩
  exact mt magnitude_eq_zero_iff.mp h.2

theorem signed_eq_self {s : Bool} (h : (s && c != 0) = false) : signed s c e = magnitude c e := by
  cases s with
  | false => rfl
  | true =>
    have hc : c = 0 := by simpa using h
    simp [signed, hc]

theorem less_finite_iff {s s' : Bool} :
    less (.finite s c e) (.finite s' c' e') = true ↔ signed s c e < signed s' c' e' := by
  have hx := magnitude_nonneg c e
  have hy := magnitude_nonneg c' e'
  rw [less]
  cases hs : s && c != 0 <;> cases hs' : s' && c' != 0 <;> simp only
  · rw [signed_eq_self hs, signed_eq_self hs', magnitudeLess_iff]
  · obtain ⟨hneg', hpos'⟩ := signed_eq_neg (e := e') hs'
    have hle : ¬ magnitude c e < -magnitude c' e' := by linarith
    simp [signed_eq_self hs, hneg', hle]
  · obtain ⟨hneg, hpos⟩ := signed_eq_neg (e := e) hs
    have hlt : -magnitude c e < magnitude c' e' := by linarith
    simp [signed_eq_self hs', hneg, hlt]
  · rw [(signed_eq_neg hs).1, (signed_eq_neg hs').1, magnitudeLess_iff, neg_lt_neg_iff]

variable {a b : Decimal} {x y : WithBot (WithTop ℚ)}

theorem equal_iff (ha : a.value? = some x) (hb : b.value? = some y) :
    a.equal b = true ↔ x = y := by
  cases a with
  | nan => cases ha
  | finite s c e =>
    cases b with
    | nan => cases hb
    | finite s' c' e' =>
      cases ha
      cases hb
      simp only [equal, Bool.and_eq_true, Bool.or_eq_true, beq_iff_eq, normal_eq_iff, ← signed_eq_iff,
        WithBot.coe_inj, WithTop.coe_inj]
    | infinite s' =>
      cases ha
      cases hb
      cases s' <;> simp [equal]
  | infinite s =>
    cases b with
    | nan => cases hb
    | finite s' c' e' =>
      cases ha
      cases hb
      cases s <;> simp [equal]
    | infinite s' =>
      cases ha
      cases hb
      cases s <;> cases s' <;> simp [equal]

theorem less_iff (ha : a.value? = some x) (hb : b.value? = some y) : a.less b = true ↔ x < y := by
  cases a with
  | nan => cases ha
  | finite s c e =>
    cases b with
    | nan => cases hb
    | finite s' c' e' =>
      cases ha
      cases hb
      rw [less_finite_iff, WithBot.coe_lt_coe, WithTop.coe_lt_coe]
    | infinite s' =>
      cases ha
      cases hb
      have htop : WithBot.some (WithTop.some (signed s c e)) < ⊤ := WithBot.coe_lt_coe.mpr (WithTop.coe_lt_top _)
      cases s' <;> simp [less, htop]
  | infinite s =>
    cases b with
    | nan => cases hb
    | finite s' c' e' =>
      cases ha
      cases hb
      cases s <;> simp [less]
    | infinite s' =>
      cases ha
      cases hb
      cases s <;> cases s' <;> simp [less]

def Comparable (a b : Decimal) : Prop :=
  ∃ x y : WithBot (WithTop ℚ), a.value? = some x ∧ b.value? = some y ∧
    Value.equal (.decimal a) (.decimal b) = .ok (decide (x = y)) ∧
    Value.less (.decimal a) (.decimal b) = .ok (decide (x < y))

theorem exists_value {d : Decimal} (hd : d.isNaN = false) : ∃ x, d.value? = some x := by
  cases hx : d.value? with
  | none =>
    rw [value?_eq_none_iff.mp hx] at hd
    cases hd
  | some x => exact ⟨x, rfl⟩

theorem comparable_of_numbers (ha : a.isNaN = false) (hb : b.isNaN = false) : Comparable a b := by
  obtain ⟨x, hx⟩ := exists_value ha
  obtain ⟨y, hy⟩ := exists_value hb
  have hequal : a.equal b = decide (x = y) := by
    rw [Bool.eq_iff_iff, decide_eq_true_eq]
    exact equal_iff hx hy
  have hless : a.less b = decide (x < y) := by
    rw [Bool.eq_iff_iff, decide_eq_true_eq]
    exact less_iff hx hy
  refine ⟨x, y, hx, hy, ?_, ?_⟩
  · simp [Value.equal, Value.numberEqual, Value.number?, isSignaling_of_isNaN ha, isSignaling_of_isNaN hb, hequal]
  · simp [Value.less, Value.numberLess, Value.number?, ha, hb, hless]

end Decimal

namespace Value

theorem equal_decimal_self_iff (d : Decimal) : equal (.decimal d) (.decimal d) = .ok true ↔ d.isNaN = false := by
  rw [equal_number_iff rfl]
  constructor
  · rintro ⟨d', -, h⟩
    cases d with
    | nan => cases h
    | _ => rfl
  · intro hd
    exact ⟨d, rfl, Decimal.equal_self hd⟩

theorem less_decimal_eq_error_iff (a b : Decimal) :
    less (.decimal a) (.decimal b) = .error .nanCompared ↔ a.isNaN = true ∨ b.isNaN = true := by
  cases ha : a.isNaN <;> cases hb : b.isNaN <;> simp [less, numberLess, number?, isDecimal, ha, hb]

end Value

end OrderStore
