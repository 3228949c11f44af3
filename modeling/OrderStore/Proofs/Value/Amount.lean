import OrderStore.Proofs.Number.NaNText
import OrderStore.Proofs.Text.Trim
import OrderStore.Value.Coerce

namespace OrderStore

open Text

namespace Decimal

theorem readChars?_between {before after : List Char} (cs : List Char)
    (hbefore : ∀ c ∈ before, isBlank c = true) (hafter : ∀ c ∈ after, isBlank c = true) :
    readChars? (before ++ cs ++ after) = readChars? cs := by
  simp only [readChars?, readSigned?, trimWith_between cs hbefore hafter]

theorem chars_ofInt (n : Int) : (ofInt n).chars = (intText n).toList := by
  have hplain (s : Bool) (c : Nat) : chars (.finite s c 0) = signChars s ++ natChars c := by
    have hlength : 0 < (natChars c).length := List.length_pos_iff.mpr (natChars_ne_nil c)
    have hadjusted : (0 : Int) ≤ 0 ∧ -6 ≤ (0 : Int) + (natChars c).length - 1 := by omega
    simp only [chars, if_pos hadjusted, pointed, Int.natAbs_zero, if_true]
  rw [ofInt, hplain]
  cases n with
  | ofNat n => simp [signChars, intText, natText]
  | negSucc n =>
    have hsign : Int.negSucc n < 0 := Int.negSucc_lt_zero n
    simp [hsign, signChars, intText, natText]

end Decimal

namespace Text

theorem isBlank_of_mem_chars {t : Text} (ht : t.IsBlank) {c : Char} (hc : c ∈ t.chars) : isBlank c = true := by
  obtain ⟨code, hcode, rfl⟩ := List.mem_map.mp hc
  have hblank := ht code hcode
  cases code with
  | char c => exact hblank
  | surrogate => cases hblank

theorem chars_append (s t : Text) : (s ++ t).chars = s.chars ++ t.chars := by
  simp [chars]

end Text

namespace Value

variable {d : Decimal} {v : Value}

theorem toAmount_of_read {t : Text} (h : Decimal.readChars? t.chars = if d.InRange then some d else none) :
    toAmount (.text t) = if d.InRange then .ok d else .error (.notAmount (.text t)) := by
  by_cases hd : d.InRange
  · rw [if_pos hd] at h ⊢
    simp only [toAmount, shown_text, Except.bind, h]
  · rw [if_neg hd] at h ⊢
    simp only [toAmount, shown_text, Except.bind, h]

theorem toAmount_text (hd : d.isNaN = false) :
    toAmount (.text d.text) = if d.InRange then .ok d else .error (.notAmount (.text d.text)) := by
  apply toAmount_of_read
  rw [chars_ofString, Decimal.text, String.toList_ofList, Decimal.readChars?_chars hd]

theorem toAmount_between (hd : d.InRange) (hnumber : d.isNaN = false) {before after : Text}
    (hbefore : before.IsBlank) (hafter : after.IsBlank) :
    toAmount (.text (before ++ d.text ++ after)) = .ok d := by
  have hchars : (before ++ d.text ++ after).chars = before.chars ++ d.chars ++ after.chars := by
    simp only [Text.chars_append, chars_ofString, Decimal.text, String.toList_ofList]
  rw [toAmount_of_read, if_pos hd]
  rw [hchars, Decimal.readChars?_between d.chars (fun c => isBlank_of_mem_chars hbefore)
    (fun c => isBlank_of_mem_chars hafter), Decimal.readChars?_chars hnumber]

theorem isShown_int (n : Int) : isShown (.int n) = true ↔ n.natAbs < 10 ^ Numeral.maxDigits := by
  rw [isShown, decide_eq_true_iff, length_digits_le_iff (by decide)]

theorem inRange_ofInt {n : Int} (hn : n.natAbs < 10 ^ Numeral.maxDigits) : (Decimal.ofInt n).InRange := by
  have hlength := (length_digits_le_iff (by decide)).mpr hn
  have hmax : (Numeral.maxDigits : Int) ≤ Decimal.maxAdjusted := by decide
  refine ⟨by decide, ?_⟩
  split
  · decide
  · omega

theorem toAmount_int {n : Int} (hn : n.natAbs < 10 ^ Numeral.maxDigits) : toAmount (.int n) = .ok (.ofInt n) := by
  have hshown := shown_of_isShown ((isShown_int n).mpr hn)
  have hchars : (display (.int n)).chars = (Decimal.ofInt n).chars := by
    rw [Decimal.chars_ofInt]
    exact chars_ofString _
  have hread : Decimal.readChars? (display (.int n)).chars = some (.ofInt n) := by
    rw [hchars, Decimal.readChars?_chars (Decimal.ofInt_ne_nan n), if_pos]
    exact inRange_ofInt hn
  simp only [toAmount, hshown, Except.bind, hread]

theorem toAmount_long {n : Int} (hn : 10 ^ Numeral.maxDigits ≤ n.natAbs) :
    toAmount (.int n) = .error .unshownInteger := by
  have hshown : isShown (.int n) = false := by
    rw [← Bool.not_eq_true, isShown_int]
    exact not_lt.mpr hn
  simp only [toAmount, shown_of_not_isShown hshown, Except.bind]

/-- Signs, coefficients and exponents survive: of every number that is a decimal, from its text, and of
every integer that has a text. -/
theorem amounts_read_back :
    (∀ d : Decimal, d.InRange → d.isNaN = false → ∀ before after : Text, before.IsBlank → after.IsBlank →
      toAmount (.text (before ++ d.text ++ after)) = .ok d) ∧
    ∀ n : Int, toAmount (.int n) =
      if n.natAbs < 10 ^ Numeral.maxDigits then .ok (.finite (n < 0) n.natAbs 0) else .error .unshownInteger := by
  constructor
  · intro d hd hnumber before after hbefore hafter
    exact toAmount_between hd hnumber hbefore hafter
  · intro n
    split
    case isTrue hn => exact toAmount_int hn
    case isFalse hn => exact toAmount_long (not_lt.mp hn)

theorem amounts_read_back_zero :
    let d : Decimal := .finite true 0 (-9)
    d.InRange ∧ d.text = "-0E-9" ∧ toAmount (.text (" " ++ d.text ++ "\n")) = .ok d ∧
      toAmount (.int (-120)) = .ok (.finite true 120 0) := by
  intro d
  obtain ⟨htext, hint⟩ := amounts_read_back
  have hd : d.InRange := by decide
  have hshort : Int.natAbs (-120) < 10 ^ Numeral.maxDigits :=
    Nat.lt_of_lt_of_le (by decide : 120 < 10 ^ 3) (Nat.pow_le_pow_right (by decide) (by decide))
  refine ⟨hd, by decide, htext d hd rfl " " "\n" (by decide) (by decide), ?_⟩
  rw [hint, if_pos hshort]
  rfl

theorem toAmount_ten_pow_maxDigits :
    toAmount (.int (10 ^ Numeral.maxDigits : Nat)) = .error .unshownInteger :=
  toAmount_long (Int.natAbs_natCast _).ge

def SpellsNaN (v : Value) : Prop := ∃ t, v.shown = .ok t ∧ Decimal.SpellsNaN t.chars

theorem chars_display_decimal (d : Decimal) : (display (.decimal d)).chars = d.chars := by
  change (Text.ofString d.text).chars = d.chars
  rw [chars_ofString, Decimal.text, String.toList_ofList]

theorem spellsNaN_of_shown {t : Text} (h : v.shown = .ok t) : v.SpellsNaN ↔ Decimal.SpellsNaN t.chars := by
  constructor
  · rintro ⟨u, hu, hspelled⟩
    obtain rfl := Except.ok.inj (h.symm.trans hu)
    exact hspelled
  · intro hspelled
    exact ⟨t, h, hspelled⟩

theorem toAmount_cases (v : Value) :
    v.toAmount = .error (.notAmount v) ∨ v.isShown = false ∧ v.toAmount = .error .unshownInteger ∨
      ∃ d, v.toAmount = .ok d ∧ (d.isNaN = true ↔ v.SpellsNaN) := by
  unfold toAmount
  split
  case h_1 d =>
    have hspells := spellsNaN_of_shown (shown_of_isShown (v := .decimal d) rfl)
    rw [hspells, chars_display_decimal]
    exact .inr (.inr ⟨d, rfl, (Decimal.spellsNaN_chars d).symm⟩)
  case h_2 => exact .inl rfl
  case h_3 =>
    cases hshown : v.isShown with
    | false =>
      rw [shown_of_not_isShown hshown]
      exact .inr (.inl ⟨rfl, rfl⟩)
    | true =>
      rw [spellsNaN_of_shown (shown_of_isShown hshown), shown_of_isShown hshown, Except.bind]
      split
      case h_1 d hd => exact .inr (.inr ⟨d, rfl, Decimal.isNaN_iff_of_read hd⟩)
      case h_2 => exact .inl rfl

theorem isNaN_iff_of_toAmount (h : v.toAmount = .ok d) : d.isNaN = true ↔ v.SpellsNaN := by
  rcases v.toAmount_cases with hv | ⟨-, hv⟩ | ⟨d', hv, hnan⟩
  · rw [hv] at h
    cases h
  · rw [hv] at h
    cases h
  · rw [hv] at h
    cases h
    exact hnan

theorem exists_toAmount_of_spellsNaN (h : v.SpellsNaN) : ∃ d, v.toAmount = .ok d := by
  obtain ⟨t, ht, hspelled⟩ := h
  obtain ⟨d, hd, -⟩ := Decimal.spellsNaN_iff.mp hspelled
  unfold toAmount
  split
  case h_1 d => exact ⟨d, rfl⟩
  case h_2 b =>
    have hnone : Decimal.readChars? (display (.bool b)).chars = none := by cases b <;> rfl
    obtain rfl := Except.ok.inj ((shown_of_isShown (v := .bool b) rfl).symm.trans ht)
    rw [hnone] at hd
    cases hd
  case h_3 => exact ⟨d, by rw [ht, Except.bind, hd]⟩

theorem toAmount_number_iff : (∀ d, v.toAmount = .ok d → d.isNaN = false) ↔ ¬ v.SpellsNaN := by
  constructor
  · intro h hspelled
    obtain ⟨d, hd⟩ := exists_toAmount_of_spellsNaN hspelled
    have hnan := (isNaN_iff_of_toAmount hd).mpr hspelled
    rw [h d hd] at hnan
    cases hnan
  · intro hspelled d hd
    exact Bool.eq_false_iff.mpr fun hnan => hspelled ((isNaN_iff_of_toAmount hd).mp hnan)

end Value

end OrderStore
