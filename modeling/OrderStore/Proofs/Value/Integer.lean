import OrderStore.Proofs.Text.Digits
import OrderStore.Value.Comparison
import OrderStore.Value.Display

namespace OrderStore

namespace Decimal

theorem stripZeros_eq {fuel coefficient m : Nat} {exponent e : Int}
    (h : stripZeros fuel coefficient exponent = (m, e)) :
    ∃ k : Nat, e = exponent + k ∧ coefficient = m * 10 ^ k := by
  induction fuel generalizing coefficient exponent with
  | zero =>
    cases h
    exact ⟨0, by simp, by simp⟩
  | succ fuel ih =>
    rw [stripZeros] at h
    split at h
    · rename_i hz
      obtain ⟨k, he, hc⟩ := ih h
      refine ⟨k + 1, by omega, ?_⟩
      rw [Nat.pow_succ, ← Nat.mul_assoc, ← hc]
      omega
    · cases h
      exact ⟨0, by simp, by simp⟩

theorem normal_eq {coefficient m : Nat} {e : Int} (h : normal coefficient 0 = (m, e)) :
    ∃ k : Nat, e = k ∧ coefficient = m * 10 ^ k := by
  unfold normal at h
  split at h
  · cases h
    exact ⟨0, rfl, by omega⟩
  · obtain ⟨k, he, hc⟩ := stripZeros_eq h
    exact ⟨k, by omega, hc⟩

theorem normal_injective {c c' : Nat} (h : normal c 0 = normal c' 0) : c = c' := by
  cases hn : normal c' 0 with
  | mk m e =>
    obtain ⟨k, he, hc⟩ := normal_eq (h.trans hn)
    obtain ⟨k', he', hc'⟩ := normal_eq hn
    have hk : k = k' := by omega
    rw [hc, hc', hk]

theorem equal_ofInt (m n : Int) : equal (ofInt m) (ofInt n) = decide (m = n) := by
  simp only [ofInt, equal]
  by_cases h : m = n
  · subst h
    simp
  · rw [decide_eq_false h, Bool.and_eq_false_iff]
    by_cases hs : decide (m < 0) = decide (n < 0)
    · right
      rw [beq_eq_false_iff_ne]
      intro hn
      have habs := normal_injective hn
      rw [decide_eq_decide] at hs
      omega
    · by_cases hz : m.natAbs = 0
      · right
        rw [beq_eq_false_iff_ne]
        intro hn
        have habs := normal_injective hn
        omega
      · left
        simp [hz, hs]

end Decimal

namespace Value

theorem equal_int (m n : Int) : equal (.int m) (.int n) = .ok (decide (m = n)) := by
  have hequal : equal (.int m) (.int n) = numberEqual (.int m) (.int n) := by simp [equal]
  rw [hequal]
  simp only [numberEqual, number?, Decimal.equal_ofInt]
  rfl

theorem equal_text (s t : Text) : equal (.text s) (.text t) = .ok (decide (s = t)) := by
  rw [equal]
  rfl

end Value

namespace Text

theorem natText_injective {m n : Nat} (h : natText m = natText n) : m = n := by
  apply natChars_injective
  exact String.ofList_injective h

theorem natText_ne_minus (m n : Nat) : natText m ≠ "-" ++ natText n := by
  intro h
  have hchars := congrArg String.toList h
  rw [natText, natText, String.toList_append, String.toList_ofList, String.toList_ofList] at hchars
  have hminus : '-' ∈ natChars m := by
    rw [hchars]
    exact List.mem_append_left _ (by decide)
  have hdigit := isDigit_of_mem_natChars hminus
  exact absurd hdigit (by decide)

theorem intText_injective {m n : Int} (h : intText m = intText n) : m = n := by
  cases m with
  | ofNat m =>
    cases n with
    | ofNat n => exact congrArg Int.ofNat (natText_injective h)
    | negSucc n => exact absurd h (natText_ne_minus m (n + 1))
  | negSucc m =>
    cases n with
    | ofNat n => exact absurd h.symm (natText_ne_minus n (m + 1))
    | negSucc n =>
      have htext : natText (m + 1) = natText (n + 1) := by
        have hchars := congrArg String.toList h
        simp only [intText, String.toList_append] at hchars
        exact String.toList_inj.mp (List.append_cancel_left hchars)
      exact congrArg Int.negSucc (Nat.succ.inj (natText_injective htext))

end Text

theorem Value.display_int {m n : Int} (h : display (.int m) = display (.int n)) : m = n := by
  have htext : Text.ofString (Text.intText m) = Text.ofString (Text.intText n) := h
  exact Text.intText_injective (Text.ofString_inj.mp htext)

theorem Value.display_natCast {m n : Nat} (h : display (.int m) = display (.int n)) : m = n :=
  Int.ofNat.inj (display_int h)

end OrderStore
