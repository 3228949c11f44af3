import OrderStore.Proofs.Value.Integer

namespace OrderStore

namespace Decimal

theorem normal_fst_eq_zero {c : Nat} {e : Int} (h : (normal c e).1 = 0) : c = 0 := by
  by_cases hc : c = 0
  · exact hc
  · rw [normal, if_neg hc] at h
    obtain ⟨k, -, hk⟩ := stripZeros_eq (m := 0) (e := (stripZeros c.log2 c e).2) (Prod.ext h rfl)
    rw [hk, Nat.zero_mul]

theorem equal_self {d : Decimal} (h : d.isNaN = false) : d.equal d = true := by
  cases d with
  | finite negative coefficient exponent => simp [equal]
  | infinite negative => simp [equal]
  | nan negative signaling payload tag => cases h

theorem isSignaling_of_isNaN {d : Decimal} (h : d.isNaN = false) : d.isSignaling = false := by
  cases d with
  | nan negative signaling payload tag => cases h
  | _ => rfl

theorem equal_trans {a b c : Decimal} (hab : a.equal b = true) (hbc : b.equal c = true) :
    a.equal c = true := by
  cases a with
  | nan => cases hab
  | infinite s =>
    cases b with
    | infinite s' =>
      rw [beq_iff_eq.mp hab]
      exact hbc
    | _ => cases hab
  | finite s m e =>
    cases b with
    | finite s' m' e' =>
      cases c with
      | finite s'' m'' e'' =>
        simp only [equal, Bool.and_eq_true, Bool.or_eq_true, beq_iff_eq] at hab hbc ⊢
        refine ⟨?_, hab.2.trans hbc.2⟩
        rcases hbc.1 with hm' | hs'
        · left
          apply normal_fst_eq_zero (e := e)
          rw [hab.2, hm']
          rfl
        · rw [← hs']
          exact hab.1
      | _ => cases hbc
    | _ => cases hab

theorem isSignaling_of_equal {a b : Decimal} (h : a.equal b = true) :
    a.isSignaling = false ∧ b.isSignaling = false := by
  cases a with
  | nan => cases h
  | _ =>
    cases b with
    | nan => cases h
    | _ => exact ⟨rfl, rfl⟩

theorem isNaN_of_equal {a b : Decimal} (h : a.equal b = true) : b.isNaN = false := by
  cases b with
  | nan => cases a <;> cases h
  | _ => rfl

end Decimal

namespace Value

variable {v w : Value} {d : Decimal}

theorem equal_of_number (hv : v.number? = some d) (w : Value) : equal v w = numberEqual v w := by
  cases v with
  | bool | int | float | decimal => simp [equal]
  | _ => cases hv

theorem equal_number_iff (hv : v.number? = some d) :
    equal v w = .ok true ↔ ∃ d', w.number? = some d' ∧ d.equal d' = true := by
  rw [equal_of_number hv, numberEqual, hv]
  cases hw : w.number? with
  | none => simp
  | some d' =>
    simp only [Option.some.injEq, exists_eq_left']
    constructor
    · intro h
      split at h
      · cases h
      · exact Except.ok.inj h
    · intro h
      obtain ⟨hd, hd'⟩ := Decimal.isSignaling_of_equal h
      rw [hd, hd', h]
      rfl

theorem equal_number_trans {u : Value} (hu : u.number? = some d) (huv : equal u v = .ok true)
    (hvw : equal v w = .ok true) : equal u w = .ok true := by
  obtain ⟨d', hv, hd⟩ := (equal_number_iff hu).mp huv
  obtain ⟨d'', hw, hd'⟩ := (equal_number_iff hv).mp hvw
  exact (equal_number_iff hu).mpr ⟨d'', hw, Decimal.equal_trans hd hd'⟩

end Value

end OrderStore
