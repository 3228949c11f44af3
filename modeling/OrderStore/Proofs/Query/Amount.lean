import Mathlib.Data.List.Induction
import OrderStore.Proofs.Number.Compare
import OrderStore.Proofs.Order.Amount
import OrderStore.Proofs.Query.Calls

namespace OrderStore

def Value.ReadsAs (v : Value) (d : Decimal) : Prop := v.toAmount = .ok d ∧ (d.isNaN = true ↔ v.SpellsNaN)

theorem Value.readsAs_of_toAmount {v : Value} {d : Decimal} (h : v.toAmount = .ok d) : v.ReadsAs d :=
  ⟨h, isNaN_iff_of_toAmount h⟩

def Value.Bounds (v b : Value) : Prop := (v.isNull = true ∧ b = .null) ∨ ∃ d, v.ReadsAs d ∧ b = .decimal d

namespace Refinement

variable {now : WallClock} {q p : Query} {r : Refinement} {c : Criterion} {v b : Value} {ws : Writes}

def amount? : Refinement → Criterion → Option Value
  | .amountBetween lo _, .amountMin => some lo
  | .amountBetween _ hi, .amountMax => some hi
  | .amountMin lo, .amountMin => some lo
  | .amountMax hi, .amountMax => some hi
  | _, _ => none

theorem bounds_of_toAmountBound (h : toAmountBound v = .ok b) : v.Bounds b := by
  rw [toAmountBound] at h
  split at h
  · rename_i hv
    cases h
    exact .inl ⟨hv, rfl⟩
  · obtain ⟨d, hd, rfl⟩ := map_eq_ok.mp h
    exact .inr ⟨d, Value.readsAs_of_toAmount hd, rfl⟩

theorem writeAmount_eq_ok (h : writeAmount c v = .ok ws) : ∃ b, v.Bounds b ∧ ws = [(c, b)] := by
  obtain ⟨b, hb, rfl⟩ := map_eq_ok.mp h
  exact ⟨b, bounds_of_toAmountBound hb, rfl⟩

theorem settleAmount_other (h : settleAmount c q = .ok ws) : ∀ w ∈ ws, w.1 = c := by
  rw [settleAmount] at h
  split at h
  · cases h
    simp
  · obtain ⟨b, -, rfl⟩ := writeAmount_eq_ok h
    simp

theorem refine_amount (h : q.refine now r = .ok p) (hv : r.amount? c = some v) : v.Bounds (p c) := by
  obtain ⟨ws, hws, rfl⟩ := map_eq_ok.mp h
  have hne : Criterion.amountMin ≠ .amountMax := by decide
  cases r with
  | amountBetween lo hi =>
    obtain ⟨as, bs, has, hbs, rfl⟩ := both_eq_ok.mp hws
    obtain ⟨a, ha, rfl⟩ := writeAmount_eq_ok has
    obtain ⟨b, hb, rfl⟩ := writeAmount_eq_ok hbs
    cases c with
    | amountMin =>
      cases hv
      simpa [assign_other _ _ hne] using ha
    | amountMax =>
      cases hv
      simpa using hb
    | _ => cases hv
  | amountMin lo =>
    obtain ⟨as, bs, has, hbs, rfl⟩ := both_eq_ok.mp hws
    obtain ⟨a, ha, rfl⟩ := writeAmount_eq_ok has
    cases c with
    | amountMin =>
      cases hv
      rw [assignAll_append, assignAll_other _ fun w hw => settleAmount_other hbs w hw ▸ hne.symm]
      simpa using ha
    | _ => cases hv
  | amountMax hi =>
    obtain ⟨as, bs, has, hbs, rfl⟩ := both_eq_ok.mp hws
    obtain ⟨b, hb, rfl⟩ := writeAmount_eq_ok hbs
    cases c with
    | amountMax =>
      cases hv
      rw [assignAll_append]
      simpa using hb
    | _ => cases hv
  | _ => cases hv

theorem exists_amount (hc : c ∈ [Criterion.amountMin, .amountMax]) (h : c ∈ r.criteria) :
    ∃ v, r.amount? c = some v := by
  simp only [List.mem_cons, List.not_mem_nil, or_false] at hc
  rcases hc with rfl | rfl <;> cases r <;> first | exact ⟨_, rfl⟩ | simp [criteria] at h

end Refinement

namespace Query

theorem follow_amount (xs : List Call) {c : Criterion} (hc : c ∈ [Criterion.amountMin, .amountMax]) :
    default.follow xs c = .null ∨ ∃ x ∈ xs, ∃ v, x.refinement.amount? c = some v ∧ v.Bounds (default.follow xs c) := by
  induction xs using List.reverseRecOn with
  | nil =>
    left
    simp only [List.mem_cons, List.not_mem_nil, or_false] at hc
    rcases hc with rfl | rfl <;> rfl
  | append_singleton xs x ih =>
    have hxs : (default.follow xs).Built := Built.default.follow xs
    rw [follow_append, follow_cons, follow_nil]
    by_cases hx : x.Sets c
    · rcases hxs.apply_cases x with ⟨hfails, -, -⟩ | ⟨-, hrefine, -⟩
      · exact absurd (hfails.symm.trans hx.1) Bool.false_ne_true
      obtain ⟨v, hv⟩ := Refinement.exists_amount hc hx.2
      exact .inr ⟨x, by simp, v, hv, Refinement.refine_amount hrefine hv⟩
    · rw [hxs.apply_other hx]
      rcases ih with h | ⟨y, hy, h⟩
      · exact .inl h
      · exact .inr ⟨y, List.mem_append_left _ hy, h⟩

end Query

/-- The amount of a value is a number unless the value spells a NaN. Every order has the amount that was given
last, and every bound is one that was given. All numbers can be compared with one another, and nothing with a
NaN. -/
theorem amounts_are_numbers_unless_spelled (v : Value) (a b : Decimal) :
    (v.toAmount = .error (.notAmount v) ∨ v.isShown = false ∧ v.toAmount = .error .unshownInteger ∨
      ∃ d, v.ReadsAs d) ∧
    ((∀ d, v.toAmount = .ok d → d.isNaN = false) ↔ ¬ v.SpellsNaN) ∧
    (∀ o : Order, o.AmountFrom v → v.ReadsAs o.amount) ∧
    (∀ (now : WallClock) (q p : Query) (r : Refinement) (c : Criterion),
      q.refine now r = .ok p → r.amount? c = some v → v.Bounds (p c)) ∧
    (∀ (xs : List Query.Call), ∀ c ∈ [Criterion.amountMin, .amountMax], Query.default.follow xs c = .null ∨
      ∃ x ∈ xs, ∃ w, x.refinement.amount? c = some w ∧ w.Bounds (Query.default.follow xs c)) ∧
    ((Value.decimal a).equal (.decimal a) = .ok true ↔ a.isNaN = false) ∧
    (a.isNaN = false → b.isNaN = false → a.Comparable b) ∧
    ((Value.decimal a).less (.decimal b) = .error .nanCompared ↔ a.isNaN = true ∨ b.isNaN = true) := by
  refine ⟨v.toAmount_cases, Value.toAmount_number_iff, ?_, ?_, ?_, ?_⟩
  · intro o h
    exact Value.readsAs_of_toAmount h.toAmount_eq
  · intro now q p r c h hv
    exact Refinement.refine_amount h hv
  · intro xs c hc
    exact Query.follow_amount xs hc
  · exact ⟨Value.equal_decimal_self_iff a, Decimal.comparable_of_numbers, Value.less_decimal_eq_error_iff a b⟩

theorem amounts_are_numbers_unless_spelled_payload :
    let stamp : Timestamp := ⟨⟨2024, 6, 15, by decide⟩, .midnight⟩
    let given : Value := .text " -sNaN7\n"
    let o : Order := ⟨"A-1", "sale", "open", .nan true true 7 0, .text "CNY", .null, stamp, stamp, [], [], [], .null⟩
    let low : Value := .text "1.50"
    let bound : Decimal := .finite false 150 (-2)
    let call : Query.Call := ⟨.ofTimestamp stamp, .amountMin low⟩
    o.AmountFrom given ∧ given.SpellsNaN ∧
      Query.default.refine call.now call.refinement = .ok (assign .amountMin (.decimal bound) Query.default) ∧
      low.Bounds (.decimal bound) ∧ ¬ low.SpellsNaN ∧
      (∃ x ∈ [call], ∃ v, x.refinement.amount? .amountMin = some v ∧
        v.Bounds (Query.default.follow [call] .amountMin)) ∧ bound.Comparable .zero := by
  intro stamp given o low bound call
  obtain ⟨-, -, horders, -⟩ := amounts_are_numbers_unless_spelled given bound .zero
  obtain ⟨-, hlownumber, -, hbounds, hbuilt, -, hcompare, -⟩ := amounts_are_numbers_unless_spelled low bound .zero
  have hmake : Order.make (.ofTimestamp stamp) [("order_no", .text "A-1"), ("type", .text "sale"),
    ("status", .text "open"), ("amount", given)] = .ok o := rfl
  have hfrom : o.AmountFrom given := .make hmake
  have hrefine : Query.default.refine call.now call.refinement =
    .ok (assign .amountMin (.decimal bound) Query.default) := rfl
  have hnumber : ∀ d, low.toAmount = .ok d → d.isNaN = false := by
    intro d hd
    obtain rfl : bound = d := Except.ok.inj hd
    rfl
  have hcalls := (hbuilt [call] .amountMin List.mem_cons_self).resolve_left nofun
  exact ⟨hfrom, (horders o hfrom).2.mp rfl, hrefine, hbounds _ _ _ _ .amountMin hrefine rfl, hlownumber.mp hnumber,
    hcalls, hcompare rfl rfl⟩

/-- A text for a NaN makes an amount that neither equals itself nor can be ordered. -/
theorem nan_read_as_amount :
    let stamp : Timestamp := ⟨⟨2024, 6, 15, by decide⟩, .midnight⟩
    let fields : Named := [("order_no", .text "A-1"), ("type", .text "sale"), ("status", .text "open"),
      ("amount", .text "nan")]
    let nan : Decimal := .nan false false 0 0
    let o : Order := ⟨"A-1", "sale", "open", nan, .text "CNY", .null, stamp, stamp, [], [], [], .null⟩
    (Value.text "nan").toAmount = .ok nan ∧ Order.make (.ofTimestamp stamp) fields = .ok o ∧ o.equal o = .ok false ∧
      (Value.decimal nan).less (.decimal .zero) = .error .nanCompared := by
  intro stamp fields nan o
  have hread : (Value.text "nan").toAmount = .ok nan := rfl
  exact ⟨hread, rfl, rfl, rfl⟩

end OrderStore
