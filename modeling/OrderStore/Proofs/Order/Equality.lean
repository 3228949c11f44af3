import OrderStore.Order
import OrderStore.Proofs.Value.Number

namespace OrderStore

namespace Value

theorem numberEqual_self {v : Value} {d : Decimal} (hv : v.number? = some d) (hd : d.isNaN = false) :
    numberEqual v v = .ok true := by
  simp [numberEqual, hv, Decimal.isSignaling_of_isNaN hd, Decimal.equal_self hd]

theorem same_of_equal {v : Value} (h : isSameNaN v v = false → equal v v = .ok true) :
    same v v = .ok true := by
  rw [same]
  split
  · rfl
  · rename_i hn
    exact h (Bool.eq_false_iff.mpr hn)

theorem allSame_self {xs : List Value} (hx : ∀ x ∈ xs, same x x = .ok true) :
    allSame xs xs = .ok true := by
  induction xs with
  | nil => rw [allSame]
  | cons x xs ih =>
    have hfirst : (if isSameNaN x x then .ok true else equal x x) = .ok true := hx x List.mem_cons_self
    rw [allSame, hfirst]
    exact ih fun y hy => hx y (List.mem_cons_of_mem _ hy)

theorem sameHolds_of_same {v : Value} (h : same v v = .ok true) :
    (isSameNaN v v || holds (equal v v)) = true := by
  rw [same] at h
  cases hn : isSameNaN v v with
  | true => rfl
  | false =>
    rw [hn] at h
    rw [if_neg Bool.false_ne_true] at h
    rw [h]
    rfl

theorem allWithin_of_subset {es fs : Entries} (hs : ∀ e ∈ es, e ∈ fs)
    (he : ∀ e ∈ es, same e.1 e.1 = .ok true ∧ same e.2 e.2 = .ok true) : allWithin es fs = .ok true := by
  induction es with
  | nil => rw [allWithin]
  | cons e es ih =>
    obtain ⟨k, v⟩ := e
    obtain ⟨hk, hv⟩ := he (k, v) List.mem_cons_self
    have hfound : (fs.filter fun f => isSameNaN k f.1 || holds (equal k f.1)).any
        (fun f => isSameNaN v f.2 || holds (equal v f.2)) = true := by
      apply List.any_eq_true.mpr
      exact ⟨(k, v), List.mem_filter.mpr ⟨hs _ List.mem_cons_self, sameHolds_of_same hk⟩,
        sameHolds_of_same hv⟩
    rw [allWithin, hfound]
    exact ih (fun e h => hs e (List.mem_cons_of_mem _ h)) fun e h => he e (List.mem_cons_of_mem _ h)

theorem sizeOf_entry {es : Entries} {e : Value × Value} (he : e ∈ es) :
    sizeOf e.1 < sizeOf es ∧ sizeOf e.2 < sizeOf es := by
  obtain ⟨k, v⟩ := e
  have hlt := List.sizeOf_lt_of_mem he
  simp only [Prod.mk.sizeOf_spec] at hlt ⊢
  omega

theorem same_self (v : Value) : same v v = .ok true := by
  apply same_of_equal
  -- Only a NaN differs from itself, and `hn` rules out that there is one outside of a collection.
  intro hn
  cases v with
  | null | text | moment | date | bytes => simp [equal, Moment.equal]
  | bool b =>
    rw [show equal (.bool b) (.bool b) = numberEqual (.bool b) (.bool b) by simp [equal]]
    exact numberEqual_self rfl (Decimal.ofInt_ne_nan _)
  | int n =>
    rw [show equal (.int n) (.int n) = numberEqual (.int n) (.int n) by simp [equal]]
    exact numberEqual_self rfl (Decimal.ofInt_ne_nan _)
  | float x =>
    rw [show equal (.float x) (.float x) = numberEqual (.float x) (.float x) by simp [equal]]
    apply numberEqual_self rfl
    cases x with
    | finite negative mantissa exponent =>
      rw [Binary64.toDecimal]
      split <;> rfl
    | infinite negative => rfl
    | nan tag => simp [isSameNaN] at hn
  | decimal d =>
    rw [show equal (.decimal d) (.decimal d) = numberEqual (.decimal d) (.decimal d) by simp [equal]]
    apply numberEqual_self rfl
    cases d with
    | nan negative signaling payload tag => simp [isSameNaN] at hn
    | _ => rfl
  | list xs | set xs =>
    rw [equal, if_pos rfl]
    exact allSame_self fun x hx => same_self x
  | tuple xs | oneOf xs =>
    rw [equal]
    exact allSame_self fun x hx => same_self x
  | map es =>
    rw [equal, if_pos rfl]
    exact allWithin_of_subset (fun e he => he) fun e he => ⟨same_self e.1, same_self e.2⟩
  | scalar v =>
    rw [equal]
    exact same_self v
termination_by sizeOf v
decreasing_by
  all_goals simp_wf
  all_goals first
    | (have hlt := List.sizeOf_lt_of_mem hx; omega)
    | (have hlt := sizeOf_entry he; omega)

theorem equal_self {v : Value} (h : isSameNaN v v = false) : equal v v = .ok true := by
  have hsame := same_self v
  rw [same, h] at hsame
  exact hsame

theorem allHold_of_forall {α : Type} {test : α → Except Error Bool} {xs : List α}
    (h : ∀ x ∈ xs, test x = .ok true) : allHold test xs = .ok true := by
  induction xs with
  | nil => rfl
  | cons x xs ih =>
    rw [allHold, h x List.mem_cons_self]
    exact ih fun y hy => h y (List.mem_cons_of_mem _ hy)

theorem allHold_of_false {α : Type} {test : α → Except Error Bool} {before after : List α} {x : α}
    (h : ∀ y ∈ before, test y = .ok true) (hx : test x = .ok false) :
    allHold test (before ++ x :: after) = .ok false := by
  induction before with
  | nil =>
    rw [List.nil_append, allHold, hx]
    rfl
  | cons y before ih =>
    rw [List.cons_append, allHold, h y List.mem_cons_self]
    exact ih fun z hz => h z (List.mem_cons_of_mem _ hz)

end Value

namespace Order

theorem equalField_self {o : Order} (h : o.amount.isNaN = false) (f : Field) :
    equalField o o f = .ok true := by
  cases f with
  | amount =>
    apply Value.equal_self
    change Value.isSameNaN (.decimal o.amount) (.decimal o.amount) = false
    cases ha : o.amount with
    | nan negative signaling payload tag =>
      rw [ha] at h
      cases h
    | _ => rfl
  | attributes | relations | indexedFields => exact Value.equal_self rfl
  | _ => exact Value.same_self _

theorem equal_self {o : Order} (h : o.amount.isNaN = false) : o.equal o = .ok true :=
  Value.allHold_of_forall fun f _ => equalField_self h f

end Order

end OrderStore
