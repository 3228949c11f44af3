import OrderStore.Order.Step
import OrderStore.Proofs.Order.Derived
import OrderStore.Proofs.Order.Equality
import OrderStore.Proofs.Value.Number

namespace OrderStore

def OrderStep.names (s : OrderStep) : List Text :=
  match Revision.ofCall s.name s.arguments with
  | .ok r => r.names
  | .error _ => []

def Value.IsNumber (v : Value) : Prop := ∃ d, v.number? = some d ∧ d.isNaN = false

namespace Value

variable {u v w : Value}

theorem isNumber_int (n : Int) : (Value.int n).IsNumber := ⟨.ofInt n, rfl, Decimal.ofInt_ne_nan n⟩

theorem IsNumber.equal_self (h : v.IsNumber) : v.equal v = .ok true := by
  obtain ⟨d, hv, hd⟩ := h
  exact (equal_number_iff hv).mpr ⟨d, hv, Decimal.equal_self hd⟩

theorem IsNumber.equal_trans (h : u.IsNumber) (huv : u.equal v = .ok true) (hvw : v.equal w = .ok true) :
    u.equal w = .ok true := by
  obtain ⟨d, hu, -⟩ := h
  exact equal_number_trans hu huv hvw

theorem IsNumber.of_equal (h : u.IsNumber) (huv : u.equal v = .ok true) : v.IsNumber := by
  obtain ⟨d, hu, -⟩ := h
  obtain ⟨d', hv, hd⟩ := (equal_number_iff hu).mp huv
  exact ⟨d', hv, Decimal.isNaN_of_equal hd⟩

theorem IsNumber.isNull (h : v.IsNumber) : v.isNull = false := by
  obtain ⟨d, hv, -⟩ := h
  cases v with
  | null => cases hv
  | _ => rfl

end Value

namespace Order

variable {now : WallClock} {o p q : Order} {f : Field} {v : Value} {named : Named} {r : Revision}
  {s : OrderStep} {a : OrderAnswer}

theorem step_cases (h : o.step now s = .ok a) :
    o.after a = o ∨ ∃ r, Revision.ofCall s.name s.arguments = .ok r ∧ o.revise now r = .ok (o.after a) := by
  unfold step at h
  split at h
  · cases h
    exact .inl rfl
  · cases h
    exact .inl rfl
  · obtain ⟨b, -, rfl⟩ := map_eq_ok.mp h
    exact .inl rfl
  · obtain ⟨p, hp, rfl⟩ := map_eq_ok.mp h
    exact .inr (bind_eq_ok.mp hp)

theorem step_other (h : o.step now s = .ok a) (hf : f.name ∉ s.names) : (o.after a).draft f = o.draft f := by
  rcases step_cases h with ho | ⟨r, hr, hp⟩
  · rw [ho]
  · rw [OrderStep.names, hr] at hf
    exact revise_other hp hf

theorem step_withChanges (hself : ("self" : Text) ∉ named.map Prod.fst) :
    o.step now ⟨"with_changes", ⟨[], named⟩⟩ = (o.withChanges now named).map .revised := by
  have hcontains : named.contains "self" = false :=
    Bool.eq_false_iff.mpr fun h => hself (Named.contains_iff.mp h)
  have hcall : Revision.ofCall "with_changes" ⟨[], named⟩ = .ok (.changes named) := by
    simp only [Revision.ofCall, Revision.changesOf, hcontains]
    rfl
  change ((Revision.ofCall "with_changes" ⟨[], named⟩).bind (o.revise now)).map OrderAnswer.revised = _
  rw [hcall]
  rfl

structure Continues (o p : Order) : Prop where
  orderNo : p.orderNo = o.orderNo
  createdAt : p.createdAt = o.createdAt
  id : o.id.IsNumber → o.id.equal p.id = .ok true

theorem Continues.refl (o : Order) : Continues o o := ⟨rfl, rfl, Value.IsNumber.equal_self⟩

theorem Continues.trans (h : Continues o p) (h' : Continues p q) : Continues o q where
  orderNo := h'.orderNo.trans h.orderNo
  createdAt := h'.createdAt.trans h.createdAt
  id hid := hid.equal_trans (h.id hid) (h'.id (hid.of_equal (h.id hid)))

theorem SameIdentity.continues (h : SameIdentity o p) : Continues o p where
  orderNo := h.orderNo
  createdAt := h.createdAt
  id hid := by
    rw [h.id]
    exact hid.equal_self

theorem withId_continues (h : o.withId now v = .ok p) : Continues o p := by
  obtain ⟨hp, hsame⟩ := withId_eq_ok h
  have hother {f : Field} (hf : f.name ∉ [Field.id.name]) : p.draft f = o.draft f := replace_one_other hp hf
  obtain ⟨hid, -⟩ := settle_ok hp
  constructor
  case orderNo => exact Value.text.inj (hother (f := .orderNo) (by decide))
  case createdAt => exact congrArg Moment.stamp (Value.moment.inj (hother (f := .createdAt) (by decide)))
  case id =>
    intro hnumber
    rw [hid]
    exact hsame hnumber.isNull

theorem revise_continues (h : o.revise now r = .ok p) : Continues o p := by
  cases r with
  | id v => exact withId_continues h
  | _ =>
    refine (revise_sameIdentity ?_ h).continues
    intro v hv
    cases hv

def proceed (o : Order) (x : WallClock × OrderStep) : Order :=
  match o.step x.1 x.2 with
  | .ok a => o.after a
  | .error _ => o

def follow (o : Order) (xs : List (WallClock × OrderStep)) : Order := xs.foldl proceed o

theorem proceed_continues (o : Order) (x : WallClock × OrderStep) : Continues o (o.proceed x) := by
  rw [proceed]
  split
  case h_1 a h =>
    rcases step_cases h with ho | ⟨r, -, hp⟩
    · rw [ho]
      exact .refl o
    · exact revise_continues hp
  case h_2 => exact .refl o

theorem follow_continues (o : Order) (xs : List (WallClock × OrderStep)) : Continues o (o.follow xs) := by
  induction xs generalizing o with
  | nil => exact .refl o
  | cons x xs ih => exact (proceed_continues o x).trans (ih (o.proceed x))

theorem follow_append (o : Order) (xs ys : List (WallClock × OrderStep)) :
    o.follow (xs ++ ys) = (o.follow xs).follow ys := List.foldl_append

/-- Every order of a chain of steps continues those before it, a step leaves what it does not name, and
changes by name replace exactly the fields that are named, or are refused for a frozen or an unknown one. -/
theorem steps_keep_order (o : Order) :
    (∀ xs ys, Continues o (o.follow xs) ∧ Continues (o.follow xs) (o.follow (xs ++ ys))) ∧
      (∀ now s a, o.step now s = .ok a → ∀ f : Field, f.name ∉ s.names → (o.after a).draft f = o.draft f) ∧
      ∀ now named, (named.map Prod.fst).Nodup → ("self" : Text) ∉ named.map Prod.fst →
        o.step now ⟨"with_changes", ⟨[], named⟩⟩ = (o.withChanges now named).map .revised ∧
          Changes now named o := by
  refine ⟨?_, ?_, ?_⟩
  · intro xs ys
    rw [follow_append]
    exact ⟨follow_continues o xs, follow_continues (o.follow xs) ys⟩
  · intro now s a h f hf
    exact step_other h hf
  · intro now named hnodup hself
    exact ⟨step_withChanges hself, withChanges_changes now o hnodup⟩

theorem steps_keep_order_paid :
    let stamp : Timestamp := ⟨⟨2024, 1, 31, by decide⟩, .midnight⟩
    let now : WallClock := .ofTimestamp stamp
    let o : Order := ⟨"A-1", "sale", "open", .zero, .text "CNY", .null, stamp, stamp, [], [], [], .int 7⟩
    let paid : Order := { o with status := "paid", amount := .finite false 500 (-2) }
    let named : Named := [("status", .text "paid"), ("amount", .text "5.00")]
    let blocked : Named := [("colour", .null), ("created_at", .null)]
    let other : OrderStep := ⟨"with_id", ⟨[.int 8], []⟩⟩
    let change : OrderStep := ⟨"with_changes", ⟨[], named⟩⟩
    (named.map Prod.fst).Nodup ∧ ("self" : Text) ∉ named.map Prod.fst ∧
      o.follow [(now, other), (now, change)] = paid ∧ o.id.equal paid.id = .ok true ∧
      Takes now named o paid ∧ ∃ e, o.withChanges now blocked = .error e ∧ e.kind = .frozenField := by
  intro stamp now o paid named blocked other change
  obtain ⟨hchain, -, hchanges⟩ := steps_keep_order o
  have hnamed : (named.map Prod.fst).Nodup := by decide
  have hself : ("self" : Text) ∉ named.map Prod.fst := by decide
  obtain ⟨hstep, hpaid⟩ := hchanges now named hnamed hself
  obtain ⟨-, hblocked⟩ := hchanges now blocked (by decide) (by decide)
  have hfrozen : ¬ NamesFrozen named := blockedNames_isEmpty_iff.mp rfl
  have hunknown : ¬ NamesUnknown named := by
    rintro ⟨name, hname, hnone⟩
    simp only [named, List.map_cons, List.map_nil, List.mem_cons, List.not_mem_nil, or_false] at hname
    rcases hname with rfl | rfl
    · exact hnone .status rfl
    · exact hnone .amount rfl
  have hok : o.withChanges now named = .ok paid := by
    rw [withChanges_known hfrozen hunknown]
    rfl
  have hfollow : o.follow [(now, other), (now, change)] = paid := by
    rw [hok] at hstep
    have hother : o.proceed (now, other) = o := rfl
    have hchange : o.proceed (now, change) = paid := by
      rw [proceed, hstep]
      rfl
    rw [follow, List.foldl_cons, hother, List.foldl_cons, hchange, List.foldl_nil]
  have hcontinues := (hchain [(now, other), (now, change)] []).1
  rw [hfollow] at hcontinues
  refine ⟨hnamed, hself, hfollow, hcontinues.id (Value.isNumber_int 7), ?_, ?_⟩
  · exact (hpaid.ok_iff hfrozen hunknown paid).mp hok
  · exact hblocked.frozen_iff.mpr ⟨.createdAt, by decide, by decide⟩

end Order

end OrderStore
