import OrderStore.Proofs.Order.Changes

namespace OrderStore

namespace Order

structure SameIdentity (o p : Order) : Prop where
  id : p.id = o.id
  orderNo : p.orderNo = o.orderNo
  createdAt : p.createdAt = o.createdAt

theorem SameIdentity.refl (o : Order) : SameIdentity o o := ⟨rfl, rfl, rfl⟩

theorem SameIdentity.symm {o p : Order} (h : SameIdentity o p) : SameIdentity p o :=
  ⟨h.id.symm, h.orderNo.symm, h.createdAt.symm⟩

theorem SameIdentity.trans {o p q : Order} (h : SameIdentity o p) (h' : SameIdentity p q) :
    SameIdentity o q :=
  ⟨h'.id.trans h.id, h'.orderNo.trans h.orderNo, h'.createdAt.trans h.createdAt⟩

theorem SameIdentity.of_frozen {o p : Order} (h : ∀ f ∈ Field.frozen, p.draft f = o.draft f) :
    SameIdentity o p where
  id := h .id (by decide)
  orderNo := Value.text.inj (h .orderNo (by decide))
  createdAt := congrArg Moment.stamp (Value.moment.inj (h .createdAt (by decide)))

theorem name_not_mem_names {now : WallClock} {r : Revision} {o p : Order} {f : Field} (hr : ∀ v, r ≠ .id v)
    (h : o.revise now r = .ok p) (hf : f ∈ Field.frozen) : f.name ∉ r.names := by
  cases r with
  | id v => exact absurd rfl (hr v)
  | updatedAt v | status v | attributes v | relations v | indexedFields v =>
    simp only [Revision.names]
    revert f
    decide
  | changes named => exact fun hmem => (withChanges_eq_ok h).1 ⟨f, hf, hmem⟩

theorem revise_sameIdentity {now : WallClock} {r : Revision} {o p : Order} (hr : ∀ v, r ≠ .id v)
    (h : o.revise now r = .ok p) : SameIdentity o p :=
  .of_frozen fun _ hf => revise_other h (name_not_mem_names hr h hf)

inductive Derived (o : Order) : Order → Prop where
  | refl : Derived o o
  | revise {p q : Order} (now : WallClock) {r : Revision} (hr : ∀ v, r ≠ .id v) (hp : Derived o p)
    (hq : p.revise now r = .ok q) : Derived o q

theorem Derived.sameIdentity {o p : Order} (h : Derived o p) : SameIdentity o p := by
  induction h with
  | refl => exact .refl o
  | revise now hr hp hq ih => exact ih.trans (revise_sameIdentity hr hq)

end Order

end OrderStore
