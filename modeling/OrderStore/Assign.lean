namespace OrderStore

variable {κ ν : Type} [DecidableEq κ]

def assign (k : κ) (v : ν) (f : κ → ν) : κ → ν := fun j => if j = k then v else f j

def assignAll (writes : List (κ × ν)) (f : κ → ν) : κ → ν :=
  writes.foldl (fun f w => assign w.1 w.2 f) f

@[simp] theorem assign_same (k : κ) (v : ν) (f : κ → ν) : assign k v f k = v := by simp [assign]

theorem assign_other {j k : κ} (v : ν) (f : κ → ν) (h : j ≠ k) : assign k v f j = f j := by
  simp [assign, h]

theorem assign_self (k : κ) (f : κ → ν) : assign k (f k) f = f := by
  funext j
  by_cases h : j = k
  · rw [h, assign_same]
  · exact assign_other _ f h

theorem assign_assign (k : κ) (v w : ν) (f : κ → ν) : assign k w (assign k v f) = assign k w f := by
  funext j
  by_cases h : j = k <;> simp [assign, h]

theorem assign_comm {j k : κ} (v w : ν) (f : κ → ν) (h : j ≠ k) :
    assign j v (assign k w f) = assign k w (assign j v f) := by
  funext i
  by_cases hj : i = j
  · subst hj
    simp [assign, h]
  · simp [assign, hj]

@[simp] theorem assignAll_nil (f : κ → ν) : assignAll [] f = f := rfl

@[simp] theorem assignAll_cons (w : κ × ν) (writes : List (κ × ν)) (f : κ → ν) :
    assignAll (w :: writes) f = assignAll writes (assign w.1 w.2 f) := rfl

theorem assignAll_other {writes : List (κ × ν)} {j : κ} (f : κ → ν) (h : ∀ w ∈ writes, w.1 ≠ j) :
    assignAll writes f j = f j := by
  induction writes generalizing f with
  | nil => rfl
  | cons w writes ih =>
    rw [assignAll_cons, ih _ fun v hv => h v (List.mem_cons_of_mem _ hv)]
    exact assign_other _ _ (Ne.symm (h w List.mem_cons_self))

theorem assignAll_congr {writes : List (κ × ν)} {f g : κ → ν} {j : κ}
    (h : f j = g j ∨ j ∈ writes.map Prod.fst) : assignAll writes f j = assignAll writes g j := by
  induction writes generalizing f g with
  | nil => exact h.resolve_right List.not_mem_nil
  | cons w writes ih =>
    rw [assignAll_cons, assignAll_cons]
    apply ih
    by_cases hw : j = w.1
    · exact .inl (by rw [hw, assign_same, assign_same])
    · rw [assign_other _ _ hw, assign_other _ _ hw]
      exact h.imp_right fun hj => (List.mem_cons.mp hj).resolve_left hw

theorem assignAll_assign {k : κ} {writes : List (κ × ν)} (v : ν) (f : κ → ν) (h : k ∉ writes.map Prod.fst) :
    assignAll writes (assign k v f) = assign k v (assignAll writes f) := by
  induction writes generalizing f with
  | nil => rfl
  | cons w writes ih =>
    rw [List.map_cons, List.mem_cons, not_or] at h
    rw [assignAll_cons, assignAll_cons, assign_comm w.2 v f (Ne.symm h.1)]
    exact ih _ h.2

theorem assignAll_append (writes more : List (κ × ν)) (f : κ → ν) :
    assignAll (writes ++ more) f = assignAll more (assignAll writes f) := List.foldl_append

theorem assignAll_cases (writes : List (κ × ν)) (f : κ → ν) (j : κ) :
    (∃ w ∈ writes, w.1 = j ∧ assignAll writes f j = w.2) ∨
      (∀ w ∈ writes, w.1 ≠ j) ∧ assignAll writes f j = f j := by
  induction writes generalizing f with
  | nil => exact .inr ⟨nofun, rfl⟩
  | cons w writes ih =>
    rw [assignAll_cons]
    rcases ih (assign w.1 w.2 f) with ⟨v, hv, hj, h⟩ | ⟨hall, h⟩
    · exact .inl ⟨v, List.mem_cons_of_mem _ hv, hj, h⟩
    by_cases hw : w.1 = j
    · refine .inl ⟨w, List.mem_cons_self, hw, ?_⟩
      rw [h, ← hw, assign_same]
    · refine .inr ⟨List.forall_mem_cons.mpr ⟨hw, hall⟩, ?_⟩
      rw [h, assign_other _ _ (Ne.symm hw)]

end OrderStore
