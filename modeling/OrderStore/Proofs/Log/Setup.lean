import OrderStore.Log.Setup
import OrderStore.Proofs.Except

namespace OrderStore.Log.Setup

variable {notes : List (Text × Text)} {level name logger : Text} {s s' : Setup}

theorem init_of_initialized (h : s.initialized = true) : s.init notes level = .ok s := if_pos h

theorem init_ok (h : s.init notes level = .ok s') :
    s.initialized = true ∧ s' = s ∨
      s.initialized = false ∧ ∃ v, threshold notes level = .ok v ∧ s' = ⟨v, s.handlers + 1, true⟩ := by
  unfold init at h
  split at h
  · cases h
    exact .inl ⟨‹_›, rfl⟩
  · obtain ⟨v, hv, rfl⟩ := map_eq_ok.mp h
    exact .inr ⟨Bool.eq_false_iff.mpr ‹_›, v, hv, rfl⟩

theorem initialized_of_getLogger (h : s.getLogger notes level name = .ok (logger, s')) : s'.initialized = true := by
  obtain ⟨t, ht, heq⟩ := map_eq_ok.mp h
  cases heq
  obtain ⟨hs, rfl⟩ | ⟨-, v, -, rfl⟩ := init_ok ht
  · exact hs
  · rfl

/-- After a call that got through, others find the log as it is, whatever level is configured by then. -/
theorem getLogger_again (h : s.getLogger notes level name = .ok (logger, s')) (level' name' : Text) :
    ∃ logger', s'.getLogger notes level' name' = .ok (logger', s') := by
  rw [getLogger, init_of_initialized (initialized_of_getLogger h)]
  exact ⟨_, rfl⟩

theorem Reached.eq_start_or (h : Reached notes level s) :
    s = .start ∨ ∃ v, threshold notes level = .ok v ∧ s = ⟨v, 1, true⟩ := by
  induction h with
  | start => exact .inl rfl
  | @call s s' name logger h hcall ih =>
    obtain ⟨t, ht, heq⟩ := map_eq_ok.mp hcall
    cases heq
    obtain ⟨-, rfl⟩ | ⟨hs, v, hv, rfl⟩ := init_ok ht
    · exact ih
    -- Only the first call that gets through finds the log as it was at the start.
    · obtain rfl | ⟨w, -, rfl⟩ := ih
      · exact .inr ⟨v, hv, rfl⟩
      · cases hs

theorem Reached.handlers_le_one (h : Reached notes level s) : s.handlers ≤ 1 := by
  obtain rfl | ⟨v, -, rfl⟩ := h.eq_start_or
  · exact Nat.zero_le 1
  · exact Nat.le_refl 1

end OrderStore.Log.Setup
