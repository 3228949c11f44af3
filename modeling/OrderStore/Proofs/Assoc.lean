import Mathlib.Data.List.Induction
import Mathlib.Data.List.Nodup
import OrderStore.Assoc

namespace OrderStore

namespace Assoc

variable {κ ν : Type} [DecidableEq κ]

theorem keys_put (key : κ) (value : ν) (es : List (κ × ν)) :
    (put (fun a b => a == b) key value es).map Prod.fst =
      if key ∈ es.map Prod.fst then es.map Prod.fst else es.map Prod.fst ++ [key] := by
  induction es with
  | nil => rfl
  | cons e es ih =>
    by_cases hk : e.1 = key
    · simp [put, hk]
    · have hk' : key ≠ e.1 := Ne.symm hk
      simp only [put, beq_iff_eq, hk, if_false, List.map_cons, ih, List.mem_cons, hk', false_or]
      split <;> rfl

theorem nodup_keys_put {key : κ} {value : ν} {es : List (κ × ν)} (h : (es.map Prod.fst).Nodup) :
    ((put (fun a b => a == b) key value es).map Prod.fst).Nodup := by
  rw [keys_put]
  split
  · exact h
  · rename_i hk
    exact List.nodup_append.mpr ⟨h, List.nodup_singleton _, fun a ha b hb hab =>
      hk ((List.mem_singleton.mp hb) ▸ hab ▸ ha)⟩

theorem mem_put {key k : κ} {value v : ν} {es : List (κ × ν)} (h : (es.map Prod.fst).Nodup) :
    (k, v) ∈ put (fun a b => a == b) key value es ↔ k = key ∧ v = value ∨ k ≠ key ∧ (k, v) ∈ es := by
  induction es with
  | nil => simp [put]
  | cons e es ih =>
    obtain ⟨hnew, hes⟩ := List.nodup_cons.mp h
    by_cases he : e.1 = key
    · have hkey : (k, v) ∈ es → k ≠ key := by
        rintro hmem rfl
        exact hnew (he ▸ List.mem_map_of_mem hmem)
      obtain ⟨k', v'⟩ := e
      obtain rfl : k' = key := he
      simp only [put, beq_self_eq_true, if_true, List.mem_cons, Prod.mk.injEq]
      constructor
      · rintro (⟨rfl, rfl⟩ | hmem)
        · exact .inl ⟨rfl, rfl⟩
        · exact .inr ⟨hkey hmem, .inr hmem⟩
      · rintro (⟨rfl, rfl⟩ | ⟨hne, ⟨rfl, -⟩ | hmem⟩)
        · exact .inl ⟨rfl, rfl⟩
        · exact absurd rfl hne
        · exact .inr hmem
    · obtain ⟨k', v'⟩ := e
      have hfalse : (k' == key) = false := beq_eq_false_iff_ne.mpr he
      simp only [put, hfalse, Bool.false_eq_true, if_false, List.mem_cons, Prod.mk.injEq, ih hes]
      constructor
      · rintro (⟨rfl, rfl⟩ | ⟨rfl, rfl⟩ | ⟨hne, hmem⟩)
        · exact .inr ⟨he, .inl ⟨rfl, rfl⟩⟩
        · exact .inl ⟨rfl, rfl⟩
        · exact .inr ⟨hne, .inr hmem⟩
      · rintro (⟨rfl, rfl⟩ | ⟨hne, ⟨rfl, rfl⟩ | hmem⟩)
        · exact .inr (.inl ⟨rfl, rfl⟩)
        · exact .inl ⟨rfl, rfl⟩
        · exact .inr (.inr ⟨hne, hmem⟩)

theorem nodup_keys_ofList (es : List (κ × ν)) : ((ofList (fun a b => a == b) es).map Prod.fst).Nodup := by
  have hfold : ∀ acc : List (κ × ν), (acc.map Prod.fst).Nodup →
      ((es.foldl (fun acc e => put (fun a b => a == b) e.1 e.2 acc) acc).map Prod.fst).Nodup := by
    induction es with
    | nil => exact fun acc h => h
    | cons e es ih => exact fun acc h => ih _ (nodup_keys_put h)
  exact hfold [] List.nodup_nil

theorem keys_ofList (es : List (κ × ν)) :
    (ofList (fun a b => a == b) es).map Prod.fst = (es.map Prod.fst).eraseDups := by
  induction es using List.reverseRecOn with
  | nil => rfl
  | append_singleton es e ih =>
    rw [ofList_concat, keys_put, ih, List.map_append, List.map_singleton, List.eraseDups_append,
      List.removeAll]
    by_cases he : e.1 ∈ es.map Prod.fst
    · rw [if_pos (List.mem_eraseDups.mpr he), List.filter_cons_of_neg (by simpa using he), List.filter_nil]
      exact (List.append_nil _).symm
    · have hnew : e.1 ∉ (es.map Prod.fst).eraseDups := fun h => he (List.mem_eraseDups.mp h)
      rw [if_neg hnew, List.filter_cons_of_pos (by simpa using he), List.filter_nil]
      rfl

end Assoc

def IsLastOf {α κ : Type} (key : α → κ) (xs : List α) (x : α) : Prop :=
  ∃ before after, xs = before ++ x :: after ∧ ∀ y ∈ after, key y ≠ key x

section

variable {α β κ ν : Type} {key : α → κ} {xs : List α} {x y : α}

theorem not_isLastOf_nil : ¬ IsLastOf key [] x := by
  rintro ⟨before, after, h, -⟩
  exact absurd h.symm (by simp)

theorem IsLastOf.mem (h : IsLastOf key xs x) : x ∈ xs := by
  obtain ⟨before, after, rfl, -⟩ := h
  simp

theorem isLastOf_concat : IsLastOf key (xs ++ [y]) x ↔ x = y ∨ key y ≠ key x ∧ IsLastOf key xs x := by
  constructor
  · rintro ⟨before, after, h, hafter⟩
    rcases List.eq_nil_or_concat after with rfl | ⟨after, z, rfl⟩
    · exact .inl (List.append_inj_right' h rfl |> List.singleton_inj.mp).symm
    · rw [List.concat_eq_append, ← List.cons_append, ← List.append_assoc] at h
      obtain ⟨rfl, hz⟩ := List.append_inj' h rfl
      obtain rfl := List.singleton_inj.mp hz
      refine .inr ⟨hafter y (by simp), before, after, rfl, fun u hu => hafter u (by simp [hu])⟩
  · rintro (rfl | ⟨hy, before, after, rfl, hafter⟩)
    · exact ⟨xs, [], rfl, List.forall_mem_nil _⟩
    · refine ⟨before, after ++ [y], by simp, ?_⟩
      exact List.forall_mem_append.mpr ⟨hafter, List.forall_mem_singleton.mpr hy⟩

theorem isLastOf_of_nodup (h : (xs.map key).Nodup) : IsLastOf key xs x ↔ x ∈ xs := by
  refine ⟨IsLastOf.mem, fun hx => ?_⟩
  obtain ⟨before, after, rfl⟩ := List.append_of_mem hx
  refine ⟨before, after, rfl, fun y hy hkey => ?_⟩
  rw [List.map_append, List.map_cons] at h
  have hnew := (List.nodup_cons.mp (List.nodup_append.mp h).2.1).1
  exact hnew (hkey ▸ List.mem_map_of_mem hy)

theorem isLastOf_map {f : β → α} {zs : List β} :
    IsLastOf key (zs.map f) x ↔ ∃ z, f z = x ∧ IsLastOf (fun z => key (f z)) zs z := by
  induction zs using List.reverseRecOn with
  | nil => exact ⟨fun h => absurd h not_isLastOf_nil, fun ⟨_, _, h⟩ => absurd h not_isLastOf_nil⟩
  | append_singleton zs z ih =>
    rw [List.map_append, List.map_singleton, isLastOf_concat, ih]
    simp only [isLastOf_concat]
    constructor
    · rintro (rfl | ⟨hkey, z', rfl, h⟩)
      · exact ⟨z, rfl, .inl rfl⟩
      · exact ⟨z', rfl, .inr ⟨hkey, h⟩⟩
    · rintro ⟨z', rfl, rfl | ⟨hkey, h⟩⟩
      · exact .inl rfl
      · exact .inr ⟨hkey, z', rfl, h⟩

theorem Assoc.mem_ofList [DecidableEq κ] {es : List (κ × ν)} {e : κ × ν} :
    e ∈ ofList (fun a b => a == b) es ↔ IsLastOf Prod.fst es e := by
  induction es using List.reverseRecOn with
  | nil => exact ⟨nofun, fun h => absurd h not_isLastOf_nil⟩
  | append_singleton es e' ih =>
    obtain ⟨k, v⟩ := e
    obtain ⟨k', v'⟩ := e'
    rw [ofList_concat, mem_put (nodup_keys_ofList es), ih, isLastOf_concat, Prod.mk.injEq]
    exact or_congr_right (and_congr_left' ne_comm)

end

end OrderStore
