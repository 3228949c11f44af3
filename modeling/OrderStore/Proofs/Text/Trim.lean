import Mathlib.Data.List.TakeWhile
import OrderStore.Text.Blank

namespace OrderStore.Text

def IsBlank (t : Text) : Prop := ∀ c ∈ t.codes, c.isBlank = true

instance (t : Text) : Decidable t.IsBlank := inferInstanceAs (Decidable (∀ c ∈ t.codes, c.isBlank = true))

theorem trimWith_between {α : Type} {p : α → Bool} {before after : List α} (xs : List α)
    (hbefore : ∀ x ∈ before, p x = true) (hafter : ∀ x ∈ after, p x = true) :
    trimWith p (before ++ xs ++ after) = trimWith p xs := by
  have hfront : (before ++ xs ++ after).dropWhile p = (xs ++ after).dropWhile p := by
    rw [List.append_assoc, List.dropWhile_append_of_pos hbefore]
  simp only [trimWith, hfront, List.dropWhile_append]
  by_cases h : (xs.dropWhile p).isEmpty
  · have hnone : after.dropWhile p = [] := List.dropWhile_eq_nil_iff.mpr hafter
    simp [List.isEmpty_iff.mp h, hnone]
  · rw [if_neg h, List.reverse_append, List.dropWhile_append_of_pos]
    intro x hx
    exact hafter x (List.mem_reverse.mp hx)

theorem trimWith_of_none {α : Type} {p : α → Bool} {xs : List α} (h : ∀ x ∈ xs, p x = false) : trimWith p xs = xs := by
  apply trimWith_eq_self
  · intro x hx
    exact h x (List.mem_of_mem_head? hx)
  · intro x hx
    exact h x (List.mem_of_mem_getLast? hx)

theorem trim_between {before after : Text} (t : Text) (hbefore : before.IsBlank) (hafter : after.IsBlank) :
    (before ++ t ++ after).trim = t.trim := by
  simp only [trim, codes_append, trimWith_between t.codes hbefore hafter]

theorem trim_ofChars {cs : List Char} (hl : ∀ c, cs.head? = some c → isBlank c = false)
    (hr : ∀ c, cs.getLast? = some c → isBlank c = false) : (ofChars cs).trim = ofChars cs := by
  apply congrArg Text.mk
  apply trimWith_eq_self
  · intro x hx
    simp only [codes_ofChars, List.head?_map, Option.map_eq_some_iff] at hx
    obtain ⟨c, hc, rfl⟩ := hx
    exact hl c hc
  · intro x hx
    simp only [codes_ofChars, List.getLast?_map, Option.map_eq_some_iff] at hx
    obtain ⟨c, hc, rfl⟩ := hx
    exact hr c hc

end OrderStore.Text
