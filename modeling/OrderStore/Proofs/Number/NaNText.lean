import Mathlib.Data.List.Basic
import OrderStore.Proofs.Number.DecimalText

namespace OrderStore.Decimal

open Text

variable {cs rest word : List Char} {d : Decimal}

def nanWords : List (List Char) := ["nan".toList, "snan".toList]

def StartsAsNaN (cs : List Char) : Prop :=
  ∃ word ds, cs = word ++ ds ∧ word.map Char.toLower ∈ nanWords ∧ ds.all isDigit = true

def SpellsNaN (cs : List Char) : Prop :=
  ∃ sign ∈ [[], ['+'], ['-']], ∃ rest, plain? (trimWith isBlank cs) = some (sign ++ rest) ∧ StartsAsNaN rest

theorem afterWord?_eq_some_iff :
    afterWord? word cs = some rest ↔ ∃ front, cs = front ++ rest ∧ front.map Char.toLower = word := by
  unfold afterWord?
  constructor
  · intro h
    split at h
    · rename_i hword
      cases h
      exact ⟨cs.take word.length, (List.take_append_drop _ _).symm, beq_iff_eq.mp hword⟩
    · cases h
  · rintro ⟨front, rfl, rfl⟩
    simp

theorem afterWord?_nan_of_snan (h : word.map Char.toLower = "snan".toList) :
    afterWord? "nan".toList (word ++ rest) = none := by
  rw [Option.eq_none_iff_forall_ne_some]
  intro tail htail
  obtain ⟨front, hfront, hlower⟩ := afterWord?_eq_some_iff.mp htail
  have hchars := congrArg (List.map Char.toLower) hfront
  rw [List.map_append, List.map_append, h, hlower] at hchars
  exact absurd (List.cons.inj hchars).1 (by decide)

theorem readPayload?_eq_some_iff {negative signaling : Bool} :
    readPayload? negative signaling cs = some d ↔
      cs.all isDigit = true ∧ .nan negative signaling (digitsValue cs) 0 = d := by
  simp [readPayload?]

theorem isNaN_of_readFinite? {negative : Bool} (h : readFinite? negative cs = some d) : d.isNaN = false := by
  obtain ⟨⟨coefficient, exponent⟩, -, h⟩ := Option.bind_eq_some_iff.mp h
  dsimp only at h
  split at h
  · cases h
    rfl
  · cases h

theorem startsAsNaN_iff (negative : Bool) :
    StartsAsNaN cs ↔ ∃ d, readUnsigned? negative cs = some d ∧ d.isNaN = true := by
  constructor
  · rintro ⟨word, ds, rfl, hword, hds⟩
    rcases List.mem_pair.mp hword with hword | hword
    · have hafter : afterWord? "nan".toList (word ++ ds) = some ds := afterWord?_eq_some_iff.mpr ⟨word, rfl, hword⟩
      refine ⟨.nan negative false (digitsValue ds) 0, ?_, rfl⟩
      simp only [readUnsigned?, hafter]
      exact readPayload?_eq_some_iff.mpr ⟨hds, rfl⟩
    · have hafter : afterWord? "snan".toList (word ++ ds) = some ds := afterWord?_eq_some_iff.mpr ⟨word, rfl, hword⟩
      refine ⟨.nan negative true (digitsValue ds) 0, ?_, rfl⟩
      simp only [readUnsigned?, afterWord?_nan_of_snan hword, hafter]
      exact readPayload?_eq_some_iff.mpr ⟨hds, rfl⟩
  · rintro ⟨d, hread, hnan⟩
    rw [readUnsigned?] at hread
    split at hread
    · rename_i ds hafter
      obtain ⟨word, rfl, hword⟩ := afterWord?_eq_some_iff.mp hafter
      exact ⟨word, ds, rfl, List.mem_pair.mpr (.inl hword), (readPayload?_eq_some_iff.mp hread).1⟩
    split at hread
    · rename_i ds hafter
      obtain ⟨word, rfl, hword⟩ := afterWord?_eq_some_iff.mp hafter
      exact ⟨word, ds, rfl, List.mem_pair.mpr (.inr hword), (readPayload?_eq_some_iff.mp hread).1⟩
    split at hread
    · cases hread
      cases hnan
    · rw [isNaN_of_readFinite? hread] at hnan
      cases hnan

theorem StartsAsNaN.not_sign {c : Char} (h : StartsAsNaN (c :: rest)) : c ≠ '-' ∧ c ≠ '+' := by
  obtain ⟨word, ds, hcs, hword, -⟩ := h
  cases word with
  | nil => exact absurd hword (by decide)
  | cons x word =>
    obtain rfl : c = x := (List.cons.inj hcs).1
    constructor <;> rintro rfl <;> simp [nanWords] at hword

theorem spellsNaN_iff : SpellsNaN cs ↔ ∃ d, readChars? cs = some d ∧ d.isNaN = true := by
  simp only [readChars?, readSigned?, Option.bind_eq_some_iff]
  constructor
  · rintro ⟨sign, hsign, rest, hplain, hrest⟩
    simp only [List.mem_cons, List.not_mem_nil, or_false] at hsign
    rcases hsign with rfl | rfl | rfl
    · obtain ⟨d, hread, hnan⟩ := (startsAsNaN_iff false).mp hrest
      refine ⟨d, ⟨rest, hplain, ?_⟩, hnan⟩
      split
      · exact absurd rfl hrest.not_sign.1
      · exact absurd rfl hrest.not_sign.2
      · exact hread
    · obtain ⟨d, hread, hnan⟩ := (startsAsNaN_iff false).mp hrest
      exact ⟨d, ⟨'+' :: rest, hplain, hread⟩, hnan⟩
    · obtain ⟨d, hread, hnan⟩ := (startsAsNaN_iff true).mp hrest
      exact ⟨d, ⟨'-' :: rest, hplain, hread⟩, hnan⟩
  · rintro ⟨d, ⟨plain, hplain, hread⟩, hnan⟩
    split at hread
    · rename_i rest
      exact ⟨['-'], by simp, rest, hplain, (startsAsNaN_iff true).mpr ⟨d, hread, hnan⟩⟩
    · rename_i rest
      exact ⟨['+'], by simp, rest, hplain, (startsAsNaN_iff false).mpr ⟨d, hread, hnan⟩⟩
    · exact ⟨[], by simp, plain, hplain, (startsAsNaN_iff false).mpr ⟨d, hread, hnan⟩⟩

theorem isNaN_iff_of_read (h : readChars? cs = some d) : d.isNaN = true ↔ SpellsNaN cs := by
  rw [spellsNaN_iff]
  constructor
  · intro hnan
    exact ⟨d, h, hnan⟩
  · rintro ⟨d', h', hnan⟩
    rw [h] at h'
    exact Option.some.inj h' ▸ hnan

theorem spellsNaN_nan (negative signaling : Bool) (payload tag : Nat) :
    SpellsNaN (chars (.nan negative signaling payload tag)) := by
  let word : List Char := (if signaling then ['s'] else []) ++ "NaN".toList
  let ds : List Char := if payload = 0 then [] else natChars payload
  have hchars : chars (.nan negative signaling payload tag) = signChars negative ++ (word ++ ds) := by
    simp [chars, word, ds]
  have hword : ∀ c ∈ word, IsBare c := by
    cases signaling <;> simp [word, IsBare]
  have hdigits : ∀ c ∈ ds, isDigit c = true := by
    intro c hc
    by_cases h : payload = 0
    · simp [ds, h] at hc
    · exact isDigit_of_mem_natChars (by simpa [ds, h] using hc)
  have hbare : ∀ c ∈ signChars negative ++ (word ++ ds), IsBare c := by
    simp only [List.forall_mem_append]
    exact ⟨isBare_of_mem_signChars negative, hword, fun c hc => isBare_of_isDigit (hdigits c hc)⟩
  have hsign : signChars negative ∈ [[], ['+'], ['-']] := by cases negative <;> decide
  have hlower : word.map Char.toLower ∈ nanWords := by cases signaling <;> decide
  rw [hchars]
  exact ⟨signChars negative, hsign, word ++ ds, plain?_trim_eq_self hbare, word, ds, rfl, hlower,
    List.all_eq_true.mpr hdigits⟩

theorem spellsNaN_chars (d : Decimal) : SpellsNaN d.chars ↔ d.isNaN = true := by
  rw [spellsNaN_iff]
  cases hd : d.isNaN with
  | true =>
    cases d with
    | nan negative signaling payload tag =>
      exact iff_of_true (spellsNaN_iff.mp (spellsNaN_nan negative signaling payload tag)) rfl
    | _ => cases hd
  | false =>
    rw [readChars?_chars hd]
    refine iff_of_false ?_ nofun
    rintro ⟨d', h, hnan⟩
    split at h
    · cases h
      rw [hd] at hnan
      cases hnan
    · cases h

end OrderStore.Decimal
