import OrderStore.Proofs.Sql.Predicate
import OrderStore.Proofs.Text.Trim

namespace OrderStore.Sql

open Text (Code)

theorem splitDot?_eq_some {cs schema table : List Char} (h : splitDot? cs = some (schema, table)) :
    cs = schema ++ '.' :: table := by
  rw [splitDot?] at h
  cases hdrop : cs.dropWhile (· != '.') with
  | nil =>
    rw [hdrop] at h
    cases h
  | cons c rest =>
    rw [hdrop] at h
    cases h
    have hdot : c = '.' := by
      have hhead := List.head_dropWhile_not (· != '.') (l := cs) (by rw [hdrop]; simp)
      simp only [hdrop, List.head_cons] at hhead
      simpa using hhead
    have hsplit := List.takeWhile_append_dropWhile (p := (· != '.')) (l := cs)
    rw [hdrop, hdot] at hsplit
    exact hsplit.symm

theorem isPlainName_cases {cs : List Char} (h : isPlainName cs = true) :
    isIdentifier cs = true ∨ ∃ schema table, isIdentifier schema = true ∧ isIdentifier table = true ∧
      cs = schema ++ '.' :: table := by
  rw [isPlainName] at h
  cases hsplit : splitDot? cs with
  | none =>
    rw [hsplit] at h
    exact .inl h
  | some split =>
    obtain ⟨schema, table⟩ := split
    rw [hsplit, Bool.and_eq_true] at h
    exact .inr ⟨schema, table, h.1, h.2, splitDot?_eq_some hsplit⟩

theorem isPlainName_words {cs : List Char} (h : isPlainName cs = true) :
    ∃ ws : List (List Char), ws ≠ [] ∧ (∀ w ∈ ws, isIdentifier w = true) ∧ cs = ['.'].intercalate ws := by
  rcases isPlainName_cases h with h | ⟨schema, table, hschema, htable, rfl⟩
  · exact ⟨[cs], by simp, List.forall_mem_singleton.mpr h, List.intercalate_singleton.symm⟩
  · refine ⟨[schema, table], by simp, ?_, ?_⟩
    · exact List.forall_mem_cons.mpr ⟨hschema, List.forall_mem_singleton.mpr htable⟩
    · rw [List.intercalate_cons_cons, List.intercalate_singleton, List.append_assoc]
      rfl

theorem withoutBreak_append (cs : List Char) : ∃ e, (e = [] ∨ e = ['\n']) ∧ cs = withoutBreak cs ++ e := by
  rw [withoutBreak]
  split
  · rename_i hlast
    obtain ⟨ds, hds⟩ := List.getLast?_eq_some_iff.mp hlast
    refine ⟨['\n'], .inr rfl, ?_⟩
    rw [hds, List.dropLast_concat]
  · exact ⟨[], .inl rfl, (List.append_nil cs).symm⟩

theorem isWord_of_isNamePart {c : Char} (h : isNamePart c = true) : isWord (.char c) = true := by
  simp only [isNamePart, isNameStart, Bool.or_eq_true] at h
  simp only [isWord, Char.isAlphanum, Bool.or_eq_true]
  rcases h with (h | h) | h
  · exact .inl (.inl h)
  · exact .inr h
  · exact .inl (.inr h)

theorem isName_of_isIdentifier {w : List Char} (h : isIdentifier w = true) : IsName (.ofChars w) := by
  cases w with
  | nil => cases h
  | cons c w =>
    rw [isIdentifier, Bool.and_eq_true] at h
    refine ⟨by simp, ?_⟩
    intro x hx
    obtain ⟨d, hd, rfl⟩ := List.mem_map.mp hx
    apply isWord_of_isNamePart
    rcases List.mem_cons.mp hd with rfl | hd
    · rw [isNamePart, h.1]
      rfl
    · exact List.all_eq_true.mp h.2 d hd

theorem toNat_of_isWord {c : Char} (h : isWord (.char c) = true) : 48 ≤ c.toNat ∧ c.toNat ≤ 122 := by
  have hword : ((c.isUpper || c.isLower || c.isDigit) || c == '_') = true := h
  simp only [Bool.or_eq_true, beq_iff_eq] at hword
  rcases hword with ((hupper | hlower) | hdigit) | rfl
  · have hrange : 65 ≤ c.toNat ∧ c.toNat ≤ 90 := of_decide_eq_true hupper
    omega
  · have hrange : (decide (97 ≤ c.toNat) && decide (c.toNat ≤ 122)) = true := hlower
    simp only [Bool.and_eq_true, decide_eq_true_eq] at hrange
    omega
  · have hrange : (decide (48 ≤ c.toNat) && decide (c.toNat ≤ 57)) = true := hdigit
    simp only [Bool.and_eq_true, decide_eq_true_eq] at hrange
    omega
  · decide

theorem isBlank_of_isWord {c : Code} (h : isWord c = true) : c.isBlank = false := by
  cases c with
  | surrogate i => rfl
  | char c =>
    obtain ⟨hl, hu⟩ := toNat_of_isWord h
    change Text.isBlank c = false
    simp only [Text.isBlank, Bool.or_eq_false_iff, Bool.and_eq_false_iff, decide_eq_false_iff_not,
      beq_eq_false_iff_ne]
    omega

theorem codes_of_chars {t : Text} (h : '\uFFFD' ∉ t.chars) : t.codes = t.chars.map .char := by
  rw [Text.chars, List.map_map]
  calc t.codes = t.codes.map id := (List.map_id _).symm
    _ = t.codes.map (Code.char ∘ fun c => c.char?.getD '\uFFFD') := by
      apply List.map_congr_left
      intro c hc
      cases c with
      | char d => rfl
      | surrogate i => exact absurd (List.mem_map.mpr ⟨Code.surrogate i, hc, rfl⟩) h

theorem trimWith_append {α : Type} {p : α → Bool} {xs ys : List α} (hxs : ∀ x ∈ xs, p x = false)
    (hys : ∀ y ∈ ys, p y = true) : Text.trimWith p (xs ++ ys) = xs := by
  exact (Text.trimWith_between xs (List.forall_mem_nil _) hys).trans (Text.trimWith_of_none hxs)

theorem map_intercalate {α β : Type} (f : α → β) (separator : List α) (ws : List (List α)) :
    (separator.intercalate ws).map f = (separator.map f).intercalate (ws.map (List.map f)) := by
  induction ws with
  | nil => rfl
  | cons w ws ih =>
    cases ws with
    | nil => simp
    | cons x ws =>
      simp only [List.map_cons] at ih ⊢
      rw [List.intercalate_cons_cons, List.intercalate_cons_cons, List.map_append, List.map_append, ih]

def Dotted (t : Text) : Prop :=
  ∃ ws : List Text, ws ≠ [] ∧ (∀ w ∈ ws, IsName w) ∧ t = .intercalate "." ws

namespace Dotted

variable {t : Text}

theorem ne_nil (h : Dotted t) : t.codes ≠ [] := by
  obtain ⟨ws, hne, hws, rfl⟩ := h
  obtain ⟨w, ws, rfl⟩ := List.exists_cons_of_ne_nil hne
  have hw := (hws w List.mem_cons_self).ne_nil
  cases ws with
  | nil =>
    rw [Text.intercalate_singleton]
    exact hw
  | cons v ws =>
    rw [Text.intercalate_cons_cons, Text.append_assoc]
    intro hnil
    exact hw (List.append_eq_nil_iff.mp hnil).1

theorem mem_codes (h : Dotted t) {c : Code} (hc : c ∈ t.codes) : c = .char '.' ∨ isWord c = true := by
  obtain ⟨ws, -, hws, rfl⟩ := h
  rcases mem_intercalate hc with hc | ⟨w, hw, hc⟩
  · exact .inl (List.mem_singleton.mp hc)
  · obtain ⟨v, hv, rfl⟩ := List.mem_map.mp hw
    exact .inr ((hws v hv).word c hc)

theorem lacks (h : Dotted t) {c : Char} (hdot : c ≠ '.') (hc : isWord (.char c) = false) : Lacks c t := by
  rintro x hx rfl
  rcases h.mem_codes hx with hx | hx
  · exact hdot (Code.char.inj hx)
  · rw [hc] at hx
    cases hx

end Dotted

namespace TableName

theorem codes_eq (n : TableName) : n.text.codes = n.text.chars.map .char := by
  obtain ⟨e, he, hchars⟩ := withoutBreak_append n.text.chars
  obtain ⟨ws, hne, hws, hplain⟩ := isPlainName_words n.isName
  rw [hplain] at hchars
  apply codes_of_chars
  intro hmem
  rw [hchars] at hmem
  rcases List.mem_append.mp hmem with hmem | hmem
  · rcases mem_intercalate hmem with hmem | ⟨w, hw, hmem⟩
    · exact absurd hmem (by decide)
    · exact absurd ((isName_of_isIdentifier (hws w hw)).word _ (List.mem_map_of_mem hmem)) (by decide)
  · rcases he with rfl | rfl
    · cases hmem
    · exact absurd hmem (by decide)

theorem text_eq (n : TableName) :
    ∃ t e : Text, Dotted t ∧ (e = "" ∨ e = "\n") ∧ n.text = t ++ e := by
  obtain ⟨e, he, hchars⟩ := withoutBreak_append n.text.chars
  obtain ⟨ws, hne, hws, hplain⟩ := isPlainName_words n.isName
  rw [hplain] at hchars
  refine ⟨.intercalate "." (ws.map .ofChars), .ofChars e, ⟨_, by simpa using hne, ?_, rfl⟩, ?_, ?_⟩
  · intro w hw
    obtain ⟨v, hv, rfl⟩ := List.mem_map.mp hw
    exact isName_of_isIdentifier (hws v hv)
  · rcases he with rfl | rfl
    · exact .inl rfl
    · exact .inr rfl
  · apply congrArg Text.mk
    have hwords : (ws.map Text.ofChars).map Text.codes = ws.map (List.map .char) := by
      rw [List.map_map]
      rfl
    rw [n.codes_eq, hchars, List.map_append, map_intercalate, Text.intercalate, hwords]
    rfl

theorem text_eq_key (n : TableName) :
    Dotted n.key ∧ ∃ e : Text, (e = "" ∨ e = "\n") ∧ n.text = n.key ++ e := by
  obtain ⟨t, e, ht, he, h⟩ := n.text_eq
  have hword : ∀ c ∈ t.codes, c.isBlank = false := by
    intro c hc
    rcases ht.mem_codes hc with rfl | hc
    · rfl
    · exact isBlank_of_isWord hc
  have hblank : ∀ c ∈ e.codes, c.isBlank = true := by
    rcases he with rfl | rfl <;> decide
  have hkey : n.key = t := by
    apply congrArg Text.mk
    rw [h]
    exact trimWith_append hword hblank
  rw [hkey]
  exact ⟨ht, e, he, h⟩

def words (n : TableName) : List Text := (n.key.codes.splitOn (.char '.')).map Text.mk

theorem words_spec (n : TableName) :
    n.words ≠ [] ∧ (∀ w ∈ n.words, IsName w) ∧ n.key = .intercalate "." n.words := by
  obtain ⟨⟨ws, hne, hws, hkey⟩, -⟩ := n.text_eq_key
  have hdot : ∀ l ∈ ws.map Text.codes, Code.char '.' ∉ l := by
    intro l hl hmem
    obtain ⟨w, hw, rfl⟩ := List.mem_map.mp hl
    exact absurd ((hws w hw).word _ hmem) (by decide)
  have hsplit : n.key.codes.splitOn (.char '.') = ws.map Text.codes := by
    have hmap : ws.map Text.codes ≠ [] := by simpa using hne
    rw [hkey]
    exact List.splitOn_intercalate (Code.char '.') hdot hmap
  have hwords : n.words = ws := by
    rw [words, hsplit, List.map_map]
    exact List.map_id _
  rw [hwords]
  exact ⟨hne, hws, hkey⟩

theorem bare_text (n : TableName) : Bare n.text := by
  obtain ⟨hkey, e, he, h⟩ := n.text_eq_key
  have hrest : Lacks '%' e ∧ Lacks '(' e ∧ Lacks ')' e := by
    rcases he with rfl | rfl <;> decide
  rw [h]
  constructor
  · exact fun hnil => hkey.ne_nil (List.append_eq_nil_iff.mp hnil).1
  · exact (hkey.lacks (by decide) (by decide)).append hrest.1
  · exact (hkey.lacks (by decide) (by decide)).append hrest.2.1
  · exact (hkey.lacks (by decide) (by decide)).append hrest.2.2

end TableName

end OrderStore.Sql
