import Mathlib.Data.List.TakeWhile
import OrderStore.Proofs.Except
import OrderStore.Proofs.Sql.TableName

namespace OrderStore.Sql

open Text (Code)

def NameStart (c : Char) : Prop := ('A' ≤ c ∧ c ≤ 'Z') ∨ ('a' ≤ c ∧ c ≤ 'z') ∨ c = '_'

def NamePart (c : Char) : Prop := NameStart c ∨ ('0' ≤ c ∧ c ≤ '9')

instance (c : Char) : Decidable (NameStart c) := inferInstanceAs (Decidable (_ ∨ _ ∨ _))

instance (c : Char) : Decidable (NamePart c) := inferInstanceAs (Decidable (_ ∨ _))

inductive Identifier : List Char → Prop where
  | mk {c : Char} {cs : List Char} (hc : NameStart c) (hcs : ∀ d ∈ cs, NamePart d) : Identifier (c :: cs)

inductive PlainName : List Char → Prop where
  | bare {cs : List Char} (h : Identifier cs) : PlainName cs
  | dotted {schema table : List Char} (hs : Identifier schema) (ht : Identifier table) :
    PlainName (schema ++ '.' :: table)

def IsPlain (t : Text) : Prop := ∃ cs, PlainName cs ∧ t = .ofChars cs

theorem isNameStart_iff {c : Char} : isNameStart c = true ↔ NameStart c := by
  have hupper : c.isUpper = true ↔ 'A' ≤ c ∧ c ≤ 'Z' := by
    rw [Char.le_def, Char.le_def]
    exact decide_eq_true_iff
  have hlower : c.isLower = true ↔ 'a' ≤ c ∧ c ≤ 'z' := by
    rw [Char.le_def, Char.le_def, ← decide_eq_true_iff (p := _ ≤ c.val),
      ← decide_eq_true_iff (p := c.val ≤ _)]
    exact Bool.and_eq_true_iff
  have halpha : c.isAlpha = true ↔ c.isUpper = true ∨ c.isLower = true := Bool.or_eq_true_iff
  rw [isNameStart, Bool.or_eq_true, halpha, hupper, hlower, beq_iff_eq, or_assoc, NameStart]

theorem isNamePart_iff {c : Char} : isNamePart c = true ↔ NamePart c := by
  simp only [isNamePart, NamePart, Bool.or_eq_true, isNameStart_iff, Char.isDigit, Bool.and_eq_true,
    decide_eq_true_eq, Char.le_def]

theorem isIdentifier_iff {cs : List Char} : isIdentifier cs = true ↔ Identifier cs := by
  cases cs with
  | nil =>
    apply iff_of_false (by decide)
    intro h
    cases h
  | cons c cs =>
    rw [isIdentifier, Bool.and_eq_true, isNameStart_iff, List.all_eq_true]
    simp only [isNamePart_iff]
    constructor
    · rintro ⟨hc, hcs⟩
      exact .mk hc hcs
    · rintro ⟨hc, hcs⟩
      exact ⟨hc, hcs⟩

instance (cs : List Char) : Decidable (Identifier cs) := decidable_of_iff _ isIdentifier_iff

theorem Identifier.mem {cs : List Char} (h : Identifier cs) {c : Char} (hc : c ∈ cs) : NamePart c := by
  obtain ⟨hstart, hparts⟩ := h
  rcases List.mem_cons.mp hc with rfl | hc
  · exact .inl hstart
  · exact hparts c hc

theorem Identifier.dot_not_mem {cs : List Char} (h : Identifier cs) : '.' ∉ cs :=
  fun hdot => absurd (h.mem hdot) (by decide)

theorem splitDot?_eq_none {cs : List Char} (h : '.' ∉ cs) : splitDot? cs = none := by
  have hdrop : cs.dropWhile (· != '.') = [] := by
    rw [List.dropWhile_eq_nil_iff]
    intro c hc
    simpa using fun hdot : c = '.' => h (hdot ▸ hc)
  rw [splitDot?, hdrop]

theorem splitDot?_append {schema : List Char} (h : '.' ∉ schema) (table : List Char) :
    splitDot? (schema ++ '.' :: table) = some (schema, table) := by
  have hschema : ∀ c ∈ schema, (c != '.') = true := by
    intro c hc
    simpa using fun hdot : c = '.' => h (hdot ▸ hc)
  rw [splitDot?, List.dropWhile_append_of_pos hschema, List.takeWhile_append_of_pos hschema]
  simp

theorem isPlainName_iff {cs : List Char} : isPlainName cs = true ↔ PlainName cs := by
  constructor
  · intro h
    rcases isPlainName_cases h with h | ⟨schema, table, hschema, htable, rfl⟩
    · exact .bare (isIdentifier_iff.mp h)
    · exact .dotted (isIdentifier_iff.mp hschema) (isIdentifier_iff.mp htable)
  · rintro (h | ⟨hs, ht⟩)
    · rw [isPlainName, splitDot?_eq_none h.dot_not_mem]
      exact isIdentifier_iff.mpr h
    · rw [isPlainName, splitDot?_append hs.dot_not_mem]
      exact Bool.and_eq_true_iff.mpr ⟨isIdentifier_iff.mpr hs, isIdentifier_iff.mpr ht⟩

theorem PlainName.mem {cs : List Char} (h : PlainName cs) {c : Char} (hc : c ∈ cs) : NamePart c ∨ c = '.' := by
  cases h with
  | bare h => exact .inl (h.mem hc)
  | dotted hs ht =>
    rcases List.mem_append.mp hc with hc | hc
    · exact .inl (hs.mem hc)
    · rcases List.mem_cons.mp hc with rfl | hc
      · exact .inr rfl
      · exact .inl (ht.mem hc)

theorem IsPlain.lacks {t : Text} (h : IsPlain t) {c : Char} (hc : ¬ NamePart c) (hdot : c ≠ '.') : Lacks c t := by
  obtain ⟨cs, hcs, rfl⟩ := h
  intro x hx hxc
  obtain ⟨d, hd, rfl⟩ := List.mem_map.mp hx
  obtain rfl : d = c := Code.char.inj hxc
  exact (hcs.mem hd).elim hc hdot

theorem Identifier.append {cs ds : List Char} (h : Identifier cs) (hds : ∀ d ∈ ds, NamePart d) :
    Identifier (cs ++ ds) := by
  obtain ⟨hc, hcs⟩ := h
  exact .mk hc (List.forall_mem_append.mpr ⟨hcs, hds⟩)

theorem PlainName.withoutBreak_eq {cs : List Char} (h : PlainName cs) : withoutBreak cs = cs := by
  rw [withoutBreak, if_neg]
  intro hlast
  have hbreak := h.mem (List.mem_of_getLast? hlast)
  exact absurd hbreak (by decide)

theorem isTableName_iff {cs : List Char} :
    isTableName cs = true ↔ ∃ name, PlainName name ∧ (cs = name ∨ cs = name ++ ['\n']) := by
  rw [isTableName, isPlainName_iff]
  constructor
  · intro h
    obtain ⟨e, he, hcs⟩ := withoutBreak_append cs
    refine ⟨_, h, ?_⟩
    rcases he with rfl | rfl
    · exact .inl (hcs.trans (List.append_nil _))
    · exact .inr hcs
  · rintro ⟨name, h, rfl | rfl⟩
    · rwa [h.withoutBreak_eq]
    · have hlast : (name ++ ['\n']).getLast? = some '\n' := by simp
      rw [withoutBreak, if_pos hlast, List.dropLast_concat]
      exact h

namespace TableName

theorem text_eq_ofChars (n : TableName) : n.text = .ofChars n.text.chars := congrArg Text.mk n.codes_eq

theorem isPlain (n : TableName) (h : isPlainName n.text.chars = true) : IsPlain n.text :=
  ⟨_, isPlainName_iff.mp h, n.text_eq_ofChars⟩

theorem exists_text_iff {t : Text} :
    (∃ n : TableName, n.text = t) ↔ ∃ u, IsPlain u ∧ (t = u ∨ t = u ++ "\n") := by
  constructor
  · rintro ⟨n, rfl⟩
    obtain ⟨name, hname, h⟩ := isTableName_iff.mp n.isName
    refine ⟨_, ⟨name, hname, rfl⟩, ?_⟩
    rw [n.text_eq_ofChars]
    rcases h with h | h
    · exact .inl (congrArg Text.ofChars h)
    · right
      rw [h]
      exact Text.ofChars_append name ['\n']
  · rintro ⟨u, ⟨name, hname, rfl⟩, rfl | rfl⟩
    · refine ⟨⟨.ofChars name, isTableName_iff.mpr ⟨name, hname, .inl ?_⟩⟩, rfl⟩
      exact Text.chars_ofChars name
    · have hchars : (Text.ofChars name ++ "\n").chars = name ++ ['\n'] := by
        change (Text.ofChars name ++ Text.ofChars ['\n']).chars = _
        rw [← Text.ofChars_append, Text.chars_ofChars]
      exact ⟨⟨_, isTableName_iff.mpr ⟨name, hname, .inr hchars⟩⟩, rfl⟩

theorem ofValue_of_forall_ne {v : Value} (h : ∀ n : TableName, v ≠ .text n.text) :
    ofValue v = .error (.badTableName v) := by
  unfold ofValue
  split
  · rw [dif_neg]
    intro hname
    exact h ⟨_, hname⟩ rfl
  · rfl

theorem ofValue_eq_ok_iff {v : Value} {n : TableName} : ofValue v = .ok n ↔ v = .text n.text := by
  constructor
  · intro h
    by_contra hne
    by_cases hv : ∃ m : TableName, v = .text m.text
    · obtain ⟨m, rfl⟩ := hv
      rw [ofValue_text] at h
      cases h
      exact hne rfl
    · rw [ofValue_of_forall_ne (not_exists.mp hv)] at h
      cases h
  · rintro rfl
    exact ofValue_text n

theorem ofValue_eq_error_iff {v : Value} {e : Error} :
    ofValue v = .error e ↔ e = .badTableName v ∧ ∀ n : TableName, v ≠ .text n.text := by
  constructor
  · intro h
    have hnone : ∀ n : TableName, v ≠ .text n.text := by
      rintro n rfl
      rw [ofValue_text] at h
      cases h
    rw [ofValue_of_forall_ne hnone] at h
    cases h
    exact ⟨rfl, hnone⟩
  · rintro ⟨rfl, hnone⟩
    exact ofValue_of_forall_ne hnone

end TableName

namespace Tables

theorem ofValues_eq_ok_iff {orders relations indexed : Value} {ts : Tables} :
    ofValues orders relations indexed = .ok ts ↔
      orders = .text ts.orders.text ∧ relations = .text ts.relations.text ∧
        indexed = .text ts.indexed.text := by
  simp only [← TableName.ofValue_eq_ok_iff]
  constructor
  · intro h
    obtain ⟨o, ho, h⟩ := bind_eq_ok.mp h
    obtain ⟨r, hr, h⟩ := bind_eq_ok.mp h
    obtain ⟨i, hi, h⟩ := bind_eq_ok.mp h
    cases h
    exact ⟨ho, hr, hi⟩
  · rintro ⟨ho, hr, hi⟩
    rw [ofValues, ho, hr, hi]
    rfl

theorem ofValues_eq_error {orders relations indexed : Value} {e : Error}
    (h : ofValues orders relations indexed = .error e) :
    ∃ v ∈ [orders, relations, indexed], TableName.ofValue v = .error e := by
  rcases bind_eq_error.mp h with ho | ⟨o, -, h⟩
  · exact ⟨orders, by simp, ho⟩
  rcases bind_eq_error.mp h with hr | ⟨r, -, h⟩
  · exact ⟨relations, by simp, hr⟩
  rcases bind_eq_error.mp h with hi | ⟨i, -, h⟩
  · exact ⟨indexed, by simp, hi⟩
  cases h

end Tables

end OrderStore.Sql
