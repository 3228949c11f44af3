import Mathlib.Tactic.SplitIfs
import OrderStore.Json.Reader
import OrderStore.Proofs.Text.Digits
/-!
A document that was written reads back, if it holds no numbers but integers that are not too long: as
itself, except that of members of one name the last counts.
-/

namespace OrderStore.Json

open Text

/-! ## Texts -/

theorem hexUnit?_hexPadded {n : Nat} (h : n < 65536) :
    ∃ a b c d, hexPadded 4 n = [a, b, c, d] ∧ hexUnit? a b c d = some n := by
  refine ⟨hexDigit (n / 16 / 16 / 16 % 16), hexDigit (n / 16 / 16 % 16), hexDigit (n / 16 % 16),
    hexDigit (n % 16), rfl, ?_⟩
  have hv (m : Nat) : hexValue? (hexDigit (m % 16)) = some (m % 16) :=
    hexValue?_hexDigit _ (Nat.mod_lt m (by decide))
  simp only [hexUnit?, hv, bind, Option.bind, pure]
  congr 1
  omega

theorem ofUnit_toNat (c : Char) : Piece.ofUnit c.toNat = .code (.char c) := by
  rw [Piece.ofUnit, Code.surrogate?_toNat, Char.ofNat_toNat]

theorem escapeChar_cases (c : Char) :
    (∃ e, escapeChar c = ['\\', e] ∧ simpleEscape? e = some c ∧ e ≠ 'u') ∨
    (escapeChar c = '\\' :: 'u' :: hexPadded 4 c.toNat ∧ c.toNat < 32) ∨
    (escapeChar c = [c] ∧ c ≠ '"' ∧ c ≠ '\\' ∧ 32 ≤ c.toNat) := by
  have short {e : Char} (he : simpleEscape? e = some c ∧ e ≠ 'u') (hc : escapeChar c = ['\\', e]) :
      ∃ e, escapeChar c = ['\\', e] ∧ simpleEscape? e = some c ∧ e ≠ 'u' := ⟨e, hc, he⟩
  unfold escapeChar
  split_ifs with hquote hslash hline hreturn htab hback hform hcontrol
  · rw [beq_iff_eq] at hquote
    subst hquote
    exact .inl ⟨'"', rfl, by decide⟩
  · rw [beq_iff_eq] at hslash
    subst hslash
    exact .inl ⟨'\\', rfl, by decide⟩
  · rw [beq_iff_eq] at hline
    subst hline
    exact .inl ⟨'n', rfl, by decide⟩
  · rw [beq_iff_eq] at hreturn
    subst hreturn
    exact .inl ⟨'r', rfl, by decide⟩
  · rw [beq_iff_eq] at htab
    subst htab
    exact .inl ⟨'t', rfl, by decide⟩
  · rw [beq_iff_eq] at hback
    subst hback
    exact .inl ⟨'b', rfl, by decide⟩
  · rw [beq_iff_eq] at hform
    subst hform
    exact .inl ⟨'f', rfl, by decide⟩
  · exact .inr (.inl ⟨rfl, hcontrol⟩)
  · rw [beq_iff_eq] at hquote hslash
    exact .inr (.inr ⟨rfl, hquote, hslash, Nat.le_of_not_lt hcontrol⟩)

theorem readPieces_quote (cs : List Code) : readPieces (.char '"' :: cs) = some ([], cs) := by
  unfold readPieces
  simp only [beq_self_eq_true, if_true]

theorem readPieces_escape (c : Code) (cs : List Code) :
    readPieces (escape c ++ cs) = (readPieces cs).map fun (ps, rest) => (.code c :: ps, rest) := by
  cases c with
  | surrogate i => rfl
  | char c =>
    rcases escapeChar_cases c with ⟨e, hc, he, hu⟩ | ⟨hc, hlt⟩ | ⟨hc, hq, hs, hle⟩
    · rw [escape, hc]
      change readPieces (.char '\\' :: .char e :: cs) = _
      rw [readPieces.eq_4]
      · simp [he]
      · intro _ _ _ _ _ _ he
        exact hu he
    · obtain ⟨h₁, h₂, h₃, h₄, hpad, hunit⟩ := hexUnit?_hexPadded (n := c.toNat) (by omega)
      rw [escape, hc, hpad]
      simp [readPieces, hunit, ofUnit_toNat]
    · have hlt : ¬ c.toNat < 32 := by omega
      rw [escape, hc]
      change readPieces (.char c :: cs) = _
      rw [readPieces.eq_def]
      simp [hq, hs, hlt]

theorem textCodes_append (t : Text) (rest : List Code) :
    textCodes t ++ rest = .char '"' :: (t.codes.flatMap escape ++ .char '"' :: rest) := by
  simp [textCodes]

theorem readText_textCodes (t : Text) (rest : List Code) :
    readText (t.codes.flatMap escape ++ .char '"' :: rest) = some (t, rest) := by
  have hpieces (cs : List Code) :
      readPieces (cs.flatMap escape ++ .char '"' :: rest) = some (cs.map .code, rest) := by
    induction cs with
    | nil => exact readPieces_quote rest
    | cons c cs ih =>
      rw [List.flatMap_cons, List.append_assoc, readPieces_escape, ih]
      rfl
  rw [readText, hpieces, Option.map_some]
  simp only [Piece.join_map_code]

/-! ## Numbers and words -/

def Ends (cs : List Code) : Prop :=
  ∀ c rest, cs = c :: rest → c = .char ',' ∨ c = .char ']' ∨ c = .char '\x7d'

theorem ends_nil : Ends [] := by
  intro c rest h
  cases h

theorem Ends.not_char {cs rest : List Code} {c : Char} (h : Ends cs) (hc : cs = .char c :: rest) :
    c = ',' ∨ c = ']' ∨ c = '\x7d' := by
  simpa using h _ _ hc

theorem spanDigits_append {ds : List Char} {rest : List Code} (hd : ∀ c ∈ ds, isDigit c = true)
    (he : Ends rest) : spanDigits (ds.map .char ++ rest) = (ds, rest) := by
  induction ds with
  | nil =>
    change spanDigits rest = _
    unfold spanDigits
    split
    · rename_i c cs
      have hc : isDigit c = false := by
        rcases he.not_char rfl with rfl | rfl | rfl <;> rfl
      rw [hc]
      rfl
    · rfl
  | cons c ds ih =>
    have hc := hd c List.mem_cons_self
    have hds := ih fun x hx => hd x (List.mem_cons_of_mem _ hx)
    simp only [List.map_cons, List.cons_append, spanDigits, hc, hds, if_true]

theorem readFraction_ends {rest : List Code} (he : Ends rest) : readFraction rest = ([], rest) := by
  unfold readFraction
  split
  · rename_i cs
    rcases he.not_char rfl with h | h | h <;> cases h
  · rfl

theorem readPower_ends {rest : List Code} (he : Ends rest) : readPower rest = (none, rest) := by
  unfold readPower
  split
  · rename_i c cs
    rcases he.not_char rfl with rfl | rfl | rfl <;> rfl
  · rfl

theorem readWhole_natChars {n : Nat} {rest : List Code} (he : Ends rest) :
    readWhole ((natChars n).map .char ++ rest) = some (natChars n, rest) := by
  have hspan := spanDigits_append (fun c hc => isDigit_of_mem_natChars (n := n) hc) he
  by_cases hn : n = 0
  · subst hn
    rfl
  · obtain ⟨d, ds, hd, hpos⟩ := head?_digits (Nat.pos_of_ne_zero hn)
    have hlt : d < 10 := lt_ten_of_mem_digits (hd ▸ List.mem_cons_self)
    have hzero : digitChar d ≠ '0' := digitChar_ne_zero d hlt hpos
    have hcs : natChars n = digitChar d :: ds.map digitChar := by rw [natChars, hd, List.map_cons]
    rw [hcs] at hspan ⊢
    unfold readWhole
    split
    · rename_i h
      injection h with h
      injection h with h
      exact absurd h hzero
    · rw [hspan]

theorem readUnsigned_natChars (negative : Bool) {n : Nat} {rest : List Code}
    (hl : (digits n).length ≤ Numeral.maxDigits) (he : Ends rest) :
    readUnsigned negative ((natChars n).map .char ++ rest) =
      some (.int (if negative then -n else n), rest) := by
  have hlen : ¬ Numeral.maxDigits < (natChars n).length := by
    rw [natChars, List.length_map]
    omega
  unfold readUnsigned
  rw [readWhole_natChars he]
  simp only [readFraction_ends he, readPower_ends he, digitsValue_natChars, if_neg hlen]
  rfl

theorem readAtom_null (rest : List Code) :
    readAtom ((Text.ofString "null").codes ++ rest) = some (.null, rest) := rfl

theorem readAtom_bool (b : Bool) (rest : List Code) :
    readAtom ((Text.ofString (if b then "true" else "false")).codes ++ rest) = some (.bool b, rest) := by
  cases b <;> rfl

theorem after?_of_ne {word : String} {x c : Char} {xs : List Char} (cs : List Code)
    (hw : word.toList = x :: xs) (hx : x ≠ c) : after? word (.char c :: cs) = none := by
  simp [after?, Text.ofString, hw, List.isPrefixOf, hx]

theorem readAtom_digit {c : Char} (cs : List Code) (hc : isDigit c = true) :
    readAtom (.char c :: cs) = readUnsigned false (.char c :: cs) := by
  have hskip (word : String) {x : Char} {xs : List Char} (hw : word.toList = x :: xs)
      (hx : isDigit x = false) : after? word (.char c :: cs) = none :=
    after?_of_ne cs hw (ne_of_isDigit hc hx)
  have hminus : '-' ≠ c := ne_of_isDigit hc rfl
  simp only [readAtom, words, List.findSome?, hskip "null" rfl rfl, hskip "true" rfl rfl,
    hskip "false" rfl rfl, hskip "NaN" rfl rfl, hskip "Infinity" rfl rfl, hskip "-Infinity" rfl rfl,
    Option.map_none]
  unfold readNumber
  split
  · rename_i h
    injection h with h
    injection h with h
    exact absurd h.symm hminus
  · rfl

theorem readAtom_minus {c : Char} (cs : List Code) (hc : isDigit c = true) :
    readAtom (.char '-' :: .char c :: cs) = readUnsigned true (.char c :: cs) := by
  have hskip (word : String) {x : Char} {xs : List Char} (hw : word.toList = x :: xs)
      (hx : x ≠ '-') : after? word (.char '-' :: .char c :: cs) = none := after?_of_ne _ hw hx
  have hinfinity : after? "-Infinity" (.char '-' :: .char c :: cs) = none := by
    have hne : 'I' ≠ c := ne_of_isDigit hc rfl
    simp [after?, Text.ofString, List.isPrefixOf, hne]
  simp only [readAtom, words, List.findSome?, hskip "null" rfl (by decide),
    hskip "true" rfl (by decide), hskip "false" rfl (by decide), hskip "NaN" rfl (by decide),
    hskip "Infinity" rfl (by decide), hinfinity, Option.map_none, readNumber]

theorem natChars_eq_cons (n : Nat) : ∃ c cs, natChars n = c :: cs ∧ isDigit c = true := by
  obtain ⟨c, cs, h⟩ := List.exists_cons_of_ne_nil (natChars_ne_nil n)
  exact ⟨c, cs, h, isDigit_of_mem_natChars (h ▸ List.mem_cons_self)⟩

theorem readAtom_int {n : Int} {rest : List Code} (hl : (digits n.natAbs).length ≤ Numeral.maxDigits)
    (he : Ends rest) : readAtom ((intChars n).map .char ++ rest) = some (.int n, rest) := by
  obtain ⟨c, cs, hcs, hc⟩ := natChars_eq_cons n.natAbs
  have hread (negative : Bool) := readUnsigned_natChars negative hl he
  by_cases hn : n < 0
  · have hchars : intChars n = '-' :: natChars n.natAbs := by
      rw [intChars, decide_eq_true hn]
      rfl
    rw [hchars, List.map_cons, List.cons_append, hcs, List.map_cons, List.cons_append,
      readAtom_minus _ hc, ← List.cons_append, ← List.map_cons, ← hcs, hread]
    simp only [if_true]
    rw [Int.ofNat_natAbs_of_nonpos (by omega), Int.neg_neg]
  · have hchars : intChars n = natChars n.natAbs := by
      rw [intChars, decide_eq_false hn]
      rfl
    rw [hchars, hcs, List.map_cons, List.cons_append, readAtom_digit _ hc, ← List.cons_append,
      ← List.map_cons, ← hcs, hread]
    have habs : (n.natAbs : Int) = n := Int.natAbs_of_nonneg (by omega)
    simp [habs]

/-! ## Documents -/

inductive Legible : Json → Prop where
  | null : Legible .null
  | bool (b : Bool) : Legible (.bool b)
  | int {n : Int} (hl : (digits n.natAbs).length ≤ Numeral.maxDigits) : Legible (.int n)
  | text (t : Text) : Legible (.text t)
  | list {xs : List Json} (hx : ∀ x ∈ xs, Legible x) : Legible (.list xs)
  | object {ms : List (Text × Json)} (hm : ∀ m ∈ ms, Legible m.2) : Legible (.object ms)

mutual

def merged : Json → Json
  | .list xs => .list (mergedAll xs)
  | .object ms => ofMembers (mergedMembers ms)
  | j => j

def mergedAll : List Json → List Json
  | [] => []
  | x :: xs => x.merged :: mergedAll xs

def mergedMembers : List (Text × Json) → List (Text × Json)
  | [] => []
  | (name, x) :: ms => (name, x.merged) :: mergedMembers ms

end

theorem skip_char {c : Char} (cs : List Code) (hc : isGap (.char c) = false) :
    skip (.char c :: cs) = .char c :: cs := by
  rw [skip, List.dropWhile_cons, hc]
  rfl

theorem skip_blank {cs : List Code} (hs : skip cs = cs) : skip (.char ' ' :: cs) = cs :=
  hs

theorem isGap_of_isDigit {c : Char} (hc : isDigit c = true) : isGap (.char c) = false := by
  have h₁ : ' ' ≠ c := ne_of_isDigit hc rfl
  have h₂ : '\t' ≠ c := ne_of_isDigit hc rfl
  have h₃ : '\n' ≠ c := ne_of_isDigit hc rfl
  have h₄ : '\r' ≠ c := ne_of_isDigit hc rfl
  simp [isGap, h₁.symm, h₂.symm, h₃.symm, h₄.symm]

theorem codes_eq_cons {j : Json} (hj : Legible j) :
    ∃ c cs, j.codes = .char c :: cs ∧ isGap (.char c) = false ∧ c ≠ ']' ∧ c ≠ '\uFEFF' := by
  cases hj with
  | null => exact ⟨'n', _, rfl, rfl, by decide, by decide⟩
  | bool b =>
    cases b
    · exact ⟨'f', _, rfl, rfl, by decide, by decide⟩
    · exact ⟨'t', _, rfl, rfl, by decide, by decide⟩
  | @int n _ =>
    obtain ⟨c, cs, hcs, hc⟩ := natChars_eq_cons n.natAbs
    simp only [codes, intChars, hcs]
    by_cases hn : n < 0
    · exact ⟨'-', (c :: cs).map .char, by simp [hn, Decimal.signChars], rfl, by decide, by decide⟩
    · refine ⟨c, cs.map .char, by simp [hn, Decimal.signChars], isGap_of_isDigit hc, ?_, ?_⟩
      · exact (ne_of_isDigit hc rfl).symm
      · exact (ne_of_isDigit hc rfl).symm
  | text t => exact ⟨'"', _, rfl, rfl, by decide, by decide⟩
  | @list xs _ =>
    cases xs with
    | nil => exact ⟨'[', _, rfl, rfl, by decide, by decide⟩
    | cons x xs => exact ⟨'[', _, rfl, rfl, by decide, by decide⟩
  | @object ms _ =>
    cases ms with
    | nil => exact ⟨'\x7b', _, rfl, rfl, by decide, by decide⟩
    | cons m ms => exact ⟨'\x7b', _, rfl, rfl, by decide, by decide⟩

theorem skip_codes {j : Json} (hj : Legible j) (rest : List Code) :
    skip (j.codes ++ rest) = j.codes ++ rest := by
  obtain ⟨c, cs, hcs, hgap, -⟩ := codes_eq_cons hj
  rw [hcs, List.cons_append, skip_char _ hgap]

theorem tailCodes_eq_cons (xs : List Json) :
    ∃ c cs, tailCodes xs = .char c :: cs ∧ (c = ',' ∨ c = ']') := by
  cases xs with
  | nil => exact ⟨']', [], rfl, .inr rfl⟩
  | cons x xs => exact ⟨',', _, rfl, .inl rfl⟩

theorem memberTailCodes_eq_cons (ms : List (Text × Json)) :
    ∃ c cs, memberTailCodes ms = .char c :: cs ∧ (c = ',' ∨ c = '\x7d') := by
  cases ms with
  | nil => exact ⟨'\x7d', [], rfl, .inr rfl⟩
  | cons m ms => exact ⟨',', _, rfl, .inl rfl⟩

theorem ends_tailCodes (xs : List Json) (rest : List Code) : Ends (tailCodes xs ++ rest) := by
  obtain ⟨c, cs, hcs, hc⟩ := tailCodes_eq_cons xs
  rintro d ds h
  rw [hcs, List.cons_append, List.cons.injEq] at h
  rcases hc with rfl | rfl <;> simp [← h.1]

theorem ends_memberTailCodes (ms : List (Text × Json)) (rest : List Code) :
    Ends (memberTailCodes ms ++ rest) := by
  obtain ⟨c, cs, hcs, hc⟩ := memberTailCodes_eq_cons ms
  rintro d ds h
  rw [hcs, List.cons_append, List.cons.injEq] at h
  rcases hc with rfl | rfl <;> simp [← h.1]

theorem readValue_text (t : Text) (fuel depth : Nat) (rest : List Code) :
    readValue (fuel + 1) depth (textCodes t ++ rest) = .ok (.text t, rest) := by
  have h := readText_textCodes t rest
  rw [textCodes_append, readValue.eq_def]
  simp [h, orMalformed, Except.map]

theorem readValue_atom {j : Json} {c : Char} {cs rest : List Code} (fuel depth : Nat)
    (h : readAtom (.char c :: cs) = some (j, rest)) (hq : c ≠ '"') (hl : c ≠ '[') (ho : c ≠ '\x7b') :
    readValue (fuel + 1) depth (.char c :: cs) = .ok (j, rest) := by
  rw [readValue.eq_def]
  simp [hq, hl, ho, h, orMalformed]

theorem readValue_list {fuel depth : Nat} {c : Char} {cs rest : List Code} {xs : List Json}
    (hgap : isGap (.char c) = false) (hc : c ≠ ']')
    (h : readElements fuel depth (.char c :: cs) = .ok (xs, rest)) :
    readValue (fuel + 1) (depth + 1) (.char '[' :: .char c :: cs) = .ok (.list xs, rest) := by
  rw [readValue.eq_def]
  simp [skip_char cs hgap, hc, h, Except.map]

theorem readValue_object {fuel depth : Nat} {cs rest : List Code} {ms : List (Text × Json)}
    (h : readMembers fuel depth (.char '"' :: cs) = .ok (ms, rest)) :
    readValue (fuel + 1) (depth + 1) (.char '\x7b' :: .char '"' :: cs) = .ok (ofMembers ms, rest) := by
  have hskip : skip (.char '"' :: cs) = .char '"' :: cs := skip_char cs rfl
  rw [readValue.eq_def]
  simp [hskip, h, Except.map]

theorem readElements_last {fuel depth : Nat} {cs rest : List Code} {x : Json}
    (h : readValue fuel depth cs = .ok (x, .char ']' :: rest)) :
    readElements (fuel + 1) depth cs = .ok ([x], rest) := by
  have hskip : skip (.char ']' :: rest) = .char ']' :: rest := skip_char rest rfl
  rw [readElements, h]
  simp only [Except.bind, hskip]

theorem readElements_next {fuel depth : Nat} {cs cs' rest : List Code} {x : Json} {xs : List Json}
    (h : readValue fuel depth cs = .ok (x, .char ',' :: .char ' ' :: cs')) (hs : skip cs' = cs')
    (hxs : readElements fuel depth cs' = .ok (xs, rest)) :
    readElements (fuel + 1) depth cs = .ok (x :: xs, rest) := by
  have hcomma : skip (.char ',' :: .char ' ' :: cs') = .char ',' :: .char ' ' :: cs' := skip_char _ rfl
  rw [readElements, h]
  simp only [Except.bind, hcomma, skip_blank hs, hxs, Except.map]

theorem readMembers_last {fuel depth : Nat} {name : Text} {x : Json} {cs rest : List Code}
    (hs : skip cs = cs) (h : readValue fuel depth cs = .ok (x, .char '\x7d' :: rest)) :
    readMembers (fuel + 1) depth (textCodes name ++ .char ':' :: .char ' ' :: cs) =
      .ok ([(name, x)], rest) := by
  have hname := readText_textCodes name (.char ':' :: .char ' ' :: cs)
  have hcolon : skip (.char ':' :: .char ' ' :: cs) = .char ':' :: .char ' ' :: cs := skip_char _ rfl
  have hclose : skip (.char '\x7d' :: rest) = .char '\x7d' :: rest := skip_char rest rfl
  rw [textCodes_append, readMembers, hname]
  simp only [orMalformed, Except.bind, hcolon, skip_blank hs, h, hclose]

theorem readMembers_next {fuel depth : Nat} {name : Text} {x : Json} {cs cs' rest : List Code}
    {ms : List (Text × Json)} (hs : skip cs = cs)
    (h : readValue fuel depth cs = .ok (x, .char ',' :: .char ' ' :: cs')) (hs' : skip cs' = cs')
    (hms : readMembers fuel depth cs' = .ok (ms, rest)) :
    readMembers (fuel + 1) depth (textCodes name ++ .char ':' :: .char ' ' :: cs) =
      .ok ((name, x) :: ms, rest) := by
  have hname := readText_textCodes name (.char ':' :: .char ' ' :: cs)
  have hcolon : skip (.char ':' :: .char ' ' :: cs) = .char ':' :: .char ' ' :: cs := skip_char _ rfl
  have hcomma : skip (.char ',' :: .char ' ' :: cs') = .char ',' :: .char ' ' :: cs' := skip_char _ rfl
  rw [textCodes_append, readMembers, hname]
  simp only [orMalformed, Except.bind, hcolon, skip_blank hs, h, hcomma, skip_blank hs', hms, Except.map]

theorem codes_length_pos {j : Json} (hj : Legible j) : 0 < j.codes.length := by
  obtain ⟨c, cs, hcs, -⟩ := codes_eq_cons hj
  rw [hcs]
  exact Nat.succ_pos _

structure Reads (fuel : Nat) : Prop where
  value : ∀ {j : Json} {depth : Nat} {rest : List Code}, Legible j → 2 * j.codes.length ≤ fuel →
    j.depth ≤ depth → Ends rest → readValue fuel depth (j.codes ++ rest) = .ok (j.merged, rest)
  elements : ∀ {x : Json} {xs : List Json} {depth : Nat} (rest : List Code), Legible x →
    (∀ y ∈ xs, Legible y) → 2 * (x.codes.length + (tailCodes xs).length) ≤ fuel → x.depth ≤ depth →
    depths xs ≤ depth →
    readElements fuel depth (x.codes ++ (tailCodes xs ++ rest)) =
      .ok (mergedAll (x :: xs), rest)
  members : ∀ (name : Text) {x : Json} {ms : List (Text × Json)} {depth : Nat} (rest : List Code),
    Legible x → (∀ m ∈ ms, Legible m.2) →
    2 * (x.codes.length + (memberTailCodes ms).length) ≤ fuel → x.depth ≤ depth →
    memberDepths ms ≤ depth →
    readMembers fuel depth
        (textCodes name ++ .char ':' :: .char ' ' :: (x.codes ++ (memberTailCodes ms ++ rest))) =
      .ok (mergedMembers ((name, x) :: ms), rest)

namespace Reads

variable {fuel depth : Nat} {rest : List Code}

theorem value_int {n : Int} (hl : (digits n.natAbs).length ≤ Numeral.maxDigits) (he : Ends rest) :
    readValue (fuel + 1) depth ((Json.int n).codes ++ rest) = .ok (.int n, rest) := by
  have hread := readAtom_int hl he
  obtain ⟨c, cs, hcs, hgap, -⟩ := codes_eq_cons (.int hl)
  change readAtom ((Json.int n).codes ++ rest) = _ at hread
  have hfirst : c = '-' ∨ isDigit c = true := by
    obtain ⟨d, ds, hds, hd⟩ := natChars_eq_cons n.natAbs
    by_cases hn : n < 0
    · simp [codes, intChars, Decimal.signChars, hn] at hcs
      exact .inl hcs.1.symm
    · simp [codes, intChars, Decimal.signChars, hn, hds] at hcs
      exact .inr (hcs.1 ▸ hd)
  have hne {x : Char} (hx : isDigit x = false) (hm : x ≠ '-') : c ≠ x := by
    rintro rfl
    rcases hfirst with h | h
    · exact hm h
    · rw [h] at hx
      cases hx
  rw [hcs, List.cons_append] at hread ⊢
  exact readValue_atom fuel depth hread (hne rfl (by decide)) (hne rfl (by decide))
    (hne rfl (by decide))

theorem value_list (hr : Reads fuel) {xs : List Json} (hx : ∀ x ∈ xs, Legible x)
    (hf : 2 * (Json.list xs).codes.length ≤ fuel + 1) (hd : depths xs ≤ depth) :
    readValue (fuel + 1) (depth + 1) ((Json.list xs).codes ++ rest) = .ok (.list (mergedAll xs), rest) := by
  cases xs with
  | nil =>
    rw [codes, List.cons_append, List.cons_append, List.nil_append, readValue.eq_def]
    rfl
  | cons x xs =>
    simp only [codes, List.length_cons, List.length_append] at hf
    have hfirst := hx x List.mem_cons_self
    have hrest : ∀ y ∈ xs, Legible y := fun y hy => hx y (List.mem_cons_of_mem _ hy)
    have hread := hr.elements rest hfirst hrest (by omega) (Nat.le_trans (Nat.le_max_left ..) hd)
      (Nat.le_trans (Nat.le_max_right ..) hd)
    obtain ⟨c, cs, hcs, hgap, hc, -⟩ := codes_eq_cons hfirst
    rw [codes, List.cons_append, List.append_assoc]
    rw [hcs, List.cons_append] at hread ⊢
    exact readValue_list hgap hc hread

theorem value_object (hr : Reads fuel) {ms : List (Text × Json)} (hm : ∀ m ∈ ms, Legible m.2)
    (hf : 2 * (Json.object ms).codes.length ≤ fuel + 1) (hd : memberDepths ms ≤ depth) :
    readValue (fuel + 1) (depth + 1) ((Json.object ms).codes ++ rest) =
      .ok (ofMembers (mergedMembers ms), rest) := by
  cases ms with
  | nil =>
    rw [codes, List.cons_append, List.cons_append, List.nil_append, readValue.eq_def]
    rfl
  | cons m ms =>
    obtain ⟨name, x⟩ := m
    simp only [codes, List.length_cons, List.length_append] at hf
    have hfirst : Legible x := hm (name, x) List.mem_cons_self
    have hrest : ∀ m ∈ ms, Legible m.2 := fun m h => hm m (List.mem_cons_of_mem _ h)
    have hread := hr.members name rest hfirst hrest (by omega)
      (Nat.le_trans (Nat.le_max_left ..) hd) (Nat.le_trans (Nat.le_max_right ..) hd)
    have hobject := readValue_object hread
    simp only [codes, List.cons_append, List.append_assoc] at hobject ⊢
    exact hobject

theorem value_succ (hr : Reads fuel) {j : Json} (hj : Legible j) (hf : 2 * j.codes.length ≤ fuel + 1)
    (hd : j.depth ≤ depth) (he : Ends rest) :
    readValue (fuel + 1) depth (j.codes ++ rest) = .ok (j.merged, rest) := by
  cases hj with
  | null => exact readValue_atom fuel depth (readAtom_null rest) (by decide) (by decide) (by decide)
  | bool b =>
    have hread := readAtom_bool b rest
    cases b with
    | false => exact readValue_atom fuel depth hread (by decide) (by decide) (by decide)
    | true => exact readValue_atom fuel depth hread (by decide) (by decide) (by decide)
  | int hl => exact value_int hl he
  | text t => exact readValue_text t fuel depth rest
  | @list xs hx =>
    obtain ⟨depth, rfl⟩ : ∃ d, depth = d + 1 := ⟨depth - 1, by rw [Json.depth] at hd; omega⟩
    exact value_list hr hx hf (Nat.le_of_succ_le_succ hd)
  | @object ms hm =>
    obtain ⟨depth, rfl⟩ : ∃ d, depth = d + 1 := ⟨depth - 1, by rw [Json.depth] at hd; omega⟩
    exact value_object hr hm hf (Nat.le_of_succ_le_succ hd)

theorem elements_succ (hr : Reads fuel) {x : Json} {xs : List Json} (hx : Legible x)
    (hxs : ∀ y ∈ xs, Legible y) (hf : 2 * (x.codes.length + (tailCodes xs).length) ≤ fuel + 1)
    (hd : x.depth ≤ depth) (hds : depths xs ≤ depth) :
    readElements (fuel + 1) depth (x.codes ++ (tailCodes xs ++ rest)) =
      .ok (mergedAll (x :: xs), rest) := by
  have htail : 0 < (tailCodes xs).length := by
    obtain ⟨c, cs, hcs, -⟩ := tailCodes_eq_cons xs
    rw [hcs]
    exact Nat.succ_pos _
  have hread := hr.value hx (by omega) hd (ends_tailCodes xs rest)
  cases xs with
  | nil => exact readElements_last hread
  | cons y ys =>
    simp only [tailCodes, List.length_cons, List.length_append] at hf
    have hy := hxs y List.mem_cons_self
    have hys : ∀ z ∈ ys, Legible z := fun z hz => hxs z (List.mem_cons_of_mem _ hz)
    have hnext := hr.elements rest hy hys (by omega) (Nat.le_trans (Nat.le_max_left ..) hds)
      (Nat.le_trans (Nat.le_max_right ..) hds)
    rw [tailCodes, List.cons_append, List.cons_append, List.append_assoc] at hread ⊢
    exact readElements_next hread (skip_codes hy _) hnext

theorem members_succ (hr : Reads fuel) {name : Text} {x : Json} {ms : List (Text × Json)}
    (hx : Legible x) (hms : ∀ m ∈ ms, Legible m.2)
    (hf : 2 * (x.codes.length + (memberTailCodes ms).length) ≤ fuel + 1)
    (hd : x.depth ≤ depth) (hds : memberDepths ms ≤ depth) :
    readMembers (fuel + 1) depth
        (textCodes name ++ .char ':' :: .char ' ' :: (x.codes ++ (memberTailCodes ms ++ rest))) =
      .ok (mergedMembers ((name, x) :: ms), rest) := by
  have htail : 0 < (memberTailCodes ms).length := by
    obtain ⟨c, cs, hcs, -⟩ := memberTailCodes_eq_cons ms
    rw [hcs]
    exact Nat.succ_pos _
  have hread := hr.value hx (by omega) hd (ends_memberTailCodes ms rest)
  cases ms with
  | nil => exact readMembers_last (skip_codes hx _) hread
  | cons m ms =>
    obtain ⟨name', y⟩ := m
    simp only [memberTailCodes, List.length_cons, List.length_append] at hf
    have hy : Legible y := hms (name', y) List.mem_cons_self
    have hys : ∀ m ∈ ms, Legible m.2 := fun m h => hms m (List.mem_cons_of_mem _ h)
    have hnext := hr.members name' rest hy hys (by omega)
      (Nat.le_trans (Nat.le_max_left ..) hds) (Nat.le_trans (Nat.le_max_right ..) hds)
    have hskip := skip_char (c := '"')
      ((name'.codes.flatMap escape ++ [.char '"']) ++ .char ':' :: .char ' ' ::
        (y.codes ++ (memberTailCodes ms ++ rest))) rfl
    simp only [memberTailCodes, List.cons_append, List.append_assoc] at hread hnext ⊢
    exact readMembers_next (skip_codes hx _) hread hskip hnext

end Reads

theorem reads (fuel : Nat) : Reads fuel := by
  -- The three readers call each other, each time with less fuel.
  induction fuel with
  | zero =>
    refine ⟨?_, ?_, ?_⟩
    · intro j depth rest hj hf hd he
      have := codes_length_pos hj
      omega
    · intro x xs depth rest hx hxs hf hd hds
      have := codes_length_pos hx
      omega
    · intro name x ms depth rest hx hms hf hd hds
      have := codes_length_pos hx
      omega
  | succ fuel ih =>
    refine ⟨ih.value_succ, ?_, ?_⟩
    · intro x xs depth rest
      exact ih.elements_succ
    · intro name x ms depth rest
      exact ih.members_succ

theorem read_written_merged {j : Json} (hj : Legible j) (hd : j.depth ≤ maxDepth) : read j.written = .ok j.merged := by
  have hread := (reads (2 * j.codes.length + 2)).value hj (Nat.le_add_right ..) hd ends_nil
  have hskip := skip_codes hj []
  rw [List.append_nil] at hread hskip
  have hcodes : readCodes j.codes = .ok j.merged := by
    rw [readCodes, hskip, hread]
    rfl
  obtain ⟨c, cs, hcs, -, -, hmark⟩ := codes_eq_cons hj
  unfold read written
  rw [hcs] at hcodes ⊢
  split
  · rename_i h
    injection h with h
    injection h with h
    exact absurd h hmark
  · exact hcodes

/-! ## Members of different names -/

inductive Readable : Json → Prop where
  | null : Readable .null
  | bool (b : Bool) : Readable (.bool b)
  | int {n : Int} (hl : (digits n.natAbs).length ≤ Numeral.maxDigits) : Readable (.int n)
  | text (t : Text) : Readable (.text t)
  | list {xs : List Json} (hx : ∀ x ∈ xs, Readable x) : Readable (.list xs)
  | object {ms : List (Text × Json)} (hm : ∀ m ∈ ms, Readable m.2) (hn : (ms.map Prod.fst).Nodup) :
    Readable (.object ms)

theorem ofMembers_of_nodup {ms : List (Text × Json)} (hn : (ms.map Prod.fst).Nodup) :
    ofMembers ms = .object ms := by
  rw [ofMembers, Assoc.ofList_of_pairwise]
  apply (List.pairwise_map.mp hn).imp
  intro a b hab
  exact beq_eq_false_iff_ne.mpr hab

theorem mergedAll_eq_map (xs : List Json) : mergedAll xs = xs.map merged := by
  induction xs with
  | nil => rfl
  | cons x xs ih => rw [mergedAll, ih, List.map_cons]

theorem mergedMembers_eq_map (ms : List (Text × Json)) :
    mergedMembers ms = ms.map fun m => (m.1, m.2.merged) := by
  induction ms with
  | nil => rfl
  | cons m ms ih => rw [mergedMembers, ih, List.map_cons]

theorem Readable.legible {j : Json} (hj : Readable j) : Legible j := by
  induction hj with
  | null => exact .null
  | bool b => exact .bool b
  | int hl => exact .int hl
  | text t => exact .text t
  | list hx ih => exact .list ih
  | object hm hn ih => exact .object ih

theorem Readable.merged_eq {j : Json} (hj : Readable j) : j.merged = j := by
  induction hj with
  | @list xs hx ih => rw [merged, mergedAll_eq_map, List.map_congr_left ih, List.map_id']
  | @object ms hm hn ih =>
    have hms : mergedMembers ms = ms := by
      rw [mergedMembers_eq_map]
      calc ms.map _ = ms.map id := List.map_congr_left fun m hmem => by rw [ih m hmem]; rfl
        _ = ms := List.map_id ms
    rw [merged, hms, ofMembers_of_nodup hn]
  | _ => rfl

theorem read_written {j : Json} (hj : Readable j) (hd : j.depth ≤ maxDepth) : read j.written = .ok j := by
  rw [read_written_merged hj.legible hd, hj.merged_eq]

end OrderStore.Json
