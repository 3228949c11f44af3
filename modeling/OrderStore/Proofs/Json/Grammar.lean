import OrderStore.Proofs.Json.Taken
/-!
The grammar of JSON texts, stated on its own, and that the reader takes whatever follows it. Only numbers
of too many digits and lists and objects too deep inside each other keep it from doing so.
-/

namespace OrderStore.Json

open Text

/-! ## The grammar -/

def IsGaps (cs : List Code) : Prop := ∀ c ∈ cs, c ∈ [Code.char ' ', .char '\t', .char '\n', .char '\r']

def IsHex (c : Char) : Prop := ('0' ≤ c ∧ c ≤ '9') ∨ ('a' ≤ c ∧ c ≤ 'f') ∨ ('A' ≤ c ∧ c ≤ 'F')

inductive IsChars : List Code → Prop where
  | nil : IsChars []
  | char {c : Char} {cs : List Code} (hq : c ≠ '"') (hs : c ≠ '\\') (hc : 32 ≤ c.toNat) (h : IsChars cs) :
    IsChars (.char c :: cs)
  | surrogate (i : Fin 2048) {cs : List Code} (h : IsChars cs) : IsChars (.surrogate i :: cs)
  | escape {e : Char} {cs : List Code} (he : e ∈ ['"', '\\', '/', 'b', 'f', 'n', 'r', 't'])
    (h : IsChars cs) : IsChars (.char '\\' :: .char e :: cs)
  | unit {a b c d : Char} {cs : List Code} (ha : IsHex a) (hb : IsHex b) (hc : IsHex c) (hd : IsHex d)
    (h : IsChars cs) :
    IsChars (.char '\\' :: .char 'u' :: .char a :: .char b :: .char c :: .char d :: cs)

def AreDigits (ds : List Char) : Prop := ds ≠ [] ∧ ∀ c ∈ ds, isDigit c = true

inductive IsWhole : List Char → Prop where
  | zero : IsWhole ['0']
  | digits {d : Char} {ds : List Char} (hd : d ≠ '0') (h : AreDigits (d :: ds)) : IsWhole (d :: ds)

inductive IsFraction : List Char → Prop where
  | none : IsFraction []
  | digits {ds : List Char} (h : AreDigits ds) : IsFraction ('.' :: ds)

inductive IsPower : List Char → Prop where
  | none : IsPower []
  | digits {e : Char} {sign ds : List Char} (he : e = 'e' ∨ e = 'E')
    (hs : sign = [] ∨ sign = ['+'] ∨ sign = ['-']) (h : AreDigits ds) : IsPower (e :: (sign ++ ds))

/-- A number; `admits` restricts the digits of those that are integers. -/
inductive IsNumber (admits : List Char → Prop) : List Char → Prop where
  | parts {sign whole fraction power : List Char} (hs : sign = [] ∨ sign = ['-']) (hw : IsWhole whole)
    (hf : IsFraction fraction) (hp : IsPower power)
    (ha : fraction = [] → power = [] → admits whole) :
    IsNumber admits (sign ++ (whole ++ (fraction ++ power)))

inductive Part where
  | value
  | elements
  | moreElements
  | members
  | moreMembers

/-- The codes of a part of a document. Elements and members are what stands between the brackets, gaps
included, if there are any. -/
inductive Grammar (admits : List Char → Prop) : Part → List Code → Prop where
  | word {w : String} (h : w ∈ ["null", "true", "false"]) : Grammar admits .value (Text.ofString w).codes
  | number {cs : List Char} (h : IsNumber admits cs) : Grammar admits .value (cs.map .char)
  | text {cs : List Code} (h : IsChars cs) : Grammar admits .value (.char '"' :: (cs ++ [.char '"']))
  | emptyList {g : List Code} (hg : IsGaps g) : Grammar admits .value (.char '[' :: (g ++ [.char ']']))
  | list {cs : List Code} (h : Grammar admits .elements cs) :
    Grammar admits .value (.char '[' :: (cs ++ [.char ']']))
  | emptyObject {g : List Code} (hg : IsGaps g) :
    Grammar admits .value (.char '\x7b' :: (g ++ [.char '\x7d']))
  | object {cs : List Code} (h : Grammar admits .members cs) :
    Grammar admits .value (.char '\x7b' :: (cs ++ [.char '\x7d']))
  | elements {g cs g' more : List Code} (hg : IsGaps g) (hx : Grammar admits .value cs) (hg' : IsGaps g')
    (h : Grammar admits .moreElements more) : Grammar admits .elements (g ++ (cs ++ (g' ++ more)))
  | lastElement : Grammar admits .moreElements []
  | nextElement {cs : List Code} (h : Grammar admits .elements cs) :
    Grammar admits .moreElements (.char ',' :: cs)
  | members {g₁ name g₂ g₃ cs g₄ more : List Code} (hg₁ : IsGaps g₁) (hn : IsChars name)
    (hg₂ : IsGaps g₂) (hg₃ : IsGaps g₃) (hx : Grammar admits .value cs) (hg₄ : IsGaps g₄)
    (h : Grammar admits .moreMembers more) :
    Grammar admits .members
      (g₁ ++ .char '"' :: (name ++ .char '"' :: (g₂ ++ .char ':' :: (g₃ ++ (cs ++ (g₄ ++ more))))))
  | lastMember : Grammar admits .moreMembers []
  | nextMember {cs : List Code} (h : Grammar admits .members cs) :
    Grammar admits .moreMembers (.char ',' :: cs)

def IsDocument (admits : List Char → Prop) (cs : List Code) : Prop :=
  ∃ g v g', cs = g ++ (v ++ g') ∧ IsGaps g ∧ Grammar admits .value v ∧ IsGaps g'

def IsObject (cs : List Code) : Prop := (skip cs).head? = some (.char '\x7b')

instance (cs : List Code) : Decidable (IsObject cs) :=
  inferInstanceAs (Decidable ((skip cs).head? = some (.char '\x7b')))

def Short (ds : List Char) : Prop := ds.length ≤ Numeral.maxDigits

/-! ## Gaps and texts -/

theorem IsGaps.eq_or {cs : List Code} {c : Code} (h : IsGaps cs) (hc : c ∈ cs) :
    c = .char ' ' ∨ c = .char '\t' ∨ c = .char '\n' ∨ c = .char '\r' := by
  simpa using h c hc

theorem IsGaps.isGap {cs : List Code} (h : IsGaps cs) : ∀ c ∈ cs, isGap c = true := by
  intro c hc
  rcases h.eq_or hc with rfl | rfl | rfl | rfl <;> rfl

theorem skip_gaps {g : List Code} (hg : IsGaps g) (cs : List Code) : skip (g ++ cs) = skip cs := by
  rw [skip, List.dropWhile_append_of_pos hg.isGap]
  rfl

theorem IsHex.hexValue? {c : Char} (h : IsHex c) : ∃ v, hexValue? c = some v := by
  unfold Text.hexValue?
  split_ifs with hdigit hlower hupper
  · exact ⟨_, rfl⟩
  · exact ⟨_, rfl⟩
  · exact ⟨_, rfl⟩
  · simp only [Bool.and_eq_true, decide_eq_true_eq] at hdigit hlower hupper
    rcases h with h | h | h
    · exact absurd h hdigit
    · exact absurd h hlower
    · exact absurd h hupper

theorem hexUnit?_of_isHex {a b c d : Char} (ha : IsHex a) (hb : IsHex b) (hc : IsHex c) (hd : IsHex d) :
    ∃ u, hexUnit? a b c d = some u := by
  obtain ⟨v, hv⟩ := ha.hexValue?
  obtain ⟨w, hw⟩ := hb.hexValue?
  obtain ⟨x, hx⟩ := hc.hexValue?
  obtain ⟨y, hy⟩ := hd.hexValue?
  refine ⟨((v * 16 + w) * 16 + x) * 16 + y, ?_⟩
  simp [hexUnit?, hv, hw, hx, hy]

theorem readPieces_isChars {cs : List Code} (h : IsChars cs) (rest : List Code) :
    ∃ ps, readPieces (cs ++ .char '"' :: rest) = some (ps, rest) := by
  induction h with
  | nil => exact ⟨[], readPieces_quote rest⟩
  | @char c cs hq hs hc h ih =>
    obtain ⟨ps, hps⟩ := ih
    refine ⟨.code (.char c) :: ps, ?_⟩
    rw [List.cons_append, readPieces.eq_def]
    simp [hq, hs, Nat.not_lt.mpr hc, hps]
  | surrogate i h ih =>
    obtain ⟨ps, hps⟩ := ih
    rw [List.cons_append, readPieces, hps]
    exact ⟨_, rfl⟩
  | @escape e cs he h ih =>
    obtain ⟨ps, hps⟩ := ih
    obtain ⟨⟨c, hc⟩, hu⟩ : (∃ c, simpleEscape? e = some c) ∧ e ≠ 'u' := by
      simp only [List.mem_cons, List.not_mem_nil, or_false] at he
      rcases he with rfl | rfl | rfl | rfl | rfl | rfl | rfl | rfl <;> exact ⟨⟨_, rfl⟩, by decide⟩
    refine ⟨.code (.char c) :: ps, ?_⟩
    rw [List.cons_append, List.cons_append, readPieces.eq_4]
    · simp [hc, hps]
    · intro _ _ _ _ _ _ he
      exact hu he
  | unit ha hb hc hd h ih =>
    obtain ⟨ps, hps⟩ := ih
    obtain ⟨u, hu⟩ := hexUnit?_of_isHex ha hb hc hd
    refine ⟨.ofUnit u :: ps, ?_⟩
    simp [readPieces, hu, hps]

theorem readText_isChars {cs : List Code} (h : IsChars cs) (rest : List Code) :
    ∃ t, readText (cs ++ .char '"' :: rest) = some (t, rest) := by
  obtain ⟨ps, hps⟩ := readPieces_isChars h rest
  refine ⟨⟨Piece.join ps⟩, ?_⟩
  rw [readText, hps]
  rfl

/-! ## Numbers and words -/

def NoDigit (cs : List Code) : Prop := ∀ c rest, cs = .char c :: rest → isDigit c = false

def Stops (cs : List Code) : Prop :=
  ∀ c rest, cs = .char c :: rest → isDigit c = false ∧ c ≠ '.' ∧ c ≠ 'e' ∧ c ≠ 'E'

theorem Stops.noDigit {cs : List Code} (h : Stops cs) : NoDigit cs :=
  fun c rest hcs => (h c rest hcs).1

theorem noDigit_cons {c : Char} (hc : isDigit c = false) (cs : List Code) : NoDigit (.char c :: cs) := by
  intro d rest h
  cases h
  exact hc

theorem spanDigits_noDigit {ds : List Char} {rest : List Code} (hd : ∀ c ∈ ds, isDigit c = true)
    (hrest : NoDigit rest) : spanDigits (ds.map .char ++ rest) = (ds, rest) := by
  induction ds with
  | nil =>
    change spanDigits rest = _
    unfold spanDigits
    split
    · rw [hrest _ _ rfl]
      rfl
    · rfl
  | cons c ds ih =>
    have hc := hd c List.mem_cons_self
    have hds := ih fun x hx => hd x (List.mem_cons_of_mem _ hx)
    simp only [List.map_cons, List.cons_append, spanDigits, hc, hds, if_true]

theorem readWhole_isWhole {whole : List Char} {rest : List Code} (h : IsWhole whole)
    (hrest : NoDigit rest) : readWhole (whole.map .char ++ rest) = some (whole, rest) := by
  cases h with
  | zero => rfl
  | @digits d ds hd h =>
    have hspan := spanDigits_noDigit h.2 hrest
    unfold readWhole
    split
    · rename_i hzero
      cases hzero
      exact absurd rfl hd
    · rw [hspan]

theorem readFraction_isFraction {fraction : List Char} {rest : List Code} (h : IsFraction fraction)
    (hrest : NoDigit rest) (hpoint : ∀ cs, rest ≠ .char '.' :: cs) :
    ∃ ds, readFraction (fraction.map .char ++ rest) = (ds, rest) ∧ (ds = [] → fraction = []) := by
  cases h with
  | none =>
    refine ⟨[], ?_, fun _ => rfl⟩
    rw [List.map_nil, List.nil_append]
    unfold readFraction
    split
    · exact absurd rfl (hpoint _)
    · rfl
  | @digits ds h =>
    refine ⟨ds, ?_, fun hnil => absurd hnil h.1⟩
    have hspan := spanDigits_noDigit h.2 hrest
    obtain ⟨d, ds, rfl⟩ := List.exists_cons_of_ne_nil h.1
    rw [List.map_cons, List.cons_append, readFraction, hspan]

theorem readPower_isPower {power : List Char} {rest : List Code} (h : IsPower power) (hrest : Stops rest) :
    ∃ n, readPower (power.map .char ++ rest) = (n, rest) ∧ (n = none → power = []) := by
  cases h with
  | none =>
    refine ⟨none, ?_, fun _ => rfl⟩
    rw [List.map_nil, List.nil_append]
    unfold readPower
    split
    · obtain ⟨-, -, he, hE⟩ := hrest _ _ rfl
      simp [he, hE]
    · rfl
  | @digits e sign ds he hs h =>
    have hspan := spanDigits_noDigit h.2 hrest.noDigit
    have hexponent : (e == 'e' || e == 'E') = true := by rcases he with rfl | rfl <;> rfl
    obtain ⟨d, ds, rfl⟩ := List.exists_cons_of_ne_nil h.1
    have hd := h.2 d List.mem_cons_self
    have hminus : '-' ≠ d := ne_of_isDigit hd rfl
    have hplus : '+' ≠ d := ne_of_isDigit hd rfl
    rw [List.map_cons, List.cons_append] at hspan
    have hread : ∃ n, readPower ((e :: (sign ++ d :: ds)).map .char ++ rest) = (some n, rest) := by
      rcases hs with rfl | rfl | rfl <;>
        simp [readPower, hexponent, hspan, hminus.symm, hplus.symm]
    obtain ⟨n, hn⟩ := hread
    exact ⟨some n, hn, nofun⟩

theorem noDigit_power {power : List Char} {rest : List Code} (h : IsPower power) (hrest : Stops rest) :
    NoDigit (power.map .char ++ rest) ∧ ∀ cs, power.map .char ++ rest ≠ .char '.' :: cs := by
  cases h with
  | none => exact ⟨hrest.noDigit, fun cs hcs => (hrest _ _ hcs).2.1 rfl⟩
  | digits he =>
    rw [List.map_cons, List.cons_append]
    rcases he with rfl | rfl <;> exact ⟨noDigit_cons rfl _, nofun⟩

theorem noDigit_fraction {fraction : List Char} {rest : List Code} (h : IsFraction fraction)
    (hrest : NoDigit rest) : NoDigit (fraction.map .char ++ rest) := by
  cases h with
  | none => exact hrest
  | digits h => exact noDigit_cons rfl _

theorem readUnsigned_isNumber {whole fraction power : List Char} {rest : List Code} (negative : Bool)
    (hw : IsWhole whole) (hf : IsFraction fraction) (hp : IsPower power)
    (ha : fraction = [] → power = [] → Short whole) (hrest : Stops rest) :
    ∃ j, readUnsigned negative ((whole ++ (fraction ++ power)).map .char ++ rest) = some (j, rest) ∧
      ∀ ms, j ≠ .object ms := by
  obtain ⟨hdigit, hpoint⟩ := noDigit_power hp hrest
  obtain ⟨part, hpart, hpartnil⟩ := readFraction_isFraction hf hdigit hpoint
  obtain ⟨n, hn, hnone⟩ := readPower_isPower hp hrest
  have hwhole := readWhole_isWhole hw (noDigit_fraction hf hdigit)
  rw [List.map_append, List.map_append, List.append_assoc, List.append_assoc, readUnsigned, hwhole]
  simp only [hpart, hn]
  split
  · rename_i hinteger
    simp only [Bool.and_eq_true, List.isEmpty_iff, Option.isNone_iff_eq_none] at hinteger
    have hshort := ha (hpartnil hinteger.1) (hnone hinteger.2)
    rw [if_neg (Nat.not_lt.mpr hshort)]
    exact ⟨_, rfl, nofun⟩
  · exact ⟨_, rfl, nofun⟩

theorem IsWhole.exists_digit {whole : List Char} (h : IsWhole whole) :
    ∃ c cs, whole = c :: cs ∧ isDigit c = true := by
  cases h with
  | zero => exact ⟨'0', [], rfl, rfl⟩
  | digits _ h => exact ⟨_, _, rfl, h.2 _ List.mem_cons_self⟩

theorem IsNumber.exists_first {admits : List Char → Prop} {cs : List Char} (h : IsNumber admits cs) :
    ∃ c ds, cs = c :: ds ∧ (isDigit c = true ∨ c = '-') := by
  obtain ⟨hs, hw, -⟩ := h
  obtain ⟨c, ds, rfl, hc⟩ := hw.exists_digit
  rcases hs with rfl | rfl
  · exact ⟨c, _, rfl, .inl hc⟩
  · exact ⟨'-', _, rfl, .inr rfl⟩

theorem readAtom_isNumber {cs : List Char} {rest : List Code} (h : IsNumber Short cs) (hrest : Stops rest) :
    ∃ j, readAtom (cs.map .char ++ rest) = some (j, rest) ∧ ∀ ms, j ≠ .object ms := by
  obtain ⟨hs, hw, hf, hp, ha⟩ := h
  rename_i sign whole fraction power
  have hread (negative : Bool) := readUnsigned_isNumber negative hw hf hp ha hrest
  obtain ⟨c, ds, rfl, hc⟩ := hw.exists_digit
  simp only [List.map_cons, List.cons_append] at hread
  rcases hs with rfl | rfl
  · simp only [List.nil_append, List.map_cons, List.cons_append]
    rw [readAtom_digit _ hc]
    exact hread false
  · simp only [List.map_cons, List.cons_append, List.nil_append]
    rw [readAtom_minus _ hc]
    exact hread true

theorem eq_or_of_word {w : String} (h : w ∈ ["null", "true", "false"]) :
    w = "null" ∨ w = "true" ∨ w = "false" := by
  simpa using h

theorem readAtom_word {w : String} (h : w ∈ ["null", "true", "false"]) (rest : List Code) :
    ∃ j, readAtom ((Text.ofString w).codes ++ rest) = some (j, rest) ∧ ∀ ms, j ≠ .object ms := by
  rcases eq_or_of_word h with rfl | rfl | rfl
  · exact ⟨.null, readAtom_null rest, nofun⟩
  · exact ⟨.bool true, readAtom_bool true rest, nofun⟩
  · exact ⟨.bool false, readAtom_bool false rest, nofun⟩

/-! ## Documents -/

/-- What was read is as it should be, and so is what is left; or the codes were found too deep. -/
def Accepted {α : Type} (P : α → Prop) (rest : List Code) : Except Fault (α × List Code) → Prop
  | .ok (a, rest') => P a ∧ rest' = rest
  | .error .malformed => False
  | .error (.tooDeep _) => True

namespace Accepted

variable {α β : Type} {P : α → Prop} {Q : β → Prop} {rest rest' : List Code}
  {r : Except Fault (α × List Code)}

theorem bind {f : α × List Code → Except Fault (β × List Code)} (h : Accepted P rest r)
    (hf : ∀ a, P a → Accepted Q rest' (f (a, rest))) : Accepted Q rest' (r.bind f) := by
  match r, h with
  | .ok (a, _), ⟨ha, rfl⟩ => exact hf a ha
  | .error (.tooDeep _), _ => trivial

theorem map {f : α × List Code → β × List Code} (h : Accepted P rest r)
    (hf : ∀ a, P a → Q (f (a, rest)).1 ∧ (f (a, rest)).2 = rest) : Accepted Q rest (r.map f) := by
  match r, h with
  | .ok (a, _), ⟨ha, rfl⟩ => exact hf a ha
  | .error (.tooDeep _), _ => trivial

end Accepted

variable {admits : List Char → Prop} {cs : List Code}

theorem Grammar.exists_first {v : List Code} (h : Grammar admits .value v) :
    ∃ c cs, v = .char c :: cs ∧ isGap (.char c) = false ∧ c ≠ ']' ∧ c ≠ '\uFEFF' := by
  cases h with
  | word h =>
    rcases eq_or_of_word h with rfl | rfl | rfl
    · exact ⟨'n', _, rfl, rfl, by decide, by decide⟩
    · exact ⟨'t', _, rfl, rfl, by decide, by decide⟩
    · exact ⟨'f', _, rfl, rfl, by decide, by decide⟩
  | number h =>
    obtain ⟨c, ds, rfl, hc | rfl⟩ := h.exists_first
    · exact ⟨c, _, rfl, isGap_of_isDigit hc, (ne_of_isDigit hc rfl).symm, (ne_of_isDigit hc rfl).symm⟩
    · exact ⟨'-', _, rfl, rfl, by decide, by decide⟩
  | text h => exact ⟨'"', _, rfl, rfl, by decide, by decide⟩
  | emptyList hg => exact ⟨'[', _, rfl, rfl, by decide, by decide⟩
  | list h => exact ⟨'[', _, rfl, rfl, by decide, by decide⟩
  | emptyObject hg => exact ⟨'\x7b', _, rfl, rfl, by decide, by decide⟩
  | object h => exact ⟨'\x7b', _, rfl, rfl, by decide, by decide⟩

theorem Grammar.skip_value {v : List Code} (h : Grammar admits .value v) (rest : List Code) :
    skip (v ++ rest) = v ++ rest := by
  obtain ⟨c, ds, rfl, hc, -⟩ := h.exists_first
  exact skip_char _ hc

theorem Grammar.skip_elements (h : Grammar admits .elements cs) (rest : List Code) :
    ∃ c ds, skip (cs ++ rest) = .char c :: ds ∧ c ≠ ']' := by
  cases h with
  | elements hg hx hg' h =>
    obtain ⟨c, ds, hv, -, hc, -⟩ := hx.exists_first
    rw [List.append_assoc, skip_gaps hg, List.append_assoc, hx.skip_value, hv]
    exact ⟨c, _, rfl, hc⟩

theorem Grammar.skip_members (h : Grammar admits .members cs) (rest : List Code) :
    ∃ ds, skip (cs ++ rest) = .char '"' :: ds := by
  cases h with
  | members hg =>
    rw [List.append_assoc, skip_gaps hg]
    exact ⟨_, skip_char _ rfl⟩

theorem stops_nil : Stops [] := nofun

theorem stops_gaps {g : List Code} (hg : IsGaps g) (h : Stops cs) : Stops (g ++ cs) := by
  cases g with
  | nil => exact h
  | cons x g =>
    intro c rest hcs
    cases hcs
    rcases hg.eq_or List.mem_cons_self with h | h | h | h <;> cases h <;> decide

theorem stops_cons {c : Char} (hc : c = ',' ∨ c = ']' ∨ c = '\x7d') (cs : List Code) :
    Stops (.char c :: cs) := by
  intro d rest h
  cases h
  rcases hc with rfl | rfl | rfl <;> decide

def IsObjectIff (v : List Code) (j : Json) : Prop :=
  (∃ ms, j = .object ms) ↔ v.head? = some (.char '\x7b')

theorem isObjectIff_of_ne {c : Char} {j : Json} (hc : c ≠ '\x7b') (hj : ∀ ms, j ≠ .object ms)
    (cs : List Code) : IsObjectIff (.char c :: cs) j := by
  constructor
  · rintro ⟨ms, rfl⟩
    exact absurd rfl (hj ms)
  · intro h
    cases h
    exact absurd rfl hc

def ValueTaken (v : List Code) : Prop :=
  ∀ fuel depth rest, 2 * v.length ≤ fuel → Stops rest →
    Accepted (IsObjectIff v) rest (readValue fuel depth (v ++ rest))

def ElementsTaken (cs : List Code) : Prop :=
  ∀ fuel depth rest, 2 * cs.length + 1 ≤ fuel →
    Accepted (fun _ => True) rest (readElements fuel depth (skip (cs ++ .char ']' :: rest)))

def MembersTaken (cs : List Code) : Prop :=
  ∀ fuel depth rest, 2 * cs.length + 1 ≤ fuel →
    Accepted (fun _ => True) rest (readMembers fuel depth (skip (cs ++ .char '\x7d' :: rest)))

def Part.Taken : Part → List Code → Prop
  | .value, v => ValueTaken v
  | .elements, cs => ElementsTaken cs
  | .moreElements, more => more = [] ∨ ∃ cs, more = .char ',' :: cs ∧ ElementsTaken cs
  | .members, cs => MembersTaken cs
  | .moreMembers, more => more = [] ∨ ∃ cs, more = .char ',' :: cs ∧ MembersTaken cs

theorem valueTaken_cons {c : Char}
    (h : ∀ fuel depth rest, 2 * cs.length + 1 ≤ fuel → Stops rest →
      Accepted (IsObjectIff (.char c :: cs)) rest (readValue (fuel + 1) depth (.char c :: (cs ++ rest)))) :
    ValueTaken (.char c :: cs) := by
  intro fuel depth rest hf hrest
  rw [List.length_cons] at hf
  obtain ⟨fuel, rfl⟩ := Nat.exists_eq_add_one.mpr (show 0 < fuel by omega)
  exact h fuel depth rest (by omega) hrest

theorem valueTaken_atom {c : Char} (hq : c ≠ '"') (hl : c ≠ '[') (ho : c ≠ '\x7b')
    (h : ∀ rest, Stops rest → ∃ j, readAtom (.char c :: cs ++ rest) = some (j, rest) ∧
      ∀ ms, j ≠ .object ms) : ValueTaken (.char c :: cs) := by
  refine valueTaken_cons fun fuel depth rest hf hrest => ?_
  obtain ⟨j, hj, hobject⟩ := h rest hrest
  rw [List.cons_append] at hj
  rw [readValue_atom fuel depth hj hq hl ho]
  exact ⟨isObjectIff_of_ne ho hobject cs, rfl⟩

theorem readValue_bracket (fuel depth : Nat) (cs : List Code) :
    readValue (fuel + 1) depth (.char '[' :: cs) =
      match depth with
      | 0 => .error (.tooDeep false)
      | depth + 1 =>
        match skip cs with
        | .char ']' :: rest => .ok (.list [], rest)
        | rest => (readElements fuel depth rest).map fun (xs, rest) => (.list xs, rest) := by
  rw [readValue.eq_def]
  rfl

theorem readValue_brace (fuel depth : Nat) (cs : List Code) :
    readValue (fuel + 1) depth (.char '\x7b' :: cs) =
      match depth with
      | 0 => .error (.tooDeep true)
      | depth + 1 =>
        match skip cs with
        | .char '\x7d' :: rest => .ok (.object [], rest)
        | rest => (readMembers fuel depth rest).map fun (ms, rest) => (ofMembers ms, rest) := by
  rw [readValue.eq_def]
  rfl

theorem valueTaken_text (h : IsChars cs) : ValueTaken (.char '"' :: (cs ++ [.char '"'])) := by
  refine valueTaken_cons fun fuel depth rest hf hrest => ?_
  obtain ⟨t, ht⟩ := readText_isChars h rest
  have hread : readValue (fuel + 1) depth (.char '"' :: (cs ++ .char '"' :: rest)) = .ok (.text t, rest) := by
    rw [readValue.eq_def]
    simp only [beq_self_eq_true, if_true, ht]
    rfl
  rw [List.append_assoc, List.singleton_append, hread]
  exact ⟨isObjectIff_of_ne (by decide) (fun ms h => by cases h) _, rfl⟩

theorem valueTaken_emptyList {g : List Code} (hg : IsGaps g) : ValueTaken (.char '[' :: (g ++ [.char ']'])) := by
  refine valueTaken_cons fun fuel depth rest hf hrest => ?_
  rw [List.append_assoc, List.singleton_append, readValue_bracket]
  match depth with
  | 0 => trivial
  | depth + 1 =>
    simp only [skip_gaps hg, skip_char (c := ']') rest rfl]
    exact ⟨isObjectIff_of_ne (by decide) (fun ms h => by cases h) _, rfl⟩

theorem valueTaken_list (h : Grammar admits .elements cs) (ih : ElementsTaken cs) :
    ValueTaken (.char '[' :: (cs ++ [.char ']'])) := by
  refine valueTaken_cons fun fuel depth rest hf hrest => ?_
  rw [List.length_append, List.length_singleton] at hf
  rw [List.append_assoc, List.singleton_append, readValue_bracket]
  match depth with
  | 0 => trivial
  | depth + 1 =>
    obtain ⟨c, ds, hskip, hc⟩ := h.skip_elements (.char ']' :: rest)
    have hread := ih fuel depth rest (by omega)
    rw [hskip] at hread
    simp only [hskip]
    split
    · rename_i hclose
      cases hclose
      exact absurd rfl hc
    · exact hread.map fun xs _ => ⟨isObjectIff_of_ne (by decide) (fun ms h => by cases h) _, rfl⟩

theorem valueTaken_emptyObject {g : List Code} (hg : IsGaps g) :
    ValueTaken (.char '\x7b' :: (g ++ [.char '\x7d'])) := by
  refine valueTaken_cons fun fuel depth rest hf hrest => ?_
  rw [List.append_assoc, List.singleton_append, readValue_brace]
  match depth with
  | 0 => trivial
  | depth + 1 =>
    simp only [skip_gaps hg, skip_char (c := '\x7d') rest rfl]
    exact ⟨⟨fun _ => rfl, fun _ => ⟨[], rfl⟩⟩, rfl⟩

theorem valueTaken_object (h : Grammar admits .members cs) (ih : MembersTaken cs) :
    ValueTaken (.char '\x7b' :: (cs ++ [.char '\x7d'])) := by
  refine valueTaken_cons fun fuel depth rest hf hrest => ?_
  rw [List.length_append, List.length_singleton] at hf
  rw [List.append_assoc, List.singleton_append, readValue_brace]
  match depth with
  | 0 => trivial
  | depth + 1 =>
    obtain ⟨ds, hskip⟩ := h.skip_members (.char '\x7d' :: rest)
    have hread := ih fuel depth rest (by omega)
    rw [hskip] at hread
    simp only [hskip]
    exact hread.map fun ms _ => ⟨⟨fun _ => rfl, fun _ => ⟨_, rfl⟩⟩, rfl⟩

theorem stops_more {p : List Code → Prop} {more : List Code} {c : Char}
    (h : more = [] ∨ ∃ cs, more = .char ',' :: cs ∧ p cs) (hc : c = ']' ∨ c = '\x7d') (rest : List Code) :
    Stops (more ++ .char c :: rest) := by
  rcases h with rfl | ⟨cs, rfl, -⟩
  · exact stops_cons (.inr hc) rest
  · exact stops_cons (.inl rfl) _

theorem elementsTaken {g v g' more : List Code} (hg : IsGaps g) (hx : Grammar admits .value v)
    (hv : ValueTaken v) (hg' : IsGaps g') (hmore : Part.Taken .moreElements more) :
    ElementsTaken (g ++ (v ++ (g' ++ more))) := by
  intro fuel depth rest hf
  simp only [List.length_append] at hf
  obtain ⟨fuel, rfl⟩ := Nat.exists_eq_add_one.mpr (show 0 < fuel by omega)
  simp only [List.append_assoc]
  rw [skip_gaps hg, hx.skip_value, readElements]
  refine (hv fuel depth _ (by omega) (stops_gaps hg' (stops_more hmore (.inl rfl) rest))).bind fun x _ => ?_
  simp only [skip_gaps hg']
  rcases hmore with rfl | ⟨cs, rfl, hcs⟩
  · rw [List.nil_append, skip_char rest rfl]
    exact ⟨trivial, rfl⟩
  · rw [List.cons_append, skip_char _ rfl]
    rw [List.length_cons] at hf
    exact (hcs fuel depth rest (by omega)).map fun _ _ => ⟨trivial, rfl⟩

theorem membersTaken {g₁ name g₂ g₃ v g₄ more : List Code} (hg₁ : IsGaps g₁) (hn : IsChars name)
    (hg₂ : IsGaps g₂) (hg₃ : IsGaps g₃) (hx : Grammar admits .value v) (hv : ValueTaken v)
    (hg₄ : IsGaps g₄) (hmore : Part.Taken .moreMembers more) :
    MembersTaken
      (g₁ ++ .char '"' :: (name ++ .char '"' :: (g₂ ++ .char ':' :: (g₃ ++ (v ++ (g₄ ++ more)))))) := by
  intro fuel depth rest hf
  simp only [List.length_append, List.length_cons] at hf
  obtain ⟨fuel, rfl⟩ := Nat.exists_eq_add_one.mpr (show 0 < fuel by omega)
  simp only [List.append_assoc, List.cons_append]
  obtain ⟨t, ht⟩ := readText_isChars hn
    (g₂ ++ .char ':' :: (g₃ ++ (v ++ (g₄ ++ (more ++ .char '\x7d' :: rest)))))
  rw [skip_gaps hg₁, skip_char _ rfl, readMembers]
  simp only [ht, orMalformed, Except.bind, skip_gaps hg₂, skip_char (c := ':') _ rfl, skip_gaps hg₃,
    hx.skip_value]
  refine (hv fuel depth _ (by omega) (stops_gaps hg₄ (stops_more hmore (.inr rfl) rest))).bind fun x _ => ?_
  simp only [skip_gaps hg₄]
  rcases hmore with rfl | ⟨cs, rfl, hcs⟩
  · rw [List.nil_append, skip_char rest rfl]
    exact ⟨trivial, rfl⟩
  · rw [List.cons_append, skip_char _ rfl]
    rw [List.length_cons] at hf
    exact (hcs fuel depth rest (by omega)).map fun _ _ => ⟨trivial, rfl⟩

theorem Grammar.taken {part : Part} (h : Grammar Short part cs) : part.Taken cs := by
  induction h with
  | word h =>
    have hread := readAtom_word h
    rcases eq_or_of_word h with rfl | rfl | rfl <;>
      exact valueTaken_atom (by decide) (by decide) (by decide) fun rest _ => hread rest
  | number h =>
    have hread (rest : List Code) (hrest : Stops rest) := readAtom_isNumber h hrest
    obtain ⟨c, ds, rfl, hc | rfl⟩ := h.exists_first
    · exact valueTaken_atom (ne_of_isDigit hc rfl).symm (ne_of_isDigit hc rfl).symm
        (ne_of_isDigit hc rfl).symm hread
    · exact valueTaken_atom (by decide) (by decide) (by decide) hread
  | text h => exact valueTaken_text h
  | emptyList hg => exact valueTaken_emptyList hg
  | list h ih => exact valueTaken_list h ih
  | emptyObject hg => exact valueTaken_emptyObject hg
  | object h ih => exact valueTaken_object h ih
  | elements hg hx hg' _ hv hmore => exact elementsTaken hg hx hv hg' hmore
  | lastElement => exact .inl rfl
  | nextElement _ ih => exact .inr ⟨_, rfl, ih⟩
  | members hg₁ hn hg₂ hg₃ hx hg₄ _ hv hmore => exact membersTaken hg₁ hn hg₂ hg₃ hx hv hg₄ hmore
  | lastMember => exact .inl rfl
  | nextMember _ ih => exact .inr ⟨_, rfl, ih⟩

theorem IsDocument.exists_first (h : IsDocument admits cs) : ∃ c ds, cs = .char c :: ds ∧ c ≠ '\uFEFF' := by
  obtain ⟨g, v, g', rfl, hg, hv, -⟩ := h
  cases g with
  | nil =>
    obtain ⟨c, ds, rfl, -, -, hc⟩ := hv.exists_first
    exact ⟨c, _, rfl, hc⟩
  | cons x g =>
    rcases hg.eq_or List.mem_cons_self with rfl | rfl | rfl | rfl <;> exact ⟨_, _, rfl, by decide⟩

theorem readCodes_document (h : IsDocument Short cs) :
    (∃ j, readCodes cs = .ok j ∧ ((∃ ms, j = .object ms) ↔ IsObject cs)) ∨
      ∃ b, readCodes cs = .error (.tooDeep b) := by
  obtain ⟨g, v, g', rfl, hg, hv, hg'⟩ := h
  have hfuel : 2 * v.length ≤ 2 * (g ++ (v ++ g')).length + 2 := by
    simp only [List.length_append]
    omega
  have hstops : Stops g' := by simpa only [List.append_nil] using stops_gaps hg' stops_nil
  have hfront : skip (g ++ (v ++ g')) = v ++ g' := by rw [skip_gaps hg, hv.skip_value]
  have hend : skip g' = [] := List.dropWhile_eq_nil_iff.mpr hg'.isGap
  have hread := hv.taken _ maxDepth g' hfuel hstops
  rw [readCodes, hfront]
  generalize readValue (2 * (g ++ (v ++ g')).length + 2) maxDepth (v ++ g') = r at hread
  cases r with
  | ok a =>
    obtain ⟨j, rest⟩ := a
    obtain ⟨hj, rfl⟩ := hread
    refine .inl ⟨j, ?_, ?_⟩
    · simp only [Except.bind, hend, List.isEmpty_nil, if_true]
    · rw [IsObject, hfront]
      obtain ⟨c, ds, rfl, -⟩ := hv.exists_first
      exact hj
  | error fault =>
    cases fault with
    | malformed => cases hread
    | tooDeep b => exact .inr ⟨b, rfl⟩

theorem readCodes_long {ds : List Char} (h : IsWhole ds) (hl : Numeral.maxDigits < ds.length) :
    readCodes (ds.map .char) = .error .malformed := by
  have hwhole : readWhole (ds.map .char ++ []) = some (ds, []) := readWhole_isWhole h nofun
  rw [List.append_nil] at hwhole
  obtain ⟨c, cs, rfl, hc⟩ := h.exists_digit
  have hatom : readAtom ((c :: cs).map .char) = none := by
    rw [List.map_cons, readAtom_digit _ hc, ← List.map_cons, readUnsigned, hwhole]
    simp only [readFraction, readPower, List.isEmpty_nil, Option.isNone_none, Bool.and_self,
      if_true, if_pos hl]
  have hq : c ≠ '"' := (ne_of_isDigit hc rfl).symm
  have hlist : c ≠ '[' := (ne_of_isDigit hc rfl).symm
  have hobject : c ≠ '\x7b' := (ne_of_isDigit hc rfl).symm
  rw [List.map_cons] at hatom ⊢
  rw [readCodes, skip_char _ (isGap_of_isDigit hc), readValue.eq_def]
  simp [hq, hlist, hobject, hatom, orMalformed, Except.bind]

end OrderStore.Json
