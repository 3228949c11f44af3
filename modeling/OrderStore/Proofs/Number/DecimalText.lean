import OrderStore.Proofs.Text.Digits
import OrderStore.Proofs.Text.Trim

namespace OrderStore.Decimal

open Text

/-- The decimals that texts and computations give: a finite one keeps to the range of exponents. -/
def InRange : Decimal → Prop
  | .finite _ coefficient exponent => Representable coefficient exponent
  | _ => True

instance (d : Decimal) : Decidable d.InRange := by
  cases d <;> unfold InRange <;> infer_instance

def IsBare (c : Char) : Prop := c ≠ '_' ∧ 32 < c.toNat ∧ c.toNat < 128

theorem isBare_of_isDigit {c : Char} (hc : isDigit c = true) : IsBare c := by
  obtain ⟨hl, hu⟩ := toNat_of_isDigit hc
  exact ⟨(ne_of_isDigit hc rfl).symm, by omega, by omega⟩

theorem IsBare.isBlank {c : Char} (hc : IsBare c) : isBlank c = false := by
  obtain ⟨-, hl, hu⟩ := hc
  simp only [Text.isBlank, Bool.or_eq_false_iff, Bool.and_eq_false_iff, decide_eq_false_iff_not,
    beq_eq_false_iff_ne]
  omega

theorem plain?_eq_self {cs : List Char} (h : ∀ c ∈ cs, IsBare c) : plain? cs = some cs := by
  induction cs with
  | nil => rfl
  | cons c cs ih =>
    obtain ⟨hc, hl, hu⟩ := h c List.mem_cons_self
    have hascii : (decide (0 < c.toNat) && decide (c.toNat < 128)) = true := by
      simp only [Bool.and_eq_true, decide_eq_true_eq]
      omega
    rw [plain?, if_neg (by simpa using hc), if_pos hascii, ih fun x hx => h x (List.mem_cons_of_mem _ hx)]
    rfl

theorem isBare_of_mem_signChars (negative : Bool) : ∀ c ∈ signChars negative, IsBare c := by
  cases negative <;> simp [signChars, IsBare]

theorem plain?_trim_eq_self {cs : List Char} (h : ∀ c ∈ cs, IsBare c) :
    plain? (trimWith isBlank cs) = some cs := by
  rw [trimWith_of_none fun c hc => (h c hc).isBlank, plain?_eq_self h]

theorem readSigned?_signChars {α : Type} {readUnsigned? : Bool → List Char → Option α} (negative : Bool)
    {c : Char} {cs : List Char} (h : ∀ x ∈ c :: cs, IsBare x) (hminus : c ≠ '-') (hplus : c ≠ '+') :
    readSigned? readUnsigned? (signChars negative ++ c :: cs) = readUnsigned? negative (c :: cs) := by
  have hbare : ∀ x ∈ signChars negative ++ c :: cs, IsBare x :=
    List.forall_mem_append.mpr ⟨isBare_of_mem_signChars negative, h⟩
  rw [readSigned?, plain?_trim_eq_self hbare]
  cases negative with
  | true => rfl
  | false =>
    simp only [signChars, Bool.false_eq_true, if_false, List.nil_append, Option.bind_some]
    split
    · rename_i heq
      exact absurd (List.cons.inj heq).1 hminus
    · rename_i heq
      exact absurd (List.cons.inj heq).1 hplus
    · rfl

def Closes (cs : List Char) : Prop := ∀ c, cs.head? = some c → isDigit c = false

theorem spanDigits_append {ds cs : List Char} (hds : ∀ c ∈ ds, isDigit c = true) (hcs : Closes cs) :
    spanDigits (ds ++ cs) = (ds, cs) := by
  rw [spanDigits, List.takeWhile_append_of_pos hds, List.dropWhile_append_of_pos hds]
  cases cs with
  | nil => simp
  | cons c cs => simp [hcs c rfl]

theorem digitsValue_zeros (n : Nat) (ds : List Char) :
    digitsValue (List.replicate n '0' ++ ds) = digitsValue ds := by
  induction n with
  | zero => rfl
  | succ n ih =>
    rw [List.replicate_succ, List.cons_append, ← ih]
    rfl

theorem readFraction_point {ds cs : List Char} (hds : ∀ c ∈ ds, isDigit c = true) (hcs : Closes cs) :
    readFraction ('.' :: (ds ++ cs)) = (ds, cs) :=
  spanDigits_append hds hcs

theorem readScientific?_pointed {ds tail : List Char} {power : Int} (hds : ∀ c ∈ ds, isDigit c = true)
    (hne : ds ≠ []) (htail : Closes tail) (hpoint : tail.head? ≠ some '.')
    (hpower : readExponent? tail = some power) (places : Nat) :
    readScientific? (pointed ds places ++ tail) = some (digitsValue ds, power - places) := by
  have hdot (cs : List Char) : Closes ('.' :: cs) := by
    intro c hc
    obtain rfl : '.' = c := Option.some.inj hc
    rfl
  -- No point at all, a point among the digits, or a point with zeros behind it.
  rw [pointed]
  split
  · rename_i h
    subst h
    have hfraction : readFraction tail = ([], tail) := by
      cases tail with
      | nil => rfl
      | cons c cs =>
        have hc : c ≠ '.' := fun h => hpoint (congrArg some h)
        unfold readFraction
        split
        · rename_i heq
          exact absurd (List.cons.inj heq).1 hc
        · rfl
    simp [readScientific?, spanDigits_append hds htail, hfraction, hne, hpower]
  split
  · rename_i hlt
    have hfront : ∀ c ∈ ds.take (ds.length - places), isDigit c = true :=
      fun c hc => hds c (List.mem_of_mem_take hc)
    have hback : ∀ c ∈ ds.drop (ds.length - places), isDigit c = true :=
      fun c hc => hds c (List.mem_of_mem_drop hc)
    have hlength : (ds.drop (ds.length - places)).length = places := by
      rw [List.length_drop]
      omega
    have hempty : (ds.take (ds.length - places)).isEmpty = false := by
      rw [List.isEmpty_eq_false_iff, ← List.length_pos_iff, List.length_take]
      omega
    rw [List.append_assoc, List.cons_append]
    simp only [readScientific?, spanDigits_append hfront (hdot _), readFraction_point hback htail, hempty,
      Bool.false_and, Bool.false_eq_true, if_false, hpower, Option.map_some, List.take_append_drop, hlength]
  · rename_i hle
    have hzeros : ∀ c ∈ List.replicate (places - ds.length) '0' ++ ds, isDigit c = true := by
      intro c hc
      rcases List.mem_append.mp hc with hc | hc
      · rw [List.eq_of_mem_replicate hc]
        rfl
      · exact hds c hc
    have hlength : (List.replicate (places - ds.length) '0' ++ ds).length = places := by
      rw [List.length_append, List.length_replicate]
      omega
    have hzero : ∀ c ∈ ['0'], isDigit c = true := List.forall_mem_singleton.mpr rfl
    have hspan : spanDigits ('0' :: '.' :: (List.replicate (places - ds.length) '0' ++ ds) ++ tail) =
        (['0'], '.' :: (List.replicate (places - ds.length) '0' ++ ds ++ tail)) :=
      spanDigits_append hzero (hdot _)
    have hvalue : digitsValue (['0'] ++ (List.replicate (places - ds.length) '0' ++ ds)) =
        digitsValue ds := by
      rw [← List.append_assoc]
      exact digitsValue_zeros (places - ds.length + 1) ds
    simp only [readScientific?, hspan, readFraction_point hzeros htail, List.isEmpty_cons, Bool.false_and,
      Bool.false_eq_true, if_false, hpower, Option.map_some, hvalue, hlength]

theorem readExponent?_signed (adjusted : Int) :
    readExponent? ('E' :: (if adjusted < 0 then '-' else '+') :: natChars adjusted.natAbs) =
      some adjusted := by
  have hdigits : (natChars adjusted.natAbs).all isDigit = true :=
    List.all_eq_true.mpr fun c hc => isDigit_of_mem_natChars hc
  have hne : (natChars adjusted.natAbs).isEmpty = false :=
    List.isEmpty_eq_false_iff.mpr (natChars_ne_nil _)
  by_cases h : adjusted < 0
  · have hvalue : -(digitsValue (natChars adjusted.natAbs) : Int) = adjusted := by
      rw [digitsValue_natChars]
      omega
    rw [if_pos h]
    simp only [readExponent?, hne, hdigits]
    exact congrArg some hvalue
  · have hvalue : (digitsValue (natChars adjusted.natAbs) : Int) = adjusted := by
      rw [digitsValue_natChars]
      omega
    rw [if_neg h]
    simp only [readExponent?, hne, hdigits]
    exact congrArg some hvalue

def finiteChars (coefficient : Nat) (exponent : Int) : List Char :=
  let ds := natChars coefficient
  let adjusted := exponent + ds.length - 1
  if exponent ≤ 0 ∧ -6 ≤ adjusted then pointed ds exponent.natAbs else scientific ds adjusted

theorem readScientific?_finiteChars (coefficient : Nat) (exponent : Int) :
    readScientific? (finiteChars coefficient exponent) = some (coefficient, exponent) := by
  have hds : ∀ c ∈ natChars coefficient, isDigit c = true := fun c => isDigit_of_mem_natChars
  have hne := natChars_ne_nil coefficient
  have hpos : 0 < (natChars coefficient).length := List.length_pos_iff.mpr hne
  simp only [finiteChars]
  split
  · rename_i h
    have hplain := @readScientific?_pointed _ [] 0 hds hne nofun nofun rfl exponent.natAbs
    rw [List.append_nil, digitsValue_natChars] at hplain
    rw [hplain]
    congr 2
    omega
  · have hclose : Closes ('E' :: (if exponent + (natChars coefficient).length - 1 < 0 then '-' else '+') ::
        natChars (exponent + (natChars coefficient).length - 1).natAbs) := by
      intro c hc
      obtain rfl : 'E' = c := Option.some.inj hc
      rfl
    have hscientific := readScientific?_pointed hds hne hclose (by simp) (readExponent?_signed _)
      ((natChars coefficient).length - 1)
    rw [digitsValue_natChars] at hscientific
    rw [scientific, hscientific]
    congr 2
    omega

def StartsBare (cs : List Char) : Prop :=
  (∃ c rest, cs = c :: rest ∧ isDigit c = true) ∧ ∀ c ∈ cs, IsBare c

theorem StartsBare.append {cs tail : List Char} (h : StartsBare cs) (ht : ∀ c ∈ tail, IsBare c) :
    StartsBare (cs ++ tail) := by
  obtain ⟨⟨c, rest, rfl, hc⟩, hbare⟩ := h
  refine ⟨⟨c, rest ++ tail, rfl, hc⟩, ?_⟩
  intro x hx
  rcases List.mem_append.mp hx with hx | hx
  · exact hbare x hx
  · exact ht x hx

theorem StartsBare.of_digits {ds : List Char} (hds : ∀ c ∈ ds, isDigit c = true) (hne : ds ≠ []) :
    StartsBare ds := by
  obtain ⟨c, rest, rfl⟩ := List.exists_cons_of_ne_nil hne
  exact ⟨⟨c, rest, rfl, hds c List.mem_cons_self⟩, fun x hx => isBare_of_isDigit (hds x hx)⟩

theorem startsBare_pointed {ds : List Char} (hds : ∀ c ∈ ds, isDigit c = true) (hne : ds ≠ [])
    (places : Nat) : StartsBare (pointed ds places) := by
  have hpoint {cs : List Char} (hcs : ∀ c ∈ cs, isDigit c = true) : ∀ c ∈ '.' :: cs, IsBare c := by
    intro c hc
    rcases List.mem_cons.mp hc with rfl | hc
    · exact ⟨by decide, by decide, by decide⟩
    · exact isBare_of_isDigit (hcs c hc)
  rw [pointed]
  split
  · exact .of_digits hds hne
  split
  · have hfront : ds.take (ds.length - places) ≠ [] := by
      rw [← List.length_pos_iff, List.length_take]
      omega
    exact (StartsBare.of_digits (fun c hc => hds c (List.mem_of_mem_take hc)) hfront).append
      (hpoint fun c hc => hds c (List.mem_of_mem_drop hc))
  · have hzero : StartsBare ['0'] := .of_digits (List.forall_mem_singleton.mpr rfl) nofun
    refine hzero.append (hpoint fun c hc => ?_)
    rcases List.mem_append.mp hc with hc | hc
    · rw [List.eq_of_mem_replicate hc]
      rfl
    · exact hds c hc

theorem startsBare_finiteChars (coefficient : Nat) (exponent : Int) :
    StartsBare (finiteChars coefficient exponent) := by
  have hds : ∀ c ∈ natChars coefficient, isDigit c = true := fun c => isDigit_of_mem_natChars
  have hpointed := startsBare_pointed hds (natChars_ne_nil coefficient)
  simp only [finiteChars]
  split
  · exact hpointed _
  · refine (hpointed _).append fun c hc => ?_
    rcases List.mem_cons.mp hc with rfl | hc
    · exact ⟨by decide, by decide, by decide⟩
    rcases List.mem_cons.mp hc with rfl | hc
    · split <;> exact ⟨by decide, by decide, by decide⟩
    · exact isBare_of_isDigit (isDigit_of_mem_natChars hc)

theorem afterWord?_digit {c w : Char} {word : List Char} (cs : List Char) (hc : isDigit c = true)
    (hw : isDigit w = false) : afterWord? (w :: word) (c :: cs) = none := by
  have hlower : c.toLower = c := by
    obtain ⟨hl, hu⟩ := toNat_of_isDigit hc
    have hupper : ¬ (c.val ≥ 'A'.val ∧ c.val ≤ 'Z'.val) := by
      rintro ⟨h, -⟩
      have hle : 65 ≤ c.toNat := UInt32.le_iff_toNat_le.mp h
      omega
    exact dif_neg hupper
  have hne : w ≠ c := ne_of_isDigit hc hw
  simp [afterWord?, hlower, hne.symm]

theorem readUnsigned?_digit (negative : Bool) {c : Char} (cs : List Char) (hc : isDigit c = true) :
    readUnsigned? negative (c :: cs) = readFinite? negative (c :: cs) := by
  have hword (word : String) {w : Char} {rest : List Char} (h : word.toList = w :: rest)
      (hw : isDigit w = false) : afterWord? word.toList (c :: cs) = none := by
    rw [h]
    exact afterWord?_digit cs hc hw
  simp only [readUnsigned?, isInfinityWord, hword "nan" rfl rfl, hword "snan" rfl rfl, hword "inf" rfl rfl,
    hword "infinity" rfl rfl]
  rfl

theorem readChars?_finite (negative : Bool) (coefficient : Nat) (exponent : Int) :
    readChars? (chars (.finite negative coefficient exponent)) =
      if Representable coefficient exponent then some (.finite negative coefficient exponent) else none := by
  have hread := readScientific?_finiteChars coefficient exponent
  have hchars : chars (.finite negative coefficient exponent) =
    signChars negative ++ finiteChars coefficient exponent := rfl
  obtain ⟨⟨c, rest, hcs, hc⟩, hbare⟩ := startsBare_finiteChars coefficient exponent
  rw [hchars]
  rw [hcs] at hread hbare ⊢
  rw [readChars?, readSigned?_signChars negative hbare (ne_of_isDigit hc rfl).symm (ne_of_isDigit hc rfl).symm,
    readUnsigned?_digit negative rest hc, readFinite?, hread]
  rfl

theorem readChars?_infinite (negative : Bool) :
    readChars? (chars (.infinite negative)) = some (.infinite negative) := by
  cases negative <;> rfl

theorem readChars?_chars {d : Decimal} (hd : d.isNaN = false) :
    readChars? d.chars = if d.InRange then some d else none := by
  cases d with
  | finite negative coefficient exponent => exact readChars?_finite negative coefficient exponent
  | infinite negative => exact readChars?_infinite negative
  | nan => cases hd

theorem readUnsigned?_inRange {negative : Bool} {cs : List Char} {d : Decimal}
    (h : readUnsigned? negative cs = some d) : d.InRange := by
  have hpayload {signaling : Bool} {rest : List Char} (h : readPayload? negative signaling rest = some d) :
      d.InRange := by
    rw [readPayload?] at h
    split at h
    · cases h
      trivial
    · cases h
  rw [readUnsigned?] at h
  split at h
  · exact hpayload h
  split at h
  · exact hpayload h
  split at h
  · cases h
    trivial
  · obtain ⟨⟨coefficient, exponent⟩, -, h⟩ := Option.bind_eq_some_iff.mp h
    dsimp only at h
    split at h
    · rename_i hr
      cases h
      exact hr
    · cases h

theorem readChars?_inRange {cs : List Char} {d : Decimal} (h : readChars? cs = some d) : d.InRange := by
  obtain ⟨cs, -, h⟩ := Option.bind_eq_some_iff.mp h
  split at h <;> exact readUnsigned?_inRange h

end OrderStore.Decimal
