import Mathlib.Data.List.TakeWhile
import OrderStore.Proofs.Except
import OrderStore.Proofs.Json.Place

namespace OrderStore.Json

open Text Place

def Takes {α : Type} (p p' : Nat → Place) (cs : List Code) (r : Option (α × List Code)) : Prop :=
  ∀ a rest, r = some (a, rest) → ∃ used, cs = used ++ rest ∧ ∀ n, (p n).scan used = p' n

namespace Takes

variable {α β : Type} {p p' p'' : Nat → Place} {cs used : List Code} {r : Option (α × List Code)}

theorem none : Takes p p' cs (none : Option (α × List Code)) := nofun

theorem some (a : α) (rest : List Code) (h : ∀ n, (p n).scan used = p' n) :
    Takes p p' (used ++ rest) (some (a, rest)) := by
  intro a rest h
  cases h
  exact ⟨used, rfl, ‹_›⟩

theorem map (h : Takes p p' cs r) {f : α × List Code → β × List Code} (hf : ∀ x, (f x).2 = x.2) :
    Takes p p' cs (r.map f) := by
  intro b rest hr
  obtain ⟨⟨a, rest'⟩, ha, hx⟩ := Option.map_eq_some_iff.mp hr
  obtain rfl : rest' = rest := (hf (a, rest')).symm.trans (congrArg Prod.snd hx)
  exact h a rest' ha

theorem bind {o : Option β} {f : β → Option (α × List Code)} (h : ∀ b, o = .some b → Takes p p' cs (f b)) :
    Takes p p' cs (o.bind f) := by
  cases o with
  | none => exact .none
  | some b => exact h b rfl

theorem behind (hused : ∀ n, (p n).scan used = p' n) (h : Takes p' p'' cs r) :
    Takes p p'' (used ++ cs) r := by
  intro a rest hr
  obtain ⟨used', rfl, hscan⟩ := h a rest hr
  refine ⟨used ++ used', (List.append_assoc ..).symm, fun n => ?_⟩
  rw [scan_append, hused, hscan]

end Takes

theorem readPieces_takes (cs : List Code) : Takes inText outside cs (readPieces cs) := by
  fun_induction readPieces cs with
  | case1 => exact .none
  | case2 i cs ih =>
    have hcode : Stretch 0 inText inText [.surrogate i] := stretch_inText nofun nofun
    exact .behind (fun n => (hcode n).1) (ih.map fun _ => rfl)
  | case3 c cs hq =>
    obtain rfl := beq_iff_eq.mp hq
    exact .some [] cs fun n => (rfl : (inText n).scan [.char '"'] = outside n)
  | case4 c hq hs a b d e cs ih =>
    obtain rfl := beq_iff_eq.mp hs
    refine .bind fun u hu => ?_
    exact .behind (fun n => (stretch_unit hu n).1) (ih.map fun _ => rfl)
  | case5 c hq hs e cs _ ih =>
    obtain rfl := beq_iff_eq.mp hs
    refine .bind fun d _ => ?_
    exact .behind (fun n => (stretch_escaped (.char e) n).1) (ih.map fun _ => rfl)
  | case6 => exact .none
  | case7 => exact .none
  | case8 c cs hq hs _ ih =>
    have hcode : Stretch 0 inText inText [.char c] := stretch_inText (by simpa using hq) (by simpa using hs)
    exact .behind (fun n => (hcode n).1) (ih.map fun _ => rfl)

theorem readText_takes (cs : List Code) : Takes inText outside cs (readText cs) :=
  (readPieces_takes cs).map fun _ => rfl

def Front (cs rest : List Code) : Prop := ∃ used, cs = used ++ rest ∧ ∀ c ∈ used, IsPlain c

namespace Front

theorem refl (cs : List Code) : Front cs cs := ⟨[], rfl, List.forall_mem_nil _⟩

theorem cons {c : Code} {cs rest : List Code} (hc : IsPlain c) (h : Front cs rest) :
    Front (c :: cs) rest := by
  obtain ⟨used, rfl, hused⟩ := h
  exact ⟨c :: used, rfl, List.forall_mem_cons.mpr ⟨hc, hused⟩⟩

theorem trans {cs ds rest : List Code} (h : Front cs ds) (h' : Front ds rest) : Front cs rest := by
  obtain ⟨used, rfl, hused⟩ := h
  obtain ⟨used', rfl, hused'⟩ := h'
  exact ⟨used ++ used', (List.append_assoc ..).symm, List.forall_mem_append.mpr ⟨hused, hused'⟩⟩

theorem spanDigits (cs : List Code) : Front cs (spanDigits cs).2 := by
  fun_induction Json.spanDigits cs with
  | case1 c cs hc ds rest hread ih =>
    rw [hread] at ih
    exact .cons (isPlain_of_isDigit hc) ih
  | case2 c cs hc => exact .refl _
  | case3 cs => exact .refl _

theorem of_spanDigits {cs rest : List Code} {ds : List Char} (h : Json.spanDigits cs = (ds, rest)) :
    Front cs rest := by
  have hspan := spanDigits cs
  rwa [h] at hspan

theorem readWhole {cs rest : List Code} {ds : List Char} (h : readWhole cs = some (ds, rest)) :
    Front cs rest := by
  unfold Json.readWhole at h
  split at h
  · cases h
    exact .cons (by decide) (.refl _)
  · split at h
    · cases h
    · rename_i hread
      cases h
      exact .of_spanDigits hread

theorem readFraction (cs : List Code) : Front cs (readFraction cs).2 := by
  unfold Json.readFraction
  split
  · split
    · exact .refl _
    · rename_i hread
      exact .cons (by decide) (.of_spanDigits hread)
  · exact .refl _

theorem readPower (cs : List Code) : Front cs (readPower cs).2 := by
  unfold Json.readPower
  split
  · rename_i e rest
    split
    · rename_i he
      have hplain : IsPlain (.char e) := by
        rcases Bool.or_eq_true .. |>.mp he with he | he <;> · rw [beq_iff_eq.mp he]; decide
      dsimp only
      split
      · exact .refl _
      · rename_i hread
        refine .cons hplain (.trans ?_ (.of_spanDigits hread))
        split
        · exact .cons (by decide) (.refl _)
        · exact .cons (by decide) (.refl _)
        · exact .refl _
    · exact .refl _
  · exact .refl _

theorem readUnsigned {negative : Bool} {cs rest : List Code} {j : Json}
    (h : readUnsigned negative cs = some (j, rest)) : Front cs rest := by
  unfold Json.readUnsigned at h
  split at h
  · cases h
  · rename_i whole rest' hwhole
    have hrest : rest = (Json.readPower (Json.readFraction rest').2).2 := by
      dsimp only at h
      split at h
      · split at h
        · cases h
        · cases h
          rfl
      · cases h
        rfl
    rw [hrest]
    exact (readWhole hwhole).trans ((readFraction _).trans (readPower _))

theorem readNumber {cs rest : List Code} {j : Json} (h : readNumber cs = some (j, rest)) :
    Front cs rest := by
  unfold Json.readNumber at h
  split at h
  · exact .cons (by decide) (readUnsigned h)
  · exact readUnsigned h

theorem after? {word : String} {cs rest : List Code} (h : after? word cs = some rest)
    (hword : ∀ c ∈ (Text.ofString word).codes, IsPlain c) : Front cs rest := by
  unfold Json.after? at h
  split at h
  · rename_i hprefix
    obtain ⟨rest', rfl⟩ := List.isPrefixOf_iff_prefix.mp hprefix
    have hlength : (Text.ofString word).codes.length = word.length := by
      rw [Text.ofString, codes_ofChars, List.length_map, String.length_toList]
    rw [List.drop_left' hlength] at h
    cases h
    exact ⟨_, rfl, hword⟩
  · cases h

theorem isPlain_words : ∀ w ∈ words, ∀ c ∈ (Text.ofString w.1).codes, IsPlain c := by decide

theorem readAtom {cs rest : List Code} {j : Json} (h : readAtom cs = some (j, rest)) :
    Front cs rest := by
  unfold Json.readAtom at h
  split at h
  · rename_i found hfound
    cases h
    obtain ⟨w, hw, hafter⟩ := List.exists_of_findSome?_eq_some hfound
    obtain ⟨rest', hrest, hx⟩ := Option.map_eq_some_iff.mp hafter
    cases hx
    exact after? hrest (isPlain_words w hw)
  · exact readNumber h

end Front

theorem readAtom_takes (cs : List Code) : Takes outside outside cs (readAtom cs) := by
  intro j rest h
  obtain ⟨used, hcs, hused⟩ := Front.readAtom h
  have hplain : Stretch 0 outside outside used := .plain hused
  exact ⟨used, hcs, fun n => (hplain n).1⟩

/-- What a reader of limited depth makes of codes: what it takes leads from the one place to the other, and
if it finds them too deep they are. -/
def Sound {α : Type} (p p' : Nat → Place) (d : Nat) (cs : List Code) :
    Except Fault (α × List Code) → Prop
  | .ok (_, rest) => ∃ used, cs = used ++ rest ∧ ∀ n, (p n).scan used = p' n
  | .error .malformed => True
  | .error (.tooDeep _) => ∀ n, n + d < (p n).peak cs

namespace Sound

variable {α β : Type} {p p' p'' : Nat → Place} {d : Nat} {cs used : List Code}
  {r : Except Fault (α × List Code)}

theorem orMalformed {r : Option (α × List Code)} (h : Takes p p' cs r) :
    Sound p p' d cs (orMalformed r) := by
  cases r with
  | none => trivial
  | some a => exact h a.1 a.2 rfl

theorem map (h : Sound p p' d cs r) {f : α × List Code → β × List Code} (hf : ∀ x, (f x).2 = x.2) :
    Sound p p' d cs (r.map f) := by
  match r, h with
  | .ok a, h =>
    obtain ⟨used, hcs, hscan⟩ := h
    exact ⟨used, (hf a).symm ▸ hcs, hscan⟩
  | .error .malformed, _ => trivial
  | .error (.tooDeep _), h => exact h

theorem behind (hused : ∀ n, (p n).scan used = p' n) (h : Sound p' p'' d cs r) :
    Sound p p'' d (used ++ cs) r := by
  match r, h with
  | .ok a, h =>
    obtain ⟨used', hcs, hscan⟩ := h
    refine ⟨used ++ used', by rw [hcs, List.append_assoc], fun n => ?_⟩
    rw [scan_append, hused, hscan]
  | .error .malformed, _ => trivial
  | .error (.tooDeep _), h =>
    intro n
    have hpeak := peak_scan_le (p n) used cs
    rw [hused] at hpeak
    exact Nat.lt_of_lt_of_le (h n) hpeak

theorem bind {f : α × List Code → Except Fault (β × List Code)} (h : Sound p p' d cs r)
    (hf : ∀ a rest, Sound p' p'' d rest (f (a, rest))) : Sound p p'' d cs (r.bind f) := by
  match r, h with
  | .ok (a, rest), h =>
    obtain ⟨used, rfl, hscan⟩ := h
    exact (hf a rest).behind hscan
  | .error .malformed, _ => trivial
  | .error (.tooDeep _), h => exact h

theorem within (h : Sound outside outside d cs r) : Sound within within (d + 1) cs r := by
  match r, h with
  | .ok a, h =>
    obtain ⟨used, hcs, hscan⟩ := h
    exact ⟨used, hcs, fun n => hscan (n + 1)⟩
  | .error .malformed, _ => trivial
  | .error (.tooDeep _), h =>
    intro n
    have hpeak := h (n + 1)
    simp only [Place.within]
    omega

theorem skip (hp : ∀ n, ∃ m, p n = outside m) (h : Sound p p' d (Json.skip cs) r) :
    Sound p p' d cs r := by
  have hgaps : Stretch 0 outside outside (cs.takeWhile isGap) :=
    .plain fun c hc => isPlain_of_isGap (List.mem_takeWhile_imp hc)
  have hscan (n : Nat) : (p n).scan (cs.takeWhile isGap) = p n := by
    obtain ⟨m, hm⟩ := hp n
    rw [hm]
    exact (hgaps m).1
  rw [← List.takeWhile_append_dropWhile (p := isGap) (l := cs)]
  exact h.behind hscan

theorem skip_outside (h : Sound outside p' d (Json.skip cs) r) : Sound outside p' d cs r :=
  h.skip fun n => ⟨n, rfl⟩

theorem skip_within (h : Sound Place.within p' d (Json.skip cs) r) : Sound Place.within p' d cs r :=
  h.skip fun n => ⟨n + 1, rfl⟩

theorem cons {c : Code} (h : Sound p' p'' d cs r) (hc : ∀ n, (p n).next c = p' n) :
    Sound p p'' d (c :: cs) r := by
  have hscan : ∀ n, (p n).scan [c] = p' n := hc
  exact h.behind hscan

theorem close {c : Code} {rest : List Code} {a : α} (hc : ∀ n, (p n).next c = p' n) :
    Sound p p' d (c :: rest) (.ok (a, rest)) := ⟨[c], rfl, hc⟩

end Sound

theorem sound_text (d : Nat) (rest : List Code) :
    Sound outside outside d (.char '"' :: rest) (orMalformed (readText rest)) := by
  have htext : Sound inText outside d rest (orMalformed (readText rest)) :=
    .orMalformed (readText_takes rest)
  exact htext.cons fun _ => rfl

theorem sound_tooDeep {α : Type} {c : Code} {rest : List Code} (inObject : Bool)
    (hc : ∀ n, (outside n).next c = within n) :
    Sound outside outside 0 (c :: rest)
      (.error (.tooDeep inObject) : Except Fault (α × List Code)) := by
  intro n
  have hpeak := depth_le_peak (within n) rest
  rw [peak, hc]
  simp only [within, outside] at hpeak ⊢
  omega

theorem sound_empty {α : Type} {o c : Code} {cs rest : List Code} {a : α} {d : Nat}
    (ho : ∀ n, (outside n).next o = within n) (hc : ∀ n, (within n).next c = outside n)
    (hskip : skip cs = c :: rest) : Sound outside outside d (o :: cs) (.ok (a, rest)) := by
  refine .cons (.skip_within ?_) ho
  rw [hskip]
  exact .close hc

structure ReadersSound (fuel : Nat) : Prop where
  value : ∀ depth cs, Sound outside outside depth cs (readValue fuel depth cs)
  elements : ∀ depth cs, Sound within outside (depth + 1) cs (readElements fuel depth cs)
  members : ∀ depth cs, Sound within outside (depth + 1) cs (readMembers fuel depth cs)

namespace ReadersSound

variable {fuel : Nat}

theorem value_succ (h : ReadersSound fuel) (depth : Nat) (cs : List Code) :
    Sound outside outside depth cs (readValue (fuel + 1) depth cs) := by
  generalize hf : fuel + 1 = f
  fun_cases readValue f depth cs with
  | case1 => trivial
  | case2 => trivial
  | case3 _ _ c rest hc =>
    rw [beq_iff_eq.mp hc]
    exact (sound_text _ rest).map fun _ => rfl
  | case4 f c rest _ hc =>
    rw [beq_iff_eq.mp hc]
    exact sound_tooDeep false fun n => rfl
  | case5 f c rest _ hc depth rest' hskip =>
    rw [beq_iff_eq.mp hc]
    exact sound_empty (fun _ => rfl) (fun _ => rfl) hskip
  | case6 f c rest _ hc depth _ =>
    cases hf
    rw [beq_iff_eq.mp hc]
    exact .cons (.skip_within ((h.elements depth _).map fun _ => rfl)) fun _ => rfl
  | case7 f c rest _ _ hc =>
    rw [beq_iff_eq.mp hc]
    exact sound_tooDeep true fun n => rfl
  | case8 f c rest _ _ hc depth rest' hskip =>
    rw [beq_iff_eq.mp hc]
    exact sound_empty (fun _ => rfl) (fun _ => rfl) hskip
  | case9 f c rest _ _ hc depth _ =>
    cases hf
    rw [beq_iff_eq.mp hc]
    exact .cons (.skip_within ((h.members depth _).map fun _ => rfl)) fun _ => rfl
  | case10 => exact .orMalformed (readAtom_takes _)

theorem elements_succ (h : ReadersSound fuel) (depth : Nat) (cs : List Code) :
    Sound within outside (depth + 1) cs (readElements (fuel + 1) depth cs) := by
  rw [readElements]
  refine .bind (h.value depth cs).within fun x rest => .skip_within ?_
  dsimp only
  split
  · rename_i hskip
    rw [hskip]
    exact .close fun _ => rfl
  · rename_i hskip
    rw [hskip]
    refine .cons (.skip_within ?_) fun n => next_plain (by decide)
    exact (h.elements depth _).map fun _ => rfl
  · trivial

theorem members_succ (h : ReadersSound fuel) (depth : Nat) (cs : List Code) :
    Sound within outside (depth + 1) cs (readMembers (fuel + 1) depth cs) := by
  unfold readMembers
  split
  · rename_i rest
    refine .bind (sound_text depth rest).within fun name rest => .skip_within ?_
    dsimp only
    split
    · rename_i hskip
      rw [hskip]
      refine .cons (.skip_within ?_) fun n => next_plain (by decide)
      refine .bind (h.value depth _).within fun x rest => .skip_within ?_
      dsimp only
      split
      · rename_i hskip
        rw [hskip]
        exact .close fun _ => rfl
      · rename_i hskip
        rw [hskip]
        refine .cons (.skip_within ?_) fun n => next_plain (by decide)
        exact (h.members depth _).map fun _ => rfl
      · trivial
    · trivial
  · trivial

end ReadersSound

theorem readersSound (fuel : Nat) : ReadersSound fuel := by
  induction fuel with
  | zero => exact ⟨fun _ _ => trivial, fun _ _ => trivial, fun _ _ => trivial⟩
  | succ fuel ih => exact ⟨ih.value_succ, ih.elements_succ, ih.members_succ⟩

theorem scan_of_readCodes {cs : List Code} {j : Json} (h : readCodes cs = .ok j) :
    (outside 0).scan cs = outside 0 := by
  have hsound := ((readersSound (2 * cs.length + 2)).value maxDepth (skip cs)).skip_outside
  unfold readCodes at h
  obtain ⟨⟨x, rest⟩, hread, h⟩ := bind_eq_ok.mp h
  rw [hread] at hsound
  obtain ⟨used, hcs, hscan⟩ := hsound
  dsimp only at h
  split at h
  · rename_i hempty
    have hgaps : Stretch 0 outside outside rest :=
      .plain fun c hc => isPlain_of_isGap ?_
    · rw [hcs, scan_append, hscan]
      exact (hgaps 0).1
    · have hnil := List.dropWhile_eq_nil_iff.mp (List.isEmpty_iff.mp hempty)
      exact hnil c hc
  · cases h

theorem nesting_of_readCodes {cs : List Code} {b : Bool} (h : readCodes cs = .error (.tooDeep b)) :
    maxDepth < nesting cs := by
  have hsound := ((readersSound (2 * cs.length + 2)).value maxDepth (skip cs)).skip_outside
  unfold readCodes at h
  rcases bind_eq_error.mp h with hread | ⟨⟨x, rest⟩, -, h⟩
  · rw [hread] at hsound
    have hpeak := hsound 0
    rwa [Nat.zero_add] at hpeak
  · dsimp only at h
    split at h <;> cases h

theorem nesting_codes_le (j : Json) : nesting j.codes ≤ j.depth := by
  have hpeak := (stretch_codes j 0).2.2
  rwa [Nat.zero_add] at hpeak

theorem read_of_codes {t : Text} {c : Char} {cs : List Code} (ht : t.codes = .char c :: cs)
    (hc : c ≠ '\uFEFF') : read t = readCodes t.codes := by
  unfold read
  split
  · rename_i hmark
    cases ht.symm.trans hmark
    exact absurd rfl hc
  · rfl

theorem read_cut_object {ms : List (Text × Json)} (hd : (Json.object ms).depth ≤ maxDepth) {t : Text}
    (ht : t.codes <+: (Json.object ms).codes) (hne : t.codes ≠ [])
    (hcut : t.codes ≠ (Json.object ms).codes) : read t = .error .malformed := by
  obtain ⟨inner, hcodes, hs⟩ := object_enclosed (k := memberDepths ms) fun m hm =>
    (stretch_codes m.2).mono (memberDepths_le_iff.mp (Nat.le_refl _) m hm)
  obtain ⟨cs, hcs, hinner⟩ : ∃ cs, t.codes = .char '\x7b' :: cs ∧ cs <+: inner := by
    rw [hcodes] at ht hcut
    cases hcs : t.codes with
    | nil => exact absurd hcs hne
    | cons c cs =>
      rw [hcs] at ht hcut
      obtain ⟨rfl, hprefix⟩ := List.cons_prefix_cons.mp ht
      refine ⟨cs, rfl, (List.prefix_concat_iff.mp hprefix).resolve_left ?_⟩
      rintro rfl
      exact hcut rfl
  rw [read_of_codes hcs (by decide)]
  cases hread : readCodes t.codes with
  -- What was read ends outside of all brackets, but behind the first one a cut object stays inside.
  | ok j =>
    have hscan : (outside 1).scan cs = outside 0 := by
      have hscan := scan_of_readCodes hread
      rwa [hcs] at hscan
    have hlow := Nat.le_trans (hs 1).2.1 (low_le_depth_scan (outside 1) hinner)
    rw [hscan] at hlow
    cases hlow
  | error fault =>
    cases fault with
    | malformed => rfl
    -- A part from the front is no deeper than the whole.
    | tooDeep b =>
      have hdeep := nesting_of_readCodes hread
      have hpeak := peak_mono (outside 0) ht
      have hle := nesting_codes_le (Json.object ms)
      unfold nesting at hdeep hle
      omega

end OrderStore.Json
