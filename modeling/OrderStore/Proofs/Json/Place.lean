import OrderStore.Proofs.Json.Retraction
/-!
Places in the codes of a document: how many lists and objects are open there, and whether the place is
inside a text. A written document ends at the depth at which it began, and an object is open all the way
up to its last code.
-/

namespace OrderStore.Json

open Text

inductive Mode where
  | outside
  | inText
  | escaped
  deriving DecidableEq, Repr

structure Place where
  depth : Nat
  mode : Mode
  deriving DecidableEq, Repr

def IsPlain (c : Code) : Prop :=
  c ≠ .char '"' ∧ c ≠ .char '[' ∧ c ≠ .char '\x7b' ∧ c ≠ .char ']' ∧ c ≠ .char '\x7d'

instance (c : Code) : Decidable (IsPlain c) := inferInstanceAs (Decidable (_ ∧ _))

namespace Place

def outside (n : Nat) : Place := ⟨n, .outside⟩

def within (n : Nat) : Place := outside (n + 1)

def inText (n : Nat) : Place := ⟨n, .inText⟩

def next (p : Place) (c : Code) : Place :=
  match p.mode with
  | .outside =>
    if c = .char '"' then inText p.depth
    else if c = .char '[' ∨ c = .char '\x7b' then outside (p.depth + 1)
    else if c = .char ']' ∨ c = .char '\x7d' then outside (p.depth - 1)
    else p
  | .inText =>
    if c = .char '"' then outside p.depth
    else if c = .char '\\' then ⟨p.depth, .escaped⟩
    else p
  | .escaped => inText p.depth

def scan (p : Place) (cs : List Code) : Place := cs.foldl next p

def peak (p : Place) : List Code → Nat
  | [] => p.depth
  | c :: cs => max p.depth ((p.next c).peak cs)

def low (p : Place) : List Code → Nat
  | [] => p.depth
  | c :: cs => min p.depth ((p.next c).low cs)

theorem scan_append (p : Place) (cs ds : List Code) : p.scan (cs ++ ds) = (p.scan cs).scan ds :=
  List.foldl_append

theorem scan_cons (p : Place) (c : Code) (cs : List Code) : p.scan (c :: cs) = (p.next c).scan cs := rfl

theorem depth_le_peak (p : Place) (cs : List Code) : p.depth ≤ p.peak cs := by
  cases cs with
  | nil => exact Nat.le_refl _
  | cons c cs => exact Nat.le_max_left ..

theorem low_le_depth (p : Place) (cs : List Code) : p.low cs ≤ p.depth := by
  cases cs with
  | nil => exact Nat.le_refl _
  | cons c cs => exact Nat.min_le_left ..

theorem peak_append (p : Place) (cs ds : List Code) :
    p.peak (cs ++ ds) = max (p.peak cs) ((p.scan cs).peak ds) := by
  induction cs generalizing p with
  | nil => exact (Nat.max_eq_right (depth_le_peak p ds)).symm
  | cons c cs ih => rw [List.cons_append, peak, peak, ih, scan_cons, Nat.max_assoc]

theorem low_append (p : Place) (cs ds : List Code) :
    p.low (cs ++ ds) = min (p.low cs) ((p.scan cs).low ds) := by
  induction cs generalizing p with
  | nil => exact (Nat.min_eq_right (low_le_depth p ds)).symm
  | cons c cs ih => rw [List.cons_append, low, low, ih, scan_cons, Nat.min_assoc]

theorem low_le_depth_scan (p : Place) {q cs : List Code} (h : q <+: cs) : p.low cs ≤ (p.scan q).depth := by
  obtain ⟨rest, rfl⟩ := h
  rw [low_append]
  exact Nat.le_trans (Nat.min_le_right ..) (low_le_depth _ rest)

theorem peak_mono (p : Place) {q cs : List Code} (h : q <+: cs) : p.peak q ≤ p.peak cs := by
  obtain ⟨rest, rfl⟩ := h
  rw [peak_append]
  exact Nat.le_max_left ..

theorem peak_scan_le (p : Place) (cs ds : List Code) : (p.scan cs).peak ds ≤ p.peak (cs ++ ds) := by
  rw [peak_append]
  exact Nat.le_max_right ..

theorem next_plain {n : Nat} {c : Code} (hc : IsPlain c) : (outside n).next c = outside n := by
  simp [next, outside, hc.1, hc.2.1, hc.2.2.1, hc.2.2.2.1, hc.2.2.2.2]

theorem next_inText {n : Nat} {c : Code} (hq : c ≠ .char '"') (hs : c ≠ .char '\\') :
    (inText n).next c = inText n := by
  simp [next, inText, hq, hs]

end Place

open Place

def nesting (cs : List Code) : Nat := (outside 0).peak cs

/-- Codes between two places of one depth, never below it and never more than `k` above it. -/
def Stretch (k : Nat) (p p' : Nat → Place) (cs : List Code) : Prop :=
  ∀ n, (p n).scan cs = p' n ∧ n ≤ (p n).low cs ∧ (p n).peak cs ≤ n + k

namespace Stretch

variable {k : Nat} {p p' p'' : Nat → Place} {cs ds : List Code}

theorem nil (hp : ∀ n, (p n).depth = n) : Stretch k p p [] :=
  fun n => ⟨rfl, Nat.le_of_eq (hp n).symm, Nat.le_trans (Nat.le_of_eq (hp n)) (Nat.le_add_right n k)⟩

theorem append (h : Stretch k p p' cs) (h' : Stretch k p' p'' ds) : Stretch k p p'' (cs ++ ds) := by
  intro n
  obtain ⟨hscan, hlow, hpeak⟩ := h n
  obtain ⟨hscan', hlow', hpeak'⟩ := h' n
  rw [scan_append, low_append, peak_append, hscan]
  exact ⟨hscan', Nat.le_min.mpr ⟨hlow, hlow'⟩, Nat.max_le.mpr ⟨hpeak, hpeak'⟩⟩

theorem mono {k' : Nat} (h : Stretch k p p' cs) (hk : k ≤ k') : Stretch k' p p' cs :=
  fun n => ⟨(h n).1, (h n).2.1, Nat.le_trans (h n).2.2 (Nat.add_le_add_left hk n)⟩

theorem single {c : Code} (hp : ∀ n, (p n).depth = n) (hp' : ∀ n, (p' n).depth = n)
    (h : ∀ n, (p n).next c = p' n) : Stretch k p p' [c] := by
  intro n
  refine ⟨h n, ?_, ?_⟩
  · simp only [low, h, hp, hp', Nat.min_self, Nat.le_refl]
  · rw [peak, peak, h, hp, hp', Nat.max_self]
    exact Nat.le_add_right n k

theorem plain (h : ∀ c ∈ cs, IsPlain c) : Stretch k outside outside cs := by
  induction cs with
  | nil => exact .nil fun _ => rfl
  | cons c cs ih =>
    have hc : Stretch k outside outside [c] :=
      .single (fun _ => rfl) (fun _ => rfl) fun _ => next_plain (h c List.mem_cons_self)
    exact hc.append (ih fun d hd => h d (List.mem_cons_of_mem _ hd))

end Stretch

theorem isPlain_of_isDigit {c : Char} (h : isDigit c = true) : IsPlain (.char c) := by
  have hne {x : Char} (hx : isDigit x = false) : Code.char c ≠ .char x := by
    rintro h'
    cases h'
    rw [h] at hx
    cases hx
  exact ⟨hne rfl, hne rfl, hne rfl, hne rfl, hne rfl⟩

theorem isPlain_of_isGap {c : Code} (h : isGap c = true) : IsPlain c := by
  refine ⟨?_, ?_, ?_, ?_, ?_⟩ <;> · rintro rfl; cases h

theorem ne_of_hexValue? {c : Char} {v : Nat} (h : hexValue? c = some v) :
    Code.char c ≠ .char '"' ∧ Code.char c ≠ .char '\\' := by
  constructor <;> rintro ⟨⟩ <;> cases h

theorem hexUnit?_eq_some {a b c d : Char} {u : Nat} (h : hexUnit? a b c d = some u) :
    (∃ v, hexValue? a = some v) ∧ (∃ v, hexValue? b = some v) ∧ (∃ v, hexValue? c = some v) ∧
      ∃ v, hexValue? d = some v := by
  obtain ⟨v, hv, h⟩ := Option.bind_eq_some_iff.mp h
  obtain ⟨w, hw, h⟩ := Option.bind_eq_some_iff.mp h
  obtain ⟨x, hx, h⟩ := Option.bind_eq_some_iff.mp h
  obtain ⟨y, hy, -⟩ := Option.bind_eq_some_iff.mp h
  exact ⟨⟨v, hv⟩, ⟨w, hw⟩, ⟨x, hx⟩, y, hy⟩

theorem stretch_inText {c : Code} (hq : c ≠ .char '"') (hs : c ≠ .char '\\') :
    Stretch 0 inText inText [c] :=
  .single (fun _ => rfl) (fun _ => rfl) fun _ => next_inText hq hs

theorem stretch_escaped (c : Code) : Stretch 0 inText inText [.char '\\', c] := by
  have hslash : Stretch 0 inText (fun n => ⟨n, .escaped⟩) [.char '\\'] :=
    .single (fun _ => rfl) (fun _ => rfl) fun _ => rfl
  exact hslash.append (.single (fun _ => rfl) (fun _ => rfl) fun _ => rfl)

theorem stretch_unit {a b c d : Char} {u : Nat} (h : hexUnit? a b c d = some u) :
    Stretch 0 inText inText [.char '\\', .char 'u', .char a, .char b, .char c, .char d] := by
  have hhex {c : Char} (h : ∃ v, hexValue? c = some v) : Stretch 0 inText inText [.char c] := by
    obtain ⟨v, hv⟩ := h
    exact stretch_inText (ne_of_hexValue? hv).1 (ne_of_hexValue? hv).2
  obtain ⟨ha, hb, hc, hd⟩ := hexUnit?_eq_some h
  exact (stretch_escaped _).append ((hhex ha).append ((hhex hb).append ((hhex hc).append (hhex hd))))

theorem stretch_escape (c : Code) : Stretch 0 inText inText (escape c) := by
  cases c with
  | surrogate i => exact stretch_inText nofun nofun
  | char c =>
    rcases escapeChar_cases c with ⟨e, hc, -⟩ | ⟨hc, hlt⟩ | ⟨hc, hq, hs, -⟩
    · rw [escape, hc]
      exact stretch_escaped (.char e)
    · obtain ⟨a, b, d, e, hpad, hunit⟩ := hexUnit?_hexPadded (n := c.toNat) (by omega)
      rw [escape, hc, hpad]
      exact stretch_unit hunit
    · rw [escape, hc]
      exact stretch_inText (by simpa using hq) (by simpa using hs)

theorem stretch_textCodes (t : Text) : Stretch 0 outside outside (textCodes t) := by
  have hcodes (cs : List Code) : Stretch 0 inText inText (cs.flatMap escape) := by
    induction cs with
    | nil => exact .nil fun _ => rfl
    | cons c cs ih =>
      rw [List.flatMap_cons]
      exact (stretch_escape c).append ih
  have hopen : Stretch 0 outside inText [.char '"'] :=
    .single (fun _ => rfl) (fun _ => rfl) fun _ => rfl
  have hclose : Stretch 0 inText outside [.char '"'] :=
    .single (fun _ => rfl) (fun _ => rfl) fun _ => rfl
  exact hopen.append ((hcodes t.codes).append hclose)

theorem Stretch.enclosed {k : Nat} {inner : List Code} {o c : Code}
    (h : Stretch k outside outside inner) (ho : o = .char '[' ∨ o = .char '\x7b')
    (hc : c = .char ']' ∨ c = .char '\x7d') : Stretch (k + 1) outside outside (o :: (inner ++ [c])) := by
  intro n
  have hopen : (outside n).next o = outside (n + 1) := by rcases ho with rfl | rfl <;> rfl
  have hclose : (outside (n + 1)).next c = outside n := by rcases hc with rfl | rfl <;> rfl
  obtain ⟨hscan, hlow, hpeak⟩ := h (n + 1)
  rw [scan_cons, low, peak, hopen, scan_append, low_append, peak_append, hscan, scan_cons, hclose, low,
    low, peak, peak, hclose]
  refine ⟨rfl, ?_, ?_⟩ <;> simp only [outside] at hlow hpeak ⊢ <;> omega

theorem isPlain_of_mem {cs : List Char} (h : ∀ c ∈ cs, IsPlain (.char c)) :
    ∀ c ∈ cs.map Code.char, IsPlain c := by
  intro c hc
  obtain ⟨d, hd, rfl⟩ := List.mem_map.mp hc
  exact h d hd

theorem isPlain_natChars (n : Nat) : ∀ c ∈ natChars n, IsPlain (.char c) :=
  fun _ hc => isPlain_of_isDigit (isDigit_of_mem_natChars hc)

theorem isPlain_signChars (negative : Bool) : ∀ c ∈ Decimal.signChars negative, IsPlain (.char c) := by
  cases negative <;> simp [Decimal.signChars, IsPlain]

theorem isPlain_intChars (n : Int) : ∀ c ∈ intChars n, IsPlain (.char c) :=
  List.forall_mem_append.mpr ⟨isPlain_signChars _, isPlain_natChars _⟩

theorem isPlain_zeros (n : Nat) : ∀ c ∈ List.replicate n '0', IsPlain (.char c) := by
  intro c hc
  rw [List.eq_of_mem_replicate hc]
  decide

theorem isPlain_pointed {ds : List Char} (h : ∀ c ∈ ds, IsPlain (.char c)) (places : Nat) :
    ∀ c ∈ Decimal.pointed ds places, IsPlain (.char c) := by
  unfold Decimal.pointed
  split_ifs
  · exact h
  · refine List.forall_mem_append.mpr ⟨fun c hc => h c (List.mem_of_mem_take hc), ?_⟩
    exact List.forall_mem_cons.mpr ⟨by decide, fun c hc => h c (List.mem_of_mem_drop hc)⟩
  · refine List.forall_mem_cons.mpr ⟨by decide, List.forall_mem_cons.mpr ⟨by decide, ?_⟩⟩
    exact List.forall_mem_append.mpr ⟨isPlain_zeros _, h⟩

theorem isPlain_powerChars (power : Int) : ∀ c ∈ Binary64.powerChars power, IsPlain (.char c) := by
  refine List.forall_mem_cons.mpr ⟨by decide, List.forall_mem_cons.mpr ⟨?_, ?_⟩⟩
  · split <;> decide
  · split
    · exact List.forall_mem_cons.mpr ⟨by decide, isPlain_natChars _⟩
    · exact isPlain_natChars _

theorem isPlain_finiteChars (mantissa : Nat) (exponent : Int) :
    ∀ c ∈ Binary64.finiteChars mantissa exponent, IsPlain (.char c) := by
  unfold Binary64.finiteChars
  generalize Binary64.shortestDigits mantissa exponent = shortest
  obtain ⟨a, power⟩ := shortest
  have hds := isPlain_natChars a
  dsimp only
  split_ifs
  · simp [IsPlain]
  · exact List.forall_mem_append.mpr
      ⟨List.forall_mem_append.mpr ⟨hds, isPlain_zeros _⟩, by simp [IsPlain]⟩
  · exact isPlain_pointed hds _
  · exact List.forall_mem_append.mpr ⟨isPlain_pointed hds _, isPlain_powerChars _⟩

theorem isPlain_floatChars (x : Binary64) : ∀ c ∈ floatChars x, IsPlain (.char c) := by
  cases x with
  | finite negative mantissa exponent =>
    exact List.forall_mem_append.mpr ⟨isPlain_signChars _, isPlain_finiteChars _ _⟩
  | infinite negative => exact List.forall_mem_append.mpr ⟨isPlain_signChars _, by simp [IsPlain]⟩
  | nan tag => simp [floatChars, IsPlain]

theorem tailCodes_enclosed {k : Nat} {xs : List Json}
    (h : ∀ x ∈ xs, Stretch k outside outside x.codes) :
    ∃ inner, tailCodes xs = inner ++ [.char ']'] ∧ Stretch k outside outside inner := by
  induction xs with
  | nil => exact ⟨[], rfl, .nil fun _ => rfl⟩
  | cons x xs ih =>
    obtain ⟨inner, hinner, hs⟩ := ih fun y hy => h y (List.mem_cons_of_mem _ hy)
    have hcomma : Stretch k outside outside [.char ',', .char ' '] := .plain (by simp [IsPlain])
    refine ⟨[.char ',', .char ' '] ++ (x.codes ++ inner), ?_,
      hcomma.append ((h x List.mem_cons_self).append hs)⟩
    rw [tailCodes, hinner]
    simp

theorem list_enclosed {k : Nat} {xs : List Json} (h : ∀ x ∈ xs, Stretch k outside outside x.codes) :
    ∃ inner, (Json.list xs).codes = .char '[' :: (inner ++ [.char ']']) ∧
      Stretch k outside outside inner := by
  cases xs with
  | nil => exact ⟨[], rfl, .nil fun _ => rfl⟩
  | cons x xs =>
    obtain ⟨inner, hinner, hs⟩ := tailCodes_enclosed fun y hy => h y (List.mem_cons_of_mem _ hy)
    refine ⟨x.codes ++ inner, ?_, (h x List.mem_cons_self).append hs⟩
    rw [codes, hinner, List.append_assoc]

theorem stretch_member {k : Nat} (name : Text) {x : Json} (h : Stretch k outside outside x.codes) :
    Stretch k outside outside (textCodes name ++ ([.char ':', .char ' '] ++ x.codes)) := by
  have hcolon : Stretch k outside outside [.char ':', .char ' '] := .plain (by simp [IsPlain])
  exact ((stretch_textCodes name).mono (Nat.zero_le k)).append (hcolon.append h)

theorem memberTailCodes_enclosed {k : Nat} {ms : List (Text × Json)}
    (h : ∀ m ∈ ms, Stretch k outside outside m.2.codes) :
    ∃ inner, memberTailCodes ms = inner ++ [.char '\x7d'] ∧ Stretch k outside outside inner := by
  induction ms with
  | nil => exact ⟨[], rfl, .nil fun _ => rfl⟩
  | cons m ms ih =>
    obtain ⟨name, x⟩ := m
    obtain ⟨inner, hinner, hs⟩ := ih fun m hm => h m (List.mem_cons_of_mem _ hm)
    have hcomma : Stretch k outside outside [.char ',', .char ' '] := .plain (by simp [IsPlain])
    refine ⟨_, ?_, hcomma.append ((stretch_member name (h (name, x) List.mem_cons_self)).append hs)⟩
    rw [memberTailCodes, hinner]
    simp

theorem object_enclosed {k : Nat} {ms : List (Text × Json)}
    (h : ∀ m ∈ ms, Stretch k outside outside m.2.codes) :
    ∃ inner, (Json.object ms).codes = .char '\x7b' :: (inner ++ [.char '\x7d']) ∧
      Stretch k outside outside inner := by
  cases ms with
  | nil => exact ⟨[], rfl, .nil fun _ => rfl⟩
  | cons m ms =>
    obtain ⟨name, x⟩ := m
    obtain ⟨inner, hinner, hs⟩ := memberTailCodes_enclosed fun m hm => h m (List.mem_cons_of_mem _ hm)
    refine ⟨_, ?_, (stretch_member name (h (name, x) List.mem_cons_self)).append hs⟩
    rw [codes, hinner]
    simp

theorem stretch_codes (j : Json) : Stretch j.depth outside outside j.codes := by
  cases j with
  | null => exact .plain (by decide)
  | bool b => cases b <;> exact .plain (by decide)
  | int n => exact .plain (isPlain_of_mem (isPlain_intChars n))
  | float x => exact .plain (isPlain_of_mem (isPlain_floatChars x))
  | text t => exact stretch_textCodes t
  | list xs =>
    obtain ⟨inner, hcodes, hs⟩ := list_enclosed (k := depths xs) fun x hx =>
      (stretch_codes x).mono (depths_le_iff.mp (Nat.le_refl _) x hx)
    rw [hcodes, depth]
    exact hs.enclosed (.inl rfl) (.inl rfl)
  | object ms =>
    obtain ⟨inner, hcodes, hs⟩ := object_enclosed (k := memberDepths ms) fun m hm =>
      (stretch_codes m.2).mono (memberDepths_le_iff.mp (Nat.le_refl _) m hm)
    rw [hcodes, depth]
    exact hs.enclosed (.inr rfl) (.inr rfl)
termination_by sizeOf j
decreasing_by
  all_goals simp_wf
  · have hlt := List.sizeOf_lt_of_mem hx
    omega
  · have hlt := List.sizeOf_lt_of_mem hm
    have hpair : sizeOf m.2 < sizeOf m := by cases m; simp only [Prod.mk.sizeOf_spec]; omega
    omega

end OrderStore.Json
