import OrderStore.Proofs.Calendar.Instant
import OrderStore.Proofs.Text.Trim

namespace OrderStore

open Text

theorem Calendar.monthLength_le (year month : Nat) : monthLength year month ≤ 31 := by
  unfold monthLength
  cases hm : (monthLengths year)[month - 1]? with
  | none => exact Nat.zero_le 31
  | some n =>
    have hmem := List.mem_of_getElem? hm
    simp only [monthLengths, List.mem_cons, List.not_mem_nil, or_false] at hmem
    rw [Option.getD_some]
    split at hmem <;> omega

namespace Text

theorem padded_two {n : Nat} (h : n < 100) :
    ∃ a b, padded 2 n = [a, b] ∧ isDigit a = true ∧ isDigit b = true ∧ readNat? [a, b] = some n := by
  have hread := readNat?_padded 1 h
  have hdigit (c : Char) (hc : c ∈ padded 2 n) : isDigit c = true := isDigit_of_mem_padded hc
  have hpad : padded 2 n = [digitChar (n / 10 % 10), digitChar (n % 10)] := rfl
  rw [hpad] at hread hdigit
  exact ⟨_, _, hpad, hdigit _ (by simp), hdigit _ (by simp), hread⟩

theorem padded_four {n : Nat} (h : n < 10000) :
    ∃ a b c d, padded 4 n = [a, b, c, d] ∧ isDigit a = true ∧ isDigit b = true ∧ isDigit c = true ∧
      isDigit d = true ∧ readNat? [a, b, c, d] = some n := by
  have hread := readNat?_padded 3 h
  have hdigit (c : Char) (hc : c ∈ padded 4 n) : isDigit c = true := isDigit_of_mem_padded hc
  have hpad : padded 4 n =
    [digitChar (n / 10 / 10 / 10 % 10), digitChar (n / 10 / 10 % 10), digitChar (n / 10 % 10),
      digitChar (n % 10)] := rfl
  rw [hpad] at hread hdigit
  exact ⟨_, _, _, _, hpad, hdigit _ (by simp), hdigit _ (by simp), hdigit _ (by simp), hdigit _ (by simp),
    hread⟩

theorem isBlank_of_isDigit {c : Char} (hc : isDigit c = true) : isBlank c = false := by
  obtain ⟨hl, hu⟩ := toNat_of_isDigit hc
  simp only [isBlank, Bool.or_eq_false_iff, Bool.and_eq_false_iff, decide_eq_false_iff_not,
    beq_eq_false_iff_ne]
  omega

end Text

namespace Iso

theorem takeDigits?_two {a b : Char} {n : Nat} (h : readNat? [a, b] = some n) (rest : List Char) :
    takeDigits? 2 (a :: b :: rest) = some (n, rest) := by
  simp [takeDigits?, h]

theorem readDate_chars {y₁ y₂ y₃ y₄ m₁ m₂ d₁ d₂ : Char} {year month day : Nat} (hm : isDigit m₁ = true)
    (hy : readNat? [y₁, y₂, y₃, y₄] = some year) (hmonth : readNat? [m₁, m₂] = some month)
    (hday : readNat? [d₁, d₂] = some day) :
    readDate [y₁, y₂, y₃, y₄, '-', m₁, m₂, '-', d₁, d₂] = .ok (year, month, day) := by
  have hw : m₁ ≠ 'W' := (ne_of_isDigit hm rfl).symm
  simp [readDate, takeDigits?, hy, hmonth, hday, hw]

theorem readFraction_padded (p : Parts) {micro : Nat} (h : micro < 1000000) :
    readFraction p (padded 6 micro) = some { p with micro, tidy := true } := by
  have hread := readNat?_padded 5 h
  have hlength := padded_length 6 micro
  have htake : (padded 6 micro).take 6 = padded 6 micro := List.take_of_length_le (by omega)
  have hdrop : (padded 6 micro).drop 6 = [] := List.drop_of_length_le (by omega)
  simp [readFraction, takeDigits?, hlength, htake, hdrop, hread, isOver]

theorem isZoneMark_of_isDigit {c : Char} (hc : isDigit c = true) : isZoneMark c = false := by
  have hplus : '+' ≠ c := ne_of_isDigit hc rfl
  have hminus : '-' ≠ c := ne_of_isDigit hc rfl
  have hz : 'Z' ≠ c := ne_of_isDigit hc rfl
  simp [isZoneMark, hplus.symm, hminus.symm, hz.symm]

def IsClockChar (c : Char) : Prop := c = ':' ∨ c = '.' ∨ isDigit c = true

theorem IsClockChar.toNat_lt {c : Char} (h : IsClockChar c) : c.toNat < 128 := by
  rcases h with rfl | rfl | hd
  · decide
  · decide
  · have := toNat_of_isDigit hd
    omega

theorem IsClockChar.isZoneMark {c : Char} (h : IsClockChar c) : isZoneMark c = false := by
  rcases h with rfl | rfl | hd
  · rfl
  · rfl
  · exact isZoneMark_of_isDigit hd

theorem IsClockChar.isBlank {c : Char} (h : IsClockChar c) : isBlank c = false := by
  rcases h with rfl | rfl | hd
  · rfl
  · rfl
  · exact isBlank_of_isDigit hd

theorem widen_eq_self {cs : List Char} (h : ∀ c ∈ cs, c.toNat < 128) : widen cs = cs := by
  induction cs with
  | nil => rfl
  | cons c cs ih =>
    have hc := h c List.mem_cons_self
    have hcs := ih fun x hx => h x (List.mem_cons_of_mem _ hx)
    rw [widen] at hcs ⊢
    rw [List.flatMap_cons, hcs, if_pos hc]
    rfl

theorem takeWhile_clock {cs : List Char} (zone : List Char) (hcs : ∀ c ∈ cs, IsClockChar c)
    (hzone : ∀ c, zone.head? = some c → isZoneMark c = true) :
    (cs ++ zone).takeWhile (fun c => !isZoneMark c) = cs ∧
      (cs ++ zone).dropWhile (fun c => !isZoneMark c) = zone := by
  have hclock : ∀ c ∈ cs, (!isZoneMark c) = true := by
    intro c hc
    rw [(hcs c hc).isZoneMark]
    rfl
  rw [List.takeWhile_append_of_pos hclock, List.dropWhile_append_of_pos hclock]
  cases zone with
  | nil => simp
  | cons c zone => simp [hzone c rfl]

theorem readTime_chars {cs : List Char} {p : Parts} (hcs : ∀ c ∈ cs, IsClockChar c)
    (hp : readParts 3 true 0 {} cs = some p) (htidy : p.tidy = true) :
    readTime cs = .ok (p, none) := by
  have hwiden : widen cs = cs := widen_eq_self fun c hc => (hcs c hc).toNat_lt
  have hsplit := takeWhile_clock [] hcs nofun
  rw [List.append_nil] at hsplit
  unfold readTime
  simp only [hwiden, hsplit, hp, htidy, if_true]

theorem isClockChar_padded (width n : Nat) : ∀ c ∈ padded width n, IsClockChar c :=
  fun _ hc => .inr (.inr (isDigit_of_mem_padded hc))

theorem readTime_zone {cs zone : List Char} {mark : Char} {p z : Parts} (hcs : ∀ c ∈ cs, IsClockChar c)
    (hzone : ∀ c ∈ zone, IsClockChar c) (hmark : mark = '+' ∨ mark = '-')
    (hp : readParts 3 true 0 {} cs = some p) (hz : readParts 3 true 0 {} zone = some z)
    (htidy : z.tidy = true) :
    readTime (cs ++ mark :: zone) = .ok (p, some (offsetMicros (mark == '-') z)) := by
  have hascii : mark.toNat < 128 ∧ isZoneMark mark = true := by
    rcases hmark with rfl | rfl <;> decide
  have hwiden : widen (cs ++ mark :: zone) = cs ++ mark :: zone := by
    apply widen_eq_self
    simp only [List.forall_mem_append, List.forall_mem_cons]
    exact ⟨fun c hc => (hcs c hc).toNat_lt, hascii.1, fun c hc => (hzone c hc).toNat_lt⟩
  obtain ⟨htake, hdrop⟩ := takeWhile_clock (mark :: zone) hcs fun c hc => Option.some.inj hc ▸ hascii.2
  unfold readTime
  simp only [hwiden, htake, hdrop, hp]
  rcases hmark with rfl | rfl <;> simp [hz, htidy]

theorem read_ofChars (cs : List Char) : read (ofChars cs) = readChars cs := by
  have hall (n : Nat) : ((ofChars cs).codes.eraseIdx n).all (fun c => c.char?.isSome) = true := by
    apply List.all_eq_true.mpr
    intro c hc
    obtain ⟨x, -, rfl⟩ := List.mem_map.mp (List.mem_of_mem_eraseIdx hc)
    rfl
  simp only [read, hall, if_true, chars_ofChars]

end Iso

def Offset.IsWhole (o : Offset) : Prop := (1000000 : Int) ∣ o.micros

namespace Moment

open Iso

def IsWhole (m : Moment) : Prop := ∀ o ∈ m.offset, o.IsWhole

theorem exists_dateChars (d : Date) : ∃ y₁ y₂ y₃ y₄ m₁ m₂ d₁ d₂,
    dateChars d = [y₁, y₂, y₃, y₄, '-', m₁, m₂, '-', d₁, d₂] ∧ isDigit y₁ = true ∧ isDigit m₁ = true ∧
      Iso.readDate (dateChars d) = .ok (d.year, d.month, d.day) := by
  obtain ⟨-, hyear, -, hmonth, -, hday⟩ := d.isDate
  have hlength := Calendar.monthLength_le d.year d.month
  obtain ⟨y₁, y₂, y₃, y₄, hy, hy₁, -, -, -, ry⟩ := padded_four (n := d.year) (by omega)
  obtain ⟨m₁, m₂, hm, hm₁, -, rm⟩ := padded_two (n := d.month) (by omega)
  obtain ⟨d₁, d₂, hd, -, -, rd⟩ := padded_two (n := d.day) (by omega)
  have hchars : dateChars d = [y₁, y₂, y₃, y₄, '-', m₁, m₂, '-', d₁, d₂] := by simp [dateChars, hy, hm, hd]
  refine ⟨y₁, y₂, y₃, y₄, m₁, m₂, d₁, d₂, hchars, hy₁, hm₁, ?_⟩
  rw [hchars]
  exact readDate_chars hm₁ ry rm rd

theorem dateLength_dateChars (d : Date) (rest : List Char) : Iso.dateLength (dateChars d ++ rest) = 10 := by
  obtain ⟨y₁, y₂, y₃, y₄, m₁, m₂, d₁, d₂, hchars, -, hm₁, -⟩ := exists_dateChars d
  have hw : m₁ ≠ 'W' := (ne_of_isDigit hm₁ rfl).symm
  rw [hchars]
  simp [Iso.dateLength, hw]

theorem length_dateChars (d : Date) : (dateChars d).length = 10 := by
  simp [dateChars, padded_length]

theorem readParts_time (t : ClockTime) (micro : Fin 1000000) :
    Iso.readParts 3 true 0 {} (t.chars ++ fractionChars micro) =
      some ⟨t.hour, t.minute, t.second, micro, true⟩ := by
  obtain ⟨h₁, h₂, hh, -, -, rh⟩ := padded_two (n := t.hour.val) (by omega)
  obtain ⟨i₁, i₂, hi, -, -, ri⟩ := padded_two (n := t.minute.val) (by omega)
  obtain ⟨s₁, s₂, hs, -, -, rs⟩ := padded_two (n := t.second.val) (by omega)
  have hchars : t.chars = [h₁, h₂, ':', i₁, i₂, ':', s₁, s₂] := by simp [ClockTime.chars, hh, hi, hs]
  by_cases hmicro : micro.val = 0
  · simp [fractionChars, hmicro, hchars, Iso.readParts, takeDigits?_two rh, takeDigits?_two ri,
      takeDigits?_two rs, Iso.Parts.set]
  · obtain ⟨c, ds, hds⟩ := List.exists_cons_of_length_pos (l := padded 6 micro) (by rw [padded_length]; decide)
    have hfraction := readFraction_padded ⟨t.hour, t.minute, t.second, 0, true⟩ micro.isLt
    rw [hds] at hfraction
    simp [fractionChars, hmicro, hds, hchars, Iso.readParts, takeDigits?_two rh, takeDigits?_two ri,
      takeDigits?_two rs, Iso.Parts.set, hfraction]

def zoneChars (seconds : Nat) : List Char :=
  padded 2 (seconds / 3600) ++ ':' :: padded 2 (seconds / 60 % 60) ++
    if seconds % 60 = 0 then [] else ':' :: padded 2 (seconds % 60)

theorem readParts_zone {seconds : Nat} (h : seconds < 86400) :
    Iso.readParts 3 true 0 {} (zoneChars seconds) =
      some ⟨seconds / 3600, seconds / 60 % 60, seconds % 60, 0, true⟩ := by
  obtain ⟨h₁, h₂, hh, -, -, rh⟩ := padded_two (n := seconds / 3600) (by omega)
  obtain ⟨i₁, i₂, hi, -, -, ri⟩ := padded_two (n := seconds / 60 % 60) (by omega)
  obtain ⟨s₁, s₂, hs, -, -, rs⟩ := padded_two (n := seconds % 60) (by omega)
  by_cases hz : seconds % 60 = 0
  · simp [zoneChars, hz, hh, hi, Iso.readParts, takeDigits?_two rh, takeDigits?_two ri, Iso.Parts.set]
  · simp [zoneChars, hz, hh, hi, hs, Iso.readParts, takeDigits?_two rh, takeDigits?_two ri,
      takeDigits?_two rs, Iso.Parts.set]

theorem offsetChars_eq {o : Offset} (h : o.IsWhole) :
    offsetChars o = (if o.micros < 0 then '-' else '+') :: zoneChars (o.micros.natAbs / 1000000) := by
  obtain ⟨k, hk⟩ := h
  have hminute : o.micros.natAbs % 60000000 = 0 ↔ o.micros.natAbs / 1000000 % 60 = 0 := by omega
  have hmicro : o.micros.natAbs % 1000000 = 0 := by omega
  simp only [offsetChars, zoneChars, hminute, hmicro, fractionChars, if_true, List.append_nil, List.cons_append]

theorem offsetMicros_zone {o : Offset} (h : o.IsWhole) :
    Iso.offsetMicros (decide (o.micros < 0)) ⟨o.micros.natAbs / 1000000 / 3600,
      o.micros.natAbs / 1000000 / 60 % 60, o.micros.natAbs / 1000000 % 60, 0, true⟩ = o.micros := by
  obtain ⟨k, hk⟩ := h
  have hseconds : o.micros.natAbs / 1000000 / 3600 * 3600 + o.micros.natAbs / 1000000 / 60 % 60 * 60 +
      o.micros.natAbs / 1000000 % 60 = o.micros.natAbs / 1000000 := by omega
  simp only [Iso.offsetMicros, hseconds]
  by_cases hneg : o.micros < 0
  · simp only [hneg, decide_true, if_true]
    split <;> omega
  · simp only [hneg, decide_false, Bool.false_eq_true, if_false]
    split <;> omega

theorem isClockChar_time (t : ClockTime) : ∀ c ∈ t.chars, IsClockChar c := by
  simp only [ClockTime.chars, List.forall_mem_append, List.forall_mem_cons]
  exact ⟨⟨isClockChar_padded _ _, .inl rfl, isClockChar_padded _ _⟩, .inl rfl, isClockChar_padded _ _⟩

theorem isClockChar_fraction (micro : Nat) : ∀ c ∈ fractionChars micro, IsClockChar c := by
  by_cases h : micro = 0
  · simp [fractionChars, h]
  · rw [fractionChars, if_neg h, List.forall_mem_cons]
    exact ⟨.inr (.inl rfl), isClockChar_padded _ _⟩

theorem isClockChar_zone (seconds : Nat) : ∀ c ∈ zoneChars seconds, IsClockChar c := by
  simp only [zoneChars, List.forall_mem_append, List.forall_mem_cons]
  refine ⟨⟨isClockChar_padded _ _, .inl rfl, isClockChar_padded _ _⟩, ?_⟩
  by_cases h : seconds % 60 = 0
  · simp [h]
  · rw [if_neg h, List.forall_mem_cons]
    exact ⟨.inl rfl, isClockChar_padded _ _⟩

def timeChars (m : Moment) : List Char :=
  m.stamp.time.chars ++ fractionChars m.micro ++ (m.offset.map offsetChars).getD []

theorem chars_eq (separator : Char) (m : Moment) :
    m.chars separator = dateChars m.stamp.date ++ separator :: m.timeChars := by
  simp [chars, timeChars]

theorem readTime_timeChars {m : Moment} (h : m.IsWhole) :
    Iso.readTime m.timeChars = .ok (⟨m.stamp.time.hour, m.stamp.time.minute, m.stamp.time.second, m.micro, true⟩,
      m.offset.map Offset.micros) := by
  obtain ⟨stamp, micro, offset⟩ := m
  have hclock : ∀ c ∈ stamp.time.chars ++ fractionChars micro, IsClockChar c :=
    List.forall_mem_append.mpr ⟨isClockChar_time _, isClockChar_fraction _⟩
  have hparts := readParts_time stamp.time micro
  cases offset with
  | none =>
    simp only [timeChars, Option.map_none, Option.getD_none, List.append_nil]
    exact readTime_chars hclock hparts rfl
  | some o =>
    have ho : o.IsWhole := h o rfl
    have hshort : o.micros.natAbs / 1000000 < 86400 := by
      have := o.isShort
      omega
    have hmicros := offsetMicros_zone ho
    simp only [timeChars, Option.map_some, Option.getD_some, offsetChars_eq ho]
    by_cases hneg : o.micros < 0
    · simp only [hneg, decide_true, if_true] at hmicros ⊢
      rw [readTime_zone hclock (isClockChar_zone _) (.inr rfl) hparts (readParts_zone hshort) rfl]
      exact congrArg (fun n => Except.ok (_, some n)) hmicros
    · simp only [hneg, decide_false, if_false] at hmicros ⊢
      rw [readTime_zone hclock (isClockChar_zone _) (.inl rfl) hparts (readParts_zone hshort) rfl]
      exact congrArg (fun n => Except.ok (_, some n)) hmicros

theorem readChars_chars (separator : Char) {m : Moment} (h : m.IsWhole) :
    Iso.readChars (m.chars separator) = .ok m := by
  obtain ⟨-, -, -, -, -, -, -, -, -, -, -, hdate⟩ := exists_dateChars m.stamp.date
  have hlength := length_dateChars m.stamp.date
  have hlong : ¬ (m.chars separator).length < 7 := by
    rw [chars_eq, List.length_append, hlength]
    omega
  have htake : (m.chars separator).take 10 = dateChars m.stamp.date := by
    rw [chars_eq, ← hlength, List.take_left']
    rfl
  have hdrop : (m.chars separator).drop 10 = separator :: m.timeChars := by
    rw [chars_eq, ← hlength, List.drop_left']
    rfl
  have hten : Iso.dateLength (m.chars separator) = 10 := by rw [chars_eq, dateLength_dateChars]
  have hclock : ClockTime.make m.stamp.time.hour m.stamp.time.minute m.stamp.time.second = .ok m.stamp.time := by
    simp [ClockTime.make]
  have hoffset : (m.offset.map Offset.micros).mapM Iso.checkOffset = .ok m.offset := by
    cases m.offset with
    | none => rfl
    | some o => simp [Option.mapM_some, Iso.checkOffset, o.isShort]
  have hmicro : (⟨m.micro % 1000000, Nat.mod_lt _ (by decide)⟩ : Fin 1000000) = m.micro :=
    Fin.ext (Nat.mod_eq_of_lt m.micro.isLt)
  unfold Iso.readChars
  simp only [if_neg hlong, hten, htake, hdrop, hdate, readTime_timeChars h, Date.make_self, hclock, hoffset,
    Iso.checked, Except.mapError, bind, Except.bind, pure, Except.pure, hmicro]

theorem isBlank_timeChars {m : Moment} (h : m.IsWhole) : ∀ c ∈ m.timeChars, isBlank c = false := by
  have hclock {cs : List Char} (hcs : ∀ c ∈ cs, IsClockChar c) : ∀ c ∈ cs, isBlank c = false :=
    fun c hc => (hcs c hc).isBlank
  have hfront := List.forall_mem_append.mpr ⟨hclock (isClockChar_time m.stamp.time),
    hclock (isClockChar_fraction m.micro)⟩
  rw [timeChars, List.forall_mem_append]
  refine ⟨hfront, ?_⟩
  cases ho : m.offset with
  | none => simp
  | some o =>
    simp only [Option.map_some, Option.getD_some, offsetChars_eq (h o ho), List.forall_mem_cons]
    refine ⟨?_, hclock (isClockChar_zone _)⟩
    by_cases hneg : o.micros < 0 <;> simp only [hneg, if_true, if_false] <;> rfl

theorem trim_chars (separator : Char) {m : Moment} (h : m.IsWhole) :
    (ofChars (m.chars separator)).trim = ofChars (m.chars separator) := by
  obtain ⟨y₁, y₂, y₃, y₄, m₁, m₂, d₁, d₂, hdate, hy, -⟩ := exists_dateChars m.stamp.date
  have hne : m.timeChars ≠ [] := by simp [timeChars, ClockTime.chars]
  obtain ⟨front, last, hlast⟩ := List.eq_nil_or_concat m.timeChars |>.resolve_left hne
  rw [List.concat_eq_append] at hlast
  apply trim_ofChars
  · intro c hc
    rw [chars_eq, hdate] at hc
    obtain rfl : y₁ = c := Option.some.inj hc
    exact isBlank_of_isDigit hy
  · intro c hc
    have hchars : m.chars separator = dateChars m.stamp.date ++ separator :: front ++ [last] := by
      simp [chars_eq, hlast]
    rw [hchars, List.getLast?_concat] at hc
    obtain rfl : last = c := Option.some.inj hc
    exact isBlank_timeChars h last (by simp [hlast])

theorem denoted_chars (separator : Char) {m : Moment} (h : m.IsWhole) {before after : Text}
    (hbefore : before.IsBlank) (hafter : after.IsBlank) :
    (Value.text (before ++ ofChars (m.chars separator) ++ after)).denoted = .ok m := by
  have htrim : (before ++ ofChars (m.chars separator) ++ after).trim = ofChars (m.chars separator) := by
    rw [trim_between _ hbefore hafter, trim_chars separator h]
  change Value.readMoment (before ++ ofChars (m.chars separator) ++ after) = .ok m
  simp only [Value.readMoment, htrim, read_ofChars, readChars_chars separator h]
  rfl

end Moment

end OrderStore
