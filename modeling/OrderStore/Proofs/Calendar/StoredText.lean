import OrderStore.Proofs.Calendar.IsoText

namespace OrderStore

open Text

namespace Timestamp

theorem natChars_four {n : Nat} (hl : 1000 ≤ n) (hu : n ≤ 9999) : natChars n = padded 4 n :=
  natChars_eq_padded hl (by omega)

theorem chars_eq {t : Timestamp} (h : 1000 ≤ t.date.year) : t.chars = (Moment.ofTimestamp t).chars ' ' := by
  have hyear := natChars_four h t.date.isDate.2.1
  simp [chars, Moment.chars, Moment.ofTimestamp, Moment.dateChars, Moment.fractionChars, hyear]

theorem readChars_chars {t : Timestamp} (h : 1000 ≤ t.date.year) :
    Iso.readChars t.chars = .ok (.ofTimestamp t) := by
  have hwhole : (Moment.ofTimestamp t).IsWhole := by
    intro o ho
    simp [Moment.ofTimestamp] at ho
  rw [chars_eq h, Moment.readChars_chars ' ' hwhole]

theorem toList_text (t : Timestamp) : t.text.toList = t.chars := String.toList_ofList

theorem ofString_text (t : Timestamp) : Text.ofString t.text = ofChars t.chars :=
  congrArg ofChars t.toList_text

theorem chars_ends (t : Timestamp) :
    ∃ c cs d, t.chars = c :: cs ++ [d] ∧ isDigit c = true ∧ isDigit d = true := by
  obtain ⟨c, year, hyear⟩ := List.exists_cons_of_ne_nil (natChars_ne_nil t.date.year)
  have hc : isDigit c = true := isDigit_of_mem_natChars (hyear ▸ List.mem_cons_self)
  have hsecond : t.time.second.val < 100 := by omega
  obtain ⟨s₁, s₂, hs, -, hs₂, -⟩ := padded_two hsecond
  refine ⟨c, year ++ '-' :: padded 2 t.date.month ++ '-' :: padded 2 t.date.day ++ ' ' ::
    (padded 2 t.time.hour ++ ':' :: padded 2 t.time.minute ++ ':' :: [s₁]), s₂, ?_, hc, hs₂⟩
  simp [chars, ClockTime.chars, hyear, hs]

theorem trim_text (t : Timestamp) : (Text.ofString t.text).trim = Text.ofString t.text := by
  obtain ⟨c, cs, d, hchars, hc, hd⟩ := t.chars_ends
  rw [ofString_text]
  apply trim_ofChars
  · intro x hx
    rw [hchars] at hx
    obtain rfl : c = x := Option.some.inj hx
    exact isBlank_of_isDigit hc
  · intro x hx
    rw [hchars, List.getLast?_concat] at hx
    obtain rfl : d = x := Option.some.inj hx
    exact isBlank_of_isDigit hd

theorem text_ne_now (t : Timestamp) : Text.ofString t.text ≠ "now" := by
  obtain ⟨c, cs, d, hchars, hc, -⟩ := t.chars_ends
  intro he
  have hnow : c :: cs ++ [d] = "now".toList := by
    rw [← hchars, ← toList_text, ofString_inj.mp he]
  obtain rfl : c = 'n' := (List.cons.inj hnow).1
  cases hc

theorem read_text {t : Timestamp} (h : 1000 ≤ t.date.year) :
    Iso.read (Text.ofString t.text) = .ok (.ofTimestamp t) := by
  rw [ofString_text, Iso.read_ofChars, readChars_chars h]

end Timestamp

theorem Value.toTimestamp_text (now : WallClock) (t : Timestamp) :
    toTimestamp now (.text t.text) =
      ((Iso.read (Text.ofString t.text)).mapError (ofIsoFault t.text)).bind (settle now.zone) := by
  simp only [toTimestamp, shown_text, Except.bind, if_neg (Timestamp.text_ne_now t)]
  rw [readMoment, Timestamp.trim_text]

theorem Value.toTimestamp_stored (now : WallClock) {t : Timestamp} (h : 1000 ≤ t.date.year) :
    toTimestamp now (.text t.text) = .ok t := by
  rw [toTimestamp_text, Timestamp.read_text h]
  rfl

theorem Iso.le_dateLength (cs : List Char) : 4 ≤ dateLength cs := by
  unfold dateLength
  dsimp only
  split_ifs <;> omega

theorem Iso.readChars_of_not_year {cs : List Char} (h : readNat? (cs.take 4) = none) :
    readChars cs = .error .malformed := by
  have hdate : readDate (cs.take (dateLength cs)) = .error .malformed := by
    have hyear : takeDigits? 4 (cs.take (dateLength cs)) = none := by
      rw [takeDigits?, List.take_take, Nat.min_eq_left (le_dateLength cs), h]
      split <;> rfl
    rw [readDate, hyear]
  unfold readChars
  simp only [hdate]
  split <;> rfl

theorem Timestamp.read_early {t : Timestamp} (h : t.date.year < 1000) :
    Iso.read (Text.ofString t.text) = .error .malformed := by
  have hshort : (natChars t.date.year).length ≤ 3 := @natChars_length_le 2 _ h
  have hhyphen : '-' ∈ t.chars.take 4 := by
    obtain ⟨n, hn⟩ : ∃ n, 4 - (natChars t.date.year).length = n + 1 :=
      ⟨3 - (natChars t.date.year).length, by omega⟩
    rw [chars, List.append_assoc, List.append_assoc, List.take_append, List.mem_append, hn]
    exact .inr List.mem_cons_self
  rw [ofString_text, Iso.read_ofChars]
  exact Iso.readChars_of_not_year (readNat?_eq_none hhyphen rfl)

theorem Value.toTimestamp_early (now : WallClock) {t : Timestamp} (h : t.date.year < 1000) :
    toTimestamp now (.text t.text) = .error (.notTimestamp t.text) := by
  rw [toTimestamp_text, Timestamp.read_early h]
  rfl

theorem Timestamp.text_lt_iff {a b : Timestamp} (ha : 1000 ≤ a.date.year) (hb : 1000 ≤ b.date.year) :
    Text.ofString a.text < Text.ofString b.text ↔ a.fields < b.fields := by
  obtain ⟨-, hyear, -, hmonth, -, hday⟩ := a.date.isDate
  obtain ⟨-, hyear', -, hmonth', -, hday'⟩ := b.date.isDate
  have hlength := Calendar.monthLength_le a.date.year a.date.month
  have hlength' := Calendar.monthLength_le b.date.year b.date.month
  have hsecond : ranks (padded 2 a.time.second.val) < ranks (padded 2 b.time.second.val) ↔
      a.time.second.val < b.time.second.val := (ranks_padded_lt_iff (by omega) (by omega)).1
  rw [ofString_text, ofString_text, ofChars_lt_iff]
  simp only [chars, ClockTime.chars, natChars_four ha hyear, natChars_four hb hyear', List.append_assoc,
    List.cons_append]
  rw [ranks_padded_append_lt_iff (by omega) (by omega), ranks_padded_append_lt_iff (by omega) (by omega),
    ranks_padded_append_lt_iff (by omega) (by omega), ranks_padded_append_lt_iff (by omega) (by omega),
    ranks_padded_append_lt_iff (by omega) (by omega), hsecond]
  simp [fields, Date.fields, List.cons_lt_cons_iff]

theorem Timestamp.text_injective {a b : Timestamp} (ha : 1000 ≤ a.date.year) (hb : 1000 ≤ b.date.year)
    (h : a.text = b.text) : a = b := by
  have hread := read_text ha
  rw [h, read_text hb] at hread
  exact (congrArg Moment.stamp (Except.ok.inj hread)).symm

/-- A text says the same as the moment that it was written from, with either separator and blanks around it,
and stored texts of four-digit years are read back and ordered as their timestamps. -/
theorem Value.texts_read_back (now : WallClock) :
    (∀ m : Moment, m.IsWhole → ∀ s ∈ [m.isoText, m.text], ∀ before after : Text, before.IsBlank → after.IsBlank →
      (Value.text (before ++ s ++ after)).toTimestamp now = (Value.moment m).toTimestamp now) ∧
    (∀ t : Timestamp, 1000 ≤ t.date.year → (Value.text t.text).toTimestamp now = .ok t) ∧
    ∀ a b : Timestamp, 1000 ≤ a.date.year → 1000 ≤ b.date.year →
      (Text.ofString a.text < Text.ofString b.text ↔ a.fields < b.fields) ∧ (a.text = b.text → a = b) := by
  refine ⟨?_, fun t ht => toTimestamp_stored now ht, ?_⟩
  · intro m h s hs before after hbefore hafter
    obtain ⟨separator, rfl⟩ : ∃ separator, s = String.ofList (m.chars separator) := by
      simp only [List.mem_cons, List.not_mem_nil, or_false] at hs
      rcases hs with rfl | rfl
      · exact ⟨'T', rfl⟩
      · exact ⟨' ', rfl⟩
    have hdenoted := Moment.denoted_chars separator h hbefore hafter
    rw [Text.ofString, String.toList_ofList, toTimestamp_of_denoted hdenoted]
    rfl
  · intro a b ha hb
    exact ⟨Timestamp.text_lt_iff ha hb, Timestamp.text_injective ha hb⟩

theorem Value.texts_read_back_beyond :
    let now : WallClock := .ofTimestamp ⟨⟨2024, 6, 15, by decide⟩, .midnight⟩
    let m : Moment := ⟨⟨⟨1, 1, 1, by decide⟩, ⟨0, 0, 5⟩⟩, 7, some ⟨3723000000, by decide⟩⟩
    let a : Timestamp := ⟨⟨1000, 12, 31, by decide⟩, ⟨23, 59, 59⟩⟩
    let b : Timestamp := ⟨⟨1001, 1, 1, by decide⟩, .midnight⟩
    m.IsWhole ∧ m.isoText = "0001-01-01T00:00:05.000007+01:02:03" ∧
      (Value.text (" " ++ m.isoText ++ "\n")).toTimestamp now = .error .beyondCalendar ∧
      (Value.text a.text).toTimestamp now = .ok a ∧ Text.ofString a.text < Text.ofString b.text := by
  intro now m a b
  obtain ⟨hmoments, hstored, horder⟩ := Value.texts_read_back now
  have hm : m.IsWhole := by
    intro o ho
    have hmicros : o.micros = 1000000 * 3723 := congrArg Offset.micros (Option.some.inj ho).symm
    exact ⟨3723, hmicros⟩
  have hoverflow : ¬ m.InCalendar := by decide +kernel
  have hdenoted : (Value.moment m).denoted = .ok m := rfl
  have hutc : now.zone.IsUtc := fun _ => rfl
  have hbeyond : (Value.moment m).toTimestamp now = .error .beyondCalendar := by
    rw [toTimestamp_of_denoted hdenoted, settle_eq_error_iff]
    refine ⟨rfl, fun t ht => hoverflow ?_⟩
    exact Moment.exists_fallsInto_iff.mp ⟨t, (Moment.shownAs_iff_of_isUtc hutc).mp ht⟩
  refine ⟨hm, by decide +kernel, ?_, hstored a (by decide), ?_⟩
  · rw [hmoments m hm m.isoText List.mem_cons_self " " "\n" (by decide) (by decide), hbeyond]
  · exact (horder a b (by decide) (by decide)).1.mpr (by decide)

end OrderStore
