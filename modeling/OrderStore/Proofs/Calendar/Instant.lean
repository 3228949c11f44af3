import OrderStore.Proofs.Calendar.DayNumber
import OrderStore.Proofs.Except
import OrderStore.Proofs.Text.Lexicographic
import OrderStore.Value.Coerce

namespace OrderStore

open Calendar

namespace Timestamp

def fields (t : Timestamp) : List Nat :=
  t.date.fields ++ [t.time.hour.val, t.time.minute.val, t.time.second.val]

theorem fields_injective : Function.Injective fields := by
  rintro ⟨d, ⟨⟨h, hh⟩, ⟨m, hm⟩, ⟨s, hs⟩⟩⟩ ⟨d', ⟨⟨h', hh'⟩, ⟨m', hm'⟩, ⟨s', hs'⟩⟩⟩ he
  obtain ⟨hd, ht⟩ := List.append_inj he rfl
  obtain rfl := Date.fields_injective hd
  simpa using ht

theorem seconds_lt_seconds {a b : Timestamp} (h : a.fields < b.fields) : a.seconds < b.seconds := by
  have ha := a.time.seconds_lt
  have hlength : a.date.fields.length = b.date.fields.length := rfl
  rcases (Text.append_lt_append_iff hlength).mp h with hd | ⟨hd, ht⟩
  · have hday := Date.dayNumber_lt_dayNumber hd
    simp only [seconds]
    omega
  · rw [seconds, seconds, Date.fields_injective hd]
    simp only [List.cons_lt_cons_iff, List.not_lt_nil, and_false, or_false] at ht
    simp only [ClockTime.seconds]
    omega

theorem seconds_lt_iff (a b : Timestamp) : a.seconds < b.seconds ↔ a.fields < b.fields :=
  number_lt_iff fields_injective (fun _ _ => seconds_lt_seconds) a b

theorem seconds_injective : Function.Injective seconds :=
  number_injective fields_injective fun _ _ => seconds_lt_seconds

theorem ofSeconds?_eq_some_iff {n : Int} {t : Timestamp} : ofSeconds? n = some t ↔ (t.seconds : Int) = n := by
  have ht := t.time.seconds_lt
  by_cases hn : n < 0
  · simp only [ofSeconds?, if_pos hn, reduceCtorEq, false_iff]
    omega
  · simp only [ofSeconds?, if_neg hn, Option.map_eq_some_iff, Date.ofDayNumber?_eq_some_iff]
    constructor
    · rintro ⟨d, hd, rfl⟩
      simp only [seconds, hd, ClockTime.seconds_ofSeconds (Nat.mod_lt n.toNat (by decide))]
      omega
    · intro h
      simp only [seconds] at h
      refine ⟨t.date, by omega, ?_⟩
      have htime : n.toNat % 86400 = t.time.seconds := by omega
      rw [htime, ClockTime.ofSeconds_seconds]

theorem exists_seconds {n : Nat} (hn : n < daysBefore 10000 * 86400) : ∃ t : Timestamp, t.seconds = n := by
  obtain ⟨d, -, hd⟩ := Date.exists_dayNumber (n := n / 86400) (by omega)
  refine ⟨⟨d, .ofSeconds (n % 86400)⟩, ?_⟩
  simp only [seconds, hd, ClockTime.seconds_ofSeconds (Nat.mod_lt n (by decide))]
  omega

theorem seconds_lt_end (t : Timestamp) : t.seconds < daysBefore 10000 * 86400 := by
  have hd := t.date.dayNumber_lt
  have ht := t.time.seconds_lt
  simp only [seconds]
  omega

end Timestamp

namespace Zone

def IsUtc (z : Zone) : Prop := ∀ n, z.shift n = 0

/-- The clocks are never set back. -/
def Steady (z : Zone) : Prop := ∀ m n, m ≤ n → m + z.shift m ≤ n + z.shift n

end Zone

namespace Moment

variable {z : Zone} {m n : Moment} {t u : Timestamp}

/-- The moment is within this second, of universal time if it has an offset. -/
def FallsInto (m : Moment) (t : Timestamp) : Prop :=
  (t.seconds : Int) * 1000000 ≤ m.micros ∧ m.micros < ((t.seconds : Int) + 1) * 1000000

instance : Decidable (m.FallsInto t) := inferInstanceAs (Decidable (_ ∧ _))

def InCalendar (m : Moment) : Prop :=
  0 ≤ m.micros ∧ m.micros < (daysBefore 10000 : Int) * 86400 * 1000000

instance : Decidable m.InCalendar := inferInstanceAs (Decidable (_ ∧ _))

theorem fallsInto_iff : m.FallsInto t ↔ (t.seconds : Int) = m.micros.fdiv 1000000 := by
  rw [FallsInto, Int.fdiv_eq_ediv_of_nonneg _ (by decide)]
  omega

theorem exists_fallsInto_iff : (∃ t, m.FallsInto t) ↔ m.InCalendar := by
  constructor
  · rintro ⟨t, hl, hu⟩
    have ht := t.seconds_lt_end
    constructor
    · omega
    · omega
  · rintro ⟨hl, hu⟩
    obtain ⟨t, ht⟩ := Timestamp.exists_seconds (n := (m.micros / 1000000).toNat) (by omega)
    refine ⟨t, ?_, ?_⟩
    · omega
    · omega

/-- The clocks of the zone show the time at the universal second of the moment; without an offset it is the time
that the moment gives. -/
def ShownAs (z : Zone) (m : Moment) (t : Timestamp) : Prop :=
  if m.offset = none then t = m.stamp
  else ∃ u : Timestamp, m.FallsInto u ∧ (t.seconds : Int) = u.seconds + z.shift u.seconds

theorem fallsInto_of_local (h : m.offset = none) : m.FallsInto t ↔ t = m.stamp := by
  simp only [FallsInto, micros, h, Option.map_none, Option.getD_none]
  constructor
  · intro h
    apply Timestamp.seconds_injective
    omega
  · rintro rfl
    omega

theorem settle?_eq_some_iff : m.settle? z = some t ↔ m.ShownAs z t := by
  cases ho : m.offset with
  | none => simp [settle?, ShownAs, ho, eq_comm]
  | some o =>
    simp only [settle?, ShownAs, ho, Zone.shown?, Option.bind_eq_some_iff, Timestamp.ofSeconds?_eq_some_iff,
      ← fallsInto_iff, reduceCtorEq, if_false]
    refine exists_congr fun u => and_congr_right fun hu => ?_
    rw [fallsInto_iff.mp hu]

theorem shownAs_iff_of_isUtc (hz : z.IsUtc) : m.ShownAs z t ↔ m.FallsInto t := by
  rw [ShownAs]
  split
  case isTrue ho => exact (fallsInto_of_local ho).symm
  case isFalse ho =>
    constructor
    · rintro ⟨u, hu, ht⟩
      rw [hz, Int.add_zero, Int.ofNat_inj] at ht
      exact Timestamp.seconds_injective ht ▸ hu
    · intro h
      exact ⟨t, h, by rw [hz, Int.add_zero]⟩

theorem fields_le_iff : t.fields ≤ u.fields ↔ t.seconds ≤ u.seconds := by
  rw [← not_lt, ← not_lt, Timestamp.seconds_lt_iff]

theorem seconds_le_of_fallsInto (ht : m.FallsInto t) (hu : n.FallsInto u) (h : m.micros ≤ n.micros) :
    t.seconds ≤ u.seconds := by
  obtain ⟨ht, -⟩ := ht
  obtain ⟨-, hu⟩ := hu
  omega

theorem shownAs_congr (ho : m.offset = none ↔ n.offset = none) (h : m.micros = n.micros) :
    m.ShownAs z t ↔ n.ShownAs z t := by
  by_cases hm : m.offset = none
  · rw [ShownAs, ShownAs, if_pos hm, if_pos (ho.mp hm), ← fallsInto_of_local hm, ← fallsInto_of_local (ho.mp hm),
      FallsInto, FallsInto, h]
  · rw [ShownAs, ShownAs, if_neg hm, if_neg (mt ho.mpr hm)]
    simp only [FallsInto, h]

theorem fields_le_of_shownAs (ho : m.offset = none ↔ n.offset = none) (hz : m.offset = none ∨ z.Steady)
    (ht : m.ShownAs z t) (hu : n.ShownAs z u) (h : m.micros ≤ n.micros) : t.fields ≤ u.fields := by
  rw [fields_le_iff]
  by_cases hm : m.offset = none
  · rw [ShownAs, if_pos hm, ← fallsInto_of_local hm] at ht
    rw [ShownAs, if_pos (ho.mp hm), ← fallsInto_of_local (ho.mp hm)] at hu
    exact seconds_le_of_fallsInto ht hu h
  · rw [ShownAs, if_neg hm] at ht
    rw [ShownAs, if_neg (mt ho.mpr hm)] at hu
    obtain ⟨t', ht', ht⟩ := ht
    obtain ⟨u', hu', hu⟩ := hu
    -- Local times keep the order of the universal seconds, since clocks are not set back.
    have hsteady := hz.resolve_left hm t'.seconds u'.seconds
      (Int.ofNat_le.mpr (seconds_le_of_fallsInto ht' hu' h))
    omega

end Moment

namespace Value

variable {now : WallClock} {z : Zone} {v w : Value} {m n : Moment} {t u : Timestamp}

def denoted : Value → Except Error Moment
  | .moment m => .ok m
  | .date d => .ok (.ofTimestamp ⟨d, .midnight⟩)
  | v => v.shown.bind readMoment

theorem denoted_text (t : Text) : denoted (.text t) = readMoment t := rfl

theorem settle_eq_ok_iff : settle z m = .ok t ↔ m.ShownAs z t := by
  rw [← Moment.settle?_eq_some_iff, settle]
  cases m.settle? z <;> simp

theorem settle_eq_error_iff {e : Error} : settle z m = .error e ↔ e = .beyondCalendar ∧ ∀ t, ¬ m.ShownAs z t := by
  simp only [← Moment.settle?_eq_some_iff, settle]
  cases m.settle? z with
  | none => simp [eq_comm]
  | some t => simp

theorem settle_congr (h : ∀ t, m.ShownAs z t ↔ n.ShownAs z t) : settle z m = settle z n := by
  have hsettle : m.settle? z = n.settle? z :=
    Option.ext fun t => by rw [Moment.settle?_eq_some_iff, Moment.settle?_eq_some_iff, h]
  rw [settle, settle, hsettle]

theorem toTimestamp_of_denoted (h : v.denoted = .ok m) : v.toTimestamp now = settle now.zone m := by
  have written {v : Value} (h : v.shown.bind readMoment = .ok m) :
      (v.shown.bind fun t => if t = "now" then settle now.zone now.shown else (readMoment t).bind (settle now.zone)) =
        settle now.zone m := by
    obtain ⟨t, ht, hread⟩ := bind_eq_ok.mp h
    rw [ht, Except.bind]
    by_cases hnow : t = "now"
    · rw [hnow] at hread
      cases hread
    · rw [if_neg hnow, hread]
      rfl
  cases v with
  | null => cases h
  | moment m' | date d =>
    cases h
    rfl
  | _ =>
    simp only [denoted] at h
    simp only [toTimestamp]
    exact written h

/-- What values that name moments become, at a clock of any zone. Without an offset it is the time that was given,
rounded down; with one it is the local time of the instant, and there is none if that or the universal time is
outside of the years 1 to 9999. It depends on the instant only and does not get earlier when that gets later,
unless clocks are set back. -/
structure ReadsInstants (now : WallClock) : Prop where
  reads : ∀ v m, denoted v = .ok m → ∀ t, v.toTimestamp now = .ok t ↔ m.ShownAs now.zone t
  overflows : ∀ v m, denoted v = .ok m →
    ((∃ e, v.toTimestamp now = .error e ∧ e.kind = .overflow) ↔ ∀ t, ¬ m.ShownAs now.zone t)
  naive : ∀ v m, denoted v = .ok m → m.offset = none → v.toTimestamp now = .ok m.stamp
  instant : ∀ v w m n, denoted v = .ok m → denoted w = .ok n → (m.offset = none ↔ n.offset = none) →
    m.micros = n.micros → v.toTimestamp now = w.toTimestamp now
  monotone : ∀ v w m n, denoted v = .ok m → denoted w = .ok n → (m.offset = none ↔ n.offset = none) →
    m.offset = none ∨ now.zone.Steady → m.micros ≤ n.micros → ∀ t u, v.toTimestamp now = .ok t →
    w.toTimestamp now = .ok u → t.fields ≤ u.fields
  settled : ∀ v t, toTimestamp now v = .ok t → (Moment.ofTimestamp t).offset = none ∧
    (Moment.ofTimestamp t).micro = 0 ∧ ∀ later, (Value.moment (.ofTimestamp t)).toTimestamp later = .ok t

theorem readsInstants (now : WallClock) : ReadsInstants now where
  reads v m hv t := by rw [toTimestamp_of_denoted hv, settle_eq_ok_iff]
  overflows v m hv := by
    rw [toTimestamp_of_denoted hv]
    constructor
    · rintro ⟨e, he, -⟩
      exact (settle_eq_error_iff.mp he).2
    · intro h
      exact ⟨.beyondCalendar, settle_eq_error_iff.mpr ⟨rfl, h⟩, rfl⟩
  naive v m hv hlocal := by
    rw [toTimestamp_of_denoted hv, settle_eq_ok_iff, Moment.ShownAs, if_pos hlocal]
  instant v w m n hv hw ho h := by
    rw [toTimestamp_of_denoted hv, toTimestamp_of_denoted hw]
    exact settle_congr fun t => Moment.shownAs_congr ho h
  monotone v w m n hv hw ho hz h t u ht hu := by
    rw [toTimestamp_of_denoted hv, settle_eq_ok_iff] at ht
    rw [toTimestamp_of_denoted hw, settle_eq_ok_iff] at hu
    exact Moment.fields_le_of_shownAs ho hz ht hu h
  settled v t _ := ⟨rfl, rfl, fun later => toTimestamp_moment_ofTimestamp later t⟩

/-- A value becomes a second by the instant that it names, and where clocks show universal time this is the second
of universal time that the instant falls into, or none outside of the years 1 to 9999. The seconds are numbered in
the order of the calendar and without gaps. -/
theorem toTimestamp_by_instant (now : WallClock) :
    (∀ a b : Timestamp, a.seconds < b.seconds ↔ a.fields < b.fields) ∧
    (∀ k, (∃ t : Timestamp, t.seconds = k) ↔ k < daysBefore 10000 * 86400) ∧ ReadsInstants now ∧
    (now.zone.IsUtc →
      (∀ v m, denoted v = .ok m → (∀ t, v.toTimestamp now = .ok t ↔ m.FallsInto t) ∧
        ((∃ e, v.toTimestamp now = .error e ∧ e.kind = .overflow) ↔ ¬ m.InCalendar)) ∧
      ∀ v w m n, denoted v = .ok m → denoted w = .ok n →
        (m.micros = n.micros → v.toTimestamp now = w.toTimestamp now) ∧
        (m.micros ≤ n.micros → ∀ t u, v.toTimestamp now = .ok t → w.toTimestamp now = .ok u →
          t.fields ≤ u.fields)) := by
  refine ⟨Timestamp.seconds_lt_iff, fun k => ⟨?_, Timestamp.exists_seconds⟩, readsInstants now, fun hz => ⟨?_, ?_⟩⟩
  · rintro ⟨t, rfl⟩
    exact t.seconds_lt_end
  · intro v m hv
    have hfalls (t : Timestamp) := Moment.shownAs_iff_of_isUtc (m := m) (t := t) hz
    refine ⟨fun t => ((readsInstants now).reads v m hv t).trans (hfalls t), ?_⟩
    rw [(readsInstants now).overflows v m hv, ← Moment.exists_fallsInto_iff]
    simp only [hfalls, not_exists]
  · intro v w m n hv hw
    rw [toTimestamp_of_denoted hv, toTimestamp_of_denoted hw]
    constructor
    · intro h
      apply settle_congr
      intro t
      rw [Moment.shownAs_iff_of_isUtc hz, Moment.shownAs_iff_of_isUtc hz, Moment.FallsInto, Moment.FallsInto, h]
    · intro h t u ht hu
      rw [settle_eq_ok_iff, Moment.shownAs_iff_of_isUtc hz] at ht hu
      exact Moment.fields_le_iff.mpr (Moment.seconds_le_of_fallsInto ht hu h)

theorem toTimestamp_by_instant_leapDay :
    let now : WallClock := .ofTimestamp ⟨⟨2024, 6, 15, by decide⟩, .midnight⟩
    let ahead : WallClock := { now with zone := ⟨fun _ => 28800, fun _ => by decide⟩ }
    let east : Text := "2024-03-01T00:30:00.5+02:00"
    let m : Moment := ⟨⟨⟨2024, 3, 1, by decide⟩, ⟨0, 30, 0⟩⟩, 500000, some ⟨7200000000, by decide⟩⟩
    let west : Moment := ⟨⟨⟨2024, 2, 29, by decide⟩, ⟨17, 30, 0⟩⟩, 500000, some ⟨-18000000000, by decide⟩⟩
    let t : Timestamp := ⟨⟨2024, 2, 29, by decide⟩, ⟨22, 30, 0⟩⟩
    (Value.text east).denoted = .ok m ∧ m.micros = west.micros ∧ now.zone.IsUtc ∧ m.FallsInto t ∧
      (Value.text east).toTimestamp now = .ok t ∧ (Value.moment west).toTimestamp now = .ok t ∧
      (Value.text east).toTimestamp ahead = .ok ⟨⟨2024, 3, 1, by decide⟩, ⟨6, 30, 0⟩⟩ := by
  intro now ahead east m west t
  have hread : Iso.read east.trim = .ok m := by decide +kernel
  have heast : (Value.text east).denoted = .ok m := by
    rw [denoted_text, readMoment, hread]
    rfl
  have hmicros : m.micros = west.micros := by decide +kernel
  have hm : m.FallsInto t := by decide +kernel
  have hutc : now.zone.IsUtc := fun _ => rfl
  obtain ⟨-, -, -, hnow⟩ := toTimestamp_by_instant now
  obtain ⟨hreads, hsame⟩ := hnow hutc
  obtain ⟨-, -, hahead, -⟩ := toTimestamp_by_instant ahead
  have ht : (Value.text east).toTimestamp now = .ok t := ((hreads _ m heast).1 t).mpr hm
  refine ⟨heast, hmicros, hutc, hm, ht, ?_, ?_⟩
  · rw [← ht]
    exact ((hsame _ (.moment west) m west heast rfl).1 hmicros).symm
  · rw [hahead.reads _ m heast, Moment.ShownAs, if_neg nofun]
    exact ⟨t, hm, by decide +kernel⟩

end Value

end OrderStore
