import Mathlib.Data.List.Lex
import OrderStore.Calendar.Date

namespace OrderStore

section Fields

variable {α : Type} {fields : α → List Nat} {number : α → Nat}

theorem number_lt_iff (hfields : Function.Injective fields)
    (h : ∀ a b, fields a < fields b → number a < number b) (a b : α) :
    number a < number b ↔ fields a < fields b := by
  refine ⟨fun hlt => ?_, h a b⟩
  rcases lt_trichotomy (fields a) (fields b) with hab | hab | hab
  · exact hab
  · rw [hfields hab] at hlt
    omega
  · have := h b a hab
    omega

theorem number_injective (hfields : Function.Injective fields)
    (h : ∀ a b, fields a < fields b → number a < number b) : Function.Injective number := by
  intro a b heq
  apply hfields
  rcases lt_trichotomy (fields a) (fields b) with hab | hab | hab
  · have := h a b hab
    omega
  · exact hab
  · have := h b a hab
    omega

end Fields

namespace Calendar

theorem start_succ {spans : List Nat} {i : Nat} (hi : i < spans.length) :
    start spans (i + 1) = start spans i + spans[i] := by
  induction spans generalizing i with
  | nil => simp at hi
  | cons span spans ih =>
    cases i with
    | zero => simp [start]
    | succ i =>
      have h := ih (i := i) (by simpa using hi)
      simp only [start, List.getElem_cons_succ] at h ⊢
      omega

theorem start_mono (spans : List Nat) {i j : Nat} (hij : i ≤ j) (hj : j ≤ spans.length) :
    start spans i ≤ start spans j := by
  induction j with
  | zero => simp [Nat.le_zero.mp hij]
  | succ j ih =>
    have hstep := start_succ hj
    by_cases h : i = j + 1
    · rw [h]
    · have := ih (by omega) (by omega)
      omega

theorem walk_lt {spans : List Nat} {n : Nat} (hn : n < start spans spans.length) :
    ∃ h : (walk spans n).1 < spans.length, (walk spans n).2 < spans[(walk spans n).1] := by
  induction spans generalizing n with
  | nil => simp [start] at hn
  | cons span spans ih =>
    simp only [List.length_cons, start] at hn
    by_cases h : n < span
    · simp [walk, h]
    · obtain ⟨hi, hplace⟩ := ih (n := n - span) (by omega)
      simp only [walk, if_neg h, List.length_cons, List.getElem_cons_succ]
      exact ⟨by omega, hplace⟩

theorem isLeap_add (year k : Nat) : isLeap (400 * k + year) = isLeap year := by
  have h4 : (400 * k + year) % 4 = year % 4 := by omega
  have h100 : (400 * k + year) % 100 = year % 100 := by omega
  have h400 : (400 * k + year) % 400 = year % 400 := by omega
  simp only [isLeap, h4, h100, h400]

theorem yearLength_add (year k : Nat) : yearLength (400 * k + year) = yearLength year := by
  simp only [yearLength, isLeap_add]

theorem start_monthLengths (year : Nat) : start (monthLengths year) 12 = yearLength year := by
  by_cases h : isLeap year <;> simp [monthLengths, yearLength, start, h]

theorem length_cycle : cycle.length = 400 := by simp [cycle]

theorem getElem_cycle {i : Nat} (hi : i < cycle.length) : cycle[i] = yearLength (i + 1) := by simp [cycle]

theorem start_cycle : start cycle 400 = cycleLength := by decide +kernel

theorem daysBefore_eq {q r : Nat} (hr : r < 400) :
    daysBefore (400 * q + r + 1) = q * cycleLength + start cycle r := by
  have hq : (400 * q + r + 1 - 1) / 400 = q := by omega
  have hr : (400 * q + r + 1 - 1) % 400 = r := by omega
  simp only [daysBefore, hq, hr]

theorem daysBefore_succ {year : Nat} (h : 1 ≤ year) : daysBefore (year + 1) = daysBefore year + yearLength year := by
  obtain ⟨q, r, hr, rfl⟩ : ∃ q r, r < 400 ∧ year = 400 * q + r + 1 :=
    ⟨(year - 1) / 400, (year - 1) % 400, Nat.mod_lt _ (by decide), by omega⟩
  have hplace : r < cycle.length := by
    rw [length_cycle]
    exact hr
  have hstep := start_succ hplace
  rw [getElem_cycle] at hstep
  rw [daysBefore_eq hr, Nat.add_assoc (400 * q) r 1, yearLength_add]
  by_cases hlast : r = 399
  · -- The last year of a cycle is followed by the first one of the next.
    subst hlast
    have hnext := daysBefore_eq (q := q + 1) (r := 0) (by decide)
    have he : 400 * q + (399 + 1) + 1 = 400 * (q + 1) + 0 + 1 := by omega
    have hzero : start cycle 0 = 0 := rfl
    rw [start_cycle] at hstep
    rw [he, hnext, Nat.succ_mul, hzero]
    omega
  · have hnext := daysBefore_eq (q := q) (r := r + 1) (by omega)
    rw [hnext, hstep, Nat.add_assoc]

theorem daysBefore_add_le {year later : Nat} (h : 1 ≤ year) (hl : year < later) :
    daysBefore year + yearLength year ≤ daysBefore later := by
  induction later with
  | zero => omega
  | succ later ih =>
    have hstep : daysBefore (later + 1) = daysBefore later + yearLength later := daysBefore_succ (by omega)
    by_cases he : year = later
    · subst he
      omega
    · have := ih (by omega)
      omega

theorem getElem_monthLengths (year : Nat) {month : Nat} (hl : 1 ≤ month) (hu : month ≤ 12) :
    ∃ h : month - 1 < (monthLengths year).length, (monthLengths year)[month - 1] = monthLength year month := by
  have h : month - 1 < (monthLengths year).length := by
    simp only [monthLengths, List.length_cons, List.length_nil]
    omega
  exact ⟨h, by rw [monthLength, List.getElem?_eq_getElem h, Option.getD_some]⟩

end Calendar

open Calendar

namespace Date

def fields (d : Date) : List Nat := [d.year, d.month, d.day]

def dayOfYear (d : Date) : Nat := start (monthLengths d.year) (d.month - 1) + (d.day - 1)

theorem dayNumber_eq (d : Date) : d.dayNumber = daysBefore d.year + d.dayOfYear := by
  rw [dayNumber, dayOfYear, Nat.add_assoc]

theorem start_add_day (d : Date) :
    start (monthLengths d.year) (d.month - 1) + d.day ≤ start (monthLengths d.year) d.month := by
  obtain ⟨-, -, hm, hm', -, hd⟩ := d.isDate
  obtain ⟨h, hlength⟩ := getElem_monthLengths d.year hm hm'
  have hstep := start_succ h
  have he : d.month - 1 + 1 = d.month := by omega
  rw [hlength, he] at hstep
  omega

theorem dayOfYear_lt (d : Date) : d.dayOfYear < yearLength d.year := by
  have hday := d.start_add_day
  obtain ⟨-, -, -, hm, hd, -⟩ := d.isDate
  have hle : start (monthLengths d.year) d.month ≤ yearLength d.year := by
    rw [← start_monthLengths]
    exact start_mono (monthLengths d.year) hm (Nat.le_refl 12)
  rw [dayOfYear]
  omega

theorem dayNumber_lt (d : Date) : d.dayNumber < daysBefore 10000 := by
  have hday := d.dayOfYear_lt
  have hlast : d.year < 10000 := Nat.lt_succ_of_le d.isDate.2.1
  have hyear := daysBefore_add_le d.isDate.1 hlast
  rw [dayNumber_eq]
  omega

theorem dayOfYear_lt_dayOfYear {a b : Date} (hy : a.year = b.year)
    (h : a.month < b.month ∨ a.month = b.month ∧ a.day < b.day) : a.dayOfYear < b.dayOfYear := by
  have hday := a.start_add_day
  obtain ⟨-, -, -, -, hd, -⟩ := a.isDate
  obtain ⟨-, -, -, hm, hd', -⟩ := b.isDate
  simp only [dayOfYear, ← hy]
  rcases h with h | ⟨h, hlt⟩
  · have hlength : b.month - 1 ≤ (monthLengths a.year).length := by
      simp only [monthLengths, List.length_cons, List.length_nil]
      omega
    have hle := start_mono (monthLengths a.year) (Nat.le_sub_one_of_lt h) hlength
    omega
  · rw [h]
    omega

theorem dayNumber_lt_dayNumber {a b : Date} (h : a.fields < b.fields) : a.dayNumber < b.dayNumber := by
  simp only [fields, List.cons_lt_cons_iff, List.not_lt_nil, and_false, or_false] at h
  rw [dayNumber_eq, dayNumber_eq]
  rcases h with h | ⟨hy, h⟩
  · have hday := a.dayOfYear_lt
    have hyear := daysBefore_add_le a.isDate.1 h
    omega
  · have hday := dayOfYear_lt_dayOfYear hy h
    rw [hy]
    omega

theorem fields_injective : Function.Injective fields := by
  rintro ⟨y, m, d, h⟩ ⟨y', m', d', h'⟩ he
  simpa [fields] using he

theorem dayNumber_injective : Function.Injective dayNumber :=
  number_injective fields_injective fun _ _ => dayNumber_lt_dayNumber

theorem walk_cycle (n : Nat) : ∃ i place, walk cycle (n % cycleLength) = (i, place) ∧
    place < yearLength (n / cycleLength * 400 + i + 1) ∧
    daysBefore (n / cycleLength * 400 + i + 1) + place = n := by
  have hn : n % cycleLength < start cycle cycle.length := by
    rw [length_cycle, start_cycle]
    exact Nat.mod_lt _ (by decide)
  obtain ⟨hi, hplace⟩ := walk_lt hn
  have hsum := start_walk_add hn
  rw [getElem_cycle] at hplace
  rw [length_cycle] at hi
  refine ⟨(walk cycle (n % cycleLength)).1, (walk cycle (n % cycleLength)).2, rfl, ?_, ?_⟩
  · rw [Nat.mul_comm, Nat.add_assoc, yearLength_add]
    exact hplace
  · rw [Nat.mul_comm, daysBefore_eq hi, Nat.add_assoc, hsum]
    exact Nat.div_add_mod' n cycleLength

theorem walk_monthLengths {year place : Nat} (h : place < yearLength year) :
    ∃ m day, walk (monthLengths year) place = (m, day) ∧ m < 12 ∧ day < monthLength year (m + 1) ∧
      start (monthLengths year) m + day = place := by
  have hplace : place < start (monthLengths year) (monthLengths year).length := by
    rw [← start_monthLengths] at h
    exact h
  obtain ⟨hm, hday⟩ := walk_lt hplace
  refine ⟨(walk (monthLengths year) place).1, (walk (monthLengths year) place).2, rfl, hm, ?_,
    start_walk_add hplace⟩
  rw [monthLength, Nat.add_sub_cancel, List.getElem?_eq_getElem hm]
  exact hday

theorem ofDayNumber?_eq (n : Nat) : ∃ year m day, 1 ≤ year ∧ m < 12 ∧ day < monthLength year (m + 1) ∧
    daysBefore year + (start (monthLengths year) m + day) = n ∧
    ofDayNumber? n = if h : IsDate year (m + 1) (day + 1) then some ⟨year, m + 1, day + 1, h⟩ else none := by
  obtain ⟨i, place, hwalk, hplace, hn⟩ := walk_cycle n
  obtain ⟨m, day, hwalk', hm, hday, hsum⟩ := walk_monthLengths hplace
  refine ⟨_, m, day, by omega, hm, hday, by rw [hsum, hn], ?_⟩
  simp only [ofDayNumber?, hwalk, hwalk']

theorem exists_dayNumber {n : Nat} (hn : n < daysBefore 10000) : ∃ d, ofDayNumber? n = some d ∧ d.dayNumber = n := by
  obtain ⟨year, m, day, hyear, hm, hday, hsum, he⟩ := ofDayNumber?_eq n
  have hlast : year ≤ 9999 := by
    by_contra hlate
    by_cases h : year = 10000
    · subst h
      omega
    · have hlater : 10000 < year := by omega
      have hyears := daysBefore_add_le (by decide) hlater
      omega
  have hdate : IsDate year (m + 1) (day + 1) := ⟨hyear, hlast, by omega, by omega, by omega, by omega⟩
  rw [dif_pos hdate] at he
  refine ⟨_, he, ?_⟩
  rw [dayNumber_eq, dayOfYear]
  exact hsum

theorem ofDayNumber?_eq_some_iff {n : Nat} {d : Date} : ofDayNumber? n = some d ↔ d.dayNumber = n := by
  constructor
  · intro h
    obtain ⟨year, m, day, -, -, -, hsum, he⟩ := ofDayNumber?_eq n
    rw [he] at h
    split at h
    · cases h
      rw [dayNumber_eq, dayOfYear]
      exact hsum
    · cases h
  · rintro rfl
    obtain ⟨d', hd', hn⟩ := exists_dayNumber d.dayNumber_lt
    rw [hd', dayNumber_injective hn]

end Date

end OrderStore
