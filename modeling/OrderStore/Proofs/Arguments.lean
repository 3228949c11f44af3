import OrderStore.Arguments
import OrderStore.Proofs.Except

namespace OrderStore

namespace Named

theorem get?_cons_of_eq {name : Text} {e : Text × Value} (h : e.1 = name) (ns : Named) :
    get? name (e :: ns) = some e.2 := by
  simp [get?, Assoc.get?, h]

theorem get?_cons_of_ne {name : Text} {e : Text × Value} (h : e.1 ≠ name) (ns : Named) :
    get? name (e :: ns) = get? name ns := by
  simp [get?, Assoc.get?, h]

theorem get?_erase {name other : Text} (h : other ≠ name) (ns : Named) :
    (ns.erase name).get? other = ns.get? other := by
  induction ns with
  | nil => rfl
  | cons e ns ih =>
    by_cases he : e.1 = name
    · have hne : e.1 ≠ other := fun h' => h (h'.symm.trans he)
      rw [erase, List.filter_cons_of_neg (by simpa using he), get?_cons_of_ne hne]
      exact ih
    · rw [erase, List.filter_cons_of_pos (by simpa using he)]
      by_cases ho : e.1 = other
      · rw [get?_cons_of_eq ho, get?_cons_of_eq ho]
      · rw [get?_cons_of_ne ho, get?_cons_of_ne ho]
        exact ih

theorem get?_eq_none {name : Text} {ns : Named} (h : name ∉ ns.map Prod.fst) : ns.get? name = none := by
  induction ns with
  | nil => rfl
  | cons e ns ih =>
    rw [List.map_cons, List.mem_cons, not_or] at h
    rw [get?_cons_of_ne (Ne.symm h.1)]
    exact ih h.2

theorem get?_map {α : Type} {name : α → Text} (value : α → Value) {xs : List α} (hn : (xs.map name).Nodup)
    {x : α} (hx : x ∈ xs) : get? (name x) (xs.map fun x => (name x, value x)) = some (value x) := by
  induction xs with
  | nil => cases hx
  | cons y ys ih =>
    obtain ⟨hnew, hys⟩ := List.nodup_cons.mp hn
    rw [List.map_cons]
    rcases List.mem_cons.mp hx with rfl | hx
    · exact get?_cons_of_eq (e := (name x, value x)) rfl _
    · have hne : name y ≠ name x := fun h => hnew (h ▸ List.mem_map_of_mem hx)
      rw [get?_cons_of_ne hne]
      exact ih hys hx

end Named

namespace Arguments

theorem bindAll_eq_error {ps : List Parameter} {vs : List Value} {named : Named} {e : Error}
    (h : bindAll ps vs named = .error e) : e = .wrongArguments := by
  fun_induction bindAll ps vs named with
  | case1 => cases h
  | case2 | case3 | case6 =>
    cases h
    rfl
  | case4 p ps v vs named _ ih => exact ih (map_eq_error.mp h)
  | case5 name default ps named v _ ih => exact ih (map_eq_error.mp h)

theorem bindAll_eq_ok_iff {ps : List Parameter} (hps : (ps.map Prod.fst).Nodup) {named : Named}
    {vs : List Value} :
    bindAll ps [] named = .ok vs ↔
      (∀ e ∈ named, e.1 ∈ ps.map Prod.fst) ∧ ps.map (fun p => (named.get? p.1).or p.2) = vs.map some := by
  induction ps generalizing named vs with
  | nil =>
    cases named with
    | nil =>
      constructor
      · intro h
        cases h
        exact ⟨List.forall_mem_nil _, rfl⟩
      · rintro ⟨-, h⟩
        obtain rfl := List.map_eq_nil_iff.mp h.symm
        rfl
    | cons e named =>
      constructor
      · intro h
        cases h
      · rintro ⟨h, -⟩
        exact absurd (h e List.mem_cons_self) List.not_mem_nil
  | cons p ps ih =>
    -- The first parameter takes its value out of those by name; no other has its name.
    obtain ⟨hnew, hps⟩ := List.nodup_cons.mp hps
    have hnames : (∀ e ∈ named.erase p.1, e.1 ∈ ps.map Prod.fst) ↔
        ∀ e ∈ named, e.1 ∈ (p :: ps).map Prod.fst := by
      simp only [Named.erase, List.mem_filter, bne_iff_ne, ne_eq, and_imp, List.map_cons, List.mem_cons]
      exact forall₂_congr fun e _ => Decidable.or_iff_not_imp_left.symm
    have hvalues : ps.map (fun q => ((named.erase p.1).get? q.1).or q.2) =
        ps.map fun q => (named.get? q.1).or q.2 := by
      apply List.map_congr_left
      intro q hq
      have hne : q.1 ≠ p.1 := by
        intro h
        exact hnew (h ▸ List.mem_map_of_mem hq)
      rw [Named.get?_erase hne]
    rw [← hnames, List.map_cons, bindAll]
    cases hv : (named.get? p.1).or p.2 with
    | none =>
      constructor
      · intro h
        cases h
      · rintro ⟨-, h⟩
        cases vs with
        | nil => cases h
        | cons v vs => cases h
    | some v =>
      simp only [map_eq_ok, ih hps, hvalues]
      constructor
      · rintro ⟨ws, ⟨hknown, hws⟩, rfl⟩
        exact ⟨hknown, congrArg (some v :: ·) hws⟩
      · rintro ⟨hknown, h⟩
        cases vs with
        | nil => cases h
        | cons w ws =>
          obtain ⟨hw, hws⟩ := List.cons_eq_cons.mp h
          exact ⟨ws, ⟨hknown, hws⟩, congrArg (· :: ws) (Option.some.inj hw)⟩

end Arguments

end OrderStore
