import Mathlib.Data.List.Nodup
import Mathlib.Tactic.ByContra
import OrderStore.Proofs.Order.Normal

namespace OrderStore

theorem Named.contains_iff {named : Named} {name : Text} :
    named.contains name = true ↔ name ∈ named.map Prod.fst := by
  simp [Named.contains]

theorem Field.ofName?_eq_some_iff {name : Text} {f : Field} : Field.ofName? name = some f ↔ name = f.name := by
  constructor
  · intro h
    rw [Field.ofName?] at h
    have hname := List.find?_some h
    exact (beq_iff_eq.mp hname).symm
  · rintro rfl
    exact f.ofName?_name

namespace Text

theorem not_lt_total (s t : Text) : ¬ t < s ∨ ¬ s < t := List.le_total _ _

theorem not_lt_trans {s t u : Text} (hst : ¬ t < s) (htu : ¬ u < t) : ¬ u < s := List.le_trans hst htu

end Text

def Revision.names : Revision → List Text
  | .id _ => [Field.id.name]
  | .updatedAt _ => [Field.updatedAt.name]
  | .status _ => [Field.status.name]
  | .attributes _ => [Field.attributes.name]
  | .relations _ => [Field.relations.name]
  | .indexedFields _ => [Field.indexedFields.name]
  | .changes named => named.map Prod.fst

namespace Order

variable {now : WallClock} {named : Named} {o p : Order} {e : Error} {f g : Field} {v : Value}
  {r : Revision}

def blockedNames (named : Named) : List Text :=
  (Field.frozen.map Field.name).filter fun name => named.contains name

def NamesFrozen (named : Named) : Prop := ∃ f ∈ Field.frozen, f.name ∈ named.map Prod.fst

def NamesUnknown (named : Named) : Prop := ∃ name ∈ named.map Prod.fst, ∀ f : Field, name ≠ f.name

theorem blockedNames_isEmpty_iff : (blockedNames named).isEmpty = true ↔ ¬ NamesFrozen named := by
  rw [blockedNames, List.isEmpty_iff, List.filter_eq_nil_iff, List.forall_mem_map, NamesFrozen]
  simp only [Named.contains_iff, not_exists, not_and]

theorem isNone_ofName?_iff {name : Text} : (Field.ofName? name).isNone = true ↔ ∀ f : Field, name ≠ f.name := by
  rw [Option.isNone_iff_eq_none, Option.eq_none_iff_forall_ne_some]
  exact forall_congr' fun f => not_congr Field.ofName?_eq_some_iff

theorem mem_unknownNames_iff {name : Text} :
    name ∈ unknownNames named ↔ name ∈ named.map Prod.fst ∧ ∀ f : Field, name ≠ f.name := by
  rw [unknownNames, List.mem_mergeSort, List.mem_filter, isNone_ofName?_iff]

theorem unknownNames_isEmpty_iff : (unknownNames named).isEmpty = true ↔ ¬ NamesUnknown named := by
  rw [List.isEmpty_iff, List.eq_nil_iff_forall_not_mem, NamesUnknown]
  simp only [mem_unknownNames_iff, not_exists]

theorem unknownNames_sorted (named : Named) : (unknownNames named).Pairwise fun s t => ¬ t < s := by
  have hsorted : (unknownNames named).Pairwise fun s t => (!decide (t < s)) = true := by
    apply List.pairwise_mergeSort
    case trans =>
      intro s t u hst htu
      simp only [Bool.not_eq_true', decide_eq_false_iff_not] at hst htu ⊢
      exact Text.not_lt_trans hst htu
    case total =>
      intro s t
      simp only [Bool.or_eq_true, Bool.not_eq_true', decide_eq_false_iff_not]
      exact Text.not_lt_total s t
  exact hsorted.imp fun h => by simpa using h

theorem withChanges_frozen (h : NamesFrozen named) :
    o.withChanges now named = .error (.frozen (blockedNames named) o.orderNo) := by
  have hblocked : (blockedNames named).isEmpty = false :=
    Bool.eq_false_iff.mpr fun hempty => blockedNames_isEmpty_iff.mp hempty h
  rw [blockedNames] at hblocked
  simp only [withChanges, hblocked]
  rfl

theorem withChanges_unknown (h : ¬ NamesFrozen named) (hunknown : NamesUnknown named) :
    o.withChanges now named = .error (.unknownFields (unknownNames named)) := by
  have hblocked := blockedNames_isEmpty_iff.mpr h
  have hnames : (unknownNames named).isEmpty = false :=
    Bool.eq_false_iff.mpr fun hempty => unknownNames_isEmpty_iff.mp hempty hunknown
  rw [blockedNames] at hblocked
  simp only [withChanges, hblocked, hnames]
  rfl

theorem withChanges_known (h : ¬ NamesFrozen named) (hknown : ¬ NamesUnknown named) :
    o.withChanges now named = o.replace now (knownChanges named) := by
  have hblocked := blockedNames_isEmpty_iff.mpr h
  have hnames := unknownNames_isEmpty_iff.mpr hknown
  rw [blockedNames] at hblocked
  simp only [withChanges, hblocked, hnames]
  rfl

theorem mem_knownChanges_iff : (f, v) ∈ knownChanges named ↔ (f.name, v) ∈ named := by
  rw [knownChanges, List.mem_filterMap]
  constructor
  · rintro ⟨⟨name, w⟩, hmem, hmap⟩
    obtain ⟨f', hf', hpair⟩ := Option.map_eq_some_iff.mp hmap
    cases hpair
    rw [← Field.ofName?_eq_some_iff.mp hf']
    exact hmem
  · intro hmem
    refine ⟨_, hmem, ?_⟩
    rw [Field.ofName?_name]
    rfl

def Takes (now : WallClock) (named : Named) (o p : Order) : Prop :=
  ∀ f : Field, (∀ v, (f.name, v) ∈ named → f.normalize now v = .ok (p.draft f)) ∧
    (f.name ∉ named.map Prod.fst → p.draft f = o.draft f)

theorem map_fst_knownChanges_mem (hf : f ∈ (knownChanges named).map Prod.fst) : f.name ∈ named.map Prod.fst := by
  obtain ⟨⟨f, v⟩, hc, rfl⟩ := List.mem_map.mp hf
  exact List.mem_map_of_mem (mem_knownChanges_iff.mp hc)

theorem assignAll_knownChanges (hnodup : (named.map Prod.fst).Nodup) (hv : (f.name, v) ∈ named) (d : Draft) :
    assignAll (knownChanges named) d f = v := by
  rcases assignAll_cases (knownChanges named) d f with ⟨⟨f, w⟩, hc, rfl, h⟩ | ⟨hnone, -⟩
  · rw [h]
    have hpair := List.inj_on_of_nodup_map hnodup (mem_knownChanges_iff.mp hc) hv rfl
    exact congrArg Prod.snd hpair
  · exact absurd rfl (hnone (f, v) (mem_knownChanges_iff.mpr hv))

theorem replace_knownChanges_iff (hnodup : (named.map Prod.fst).Nodup) :
    o.replace now (knownChanges named) = .ok p ↔ Takes now named o p := by
  constructor
  · intro h f
    constructor
    · intro v hv
      have hp := replace_eq_ok_iff.mp h f
      rw [assignAll_knownChanges hnodup hv] at hp
      exact hp
    · intro hf
      exact replace_other h fun hmem => hf (map_fst_knownChanges_mem hmem)
  · intro h
    apply replace_eq_ok_iff.mpr
    intro f
    rcases assignAll_cases (knownChanges named) o.draft f with ⟨⟨f, v⟩, hc, rfl, hv⟩ | ⟨hnone, hv⟩
    · rw [hv]
      exact (h f).1 v (mem_knownChanges_iff.mp hc)
    · have hf : f.name ∉ named.map Prod.fst := by
        intro hmem
        obtain ⟨⟨name, w⟩, hw, hname⟩ := List.mem_map.mp hmem
        have hname : name = f.name := hname
        exact hnone (f, w) (mem_knownChanges_iff.mpr (hname ▸ hw)) rfl
      rw [hv, (h f).2 hf]
      exact f.normalize_draft now o

theorem withChanges_error_reading (h : ¬ NamesFrozen named) (hknown : ¬ NamesUnknown named)
    (he : o.withChanges now named = .error e) :
    ∃ (f : Field) (v : Value), (f.name, v) ∈ named ∧ f.normalize now v = .error e := by
  rw [withChanges_known h hknown] at he
  obtain ⟨⟨f, v⟩, hc, hf⟩ := replace_error he
  exact ⟨f, v, mem_knownChanges_iff.mp hc, hf⟩

/-- Naming a frozen field is refused, whatever else is named; else naming what is no field is refused; and
else exactly the named fields are replaced, unless a value cannot be read. -/
structure Changes (now : WallClock) (named : Named) (o : Order) : Prop where
  frozen_iff : (∃ e, o.withChanges now named = .error e ∧ e.kind = .frozenField) ↔ NamesFrozen named
  unknown_iff : ¬ NamesFrozen named →
    ((∃ names, o.withChanges now named = .error (.unknownFields names)) ↔ NamesUnknown named)
  unknown_names : ∀ names, o.withChanges now named = .error (.unknownFields names) →
    (names.Pairwise fun s t => ¬ t < s) ∧
      names.Perm ((named.map Prod.fst).filter fun name => (Field.ofName? name).isNone)
  ok_iff : ¬ NamesFrozen named → ¬ NamesUnknown named →
    ∀ p, o.withChanges now named = .ok p ↔ Takes now named o p
  error : ¬ NamesFrozen named → ¬ NamesUnknown named → ∀ e, o.withChanges now named = .error e →
    ∃ (f : Field) (v : Value), (f.name, v) ∈ named ∧ f.normalize now v = .error e

theorem withChanges_changes (now : WallClock) (o : Order) (hnodup : (named.map Prod.fst).Nodup) :
    Changes now named o := by
  constructor
  case frozen_iff =>
    constructor
    · rintro ⟨e, he, hkind⟩
      by_contra hfrozen
      by_cases hunknown : NamesUnknown named
      · rw [withChanges_unknown hfrozen hunknown] at he
        cases he
        cases hkind
      · obtain ⟨f, v, -, hf⟩ := withChanges_error_reading hfrozen hunknown he
        have hreading := Field.isReading_of_normalize hf
        cases e <;> cases hreading <;> cases hkind
    · intro h
      exact ⟨_, withChanges_frozen h, rfl⟩
  case unknown_iff =>
    intro hfrozen
    constructor
    · rintro ⟨names, hnames⟩
      by_contra hunknown
      obtain ⟨f, v, -, hf⟩ := withChanges_error_reading hfrozen hunknown hnames
      exact Field.isReading_of_normalize hf
    · intro h
      exact ⟨_, withChanges_unknown hfrozen h⟩
  case unknown_names =>
    intro names hnames
    by_cases hfrozen : NamesFrozen named
    · rw [withChanges_frozen hfrozen] at hnames
      cases hnames
    by_cases hunknown : NamesUnknown named
    · rw [withChanges_unknown hfrozen hunknown] at hnames
      cases hnames
      exact ⟨unknownNames_sorted named, List.mergeSort_perm _ _⟩
    · obtain ⟨f, v, -, hf⟩ := withChanges_error_reading hfrozen hunknown hnames
      exact (Field.isReading_of_normalize hf).elim
  case ok_iff =>
    intro hfrozen hunknown p
    rw [withChanges_known hfrozen hunknown]
    exact replace_knownChanges_iff hnodup
  case error =>
    intro hfrozen hunknown e he
    exact withChanges_error_reading hfrozen hunknown he

theorem replace_one_other (h : o.replace now [(g, v)] = .ok p) (hf : f.name ∉ [g.name]) :
    p.draft f = o.draft f := by
  apply replace_other h
  intro hmem
  rw [List.mem_singleton.mp hmem] at hf
  exact hf List.mem_cons_self

theorem withId_eq_ok (h : o.withId now v = .ok p) :
    o.replace now [(.id, v)] = .ok p ∧ (o.id.isNull = false → o.id.equal v = .ok true) := by
  rw [withId] at h
  split at h
  case isTrue hnull =>
    refine ⟨h, fun hid => ?_⟩
    rw [hnull] at hid
    cases hid
  case isFalse =>
    obtain ⟨same, hsame, h⟩ := bind_eq_ok.mp h
    cases same with
    | true => exact ⟨h, fun _ => hsame⟩
    | false => cases h

theorem withChanges_eq_ok (h : o.withChanges now named = .ok p) :
    ¬ NamesFrozen named ∧ o.replace now (knownChanges named) = .ok p := by
  by_cases hfrozen : NamesFrozen named
  · rw [withChanges_frozen hfrozen] at h
    cases h
  by_cases hunknown : NamesUnknown named
  · rw [withChanges_unknown hfrozen hunknown] at h
    cases h
  · rw [withChanges_known hfrozen hunknown] at h
    exact ⟨hfrozen, h⟩

theorem revise_other (h : o.revise now r = .ok p) (hf : f.name ∉ r.names) : p.draft f = o.draft f := by
  cases r with
  | id v => exact replace_one_other (withId_eq_ok h).1 hf
  | updatedAt v | status v | attributes v | relations v | indexedFields v => exact replace_one_other h hf
  | changes named =>
    exact replace_other (withChanges_eq_ok h).2 fun hmem => hf (map_fst_knownChanges_mem hmem)

end Order

end OrderStore
