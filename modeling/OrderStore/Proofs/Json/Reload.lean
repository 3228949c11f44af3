import OrderStore.Pairs
import OrderStore.Proofs.Value.Plain
/-!
Maps of atoms and collections of atoms, written to a column and read back. Decimals, moments and dates
come back as texts, and every collection as a list. The pairs of the map stay the same unless it holds a
moment: the text of a moment has a blank in a pair and a letter in a document.
-/

namespace OrderStore

open Json (Readable)

namespace Value

def isAtom : Value → Bool
  | .null | .bool _ | .int _ | .text _ | .decimal _ | .moment _ | .date _ => true
  | _ => false

def isFlat : Value → Bool
  | .list xs | .tuple xs | .set xs => xs.all isAtom
  | v => v.isAtom

def isMoment : Value → Bool
  | .moment _ => true
  | _ => false

def holdsMoment : Value → Bool
  | .list xs | .tuple xs | .set xs => xs.any isMoment
  | v => v.isMoment

def reloadedAtom : Value → Value
  | .decimal d => .text d.text
  | .moment m => .text m.isoText
  | .date d => .text d.text
  | v => v

def reloaded : Value → Value
  | .list xs | .tuple xs | .set xs => .list (xs.map reloadedAtom)
  | v => v.reloadedAtom

namespace Entries

structure Flat (es : Entries) : Prop where
  keys : ∀ e ∈ es, ∃ t, e.1 = .text t
  distinct : (es.map Prod.fst).Nodup
  values : ∀ e ∈ es, e.2.isFlat = true

def reloaded (es : Entries) : Entries := es.map fun e => (e.1, e.2.reloaded)

def lacksMoments (es : Entries) : Bool := es.all fun e => !e.2.holdsMoment

end Entries

theorem toJson_text {levels room : Nat} {t : Text} {j : Json}
    (h : ((descend levels room).map fun _ => Json.text t) = .ok j) : Readable j ∧ j.toValue = .text t := by
  obtain ⟨-, -, rfl⟩ := map_eq_ok.mp h
  exact ⟨.text t, rfl⟩

theorem toJson_atom {v : Value} (hv : v.isAtom = true) {room : Nat} {j : Json} (h : v.toJson room = .ok j) :
    Readable j ∧ j.toValue = v.reloadedAtom := by
  cases v with
  | null =>
    cases h
    exact ⟨.null, rfl⟩
  | bool b =>
    cases h
    exact ⟨.bool b, rfl⟩
  | int n =>
    obtain ⟨rfl, hread⟩ := jsonInt_ok h
    exact ⟨hread, rfl⟩
  | text t =>
    cases h
    exact ⟨.text t, rfl⟩
  | decimal | moment | date => exact toJson_text h
  | _ => cases hv

theorem toJson_atoms {levels room : Nat} {xs : List Value} (hx : xs.all isAtom = true) {j : Json}
    (h : ((descend levels room).bind fun room => (toJsonAll room xs).map Json.list) = .ok j) :
    Readable j ∧ j.toValue = .list (xs.map reloadedAtom) := by
  obtain ⟨rest, js, -, hjs, rfl⟩ := toJson_items_ok h
  obtain ⟨hreads, hvalues⟩ := toJsonAll_ok hjs fun x hmem => toJson_atom (List.all_eq_true.mp hx x hmem)
  exact ⟨.list hreads, congrArg Value.list hvalues⟩

theorem toJson_flat {v : Value} (hv : v.isFlat = true) {room : Nat} {j : Json} (h : v.toJson room = .ok j) :
    Readable j ∧ j.toValue = v.reloaded := by
  cases v with
  | list xs => exact toJson_atoms hv h
  | tuple xs => exact toJson_atoms hv h
  | set xs => exact toJson_atoms hv h
  | _ =>
    apply toJson_atom _ h
    exact hv

end Value

theorem Column.decode_flat {es : Value.Entries} (hes : es.Flat) {t : Text} (h : encodeEntries es = .ok t) :
    decode (.text t) = .ok ⟨es.reloaded, false⟩ := by
  obtain ⟨room, ms, hms, -, hd, rfl⟩ := encodeEntries_ok h
  obtain ⟨hread, hentries⟩ := Value.readable_object hms hes.keys hes.distinct fun e he =>
    Value.toJson_flat (hes.values e he)
  rw [decode_written hread hd, hentries]
  rfl

namespace Value

theorem keyText_reloadedAtom {x : Value} (h : x.isMoment = false) : x.reloadedAtom.keyText = x.keyText := by
  cases x with
  | moment m => cases h
  | _ => rfl

theorem isNull_reloadedAtom (x : Value) : x.reloadedAtom.isNull = x.isNull := by
  cases x <;> rfl

theorem filter_reloadedAtom (xs : List Value) :
    (xs.map reloadedAtom).filter (fun x => !x.isNull) = (xs.filter fun x => !x.isNull).map reloadedAtom := by
  rw [List.filter_map]
  congr 1
  apply List.filter_congr
  intro x hx
  rw [Function.comp_apply, isNull_reloadedAtom]

theorem members_reloaded {v : Value} (h : v.isFlat = true) :
    Pairs.members v.reloaded = (Pairs.members v).map reloadedAtom := by
  cases v with
  | list xs => exact filter_reloadedAtom xs
  | tuple xs => exact filter_reloadedAtom xs
  | set xs => exact filter_reloadedAtom xs
  | null => rfl
  | bool b => rfl
  | int n => rfl
  | text t => rfl
  | decimal d => rfl
  | moment m => rfl
  | date d => rfl
  | _ => cases h

theorem any_members (v : Value) : (Pairs.members v).any isMoment = v.holdsMoment := by
  have hcollection (xs : List Value) : (xs.filter fun x => !x.isNull).any isMoment = xs.any isMoment := by
    rw [List.any_filter]
    congr 1
    funext x
    cases x <;> rfl
  cases v with
  | list xs => exact hcollection xs
  | tuple xs => exact hcollection xs
  | set xs => exact hcollection xs
  | _ => rfl

namespace Entries

def atoms (es : Entries) : List (Value × Value) := es.flatMap fun e => (Pairs.members e.2).map (e.1, ·)

theorem ofEntries_eq_map (es : Entries) :
    Pairs.ofEntries es = es.atoms.map fun a => (a.1.keyText, a.2.keyText) := by
  rw [atoms, List.map_flatMap]
  simp only [List.map_map]
  rfl

theorem atoms_reloaded {es : Entries} (h : ∀ e ∈ es, e.2.isFlat = true) :
    es.reloaded.atoms = es.atoms.map fun a => (a.1, a.2.reloadedAtom) := by
  induction es with
  | nil => rfl
  | cons e es ih =>
    have hrest := ih fun e' he' => h e' (List.mem_cons_of_mem _ he')
    have hfirst := members_reloaded (h e List.mem_cons_self)
    simp only [atoms, reloaded, List.map_cons, List.flatMap_cons, List.map_append] at hrest ⊢
    rw [hrest, hfirst, List.map_map, List.map_map]
    rfl

theorem lacksMoments_iff (es : Entries) : es.lacksMoments = true ↔ ∀ a ∈ es.atoms, a.2.isMoment = false := by
  simp only [lacksMoments, List.all_eq_true, Bool.not_eq_true', ← any_members, List.any_eq_false]
  constructor
  · intro h a ha
    obtain ⟨e, he, ha⟩ := List.mem_flatMap.mp ha
    obtain ⟨x, hx, rfl⟩ := List.mem_map.mp ha
    exact Bool.eq_false_iff.mpr (h e he x hx)
  · intro h e he x hx
    exact Bool.eq_false_iff.mp
      (h (e.1, x) (List.mem_flatMap.mpr ⟨e, he, List.mem_map_of_mem hx⟩))

end Entries

end Value

theorem Moment.codes_separator (separator : Char) (m : Moment) :
    (m.chars separator)[10]? = some separator := by
  have hlength : (dateChars m.stamp.date).length = 10 := by
    simp [dateChars, Text.padded_length]
  rw [chars, List.append_assoc, List.append_assoc, List.getElem?_append_right (by omega), hlength]
  rfl

/-- The text of a pair is that of a moment, as far as the place after the date tells. -/
def Pairs.hasBlank (p : Text × Text) : Bool := p.2.codes[10]? == some (.char ' ')

theorem Pairs.hasBlank_moment (k : Text) (m : Moment) :
    hasBlank (k, (Value.moment m).keyText) = true ∧
      hasBlank (k, (Value.moment m).reloadedAtom.keyText) = false := by
  have hcodes (separator : Char) :
      (Text.ofString (String.ofList (m.chars separator))).codes[10]? = some (.char separator) := by
    rw [Text.ofString, Text.codes_ofChars, String.toList_ofList, List.getElem?_map, m.codes_separator]
    rfl
  constructor
  · exact beq_iff_eq.mpr (hcodes ' ')
  · rw [hasBlank]
    change ((Text.ofString (String.ofList (m.chars 'T'))).codes[10]? == _) = false
    rw [hcodes]
    rfl

namespace Value.Entries

theorem countP_hasBlank (as : List (Value × Value)) :
    (as.map fun a => (a.1.keyText, a.2.reloadedAtom.keyText)).countP Pairs.hasBlank +
        as.countP (fun a => a.2.isMoment) =
      (as.map fun a => (a.1.keyText, a.2.keyText)).countP Pairs.hasBlank := by
  induction as with
  | nil => rfl
  | cons a as ih =>
    simp only [List.map_cons, List.countP_cons, ← ih]
    cases h : a.2.isMoment with
    | false =>
      rw [keyText_reloadedAtom h]
      simp
      omega
    | true =>
      obtain ⟨k, x⟩ := a
      cases x with
      | moment m =>
        obtain ⟨hbefore, hafter⟩ := Pairs.hasBlank_moment k.keyText m
        simp only [hbefore, hafter]
        simp
        omega
      | _ => cases h

theorem perm_reloaded_iff {es : Entries} (h : ∀ e ∈ es, e.2.isFlat = true) :
    (Pairs.ofEntries es.reloaded).Perm (Pairs.ofEntries es) ↔ es.lacksMoments = true := by
  rw [lacksMoments_iff, ofEntries_eq_map, ofEntries_eq_map, atoms_reloaded h, List.map_map]
  constructor
  · intro hperm
    have hcount := hperm.countP_eq Pairs.hasBlank
    have hlost := countP_hasBlank es.atoms
    have hzero : es.atoms.countP (fun a => a.2.isMoment) = 0 := by
      simp only [Function.comp_def] at hcount
      omega
    intro a ha
    exact Bool.eq_false_iff.mpr (List.countP_eq_zero.mp hzero a ha)
  · intro htimeless
    apply List.Perm.of_eq
    apply List.map_congr_left
    intro a ha
    rw [Function.comp_apply, keyText_reloadedAtom (htimeless a ha)]

end Value.Entries

end OrderStore
