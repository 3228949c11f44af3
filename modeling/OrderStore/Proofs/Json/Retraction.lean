import OrderStore.Proofs.Assoc
import OrderStore.Proofs.Value.Plain

namespace OrderStore

namespace Json

theorem depths_le_iff {xs : List Json} {d : Nat} : depths xs ≤ d ↔ ∀ x ∈ xs, x.depth ≤ d := by
  induction xs with
  | nil => simp [depths]
  | cons x xs ih => simp only [depths, Nat.max_le, ih, List.forall_mem_cons]

theorem memberDepths_le_iff {ms : List (Text × Json)} {d : Nat} :
    memberDepths ms ≤ d ↔ ∀ m ∈ ms, m.2.depth ≤ d := by
  induction ms with
  | nil => simp [memberDepths]
  | cons m ms ih => simp only [memberDepths, Nat.max_le, ih, List.forall_mem_cons]

theorem forall_mem_ofMembers {ms : List (Text × Json)} {P : Json → Prop} (h : ∀ m ∈ ms, P m.2.merged) :
    ∀ m ∈ Assoc.ofList (fun a b => a == b) (mergedMembers ms), P m.2 := by
  intro m hm
  have hmem := (Assoc.mem_ofList.mp hm).mem
  rw [mergedMembers_eq_map] at hmem
  obtain ⟨m', hm', rfl⟩ := List.mem_map.mp hmem
  exact h m' hm'

theorem Legible.depth_merged_le {j : Json} (hj : Legible j) : j.merged.depth ≤ j.depth := by
  induction hj with
  | @list xs hx ih =>
    rw [merged, depth, depth, mergedAll_eq_map]
    have hxs := depths_le_iff.mp (Nat.le_refl (depths xs))
    apply Nat.succ_le_succ
    apply depths_le_iff.mpr
    intro y hy
    obtain ⟨x, hx, rfl⟩ := List.mem_map.mp hy
    exact Nat.le_trans (ih x hx) (hxs x hx)
  | @object ms hm ih =>
    rw [merged, ofMembers, depth, depth]
    have hms := memberDepths_le_iff.mp (Nat.le_refl (memberDepths ms))
    apply Nat.succ_le_succ
    apply memberDepths_le_iff.mpr
    refine forall_mem_ofMembers (P := fun x => x.depth ≤ memberDepths ms) ?_
    intro m hm
    exact Nat.le_trans (ih m hm) (hms m hm)
  | _ => exact Nat.le_refl _

theorem Legible.readable_merged {j : Json} (hj : Legible j) : Readable j.merged := by
  induction hj with
  | null => exact .null
  | bool b => exact .bool b
  | int hl => exact .int hl
  | text t => exact .text t
  | @list xs hx ih =>
    rw [merged, mergedAll_eq_map]
    apply Readable.list
    intro y hy
    obtain ⟨x, hx, rfl⟩ := List.mem_map.mp hy
    exact ih x hx
  | @object ms hm ih => exact .object (forall_mem_ofMembers ih) (Assoc.nodup_keys_ofList _)

theorem toValues_eq_map (xs : List Json) : toValues xs = xs.map toValue := by
  induction xs with
  | nil => rfl
  | cons x xs ih => rw [toValues, ih, List.map_cons]

theorem toEntries_eq_map (ms : List (Text × Json)) :
    toEntries ms = ms.map fun m => (.text m.1, m.2.toValue) := by
  induction ms with
  | nil => rfl
  | cons m ms ih => rw [toEntries, ih, List.map_cons]

theorem toJsonAll_toValues {room : Nat} {xs : List Json} (h : ∀ x ∈ xs, x.toValue.toJson room = .ok x) :
    Value.toJsonAll room (toValues xs) = .ok xs := by
  induction xs with
  | nil => rfl
  | cons x xs ih =>
    rw [toValues, Value.toJsonAll, h x List.mem_cons_self, ih fun y hy => h y (List.mem_cons_of_mem _ hy)]
    rfl

theorem toJsonMembers_toEntries {room : Nat} {ms : List (Text × Json)}
    (h : ∀ m ∈ ms, m.2.toValue.toJson room = .ok m.2) : Value.toJsonMembers room (toEntries ms) = .ok ms := by
  induction ms with
  | nil => rfl
  | cons m ms ih =>
    rw [toEntries, Value.toJsonMembers, h m List.mem_cons_self,
      ih fun m' hm' => h m' (List.mem_cons_of_mem _ hm')]
    rfl

theorem Readable.toJson_toValue {j : Json} (hj : Readable j) {room : Nat} (hd : j.depth ≤ room) :
    j.toValue.toJson room = .ok j := by
  induction hj generalizing room with
  | @int n hl =>
    rw [toValue, Value.toJson, Value.jsonInt, if_neg (Nat.not_lt.mpr hl)]
  | @list xs hx ih =>
    rw [depth] at hd
    have hitems := depths_le_iff.mp (Nat.le_sub_one_of_lt hd)
    rw [toValue, Value.toJson, Value.descend, if_pos (by omega), Except.bind,
      toJsonAll_toValues fun x hx => ih x hx (hitems x hx)]
    rfl
  | @object ms hm hn ih =>
    rw [depth] at hd
    have hmembers := memberDepths_le_iff.mp (Nat.le_sub_one_of_lt hd)
    rw [toValue, Value.toJson, Value.descend, if_pos (by omega), Except.bind,
      toJsonMembers_toEntries fun m hm => ih m hm (hmembers m hm)]
    rfl
  | _ => rfl

theorem Readable.plain {j : Json} (hj : Readable j) : j.toValue.Plain := by
  induction hj with
  | null => exact .null
  | bool b => exact .bool b
  | int hl => exact .int _
  | text t => exact .text t
  | @list xs hx ih =>
    rw [toValue, toValues_eq_map]
    apply Value.Plain.list
    intro v hv
    obtain ⟨x, hx, rfl⟩ := List.mem_map.mp hv
    exact ih x hx
  | @object ms hm hn ih =>
    rw [toValue, toEntries_eq_map]
    have hdistinct : (ms.map fun m => Value.text m.1).Nodup := by
      have hnames := hn.map (f := Value.text) fun a b hab => by injection hab
      rwa [List.map_map] at hnames
    apply Value.Plain.map
    · intro e he
      obtain ⟨m, -, rfl⟩ := List.mem_map.mp he
      exact ⟨m.1, rfl⟩
    · rw [List.map_map]
      exact hdistinct
    · intro e he
      obtain ⟨m, hmem, rfl⟩ := List.mem_map.mp he
      exact ih m hmem

end Json

open Json (Legible Readable)

namespace Value

/-- No float is held at any depth. Keys are written as names and may be floats. -/
inductive Floatless : Value → Prop where
  | null : Floatless .null
  | bool (b : Bool) : Floatless (.bool b)
  | int (n : Int) : Floatless (.int n)
  | text (t : Text) : Floatless (.text t)
  | decimal (d : Decimal) : Floatless (.decimal d)
  | moment (m : Moment) : Floatless (.moment m)
  | date (d : Date) : Floatless (.date d)
  | bytes (bs : List UInt8) : Floatless (.bytes bs)
  | list {xs : List Value} (hx : ∀ x ∈ xs, Floatless x) : Floatless (.list xs)
  | tuple {xs : List Value} (hx : ∀ x ∈ xs, Floatless x) : Floatless (.tuple xs)
  | set {xs : List Value} (hx : ∀ x ∈ xs, Floatless x) : Floatless (.set xs)
  | map {es : Entries} (hv : ∀ e ∈ es, Floatless e.2) : Floatless (.map es)
  | scalar {v : Value} (hv : Floatless v) : Floatless (.scalar v)
  | oneOf {vs : List Value} (hv : ∀ v ∈ vs, Floatless v) : Floatless (.oneOf vs)

theorem exists_of_mem_toJsonAll {room : Nat} {xs : List Value} {js : List Json} (h : toJsonAll room xs = .ok js)
    {j : Json} (hj : j ∈ js) : ∃ x ∈ xs, x.toJson room = .ok j := by
  induction xs generalizing js with
  | nil =>
    cases h
    cases hj
  | cons x xs ih =>
    obtain ⟨j', hx, h⟩ := bind_eq_ok.mp h
    obtain ⟨js, hjs, rfl⟩ := map_eq_ok.mp h
    rcases List.mem_cons.mp hj with rfl | hj
    · exact ⟨x, List.mem_cons_self, hx⟩
    · obtain ⟨y, hy, hyj⟩ := ih hjs hj
      exact ⟨y, List.mem_cons_of_mem _ hy, hyj⟩

theorem exists_of_mem_toJsonMembers {room : Nat} {es : Entries} {ms : List (Text × Json)}
    (h : toJsonMembers room es = .ok ms) {m : Text × Json} (hm : m ∈ ms) :
    ∃ e ∈ es, e.2.toJson room = .ok m.2 := by
  induction es generalizing ms with
  | nil =>
    cases h
    cases hm
  | cons e es ih =>
    obtain ⟨name, -, h⟩ := bind_eq_ok.mp h
    obtain ⟨j, hj, h⟩ := bind_eq_ok.mp h
    obtain ⟨ms, hms, rfl⟩ := map_eq_ok.mp h
    rcases List.mem_cons.mp hm with rfl | hm
    · exact ⟨e, List.mem_cons_self, hj⟩
    · obtain ⟨e', he', hm'⟩ := ih hms hm
      exact ⟨e', List.mem_cons_of_mem _ he', hm'⟩

theorem legible_list {levels room : Nat} {xs : List Value} {j : Json}
    (h : ((descend levels room).bind fun room => (toJsonAll room xs).map Json.list) = .ok j)
    (hx : ∀ x ∈ xs, ∀ {room j}, x.toJson room = .ok j → Legible j) : Legible j := by
  obtain ⟨rest, js, -, hjs, rfl⟩ := toJson_items_ok h
  apply Legible.list
  intro j hj
  obtain ⟨x, hmem, hxj⟩ := exists_of_mem_toJsonAll hjs hj
  exact hx x hmem hxj

theorem legible_text {levels room : Nat} {t : Text} {j : Json}
    (h : ((descend levels room).map fun _ => Json.text t) = .ok j) : Legible j := by
  obtain ⟨-, -, rfl⟩ := map_eq_ok.mp h
  exact .text t

theorem Floatless.legible {v : Value} (hv : Floatless v) {room : Nat} {j : Json} (h : v.toJson room = .ok j) :
    Legible j := by
  induction hv generalizing room j with
  | null =>
    cases h
    exact .null
  | bool b =>
    cases h
    exact .bool b
  | int n =>
    obtain ⟨rfl, hread⟩ := jsonInt_ok h
    exact hread.legible
  | text t =>
    cases h
    exact .text t
  | decimal | moment | date => exact legible_text h
  | list hx ih => exact legible_list h ih
  | tuple hx ih => exact legible_list h ih
  | set hx ih => exact legible_list h ih
  | map hv ih =>
    obtain ⟨rest, ms, -, hms, rfl⟩ := toJson_map_ok h
    apply Legible.object
    intro m hm
    obtain ⟨e, he, hj⟩ := exists_of_mem_toJsonMembers hms hm
    exact ih e he hj
  | bytes | scalar | oneOf =>
    obtain ⟨_, -, h⟩ := bind_eq_ok.mp h
    cases h

end Value

namespace Column

theorem decode_merged {ms : List (Text × Json)} (h : Legible (.object ms))
    (hd : (Json.object ms).depth ≤ Json.maxDepth) :
    decode (.text (Json.object ms).written) =
      .ok ⟨Json.toEntries (Assoc.ofList (fun a b => a == b) (Json.mergedMembers ms)), false⟩ := by
  obtain ⟨c, cs, hcs, -⟩ := Json.codes_eq_cons h
  have hne : (Json.object ms).written.isEmpty = false := by
    rw [Text.isEmpty, Json.written, hcs]
    rfl
  rw [decode, hne, Json.read_written_merged h hd]
  rfl

/-- A map without floats that can be written reads back, without a report, as a plain map. Writing that map
gives a text again, which reads as the same map; a map that was plain from the start is unchanged. -/
theorem decode_encode_retraction {es : Value.Entries} {t : Text} (hes : Value.Floatless (.map es))
    (h : encode (.map es) = .ok t) :
    ∃ p : Value.Entries, decode (.text t) = .ok ⟨p, false⟩ ∧ Value.Plain (.map p) ∧
      (∃ u, encode (.map p) = .ok u ∧ decode (.text u) = .ok ⟨p, false⟩) ∧
      (Value.Plain (.map es) → p = es) := by
  obtain ⟨-, ms, -, hjson, hd, rfl⟩ := encodeEntries_ok h
  have hlegible := hes.legible hjson
  have hdecode := decode_merged hlegible hd
  have hread := hlegible.readable_merged
  have hdepth := Nat.le_trans hlegible.depth_merged_le hd
  rw [Json.merged, Json.ofMembers] at hread hdepth
  generalize Assoc.ofList (fun a b => a == b) (Json.mergedMembers ms) = ms' at hdecode hread hdepth
  refine ⟨Json.toEntries ms', hdecode, hread.plain, ⟨(Json.object ms').written, ?_, ?_⟩, ?_⟩
  -- The document that came back holds no name twice, so it is written as it stands.
  · have hback := hread.toJson_toValue hdepth
    rw [Json.toValue] at hback
    rw [encode, encode_map, hback]
    rfl
  · exact decode_written hread hdepth
  · intro hplain
    have hsame := hdecode.symm.trans (decode_encodeEntries hplain h)
    injection hsame with hsame
    injection hsame

set_option maxRecDepth 8000 in
theorem decode_encode_retraction_colliding :
    let es : Value.Entries :=
      [(.int 1, .set [.decimal .zero]), (.null, .tuple [.bool true]), (.text "1", .text "\"\\\n")]
    let p : Value.Entries := [(.text "1", .text "\"\\\n"), (.text "null", .list [.bool true])]
    ∃ t, encode (.map es) = .ok t ∧ decode (.text t) = .ok ⟨p, false⟩ ∧ Value.Plain (.map p) ∧
      ∃ u, encode (.map p) = .ok u ∧ decode (.text u) = .ok ⟨p, false⟩ := by
  intro es p
  have hes : Value.Floatless (.map es) := by
    apply Value.Floatless.map
    simp only [es, List.forall_mem_cons]
    refine ⟨.set ?_, .tuple ?_, .text _, List.forall_mem_nil _⟩
    · exact List.forall_mem_singleton.mpr (.decimal _)
    · exact List.forall_mem_singleton.mpr (.bool true)
  obtain ⟨t, ht⟩ : ∃ t, encode (.map es) = .ok t := ⟨_, rfl⟩
  obtain ⟨p', hdecode, hplain, hagain, -⟩ := decode_encode_retraction hes ht
  have hp : decode (.text t) = .ok ⟨p, false⟩ := by
    cases ht
    rfl
  rw [hdecode] at hp
  cases hp
  exact ⟨t, ht, hdecode, hplain, hagain⟩

end Column

end OrderStore
