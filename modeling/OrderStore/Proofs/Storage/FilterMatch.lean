import OrderStore.Proofs.Sql.Conjunction
import OrderStore.Proofs.Storage.Resave

namespace OrderStore

open Sql

namespace Value

def isTagged : Value → Bool
  | .scalar _ | .oneOf _ => true
  | _ => false

def parts : Value → List Value
  | .list xs | .tuple xs | .set xs => xs
  | v => [v]

def Meets (v w : Value) : Prop :=
  ∃ x ∈ v.parts, ∃ y ∈ w.parts, x.isNull = false ∧ y.isNull = false ∧ x.keyText = y.keyText

theorem members_eq_filter (v : Value) : Pairs.members v = v.parts.filter fun x => !x.isNull := by
  cases v <;> rfl

theorem mem_members {v x : Value} : x ∈ Pairs.members v ↔ x ∈ v.parts ∧ x.isNull = false := by
  rw [members_eq_filter, List.mem_filter, Bool.not_eq_true']

theorem meets_iff {v w : Value} :
    v.Meets w ↔ ∃ x ∈ Pairs.members v, ∃ y ∈ Pairs.members w, x.keyText = y.keyText := by
  simp only [Meets, mem_members]
  constructor
  · rintro ⟨x, hx, y, hy, hxn, hyn, h⟩
    exact ⟨x, ⟨hx, hxn⟩, y, ⟨hy, hyn⟩, h⟩
  · rintro ⟨x, ⟨hx, hxn⟩, y, ⟨hy, hyn⟩, h⟩
    exact ⟨x, hx, y, hy, hxn, hyn, h⟩

theorem choices_ofValue {v : Value} (hv : v.isTagged = false) :
    (Filter.ofValue v).choices = (Pairs.members v).map fun x => .text x.keyText := by
  cases v with
  | scalar v => cases hv
  | oneOf vs => cases hv
  | _ => rfl

theorem ofValue_eq_never_iff {v : Value} (hv : v.isTagged = false) :
    Filter.ofValue v = .oneOf [] ↔ Pairs.members v = [] := by
  have hcollection (xs : List Value) :
      Filter.oneOf (xs.map fun x => .text x.keyText) = .oneOf [] ↔ xs = [] := by
    rw [Filter.oneOf.injEq, List.map_eq_nil_iff]
  cases v with
  | scalar v => cases hv
  | oneOf vs => cases hv
  | null => exact iff_of_true rfl rfl
  | list xs => exact hcollection _
  | tuple xs => exact hcollection _
  | set xs => exact hcollection _
  | _ => exact iff_of_false (fun h => by cases h) (List.cons_ne_nil _ _)

theorem isTagged_of_toJson {room : Nat} {v : Value} {j : Json} (h : v.toJson room = .ok j) :
    v.isTagged = false := by
  cases v with
  | scalar | oneOf =>
    obtain ⟨_, -, h⟩ := bind_eq_ok.mp h
    cases h
  | _ => rfl

theorem untagged_of_toJsonMembers {room : Nat} {es : Entries} {ms : List (Text × Json)}
    (h : toJsonMembers room es = .ok ms) : ∀ e ∈ es, e.2.isTagged = false := by
  induction es generalizing ms with
  | nil => exact List.forall_mem_nil _
  | cons e es ih =>
    obtain ⟨name, -, h⟩ := bind_eq_ok.mp h
    obtain ⟨j, hj, h⟩ := bind_eq_ok.mp h
    obtain ⟨ms, hms, -⟩ := map_eq_ok.mp h
    exact List.forall_mem_cons.mpr ⟨isTagged_of_toJson hj, ih hms⟩

end Value

theorem Pairs.mem_ofEntries {es : Value.Entries} {p : Text × Text} :
    p ∈ ofEntries es ↔ ∃ e ∈ es, ∃ x ∈ members e.2, p = (e.1.keyText, x.keyText) := by
  simp only [ofEntries, ofEntry, List.mem_flatMap, List.mem_map, eq_comm]

theorem ofEntry_eq_choices (k : Value) {v : Value} (hv : v.isTagged = false) :
    (Pairs.ofEntries [(k, v)]).map (fun p => (p.1, Value.text p.2)) =
      (Filter.ofValue v).choices.map fun x => (k.keyText, x) := by
  rw [Pairs.ofEntries_cons, Pairs.ofEntries_nil, List.append_nil, Pairs.ofEntry, List.map_map,
    Value.choices_ofValue hv, List.map_map]
  rfl

namespace Storage

/-- The database holds the triples of the store and tells texts from each other, and identifiers. -/
structure Shows (db : Sql.Database) (tables : Tables) (c : Contents) : Prop where
  texts : ∀ a b : Text, db.compares .equal (.text a) (.text b) ↔ a = b
  ids : ∀ m n : Int, db.compares .equal (.int m) (.int n) ↔ m = n
  triples : ∀ side, db.triples (tables.side side).key =
    (c.sides side).map fun t => ⟨t.orderId, .text t.key, .text t.value⟩

section

variable {db : Sql.Database} {tables : Tables} {c : Contents} {side : Side} {row : Text → Value} {n : Int}
  {es m : Value.Entries} {w : World} {history : List Saved}

theorem mem_pairsOf {ts : List Triple} {p : Text × Text} :
    p ∈ pairsOf n ts ↔ ∃ t ∈ ts, t.orderId = .int n ∧ (t.key, t.value) = p := by
  simp only [pairsOf, triplesOf, List.mem_map, List.mem_filter, decide_eq_true_eq, Value.integer?_eq_some,
    and_assoc]

theorem Shows.compares_id (h : Shows db tables c) {v : Value} (hv : ∃ k, v = .int k)
    (hrow : row "id" = .int n) : db.compares .equal v (row "id") ↔ v = .int n := by
  obtain ⟨k, rfl⟩ := hv
  rw [hrow, h.ids, Value.int.injEq]

theorem Shows.filtersMatch_iff (h : Shows db tables c)
    (hids : ∀ t ∈ c.sides side, ∃ k, t.orderId = .int k) (hrow : row "id" = .int n) (fs : Filters) :
    FiltersMatch db (tables.side side).key row fs.toValue ↔
      ∀ f ∈ fs, ∃ p ∈ pairsOf n (c.sides side), p.1 = f.1 ∧
        ∃ v ∈ f.2.choices, db.compares .equal (.text p.2) v := by
  have hentries : fs.toValue.entries = fs.map fun f => (.text f.1, f.2.toValue) := rfl
  have haccepted (f : Filter) : f.toValue.accepted = f.choices := by cases f <;> rfl
  rw [FiltersMatch, hentries, List.forall_mem_map, h.triples]
  refine forall₂_congr fun f hf => ?_
  constructor
  · rintro ⟨u, hu, hid, hkey, v, hv, hvalue⟩
    obtain ⟨t, ht, rfl⟩ := List.mem_map.mp hu
    have howner := (h.compares_id (hids t ht) hrow).mp hid
    refine ⟨(t.key, t.value), mem_pairsOf.mpr ⟨t, ht, howner, rfl⟩, (h.texts _ _).mp hkey, v, ?_, hvalue⟩
    rwa [← haccepted]
  · rintro ⟨p, hp, hkey, v, hv, hvalue⟩
    obtain ⟨t, ht, howner, rfl⟩ := mem_pairsOf.mp hp
    refine ⟨_, List.mem_map_of_mem ht, (h.compares_id (hids t ht) hrow).mpr howner, (h.texts _ _).mpr hkey,
      v, ?_, hvalue⟩
    rwa [haccepted]

theorem Shows.exists_choice_iff (h : Shows db tables c) {v : Value} (hv : v.isTagged = false) (t : Text) :
    (∃ x ∈ (Filter.ofValue v).choices, db.compares .equal (.text t) x) ↔
      ∃ x ∈ Pairs.members v, t = x.keyText := by
  rw [Value.choices_ofValue hv]
  constructor
  · rintro ⟨y, hy, htext⟩
    obtain ⟨x, hx, rfl⟩ := List.mem_map.mp hy
    exact ⟨x, hx, (h.texts _ _).mp htext⟩
  · rintro ⟨x, hx, rfl⟩
    exact ⟨_, List.mem_map_of_mem hx, (h.texts _ _).mpr rfl⟩

theorem Shows.filtersMatch_single (h : Shows db tables c)
    (hids : ∀ t ∈ c.sides side, ∃ k, t.orderId = .int k) (hrow : row "id" = .int n)
    (hpairs : pairsOf n (c.sides side) = Pairs.ofEntries m) {k v : Value} (hv : v.isTagged = false) :
    FiltersMatch db (tables.side side).key row (Filters.ofEntries [(k, v)]).toValue ↔
      ∃ e ∈ m, e.1.keyText = k.keyText ∧ e.2.Meets v := by
  have hsingle : Filters.ofEntries [(k, v)] = [(k.keyText, Filter.ofValue v)] := rfl
  rw [h.filtersMatch_iff hids hrow, hsingle, List.forall_mem_singleton, hpairs]
  simp only [h.exists_choice_iff hv, Value.meets_iff]
  constructor
  · rintro ⟨p, hp, hkey, y, hy, hvalue⟩
    obtain ⟨e, he, x, hx, rfl⟩ := Pairs.mem_ofEntries.mp hp
    exact ⟨e, he, hkey, x, hx, y, hy, hvalue⟩
  · rintro ⟨e, he, hkey, x, hx, y, hy, hvalue⟩
    exact ⟨_, Pairs.mem_ofEntries.mpr ⟨e, he, x, hx, rfl⟩, hkey, y, hy, hvalue⟩

theorem Shows.filtersMatch_self (h : Shows db tables c)
    (hids : ∀ t ∈ c.sides side, ∃ k, t.orderId = .int k) (hrow : row "id" = .int n)
    (hpairs : pairsOf n (c.sides side) = Pairs.ofEntries m) (hm : ∀ e ∈ m, e.2.isTagged = false) :
    FiltersMatch db (tables.side side).key row (Filters.ofEntries m).toValue ↔
      ∀ f ∈ Filters.ofEntries m, f.2 ≠ .oneOf [] := by
  rw [h.filtersMatch_iff hids hrow, hpairs]
  refine forall₂_congr fun f hf => ?_
  -- Of several entries with one key text the filter keeps the last; its pairs are stored all the same.
  obtain ⟨e, rfl, hcounts⟩ := Filters.mem_ofEntries.mp hf
  have he := hcounts.mem
  rw [ne_eq, Value.ofValue_eq_never_iff (hm e he)]
  simp only [h.exists_choice_iff (hm e he)]
  constructor
  · rintro ⟨p, -, -, x, hx, -⟩
    exact List.ne_nil_of_mem hx
  · intro hne
    obtain ⟨x, hx⟩ := List.exists_mem_of_ne_nil _ hne
    exact ⟨_, Pairs.mem_ofEntries.mpr ⟨e, he, x, hx, rfl⟩, rfl, x, hx, rfl⟩

theorem save_untagged {o r : Order} (hr : (Action.save tables o w).1 = .ok r) (side : Side) :
    ∀ e ∈ o.entriesOf side, e.2.isTagged = false := by
  obtain ⟨stamp, columns, db, -, -, hcolumns, -⟩ := Action.save_ok hr
  obtain ⟨attributes, relations, indexedFields, -, hrelations, hindexed, -⟩ := savedColumns_ok hcolumns
  cases side with
  | relations =>
    obtain ⟨_, ms, hms, -⟩ := Column.encodeEntries_ok hrelations
    exact Value.untagged_of_toJsonMembers hms
  | indexed =>
    obtain ⟨_, ms, hms, -⟩ := Column.encodeEntries_ok hindexed
    exact Value.untagged_of_toJsonMembers hms

theorem SaveRun.untagged (hw : SaveRun tables w history) (side : Side) :
    ∀ s ∈ history, ∀ e ∈ s.passed.entriesOf side, e.2.isTagged = false := by
  induction hw with
  | start hc hk => exact List.forall_mem_nil _
  | saved hw ho hr ih =>
    exact List.forall_mem_append.mpr ⟨ih, List.forall_mem_singleton.mpr (save_untagged hr side)⟩
  | failed hw he ih => exact ih
  | elsewhere hw hc hk hn ih => exact ih

theorem lastSave_mem {s : Saved} (h : lastSave n history = some s) : s ∈ history :=
  (List.mem_filter.mp (List.mem_of_getLast? h)).1

theorem selects_filtered_default_iff (es : Value.Entries) :
    Selects db tables row (filtered side es Query.default) ↔ (filtered side es Query.default).Resolves tables ∧
      FiltersMatch db (tables.side side).key row (Filters.ofEntries es).toValue := by
  have hassigned := filtered_criterion (q := Query.default) side es
  have hfilters : IsFilters (filtered side es Query.default side.criterion) :=
    ⟨_, hassigned, Assoc.nodup_keys_ofList _⟩
  have hresolves : (filtered side es Query.default).Resolves tables ↔
      tables.OrdersVisible ∨ (filtered side es Query.default side.criterion).entries = [] := by
    cases side with
    | relations => exact or_congr_right (and_iff_left rfl)
    | indexed => exact or_congr_right (and_iff_right rfl)
  have hholds : AllHold db tables row _ ↔ _ ∧ FiltersMatch db (tables.side side).key row _ :=
    allHold_ofFilters side hfilters
  rw [filters_filtered, hassigned] at hholds
  rw [selects_filtered_default, hholds, hresolves, hassigned]

/-- The pairs that a map stores are the values that it asks for as a filter. The pairs of an order satisfy a
filter of one entry exactly if the map of its last save has an entry whose key shows the same text and whose
value shares an element with that of the filter. As a filter, that map is satisfied by its own order unless one
of its keys is left with nothing to match. Such filters select the orders whose pairs satisfy them. -/
theorem stored_values_meet_filters (side : Side) (now : WallClock) :
    (∀ k v : Value, v.isTagged = false → ∃ f ps, Filters.ofValue (.map [(k, v)]) = .ok [(k.keyText, f)] ∧
      Pairs.ofValue (.map [(k, v)]) = .ok ps ∧
      ps.map (fun p => (p.1, Value.text p.2)) = f.choices.map fun x => (k.keyText, x)) ∧
    ∀ {s : Saved}, tables.Apart → SaveRun tables w history → lastSave n history = some s →
      Shows db tables w.database.contents → row "id" = .int n →
      (∀ k v : Value, v.isTagged = false →
        ∃ q, Query.default.refine now (side.refinement (.map [(k, v)])) = .ok q ∧
          (FiltersMatch db (tables.side side).key row (q side.criterion) ↔
            ∃ e ∈ s.passed.entriesOf side, e.1.keyText = k.keyText ∧ e.2.Meets v) ∧
          (tables.OrdersVisible → (Selects db tables row q ↔
            ∃ e ∈ s.passed.entriesOf side, e.1.keyText = k.keyText ∧ e.2.Meets v))) ∧
      ∃ q fs, Query.default.refine now (side.refinement (.map (s.passed.entriesOf side))) = .ok q ∧
        Filters.ofValue (.map (s.passed.entriesOf side)) = .ok fs ∧
        (FiltersMatch db (tables.side side).key row (q side.criterion) ↔ ∀ f ∈ fs, f.2 ≠ .oneOf []) ∧
        (tables.OrdersVisible → (Selects db tables row q ↔ ∀ f ∈ fs, f.2 ≠ .oneOf [])) := by
  constructor
  · intro k v hv
    exact ⟨Filter.ofValue v, Pairs.ofEntries [(k, v)], rfl, rfl, ofEntry_eq_choices k hv⟩
  · intro s ht hw hs hdb hrow
    have hids := hw.orderId_int ht side
    have hpairs : pairsOf n (w.database.contents.sides side) =
        Pairs.ofEntries (s.passed.entriesOf side) := by
      rw [hw.pairs ht, lastPairs, hs]
      rfl
    have huntagged := hw.untagged side s (lastSave_mem hs)
    constructor
    · intro k v hv
      have hmatch := hdb.filtersMatch_single hids hrow hpairs (k := k) hv
      refine ⟨_, refine_map now side [(k, v)] Query.default, ?_, fun hvisible => ?_⟩
      · rw [filtered_criterion]
        exact hmatch
      · rw [selects_filtered_default_iff, and_iff_right (.inl hvisible)]
        exact hmatch
    · have hmatch := hdb.filtersMatch_self hids hrow hpairs huntagged
      refine ⟨_, _, refine_map now side _ Query.default, Filters.ofValue_map _, ?_, fun hvisible => ?_⟩
      · rw [filtered_criterion]
        exact hmatch
      · rw [selects_filtered_default_iff, and_iff_right (.inl hvisible)]
        exact hmatch

end

set_option maxRecDepth 8000 in
theorem stored_values_meet_filters_colliding :
    let stamp : Timestamp := ⟨⟨2024, 1, 31, by decide⟩, .midnight⟩
    let now : WallClock := .ofTimestamp stamp
    let m : Value.Entries := [(.int 1, .text "a"), (.text "1", .tuple [.bool true, .null])]
    let o := { unsaved stamp with relations := m }
    let w := (Action.save .default o ⟨now, [], .empty, true, []⟩).2
    let s : Saved := ⟨o, { o with id := .int 1 }⟩
    let row : Text → Value := fun column => if column = "id" then .int 1 else .null
    let db : Sql.Database := ⟨fun _ x y => x = y, fun table =>
      if table = Tables.default.relations.key then
        [⟨.int 1, .text "1", .text "a"⟩, ⟨.int 1, .text "1", .text "1"⟩]
      else []⟩
    SaveRun .default w [s] ∧ lastSave 1 [s] = some s ∧ Shows db .default w.database.contents ∧
      (∃ q, Query.default.refine now (.relations (.map [(.bool true, .int 1)])) = .ok q ∧
        Selects db .default row q) ∧
      ∃ q, Query.default.refine now (.relations (.map m)) = .ok q ∧ Selects db .default row q := by
  intro stamp now m o w s row db
  have hstart : SaveRun .default ⟨now, [], .empty, true, []⟩ [] := .start rfl rfl
  have hw : SaveRun .default w ([] ++ [s]) := .saved hstart (.inl rfl) rfl
  have hs : lastSave 1 [s] = some s := rfl
  have hrow : row "id" = .int 1 := rfl
  have hdb : Shows db .default w.database.contents :=
    { texts := fun a b => iff_of_eq (Value.text.injEq a b)
      ids := fun a b => iff_of_eq (Value.int.injEq a b)
      triples := fun side => by cases side <;> rfl }
  obtain ⟨-, hsaved⟩ := stored_values_meet_filters .relations now
  obtain ⟨hsingle, q, fs, hq, hfs, -, hself⟩ := hsaved default_apart hw hs hdb hrow
  have hvisible : Tables.default.OrdersVisible := by decide
  refine ⟨hw, hs, hdb, ?_, q, hq, ?_⟩
  · obtain ⟨q', hq', -, hselects⟩ := hsingle (.bool true) (.int 1) rfl
    have hmem : (.text "1", .tuple [.bool true, .null]) ∈ m := List.mem_cons_of_mem _ List.mem_cons_self
    have hmeets : Value.Meets (.tuple [.bool true, .null]) (.int 1) :=
      ⟨.bool true, List.mem_cons_self, .int 1, List.mem_cons_self, rfl, rfl, by decide⟩
    exact ⟨q', hq', (hselects hvisible).mpr ⟨_, hmem, rfl, hmeets⟩⟩
  · apply (hself hvisible).mpr
    have hfilters : Filters.ofValue (.map m) = .ok [("1", .oneOf [.text "1"])] := by rfl
    cases hfs.symm.trans hfilters
    simp

end Storage

end OrderStore
