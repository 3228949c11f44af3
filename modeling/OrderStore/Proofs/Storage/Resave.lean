import OrderStore.Proofs.Json.Reload
import OrderStore.Proofs.Order.Derived
import OrderStore.Proofs.Storage.NumberedRows
import OrderStore.Proofs.Storage.ReadOnly
import OrderStore.Proofs.Storage.Refinement

namespace OrderStore.Storage

open Sql Operation

theorem SaveRun.find {tables : Tables} {w : World} {history : List Saved} (hw : SaveRun tables w history)
    (column : LookupColumn) (value : Value) : SaveRun tables (Action.find tables column value w).2 history := by
  obtain ⟨checks, trace, h⟩ := Action.Reads.find tables column value w
  rw [h]
  exact .elsewhere hw rfl rfl (Nat.le_refl _)

section

variable {tables : Tables} {w : World} {n : Int} {o p r : Order}

theorem find_some {numbers : List Nat} (h : Numbering numbers w.database)
    (hfind : (Action.find tables .id (.int n) w).1 = .ok (some p)) :
    ∃ row ∈ w.database.contents.orders, rowNumber row = some n ∧ (Order.ofRow w.now row).result = .ok p := by
  cases hp : w.isOpen with
  | false =>
    rw [Action.find, Action.withConnection_closed _ hp] at hfind
    cases hfind
  | true =>
    rw [Action.find_open tables .id (.int n) hp] at hfind
    obtain ⟨rows, hrows, hfirst⟩ := bind_eq_ok.mp hfind
    obtain ⟨db, hc, -, hperform⟩ := Database.execute_ok (Prod.ext hrows rfl)
    have hlookup : Contents.lookupRows .id (.int n) w.database.contents.orders = .ok rows := by
      rw [← hc]
      exact congrArg Prod.fst hperform
    rw [h.lookupRows] at hlookup
    injection hlookup with hlookup
    cases rows with
    | nil => cases hfirst
    | cons row rows =>
      have hmem : row ∈ row :: rows := List.mem_cons_self
      rw [← hlookup] at hmem
      obtain ⟨hrow, hnumber⟩ := List.mem_filter.mp hmem
      refine ⟨row, hrow, of_decide_eq_true hnumber, ?_⟩
      cases row with
      | nil => cases hnumber
      | cons c row =>
        obtain ⟨q, hq, hqp⟩ := map_eq_ok.mp hfirst
        cases hqp
        exact hq

def documentOf : Side → Text
  | .relations => "relations_json"
  | .indexed => "indexed_fields_json"

theorem readDocuments_ok {row : Order.Row} {f : Field} {column : Text} {columns : List (Field × Text)}
    {ds : Named} (h : (Order.readDocuments row ((f, column) :: columns)).result = .ok ds) :
    ∃ reading rest, Column.decode ((row.get? column).getD .null) = .ok reading ∧
      (Order.readDocuments row columns).result = .ok rest ∧ ds = (f.name, .map reading.entries) :: rest := by
  rw [Order.readDocuments] at h
  split at h
  · cases h
  · rename_i reading hreading
    obtain ⟨rest, hrest, rfl⟩ := map_eq_ok.mp h
    exact ⟨reading, rest, hreading, hrest, rfl⟩

theorem toEntries_map_ok {es es' : Value.Entries} (h : Value.toEntries (.map es) = .ok es') : es' = es := by
  rw [Value.toEntries_map] at h
  injection h with h
  exact h.symm

theorem ofRow_ok {row : Order.Row} {now : WallClock} (h : (Order.ofRow now row).result = .ok p) :
    p.id = (row.get? "id").getD .null ∧
      ∀ side, ∃ reading, Column.decode ((row.get? (documentOf side)).getD .null) = .ok reading ∧
        p.entriesOf side = reading.entries := by
  rw [Order.ofRow] at h
  split at h
  · cases h
  · obtain ⟨ds, hds, h⟩ := bind_eq_ok.mp h
    obtain ⟨attributes, ds₁, -, hds₁, rfl⟩ := readDocuments_ok hds
    obtain ⟨relations, ds₂, hrelations, hds₂, rfl⟩ := readDocuments_ok hds₁
    obtain ⟨indexedFields, ds₃, hindexed, hds₃, rfl⟩ := readDocuments_ok hds₂
    cases hds₃
    rw [Order.ofMapping] at h
    split at h
    · cases h
    · obtain ⟨hid, -, -, hrel, hidx, -⟩ := Order.settle_ok h
      refine ⟨hid, ?_⟩
      intro side
      cases side with
      | relations =>
        exact ⟨relations, hrelations, toEntries_map_ok hrel⟩
      | indexed =>
        exact ⟨indexedFields, hindexed, toEntries_map_ok hidx⟩

theorem IsVersion.document {row : Order.Row} (h : IsVersion row r) (side : Side) :
    ∃ t, Column.encodeEntries (r.entriesOf side) = .ok t ∧ row.get? (documentOf side) = some (.text t) := by
  cases side with
  | relations => exact h.relations
  | indexed => exact h.indexedFields

theorem save_entriesOf (hr : (Action.save tables o w).1 = .ok r) (side : Side) :
    r.entriesOf side = o.entriesOf side := by
  obtain ⟨stamp, columns, db, -, -, -, -, rfl, -⟩ := Action.save_ok hr
  cases side <;> rfl

theorem SaveRun.lastVersion (ht : tables.Apart) {history : List Saved} (hw : SaveRun tables w history)
    {row : Order.Row} (hrow : row ∈ w.database.contents.orders) (hn : rowNumber row = some n) :
    ∃ s, lastSave n history = some s ∧ IsVersion row s.returned ∧
      ∀ side, s.returned.entriesOf side = s.passed.entriesOf side := by
  induction hw generalizing row n with
  | start hc hk =>
    rw [hc] at hrow
    cases hrow
  | @saved w history o r hw ho hr ih =>
    have hentries := save_entriesOf hr
    obtain ⟨numbers, h⟩ := hw.numbering
    obtain ⟨stamp, columns, db, -, -, hcolumns, hrun, hreturned, hc, -⟩ := Action.save_ok hr
    obtain ⟨⟨rows, db₁, hexecute, horders⟩, -⟩ := writing_contents ht hrun
    rw [hc, horders] at hrow
    rw [lastSave_append]
    -- The row is the one that this save wrote, or it was there before and is not touched by it.
    rcases h.mem_mainWrite ho hcolumns hexecute hrow hn with ⟨hid, hversion⟩ | ⟨hid, hrow⟩
    · rw [hid] at hreturned
      rw [← save_returned hr] at hid
      rw [if_pos (Value.integer?_eq_some.mpr hid)]
      exact ⟨_, rfl, hreturned ▸ hversion, hentries⟩
    · rw [← save_returned hr] at hid
      rw [if_neg fun h => hid (Value.integer?_eq_some.mp h)]
      exact ih hrow hn
  | failed hw he ih =>
    rw [(save_failed_contents hw.settled he).1] at hrow
    exact ih hrow hn
  | elsewhere hw hc hk hnext ih =>
    rw [hc] at hrow
    exact ih hrow hn

theorem found_maps (ht : tables.Apart) {history : List Saved} (hw : SaveRun tables w history) {s : Saved}
    (hs : lastSave n history = some s)
    (hfind : (Action.find tables .id (.int n) w).1 = .ok (some p)) :
    p.id = .int n ∧
      ∀ side, (s.passed.entriesOf side).Flat → p.entriesOf side = (s.passed.entriesOf side).reloaded := by
  obtain ⟨numbers, h⟩ := hw.numbering
  obtain ⟨row, hrow, hnumber, hload⟩ := find_some h hfind
  obtain ⟨s', hs', hversion, hentries⟩ := hw.lastVersion ht hrow hnumber
  rw [hs] at hs'
  cases hs'
  obtain ⟨hid, hmaps⟩ := ofRow_ok hload
  refine ⟨?_, ?_⟩
  · rw [hid, rowNumber_eq_some.mp hnumber]
    rfl
  · intro side hflat
    obtain ⟨t, ht, hdocument⟩ := hversion.document side
    obtain ⟨reading, hreading, hread⟩ := hmaps side
    rw [hentries] at ht
    rw [hdocument, Option.getD_some, Column.decode_flat hflat ht] at hreading
    cases hreading
    exact hread

end

theorem perm_otherTriples {n : Int} {ts others : List Triple} (hids : ∀ t ∈ ts, ∃ k, t.orderId = .int k)
    (h : Contents.otherTriples (.int n) ts = .ok others) : (others ++ triplesOf n ts).Perm ts := by
  induction ts generalizing others with
  | nil =>
    cases h
    exact .refl _
  | cons t ts ih =>
    obtain ⟨found, hfound, h⟩ := bind_eq_ok.mp h
    obtain ⟨rest, hrest, rfl⟩ := map_eq_ok.mp h
    have hstep := ih (fun t' ht' => hids t' (List.mem_cons_of_mem _ ht')) hrest
    obtain ⟨k, hk⟩ := hids t List.mem_cons_self
    rw [hk, Value.equal_int] at hfound
    cases hfound
    rw [triplesOf_cons, hk, Value.integer?]
    by_cases hkn : k = n
    · simp only [hkn, decide_true, if_true]
      exact List.perm_middle.trans (hstep.cons t)
    · simp only [hkn, decide_false, Option.some.injEq, if_false]
      exact hstep.cons t

theorem triplesOf_eq (n : Int) (ts : List Triple) : triplesOf n ts = triples (.int n) (pairsOf n ts) := by
  rw [pairsOf, triples, List.map_map]
  refine (List.map_id' _).symm.trans (List.map_congr_left ?_)
  intro t ht
  have hid := Value.integer?_eq_some.mp (of_decide_eq_true (List.mem_filter.mp ht).2)
  rw [Function.comp_apply, ← hid]

theorem perm_iff_pairs {n : Int} {ts others : List Triple} (ps : Pairs)
    (hids : ∀ t ∈ ts, ∃ k, t.orderId = .int k) (h : Contents.otherTriples (.int n) ts = .ok others) :
    (others ++ triples (.int n) ps).Perm ts ↔ ps.Perm (pairsOf n ts) := by
  have hts := perm_otherTriples hids h
  constructor
  · intro hperm
    have htriples := (List.perm_append_left_iff others).mp (hperm.trans hts.symm)
    have hpairs := htriples.map fun t => (t.key, t.value)
    rw [map_pair_triples] at hpairs
    exact hpairs
  · intro hperm
    rw [triplesOf_eq] at hts
    exact ((hperm.map _).append_left others).trans hts

theorem SaveRun.returned_int {tables : Tables} {w : World} {history : List Saved}
    (hw : SaveRun tables w history) : ∀ s ∈ history, ∃ n, s.returned.id = .int n := by
  induction hw with
  | start hc hk => simp
  | @saved w history o r hw ho hr ih =>
    intro s hs
    rcases List.mem_append.mp hs with hs | hs
    · exact ih s hs
    · rw [List.mem_singleton.mp hs, save_returned hr]
      exact savedId_eq_int ho _
  | failed hw he ih => exact ih
  | elsewhere hw hc hk hn ih => exact ih

theorem SaveRun.orderId_int {tables : Tables} (ht : tables.Apart) {w : World} {history : List Saved}
    (hw : SaveRun tables w history) (side : Side) :
    ∀ t ∈ w.database.contents.sides side, ∃ n, t.orderId = .int n := by
  intro t hmem
  obtain ⟨s, hs, hid⟩ := hw.owner ht hmem
  obtain ⟨n, hn⟩ := hw.returned_int s hs
  exact ⟨n, hid.symm.trans hn⟩

/-- A map is stored twice, as a document and as pairs, and a found order has the map of the document. So a
save of an order as it was found keeps the pairs exactly if no moment is in them. -/
theorem resave_keeps_pairs_iff {tables : Tables} (ht : tables.Apart) :
    (∀ (es : Value.Entries) (t : Text), es.Flat → Column.encodeEntries es = .ok t →
      ∃ es', Column.decode (.text t) = .ok ⟨es', false⟩ ∧
        ((Pairs.ofEntries es').Perm (Pairs.ofEntries es) ↔ es.lacksMoments = true)) ∧
    (∀ (w : World) (history : List Saved) (n : Int) (s : Saved) (p : Order), SaveRun tables w history →
      lastSave n history = some s → (Action.find tables .id (.int n) w).1 = .ok (some p) →
      let v := (Action.find tables .id (.int n) w).2
      (∀ e, (Action.save tables p v).1 = .error e →
        (Action.save tables p v).2.database.contents = w.database.contents) ∧
      ∀ r, (Action.save tables p v).1 = .ok r → ∀ side, (s.passed.entriesOf side).Flat →
        (((Action.save tables p v).2.database.contents.sides side).Perm
          (w.database.contents.sides side) ↔ (s.passed.entriesOf side).lacksMoments = true)) := by
  refine ⟨?_, ?_⟩
  · intro es t hflat hencode
    exact ⟨es.reloaded, Column.decode_flat hflat hencode, Value.Entries.perm_reloaded_iff hflat.values⟩
  · intro w history n s p hw hs hfind v
    have hv : SaveRun tables v history := hw.find _ _
    have hcontents : v.database.contents = w.database.contents := by
      obtain ⟨checks, trace, h⟩ := Action.Reads.find tables .id (.int n) w
      exact congrArg (fun w => w.database.contents) h
    obtain ⟨hid, hmaps⟩ := found_maps ht hw hs hfind
    refine ⟨?_, ?_⟩
    · intro e he
      rw [(save_failed_contents hv.settled he).1, hcontents]
    -- The second save writes the pairs of the map as the document gave it back.
    · intro r hr side hflat
      obtain ⟨others, hothers, hside⟩ := save_sides ht hr side
      have hreturned : r.id = .int n := (save_returned hr).trans (savedId_known hid _)
      have hpairs : pairsOf n (v.database.contents.sides side) = Pairs.ofEntries (s.passed.entriesOf side) := by
        rw [hv.pairs ht, lastPairs, hs]
        rfl
      rw [hreturned] at hothers hside
      rw [hside, hmaps side hflat, ← hcontents, perm_iff_pairs _ (hv.orderId_int ht side) hothers, hpairs]
      exact Value.Entries.perm_reloaded_iff hflat.values

set_option maxRecDepth 8000 in
theorem resave_keeps_pairs_iff_found :
    let stamp : Timestamp := ⟨⟨2024, 1, 31, by decide⟩, .midnight⟩
    let start : World := ⟨.ofTimestamp stamp, [], .empty, true, []⟩
    let r := { unsaved stamp with id := .int 1 }
    let w := (Action.save .default (unsaved stamp) start).2
    SaveRun .default w [⟨unsaved stamp, r⟩] ∧
      (Action.find .default .id (.int 1) w).1 = .ok (some r) ∧
      (Action.save .default r (Action.find .default .id (.int 1) w).2).1 = .ok r ∧
      ((Action.save .default r (Action.find .default .id (.int 1) w).2).2.database.contents.sides
        .relations).Perm (w.database.contents.sides .relations) := by
  intro stamp start r w
  have hstart : SaveRun .default start [] := .start rfl rfl
  have hr : (Action.save .default (unsaved stamp) start).1 = .ok r := rfl
  have hw : SaveRun .default w [⟨unsaved stamp, r⟩] := .saved hstart (.inl rfl) hr
  have hfind : (Action.find .default .id (.int 1) w).1 = .ok (some r) := by
    obtain ⟨numbers, h⟩ := hw.numbering
    obtain ⟨row, hrow, hversion⟩ := save_new_kept rfl hr
    rw [find_row h hrow (rowNumber_eq_some.mpr hversion.id) rfl rfl rfl]
    have hstorable : r.Storable := storable_stamped (unsaved_storable (by decide)) _ stamp
    have hrows : w.database.contents.orders = [_] := rfl
    rw [hrows, List.mem_singleton] at hrow
    have hno : row.get? "order_no" = some (.text r.orderNo) := by
      rw [hrow]
      rfl
    have hcreated : row.get? "created_at" = some (.text r.createdAt.text) := by
      rw [hrow]
      rfl
    rw [hversion.load hno hcreated hstorable (by decide) (by decide)]
    rfl
  have hresave : (Action.save .default r (Action.find .default .id (.int 1) w).2).1 = .ok r := by
    obtain ⟨checks, trace, h⟩ := Action.Reads.find .default .id (.int 1) w
    rw [h]
    rfl
  have hflat : ((unsaved stamp).entriesOf .relations).Flat :=
    ⟨by simp [Order.entriesOf, unsaved], by simp [Order.entriesOf, unsaved],
      by simp [Order.entriesOf, unsaved, Value.isFlat, Value.isAtom]⟩
  have hlast : lastSave 1 [⟨unsaved stamp, r⟩] = some ⟨unsaved stamp, r⟩ := rfl
  have hlacks : ((unsaved stamp).entriesOf .relations).lacksMoments = true := rfl
  have hkeeps := (resave_keeps_pairs_iff default_apart).2 w _ 1 _ r hw hlast hfind
  exact ⟨hw, hfind, hresave, (hkeeps.2 r hresave .relations hflat).mpr hlacks⟩

theorem moment_pair_altered :
    let es : Value.Entries :=
      [(.text "at", .moment (.ofTimestamp ⟨⟨2024, 1, 31, by decide⟩, .midnight⟩))]
    es.Flat ∧ ∃ t es', Column.encodeEntries es = .ok t ∧ Column.decode (.text t) = .ok ⟨es', false⟩ ∧
      Pairs.ofEntries es = [(("at" : Text), ("2024-01-31 00:00:00" : Text))] ∧
      Pairs.ofEntries es' = [(("at" : Text), ("2024-01-31T00:00:00" : Text))] ∧
      ¬ (Pairs.ofEntries es').Perm (Pairs.ofEntries es) := by
  intro es
  have hflat : es.Flat :=
    ⟨by simp [es], by simp [es], by simp [es, Value.isFlat, Value.isAtom]⟩
  have hencode : Column.encodeEntries es = .ok _ := rfl
  refine ⟨hflat, _, es.reloaded, hencode, Column.decode_flat hflat hencode, rfl, rfl, ?_⟩
  rw [Value.Entries.perm_reloaded_iff hflat.values]
  decide

end OrderStore.Storage
