import OrderStore.Proofs.Sql.Selection

namespace OrderStore

/-- The entries of a filter map that count: no later one has a key of the same text. -/
def Value.Entries.Counts (es : Value.Entries) (e : Value × Value) : Prop :=
  IsLastOf (fun e : Value × Value => e.1.keyText) es e

theorem Filters.mem_ofEntries {es : Value.Entries} {f : Text × Filter} :
    f ∈ ofEntries es ↔ ∃ e, (e.1.keyText, Filter.ofValue e.2) = f ∧ es.Counts e := by
  rw [ofEntries, Assoc.mem_ofList, isLastOf_map]
  rfl

theorem Filters.ofValue_map (es : Value.Entries) : Filters.ofValue (.map es) = .ok (ofEntries es) := by
  cases es <;> rfl

namespace Sql

namespace Side

def criterion : Side → Criterion
  | relations => .relations
  | indexed => .indexedFields

def refinement : Side → Value → Refinement
  | relations => .relations
  | indexed => .indexedFields

end Side

def filtered (side : Side) (es : Value.Entries) (q : Query) : Query :=
  assign side.criterion (Filters.ofEntries es).toValue q

theorem filters_ofValue {f : Value} {fs : Filters} (h : Filters.ofValue f = .ok fs) :
    fs = Filters.ofEntries f.entries := by
  unfold Filters.ofValue at h
  split at h
  · cases h
    rename_i hempty
    cases f with
    | map es =>
      obtain rfl : es = [] := List.isEmpty_iff.mp hempty
      rfl
    | _ => rfl
  · split at h
    · cases h
      rfl
    · cases h

theorem refine_filters {now : WallClock} {side : Side} {f : Value} {q p : Query}
    (h : q.refine now (side.refinement f) = .ok p) : p = filtered side f.entries q := by
  cases side with
  | relations | indexed =>
    obtain ⟨ws, hws, rfl⟩ := map_eq_ok.mp h
    obtain ⟨fs, hfs, rfl⟩ := map_eq_ok.mp hws
    rw [filters_ofValue hfs]
    rfl

theorem refine_map (now : WallClock) (side : Side) (es : Value.Entries) (q : Query) :
    q.refine now (side.refinement (.map es)) = .ok (filtered side es q) := by
  cases side with
  | relations | indexed =>
    rw [Query.refine, Side.refinement, Refinement.writes, Refinement.writeFilters, Filters.ofValue_map]
    rfl

section

variable {db : Database} {tables : Tables} {row : Text → Value} {q : Query}

theorem filtered_criterion (side : Side) (es : Value.Entries) :
    filtered side es q side.criterion = (Filters.ofEntries es).toValue := by cases side <;> rfl

theorem filters_filtered (side : Side) (es : Value.Entries) :
    (filtered side es q).filters side.criterion = Filters.ofEntries es :=
  filters_eq (filtered_criterion side es) (Assoc.nodup_keys_ofList _)

theorem allHold_filtered (side : Side) (es : Value.Entries) :
    AllHold db tables row (Predicate.ofQuery (filtered side es q)) ↔
      AllHold db tables row (Predicate.ofQuery (filtered side [] q)) ∧
        AllHold db tables row (Predicate.ofFilters side (Filters.ofEntries es)) := by
  have hcolumns (es : Value.Entries) : Predicate.ofColumns (filtered side es q) = Predicate.ofColumns q := by
    cases side <;> rfl
  have hnone : AllHold db tables row (Predicate.ofFilters side (Filters.ofEntries [])) := List.forall_mem_nil _
  have hfilters (es : Value.Entries) := filters_filtered (q := q) side es
  cases side with
  | relations =>
    have hother (es : Value.Entries) :
      (filtered .relations es q).filters .indexedFields = q.filters .indexedFields := rfl
    simp only [Side.criterion] at hfilters
    simp only [Predicate.ofQuery, allHold_append, hcolumns, hfilters, hother, hnone, and_true]
    exact and_right_comm
  | indexed =>
    have hother (es : Value.Entries) : (filtered .indexed es q).filters .relations = q.filters .relations := rfl
    simp only [Side.criterion] at hfilters
    simp only [Predicate.ofQuery, allHold_append, hcolumns, hfilters, hother, hnone, and_true]

theorem allHold_ofEntries (side : Side) (es : Value.Entries) :
    AllHold db tables row (Predicate.ofFilters side (Filters.ofEntries es)) ↔
      ∀ e, es.Counts e → AllHold db tables row (Predicate.ofFilters side (Filters.ofEntries [e])) := by
  have hsingle (e : Value × Value) : Filters.ofEntries [e] = [(e.1.keyText, Filter.ofValue e.2)] := rfl
  simp only [AllHold, Predicate.ofFilters, List.forall_mem_map, hsingle, List.forall_mem_singleton]
  constructor
  · intro h e he
    exact h _ (Filters.mem_ofEntries.mpr ⟨e, rfl, he⟩)
  · intro h f hf
    obtain ⟨e, rfl, he⟩ := Filters.mem_ofEntries.mp hf
    exact h e he

end

theorem filtered_built {q : Query} (hq : q.Built) (now : WallClock) (side : Side) (es : Value.Entries) :
    (filtered side es q).Built :=
  .refine hq (refine_map now side es q)

theorem selects_filtered_default (db : Database) (tables : Tables) (row : Text → Value) (side : Side)
    (es : Value.Entries) :
    Selects db tables row (filtered side es Query.default) ↔
      AllHold db tables row (Predicate.ofFilters side (Filters.ofEntries es)) := by
  let now : WallClock := .ofTimestamp ⟨⟨1, 1, 1, by decide⟩, .midnight⟩
  rw [selects_iff (filtered_built .default now side es).admits, allHold_filtered]
  refine and_iff_right ?_
  cases side <;> exact fun _ hp => nomatch hp

/-- A filter map, given for one side to any query that was built, selects what the query without filters on
that side selects and every entry that counts does. Where all keys show different texts every entry counts,
and another such entry selects no more. -/
theorem filters_conjunctive {b : Query} (hb : b.Built) (tables : Tables) (side : Side) (now : WallClock) :
    (∀ es, b.refine now (side.refinement (.map es)) = .ok (filtered side es b)) ∧
    (∀ f p, b.refine now (side.refinement f) = .ok p → p = filtered side f.entries b) ∧
    ∀ db row (es : Value.Entries),
      (Selects db tables row (filtered side es b) ↔ Selects db tables row (filtered side [] b) ∧
        ∀ e, es.Counts e → Selects db tables row (filtered side [e] b)) ∧
      ((es.map fun e => e.1.keyText).Nodup →
        (Selects db tables row (filtered side es b) ↔ Selects db tables row (filtered side [] b) ∧
          ∀ e ∈ es, Selects db tables row (filtered side [e] b))) ∧
      (∀ e, (∀ x ∈ es, x.1.keyText ≠ e.1.keyText) → Selects db tables row (filtered side (es ++ [e]) b) →
        Selects db tables row (filtered side es b)) ∧
      Selects db tables row (filtered side [] Query.default) := by
  refine ⟨fun es => refine_map now side es b, fun f p => refine_filters, ?_⟩
  intro db row es
  have hselects (es : Value.Entries) : Selects db tables row (filtered side es b) ↔ AllHold db tables row _ :=
    selects_iff (filtered_built hb now side es).admits
  have hall (es : Value.Entries) :
      Selects db tables row (filtered side es b) ↔ Selects db tables row (filtered side [] b) ∧
        ∀ e, es.Counts e → Selects db tables row (filtered side [e] b) := by
    rw [hselects, hselects, allHold_filtered, allHold_ofEntries]
    refine and_congr_right fun hbase => forall₂_congr fun e he => ?_
    rw [hselects, allHold_filtered]
    exact (and_iff_right hbase).symm
  refine ⟨hall es, ?_, ?_, ?_⟩
  · intro hnodup
    rw [hall]
    exact and_congr_right fun _ => forall_congr' fun e => by rw [Value.Entries.Counts, isLastOf_of_nodup hnodup]
  · intro e hnew h
    obtain ⟨hbase, h⟩ := (hall _).mp h
    refine (hall es).mpr ⟨hbase, fun x hx => h x ?_⟩
    exact isLastOf_concat.mpr (.inr ⟨(hnew x hx.mem).symm, hx⟩)
  · rw [selects_filtered_default]
    exact List.forall_mem_nil _

theorem filters_conjunctive_tags :
    let now : WallClock := .ofTimestamp ⟨⟨2024, 1, 31, by decide⟩, .midnight⟩
    let tag : Value × Value := (.text "tag", .list [.text "new", .null])
    let flag : Value × Value := (.bool true, .null)
    Query.Built Query.default ∧ ([tag, flag].map fun e => e.1.keyText).Nodup ∧
      (∀ x ∈ [tag], x.1.keyText ≠ flag.1.keyText) ∧
      Query.default.refine now (.relations (.map [tag, flag])) = .ok (filtered .relations [tag, flag] Query.default) ∧
      ∀ db row,
        (Selects db .default row (filtered .relations [tag, flag] Query.default) ↔
          Selects db .default row (filtered .relations [] Query.default) ∧
          ∀ e ∈ [tag, flag], Selects db .default row (filtered .relations [e] Query.default)) ∧
        (Selects db .default row (filtered .relations ([tag] ++ [flag]) Query.default) →
          Selects db .default row (filtered .relations [tag] Query.default)) := by
  intro now tag flag
  obtain ⟨haccepts, -, hselects⟩ := filters_conjunctive .default .default .relations now
  have hnodup : ([tag, flag].map fun e => e.1.keyText).Nodup := by decide
  have hnew : ∀ x ∈ [tag], x.1.keyText ≠ flag.1.keyText := by
    rw [List.forall_mem_singleton]
    decide
  refine ⟨.default, hnodup, hnew, haccepts [tag, flag], fun db row => ⟨?_, ?_⟩⟩
  · exact (hselects db row [tag, flag]).2.1 hnodup
  · exact (hselects db row [tag]).2.2.1 flag hnew

/-- Of the number 1 and the text 1 as keys only the last counts, so that an order is selected that the first
does not select. -/
theorem equal_key_texts_widen :
    let number : Value × Value := (.int 1, .text "a")
    let digit : Value × Value := (.text "1", .text "b")
    let db : Database := ⟨fun _ x y => x = y, fun _ => [⟨.int 7, .text "1", .text "b"⟩]⟩
    let row : Text → Value := fun column => if column = "id" then .int 7 else .null
    number.1.sameKey digit.1 = false ∧
      Selects db .default row (filtered .relations [number, digit] Query.default) ∧
      ¬ Selects db .default row (filtered .relations [number] Query.default) := by
  intro number digit db row
  have hvisible : Tables.default.OrdersVisible := by decide
  refine ⟨by decide, ?_, ?_⟩
  · rw [selects_filtered_default]
    have hkey : digit.1.keyText = number.1.keyText := by decide
    have hlast : Filters.ofEntries [number, digit] = ([("1", .scalar (.text "b"))] : Filters) := by
      simp only [Filters.ofEntries, List.map_cons, List.map_nil, hkey, Assoc.ofList, List.foldl_cons,
        List.foldl_nil, Assoc.put, beq_self_eq_true, if_true]
      rfl
    rw [hlast]
    refine List.forall_mem_singleton.mpr ⟨hvisible, ⟨.int 7, .text "1", .text "b"⟩, List.mem_cons_self, ?_⟩
    exact ⟨rfl, rfl, .text "b", List.mem_cons_self, rfl⟩
  · rw [selects_filtered_default]
    intro h
    obtain ⟨-, t, ht, -, -, v, hv, heq⟩ :=
      h (.linked .relations "1" (.scalar (.text "a"))) List.mem_cons_self
    rw [List.mem_singleton.mp ht, List.mem_singleton.mp hv] at heq
    have htext : ("b" : Text) = "a" := Value.text.inj heq
    exact absurd htext (by decide)

end Sql

end OrderStore
