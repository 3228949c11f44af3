import OrderStore.Proofs.Query.Built
import OrderStore.Proofs.Sql.Binding
import OrderStore.Proofs.Sql.Meaning

namespace OrderStore

open Sql

namespace Value

def held (v : Value) : List Value := v.elements?.getD []

def entries : Value → Entries
  | .map es => es
  | _ => []

def accepted : Value → List Value
  | .scalar v => [v]
  | .oneOf vs => vs
  | _ => []

end Value

section

variable (db : Database)

def AnyOf (x : Value) (vs : List Value) : Prop := ∃ v ∈ vs, db.compares .equal x v

def Chosen (x : Value) (vs : List Value) : Prop := vs = [] ∨ AnyOf db x vs

/-- Each key of the filters has a row in the side table that belongs to the order and holds one of the
values asked for. -/
def FiltersMatch (table : Text) (row : Text → Value) (filters : Value) : Prop :=
  ∀ e ∈ filters.entries, ∃ t ∈ db.triples table,
    db.compares .equal t.orderId (row "id") ∧ db.compares .equal t.key e.1 ∧ AnyOf db t.value e.2.accepted

def Bounded (comparison : Comparison) (x bound : Value) : Prop :=
  bound.isNull = false → ∃ m, bound = .moment m ∧ db.compares comparison x (.text m.stamp.text)

structure Query.Matches (tables : Tables) (row : Text → Value) (q : Query) : Prop where
  types : Chosen db (row "type") (q .types).held
  statuses : Chosen db (row "status") (q .statuses).held
  buyer : (q .buyerId).isNull = false → db.compares .equal (row "buyer_id") (.text (q .buyerId).keyText)
  buyers : (q .buyerId).isNull = true →
    Chosen db (row "buyer_id") ((q .buyerIds).held.map fun x => .text x.keyText)
  orderNo : (q .orderNo).isEmpty = false → db.compares .equal (row "order_no") (q .orderNo)
  orderNoLike : (q .orderNo).isEmpty = true → (q .orderNoLike).isEmpty = false →
    db.compares .like (row "order_no") (q .orderNoLike)
  keyword : (q .keyword).isEmpty = false →
    db.compares .like (row "order_no") (q .keyword) ∨ db.compares .like (row "attributes_json") (q .keyword)
  createdFrom : Bounded db .atLeast (row "created_at") (q .createdFrom)
  createdTo : Bounded db .atMost (row "created_at") (q .createdTo)
  updatedFrom : Bounded db .atLeast (row "updated_at") (q .updatedFrom)
  updatedTo : Bounded db .atMost (row "updated_at") (q .updatedTo)
  amountMin : (q .amountMin).isNull = false → db.compares .atLeast (row "amount") (q .amountMin)
  amountMax : (q .amountMax).isNull = false → db.compares .atMost (row "amount") (q .amountMax)
  relations : FiltersMatch db tables.relations.key row (q .relations)
  indexedFields : FiltersMatch db tables.indexed.key row (q .indexedFields)

end

def Query.Unlinked (q : Query) : Prop := (q .relations).entries = [] ∧ (q .indexedFields).entries = []

/-- The search of the query names no column that is out of sight. -/
def Query.Resolves (tables : Tables) (q : Query) : Prop := tables.OrdersVisible ∨ q.Unlinked

namespace Sql

section

variable {db : Database} {tables : Tables} {row : Text → Value} {q : Query}

def AllHold (db : Database) (tables : Tables) (row : Text → Value) (ps : List Predicate) : Prop :=
  ∀ p ∈ ps, p.Holds db tables row

theorem allHold_ofChoices {column : Text} {f : Value → Value} {v : Value} :
    AllHold db tables row (Predicate.ofChoices column f v) ↔ Chosen db (row column) (v.held.map f) := by
  rw [Predicate.ofChoices, Value.held]
  cases hv : v.elements? with
  | none => simp [AllHold, Chosen]
  | some xs => cases xs <;> simp [AllHold, Chosen, AnyOf, Predicate.Holds]

theorem allHold_ofTime {column : Text} {comparison : Comparison} {v : Value} (hv : IsTimeBound v) :
    AllHold db tables row (Predicate.ofTime column comparison v) ↔
      Bounded db comparison (row column) v := by
  rcases hv with rfl | ⟨t, rfl⟩
  · simp [AllHold, Predicate.ofTime, Bounded, Value.isNull]
  · simp [AllHold, Predicate.ofTime, Bounded, Predicate.Holds, Value.isNull]

theorem allHold_ofAmount {comparison : Comparison} {v : Value} :
    AllHold db tables row (Predicate.ofAmount comparison v) ↔
      (v.isNull = false → db.compares comparison (row "amount") v) := by
  rw [Predicate.ofAmount]
  cases hv : v.isNull with
  | true => simp [AllHold]
  | false => simp [AllHold, Predicate.Holds]

theorem allHold_ofKeyword {v : Value} :
    AllHold db tables row (Predicate.ofKeyword v) ↔
      (v.isEmpty = false →
        db.compares .like (row "order_no") v ∨ db.compares .like (row "attributes_json") v) := by
  rw [Predicate.ofKeyword]
  cases hv : v.isEmpty with
  | true => simp [AllHold]
  | false => simp [AllHold, Predicate.Holds]

theorem allHold_ofOrderNo :
    AllHold db tables row (Predicate.ofOrderNo q) ↔
      ((q .orderNo).isEmpty = false → db.compares .equal (row "order_no") (q .orderNo)) ∧
      ((q .orderNo).isEmpty = true → (q .orderNoLike).isEmpty = false →
        db.compares .like (row "order_no") (q .orderNoLike)) := by
  rw [Predicate.ofOrderNo]
  cases hv : (q .orderNo).isEmpty with
  | true => cases hw : (q .orderNoLike).isEmpty <;> simp [AllHold, Predicate.Holds]
  | false => simp [AllHold, Predicate.Holds]

theorem allHold_ofBuyers :
    AllHold db tables row (Predicate.ofBuyers q) ↔
      ((q .buyerId).isNull = false → db.compares .equal (row "buyer_id") (.text (q .buyerId).keyText)) ∧
      ((q .buyerId).isNull = true →
        Chosen db (row "buyer_id") ((q .buyerIds).held.map fun x => .text x.keyText)) := by
  rw [Predicate.ofBuyers]
  cases hv : (q .buyerId).isNull with
  | true =>
    rw [if_pos rfl, allHold_ofChoices]
    constructor
    · intro h
      exact ⟨fun hnull => (by cases hnull), fun _ => h⟩
    · intro h
      exact h.2 rfl
  | false => simp [AllHold, Predicate.Holds, Clause.keyValue]

theorem filters_eq {c : Criterion} {fs : Filters} (hq : q c = fs.toValue) (hfs : (fs.map Prod.fst).Nodup) :
    q.filters c = fs := by
  rw [Query.filters, hq]
  exact Filters.ofEntries_toEntries hfs

theorem filters_eq_nil_iff {c : Criterion} (hq : IsFilters (q c)) : q.filters c = [] ↔ (q c).entries = [] := by
  obtain ⟨fs, hfs, hnodup⟩ := hq
  rw [filters_eq hfs hnodup, hfs]
  exact List.map_eq_nil_iff.symm

theorem allHold_ofFilters {c : Criterion} (side : Side) (hq : IsFilters (q c)) :
    AllHold db tables row (Predicate.ofFilters side (q.filters c)) ↔
      (tables.OrdersVisible ∨ (q c).entries = []) ∧ FiltersMatch db (tables.side side).key row (q c) := by
  rw [← filters_eq_nil_iff hq]
  obtain ⟨fs, hfs, hnodup⟩ := hq
  have hentries : (Filters.toValue fs).entries = fs.map fun f => (.text f.1, f.2.toValue) := rfl
  have haccepted (f : Filter) : f.toValue.accepted = f.choices := by cases f <;> rfl
  rw [filters_eq hfs hnodup, hfs, AllHold, Predicate.ofFilters, FiltersMatch, hentries]
  rw [List.forall_mem_map, List.forall_mem_map]
  simp only [Predicate.Holds, haccepted, AnyOf]
  -- Where the orders are out of sight no filter holds, so that there must be none.
  by_cases hvisible : tables.OrdersVisible
  · simp [hvisible]
  · cases fs with
    | nil => simp
    | cons f fs =>
      exact iff_of_false (fun h => hvisible (h f List.mem_cons_self).1)
        fun h => h.1.elim hvisible (List.cons_ne_nil f fs)

theorem matches_default (db : Database) (tables : Tables) (row : Text → Value) :
    Query.default.Matches db tables row where
  types := .inl rfl
  statuses := .inl rfl
  buyer := nofun
  buyers _ := .inl rfl
  orderNo := nofun
  orderNoLike _ := nofun
  keyword := nofun
  createdFrom := nofun
  createdTo := nofun
  updatedFrom := nofun
  updatedTo := nofun
  amountMin := nofun
  amountMax := nofun
  relations := List.forall_mem_nil _
  indexedFields := List.forall_mem_nil _

theorem allHold_append {ps rs : List Predicate} :
    AllHold db tables row (ps ++ rs) ↔ AllHold db tables row ps ∧ AllHold db tables row rs :=
  List.forall_mem_append

theorem allHold_ofColumns (hq : ∀ c : Criterion, c.Admits (q c)) :
    AllHold db tables row (Predicate.ofColumns q) ∧ FiltersMatch db tables.relations.key row (q .relations) ∧
      FiltersMatch db tables.indexed.key row (q .indexedFields) ↔ q.Matches db tables row := by
  simp only [Predicate.ofColumns, allHold_append, allHold_ofChoices, allHold_ofBuyers, allHold_ofOrderNo,
    allHold_ofKeyword, allHold_ofTime (hq .createdFrom), allHold_ofTime (hq .createdTo),
    allHold_ofTime (hq .updatedFrom), allHold_ofTime (hq .updatedTo), allHold_ofAmount, List.map_id]
  constructor
  · rintro ⟨⟨⟨⟨⟨⟨⟨⟨⟨⟨⟨types, statuses⟩, buyer, buyers⟩, orderNo, orderNoLike⟩, keyword⟩, createdFrom⟩,
      createdTo⟩, updatedFrom⟩, updatedTo⟩, amountMin⟩, amountMax⟩, relations, indexedFields⟩
    exact { types, statuses, buyer, buyers, orderNo, orderNoLike, keyword, createdFrom, createdTo,
            updatedFrom, updatedTo, amountMin, amountMax, relations, indexedFields }
  · intro h
    have hexact := And.intro h.types h.statuses
    have hbuyer := And.intro h.buyer h.buyers
    have horderNo := And.intro h.orderNo h.orderNoLike
    exact ⟨⟨⟨⟨⟨⟨⟨⟨⟨⟨hexact, hbuyer⟩, horderNo⟩, h.keyword⟩, h.createdFrom⟩, h.createdTo⟩, h.updatedFrom⟩,
      h.updatedTo⟩, h.amountMin⟩, h.amountMax⟩, h.relations, h.indexedFields⟩

theorem allHold_ofQuery (hq : ∀ c : Criterion, c.Admits (q c)) :
    AllHold db tables row (Predicate.ofQuery q) ↔ q.Resolves tables ∧ q.Matches db tables row := by
  have hrelations : AllHold db tables row _ ↔ _ ∧ FiltersMatch db tables.relations.key row _ :=
    allHold_ofFilters .relations (hq .relations)
  have hindexed : AllHold db tables row _ ↔ _ ∧ FiltersMatch db tables.indexed.key row _ :=
    allHold_ofFilters .indexed (hq .indexedFields)
  rw [Predicate.ofQuery, allHold_append, allHold_append, hrelations, hindexed, ← allHold_ofColumns hq,
    Query.Resolves, Query.Unlinked, or_and_left]
  constructor
  · rintro ⟨⟨hcolumns, hrel, hrelations⟩, hidx, hindexed⟩
    exact ⟨⟨hrel, hidx⟩, hcolumns, hrelations, hindexed⟩
  · rintro ⟨⟨hrel, hidx⟩, hcolumns, hrelations, hindexed⟩
    exact ⟨⟨hcolumns, hrel, hrelations⟩, hidx, hindexed⟩

end

section

variable {tables : Tables} {q : Query}

def AllPlain (ps : List Predicate) : Prop := ∀ p ∈ ps, p.Simple ∧ ∀ tables, p.Resolves tables

theorem AllPlain.append {ps rs : List Predicate} (hp : AllPlain ps) (hr : AllPlain rs) : AllPlain (ps ++ rs) :=
  List.forall_mem_append.mpr ⟨hp, hr⟩

theorem plain_single {p : Predicate} (h : p.Simple) (hresolves : ∀ tables, p.Resolves tables) : AllPlain [p] :=
  List.forall_mem_singleton.mpr ⟨h, hresolves⟩

theorem plain_compare {column : Text} {comparison : Comparison} {v : Value} (hcolumn : IsColumn column) :
    AllPlain [.compare column comparison v] :=
  plain_single hcolumn fun _ => trivial

theorem plain_nil : AllPlain [] := fun _ hp => nomatch hp

theorem plain_ofChoices {column : Text} {f : Value → Value} {v : Value} (hcolumn : IsColumn column) :
    AllPlain (Predicate.ofChoices column f v) := by
  rw [Predicate.ofChoices]
  split
  · exact plain_single ⟨hcolumn, by simp⟩ fun _ => trivial
  · exact plain_nil

theorem plain_ofBuyers (q : Query) : AllPlain (Predicate.ofBuyers q) := by
  rw [Predicate.ofBuyers]
  split
  · exact plain_ofChoices (by decide)
  · exact plain_compare (by decide)

theorem plain_ofOrderNo (q : Query) : AllPlain (Predicate.ofOrderNo q) := by
  rw [Predicate.ofOrderNo]
  split
  · exact plain_compare (by decide)
  · split
    · exact plain_compare (by decide)
    · exact plain_nil

theorem plain_ofKeyword (v : Value) : AllPlain (Predicate.ofKeyword v) := by
  rw [Predicate.ofKeyword]
  split
  · exact plain_nil
  · exact plain_single trivial fun _ => trivial

theorem plain_ofTime {column : Text} {comparison : Comparison} {v : Value} (hcolumn : IsColumn column) :
    AllPlain (Predicate.ofTime column comparison v) := by
  rw [Predicate.ofTime.eq_def]
  split
  · exact plain_compare hcolumn
  · exact plain_compare hcolumn
  · exact plain_nil

theorem plain_ofAmount (comparison : Comparison) (v : Value) :
    AllPlain (Predicate.ofAmount comparison v) := by
  rw [Predicate.ofAmount]
  split
  · exact plain_nil
  · exact plain_compare (by decide)

theorem plain_ofColumns (q : Query) : AllPlain (Predicate.ofColumns q) := by
  apply AllPlain.append _ (plain_ofAmount .atMost _)
  apply AllPlain.append _ (plain_ofAmount .atLeast _)
  apply AllPlain.append _ (plain_ofTime (by decide))
  apply AllPlain.append _ (plain_ofTime (by decide))
  apply AllPlain.append _ (plain_ofTime (by decide))
  apply AllPlain.append _ (plain_ofTime (by decide))
  apply AllPlain.append _ (plain_ofKeyword _)
  apply AllPlain.append _ (plain_ofOrderNo q)
  apply AllPlain.append _ (plain_ofBuyers q)
  apply AllPlain.append _ (plain_ofChoices (by decide))
  exact plain_ofChoices (by decide)

theorem simple_ofQuery (q : Query) : ∀ p ∈ Predicate.ofQuery q, p.Simple := by
  have hfilters (side : Side) (fs : Filters) : ∀ p ∈ Predicate.ofFilters side fs, p.Simple := by
    intro p hp
    obtain ⟨f, -, rfl⟩ := List.mem_map.mp hp
    trivial
  rw [Predicate.ofQuery, List.forall_mem_append, List.forall_mem_append]
  exact ⟨⟨fun p hp => (plain_ofColumns q p hp).1, hfilters .relations _⟩, hfilters .indexed _⟩

theorem resolves_ofFilters {c : Criterion} (side : Side) (hq : IsFilters (q c)) :
    (∀ p ∈ Predicate.ofFilters side (q.filters c), p.Resolves tables) ↔
      tables.OrdersVisible ∨ (q c).entries = [] := by
  rw [← filters_eq_nil_iff hq, Predicate.ofFilters, List.forall_mem_map]
  simp only [Predicate.Resolves]
  constructor
  · intro h
    by_contra! hnot
    obtain ⟨f, hf⟩ := List.exists_mem_of_ne_nil _ hnot.2
    exact hnot.1 (h f hf)
  · rintro (hvisible | hnil) f hf
    · exact hvisible
    · rw [hnil] at hf
      cases hf

theorem resolves_ofQuery (hq : ∀ c : Criterion, c.Admits (q c)) :
    (∀ p ∈ Predicate.ofQuery q, p.Resolves tables) ↔ q.Resolves tables := by
  have hcolumns : ∀ p ∈ Predicate.ofColumns q, p.Resolves tables := fun p hp => (plain_ofColumns q p hp).2 tables
  rw [Predicate.ofQuery, List.forall_mem_append, List.forall_mem_append, resolves_ofFilters _ (hq .relations),
    resolves_ofFilters _ (hq .indexedFields), Query.Resolves, Query.Unlinked, or_and_left, and_assoc]
  exact and_iff_right hcolumns

theorem exists_ofChoices (column stem : Text) (f : Value → Value) {v : Value} (hv : IsTuple v) :
    ∃ cs, Clause.ofChoices column stem f v = .ok cs := by
  obtain ⟨xs, rfl⟩ := hv
  rw [Clause.ofChoices]
  split
  · exact ⟨_, rfl⟩
  · exact ⟨_, rfl⟩

theorem exists_ofBuyers (hq : IsTuple (q .buyerIds)) : ∃ cs, Clause.ofBuyers q = .ok cs := by
  rw [Clause.ofBuyers]
  split
  · exact exists_ofChoices "buyer_id" "buyer" Clause.keyValue hq
  · exact ⟨_, rfl⟩

def IsTime (v : Value) : Prop := v = .null ∨ (∃ m, v = .moment m) ∨ ∃ d, v = .date d

theorem exists_ofTime (column : Text) (comparison : Comparison) {c : Criterion} (hq : IsTime (q c)) :
    ∃ cs, Clause.ofTime column comparison c q = .ok cs := by
  rw [Clause.ofTime]
  rcases hq with hq | ⟨m, hq⟩ | ⟨d, hq⟩
  · rw [hq]
    exact ⟨_, rfl⟩
  · rw [hq]
    exact ⟨_, rfl⟩
  · rw [hq]
    exact ⟨_, rfl⟩

structure Searchable (q : Query) : Prop where
  types : IsTuple (q .types)
  statuses : IsTuple (q .statuses)
  buyerIds : IsTuple (q .buyerIds)
  createdFrom : IsTime (q .createdFrom)
  createdTo : IsTime (q .createdTo)
  updatedFrom : IsTime (q .updatedFrom)
  updatedTo : IsTime (q .updatedTo)

theorem Searchable.of_admits (hq : ∀ c : Criterion, c.Admits (q c)) : Searchable q := by
  have htime {v : Value} (hv : IsTimeBound v) : IsTime v := hv.imp_right fun ⟨t, ht⟩ => .inl ⟨_, ht⟩
  exact ⟨hq .types, hq .statuses, hq .buyerIds, htime (hq .createdFrom), htime (hq .createdTo),
    htime (hq .updatedFrom), htime (hq .updatedTo)⟩

theorem Searchable.exists_clauses (hq : Searchable q) (tables : Tables) :
    ∃ cs, Clause.ofQuery tables q = .ok cs := by
  obtain ⟨types, htypes⟩ := exists_ofChoices "type" "type" id hq.types
  obtain ⟨statuses, hstatuses⟩ := exists_ofChoices "status" "status" id hq.statuses
  obtain ⟨buyers, hbuyers⟩ := exists_ofBuyers hq.buyerIds
  obtain ⟨createdFrom, hcreatedFrom⟩ := exists_ofTime "created_at" .atLeast hq.createdFrom
  obtain ⟨createdTo, hcreatedTo⟩ := exists_ofTime "created_at" .atMost hq.createdTo
  obtain ⟨updatedFrom, hupdatedFrom⟩ := exists_ofTime "updated_at" .atLeast hq.updatedFrom
  obtain ⟨updatedTo, hupdatedTo⟩ := exists_ofTime "updated_at" .atMost hq.updatedTo
  rw [Clause.ofQuery, htypes, hstatuses, hbuyers, hcreatedFrom, hcreatedTo, hupdatedFrom, hupdatedTo]
  exact ⟨_, rfl⟩

theorem exists_ofQuery (tables : Tables) (hq : ∀ c : Criterion, c.Admits (q c)) :
    ∃ cs, Clause.ofQuery tables q = .ok cs :=
  (Searchable.of_admits hq).exists_clauses tables

end

def Search.condition? (s : Search) : Option Expr := do
  let template ← scan s.whereText
  let pieces ← template.fill fun n => s.params.get? n
  readWhere (lex pieces)

theorem exists_condition {q : Query} (hq : ∀ c : Criterion, c.Admits (q c)) (tables : Tables) :
    ∃ s, Search.ofQuery tables q = .ok s ∧
      s.condition? = some (Predicate.whereExpr tables (Predicate.ofQuery q)) := by
  obtain ⟨cs, hcs⟩ := exists_ofQuery tables hq
  have hsearch : Search.ofQuery tables q = .ok _ := map_eq_ok.mpr ⟨cs, hcs, rfl⟩
  refine ⟨_, hsearch, ?_⟩
  change (scan (Clause.whereText cs)).bind _ = _
  rw [Clause.scan_whereText hcs, Option.bind_some]
  change (Template.fill (fun n => Named.get? n (Clause.allBindings cs)) _).bind _ = _
  rw [Clause.fill_whereTemplate_ofQuery hcs, Option.bind_some]
  rw [Predicate.lex_wherePieces (simple_ofQuery q), Predicate.readWhere_whereTokens (simple_ofQuery q)]

/-- The row satisfies the condition that the search of the query has. -/
def Selects (db : Database) (tables : Tables) (row : Text → Value) (q : Query) : Prop :=
  ∃ s e, Search.ofQuery tables q = .ok s ∧ s.condition? = some e ∧ e.Holds db [orderScope tables row]

theorem selects_iff {db : Database} {tables : Tables} {row : Text → Value} {q : Query}
    (hq : ∀ c : Criterion, c.Admits (q c)) :
    Selects db tables row q ↔ AllHold db tables row (Predicate.ofQuery q) := by
  obtain ⟨s, hs, hcondition⟩ := exists_condition hq tables
  rw [AllHold, ← holds_whereExpr]
  constructor
  · rintro ⟨s', e, hs', he, h⟩
    obtain rfl : s = s' := by rw [hs] at hs'; injection hs'
    obtain rfl := Option.some.inj (hcondition.symm.trans he)
    exact h
  · intro h
    exact ⟨s, _, hs, hcondition, h⟩

/-- The condition of a search means what the query asks, unless a subquery needs the identifier of an order
whose table is called `kv`: inside, this name means the side table, which has no such column. -/
theorem condition_means_query {q : Query} (hq : q.Built) (tables : Tables) :
    ∃ s e, Search.ofQuery tables q = .ok s ∧ s.condition? = some e ∧
      (∀ row, e.Resolves [orderScope tables row] ↔ q.Resolves tables) ∧
      ∀ db row, e.Holds db [orderScope tables row] ↔ q.Resolves tables ∧ q.Matches db tables row := by
  obtain ⟨s, hs, hcondition⟩ := exists_condition hq.admits tables
  refine ⟨s, _, hs, hcondition, ?_, ?_⟩
  · intro row
    rw [resolves_whereExpr]
    exact resolves_ofQuery hq.admits
  · intro db row
    rw [holds_whereExpr]
    exact allHold_ofQuery hq.admits

theorem condition_means_query_keyword :
    let q : Query := assignAll [(.relations, .map [(.text "tag", .oneOf [.text "new", .text "old"])])]
      (assignAll [(.keyword, .text "%x%")] Query.default)
    Query.Built q ∧ ∃ s e, Search.ofQuery .default q = .ok s ∧ s.condition? = some e ∧
      (∀ row, e.Resolves [orderScope .default row]) ∧
      ∀ db row, e.Holds db [orderScope .default row] ↔ Query.Matches db .default row q := by
  intro q
  let now : WallClock := .ofTimestamp ⟨⟨2024, 1, 31, by decide⟩, .midnight⟩
  let p : Query := assignAll [(.keyword, .text "%x%")] Query.default
  let tags : Value := .map [(.text "tag", .list [.text "new", .null, .text "old"])]
  have hkeyword : Query.refine now .default (.keyword (.text " x ")) = .ok p := rfl
  have hrelations : p.refine now (.relations tags) = .ok q := rfl
  have hq : q.Built := .refine (.refine .default hkeyword) hrelations
  have hresolves : q.Resolves .default := .inl (by decide)
  obtain ⟨s, e, hs, he, hall, hholds⟩ := condition_means_query hq .default
  refine ⟨hq, s, e, hs, he, fun row => (hall row).mpr hresolves, fun db row => ?_⟩
  exact (hholds db row).trans (and_iff_right hresolves)

/-- Among orders in a table `kv` none can be looked for by a tag, also if it has the tag. -/
theorem condition_loses_kv :
    let orders : TableName := ⟨"kv", by decide⟩
    let tables : Tables := { Tables.default with orders }
    let q : Query := assignAll [(.relations, .map [(.text "tag", .scalar (.text "new"))])] Query.default
    let db : Database := ⟨fun _ x y => x = y, fun _ => [⟨.int 7, .text "tag", .text "new"⟩]⟩
    let row : Text → Value := fun column => if column = "id" then .int 7 else .null
    Query.Built q ∧ q.Matches db tables row ∧ ∃ s e, Search.ofQuery tables q = .ok s ∧ s.condition? = some e ∧
      ¬ e.Resolves [orderScope tables row] ∧ ¬ e.Holds db [orderScope tables row] := by
  intro orders tables q db row
  let now : WallClock := .ofTimestamp ⟨⟨2024, 1, 31, by decide⟩, .midnight⟩
  have hrefine : Query.refine now .default (.relations (.map [(.text "tag", .text "new")])) = .ok q := rfl
  have hq : q.Built := .refine .default hrefine
  have hfilters : FiltersMatch db tables.relations.key row (.map [(.text "tag", .scalar (.text "new"))]) := by
    refine List.forall_mem_singleton.mpr ⟨⟨.int 7, .text "tag", .text "new"⟩, List.mem_cons_self, ?_⟩
    exact ⟨rfl, rfl, .text "new", List.mem_cons_self, rfl⟩
  have hmatches : q.Matches db tables row := { matches_default db tables row with relations := hfilters }
  have hvisible : ¬ tables.OrdersVisible := by decide
  have hlinked : (q .relations).entries ≠ [] := List.cons_ne_nil _ _
  have hresolves : ¬ q.Resolves tables := fun h => h.elim hvisible fun h => hlinked h.1
  obtain ⟨s, hs, hcondition⟩ := exists_condition hq.admits tables
  refine ⟨hq, hmatches, s, _, hs, hcondition, ?_, ?_⟩
  · rw [resolves_whereExpr, resolves_ofQuery hq.admits]
    exact hresolves
  · rw [holds_whereExpr]
    exact fun h => hresolves ((allHold_ofQuery hq.admits).mp h).1

end Sql

end OrderStore
