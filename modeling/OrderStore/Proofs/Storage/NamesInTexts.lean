import OrderStore.Proofs.Sql.NameGrammar
import OrderStore.Proofs.Sql.Shape
import OrderStore.Storage.Statement

namespace OrderStore

open Text (Code)

variable {p : Code → Bool}

namespace Text

def marks (p : Code → Bool) (t : Text) : List Code := t.codes.filter p

theorem marks_append (s t : Text) : (s ++ t).marks p = s.marks p ++ t.marks p := List.filter_append ..

theorem marks_join (ts : List Text) : (join ts).marks p = (ts.map (marks p)).flatten := by
  rw [marks, join, List.filter_flatMap]
  rfl

theorem marks_intercalate (separator : Text) (ts : List Text) :
    (intercalate separator ts).marks p = (separator.marks p).intercalate (ts.map (marks p)) := by
  induction ts with
  | nil => rfl
  | cons t ts ih =>
    cases ts with
    | nil =>
      rw [intercalate_singleton, List.map_singleton, List.intercalate_singleton]
    | cons u ts =>
      rw [intercalate_cons_cons, marks_append, marks_append, ih]
      exact (List.intercalate_cons_cons ..).symm

theorem marks_eq_nil_of_subset {s t : Text} (h : t.marks p = []) (hs : s.codes ⊆ t.codes) : s.marks p = [] :=
  List.filter_eq_nil_iff.mpr fun c hc => List.filter_eq_nil_iff.mp h c (hs hc)

end Text

namespace Sql

theorem TableName.marks_bare {n : TableName} (h : n.text.marks p = []) : n.bare.marks p = [] := by
  rw [bare]
  split
  · rename_i schema table hsplit
    apply Text.marks_eq_nil_of_subset h
    rw [n.codes_eq, splitDot?_eq_some hsplit, Text.codes_ofChars]
    apply List.map_subset
    exact List.Subset.trans (List.subset_cons_self '.' table) (List.subset_append_right schema _)
  · exact h

structure Tables.Avoids (p : Code → Bool) (ts : Tables) : Prop where
  orders : ts.orders.text.marks p = []
  relations : ts.relations.text.marks p = []
  indexed : ts.indexed.text.marks p = []

variable {ts ts' : Tables}

theorem Tables.Avoids.side (h : ts.Avoids p) (side : Side) : (ts.side side).text.marks p = [] := by
  cases side with
  | relations => exact h.relations
  | indexed => exact h.indexed

theorem marks_ofKey {table orders : TableName} (htable : table.text.marks p = [])
    (horders : orders.text.marks p = []) (stem : Text) (counter : Nat) (f : Filter.Shape) :
    (Condition.ofKey table orders stem counter f).text.marks p =
      (Condition.linked "" "" (stem ++ "_key_" ++ Text.natText counter)
        (Condition.ofFilter (stem ++ "_val_" ++ Text.natText counter) f)).text.marks p := by
  have hempty : Text.marks p "" = [] := rfl
  simp only [Condition.ofKey, Condition.text, Text.marks_append, htable, horders, hempty]

theorem marks_ofFilters {table orders table' orders' : TableName} (htable : table.text.marks p = [])
    (horders : orders.text.marks p = []) (htable' : table'.text.marks p = [])
    (horders' : orders'.text.marks p = []) (stem : Text) (fs : List Filter.Shape) :
    (Condition.ofFilters table orders stem fs).map (fun c => c.text.marks p) =
      (Condition.ofFilters table' orders' stem fs).map fun c => c.text.marks p := by
  rw [Condition.ofFilters, Condition.ofFilters, List.map_map, List.map_map]
  apply List.map_congr_left
  intro f hf
  rw [Function.comp_apply, Function.comp_apply, marks_ofKey htable horders, marks_ofKey htable' horders']

theorem marks_ofShape (hts : ts.Avoids p) (hts' : ts'.Avoids p) (s : Query.Shape) :
    (Condition.ofShape ts s).map (fun c => c.text.marks p) =
      (Condition.ofShape ts' s).map fun c => c.text.marks p := by
  simp only [Condition.ofShape, List.map_append,
    marks_ofFilters hts.relations hts.orders hts'.relations hts'.orders,
    marks_ofFilters hts.indexed hts.orders hts'.indexed hts'.orders]

/-- Two parts of a text that agree up to table names. An empty part is left out where parts are joined, so
the names must not decide which parts are empty. -/
structure Agree (p : Code → Bool) (s t : Text) : Prop where
  isEmpty : s.isEmpty = t.isEmpty
  marks : s.marks p = t.marks p

theorem Agree.refl (t : Text) : Agree p t t := ⟨rfl, rfl⟩

theorem agree_whereText {cs ds : List Clause}
    (h : (Clause.conditions cs).map (fun c => c.text.marks p) =
      (Clause.conditions ds).map fun c => c.text.marks p) :
    Agree p (Clause.whereText cs) (Clause.whereText ds) := by
  cases cs with
  | nil =>
    cases ds with
    | nil => exact .refl _
    | cons d ds => cases h
  | cons c cs =>
    cases ds with
    | nil => cases h
    | cons d ds =>
      refine ⟨rfl, ?_⟩
      rw [Clause.conditions, Clause.conditions, List.map_map, List.map_map] at h
      rw [Clause.whereText, Clause.whereText, Text.marks_append, Text.marks_append, Text.marks_intercalate,
        Text.marks_intercalate, List.map_map, List.map_map]
      · exact congrArg (fun ms => _ ++ List.intercalate _ ms) h
      · exact List.cons_ne_nil d ds
      · exact List.cons_ne_nil c cs

theorem marks_joinParts {ps qs : List Text} (h : List.Forall₂ (Agree p) ps qs) :
    (Search.joinParts ps).marks p = (Search.joinParts qs).marks p := by
  have hfilter : (ps.filter fun t => !t.isEmpty).map (Text.marks p) =
      (qs.filter fun t => !t.isEmpty).map (Text.marks p) := by
    induction h with
    | nil => rfl
    | @cons s t ps qs hst h ih =>
      rw [List.filter_cons, List.filter_cons, hst.isEmpty]
      split
      · rw [List.map_cons, List.map_cons, hst.marks, ih]
      · exact ih
  rw [Search.joinParts, Search.joinParts, Text.marks_intercalate, Text.marks_intercalate, hfilter]

theorem Search.agree_whereText {q : Query} {s s' : Search} (hts : ts.Avoids p) (hts' : ts'.Avoids p)
    (hs : Search.ofQuery ts q = .ok s) (hs' : Search.ofQuery ts' q = .ok s') :
    Agree p s.whereText s'.whereText := by
  obtain ⟨cs, hcs, rfl⟩ := map_eq_ok.mp hs
  obtain ⟨cs', hcs', rfl⟩ := map_eq_ok.mp hs'
  apply Sql.agree_whereText
  rw [Clause.conditions_ofQuery hcs, Clause.conditions_ofQuery hcs']
  exact marks_ofShape hts hts' q.shape

theorem agree_append_name {start : Text} (hstart : start.isEmpty = false) {n n' : TableName}
    (hn : n.text.marks p = []) (hn' : n'.text.marks p = []) :
    Agree p (start ++ n.text) (start ++ n'.text) := by
  have hempty (t : Text) : (start ++ t).isEmpty = false := by
    rw [Text.isEmpty, List.isEmpty_eq_false_iff] at hstart ⊢
    rw [Text.codes_append]
    exact List.append_ne_nil_of_left_ne_nil hstart _
  refine ⟨(hempty _).trans (hempty _).symm, ?_⟩
  rw [Text.marks_append, Text.marks_append, hn, hn']

theorem Search.agree_texts {q : Query} {s s' : Search} (hts : ts.Avoids p) (hts' : ts'.Avoids p)
    (hs : Search.ofQuery ts q = .ok s) (hs' : Search.ofQuery ts' q = .ok s') :
    s.selectText.marks p = s'.selectText.marks p ∧ s.countText.marks p = s'.countText.marks p := by
  have hwhere := Search.agree_whereText hts hts' hs hs'
  obtain ⟨cs, -, rfl⟩ := map_eq_ok.mp hs
  obtain ⟨cs', -, rfl⟩ := map_eq_ok.mp hs'
  have hname {start : Text} (hstart : start.isEmpty = false) :
      Agree p (start ++ ts.orders.text) (start ++ ts'.orders.text) :=
    agree_append_name hstart hts.orders hts'.orders
  constructor
  · exact marks_joinParts (.cons (hname rfl) (.cons hwhere (.cons (.refl _) (.cons (.refl _) .nil))))
  · exact marks_joinParts (.cons (hname rfl) (.cons hwhere .nil))

end Sql

namespace Storage

open Sql

variable {ts ts' : Tables}

inductive Counterparts (ts ts' : Tables) : Text → Text → Prop where
  | schema : Counterparts ts ts' (Schema.text ts) (Schema.text ts')
  | insertOrder (row : Order.Row) :
    Counterparts ts ts' (Statement.insertOrder ts.orders row).text (Statement.insertOrder ts'.orders row).text
  | updateOrder (row : Order.Row) :
    Counterparts ts ts' (Statement.updateOrder ts.orders row).text (Statement.updateOrder ts'.orders row).text
  | deletePairs (side : Side) (id : Value) :
    Counterparts ts ts' (Statement.deletePairs (ts.side side) (ts.target side) id).text
      (Statement.deletePairs (ts'.side side) (ts'.target side) id).text
  | insertTriple (side : Side) :
    Counterparts ts ts' (insertTripleText (ts.side side)) (insertTripleText (ts'.side side))
  | lookup (column : LookupColumn) (value : Value) :
    Counterparts ts ts' (Statement.lookup ts.orders column value).text
      (Statement.lookup ts'.orders column value).text
  | condition {q : Query} {s s' : Search} (hs : Search.ofQuery ts q = .ok s)
    (hs' : Search.ofQuery ts' q = .ok s') : Counterparts ts ts' s.whereText s'.whereText
  | select {q : Query} {s s' : Search} (hs : Search.ofQuery ts q = .ok s)
    (hs' : Search.ofQuery ts' q = .ok s') : Counterparts ts ts' s.selectText s'.selectText
  | count {q : Query} {s s' : Search} (hs : Search.ofQuery ts q = .ok s)
    (hs' : Search.ofQuery ts' q = .ok s') : Counterparts ts ts' s.countText s'.countText

theorem marks_schema (hts : ts.Avoids p) (hts' : ts'.Avoids p) :
    (Schema.text ts).marks p = (Schema.text ts').marks p := by
  simp only [Schema.text, Schema.tables, Schema.indexes, Schema.sideIndexes, Schema.sideColumns,
    Schema.Table.text, Schema.Index.text, Schema.Index.name, Schema.Column.text, List.map_cons,
    List.map_nil, List.map_append, Text.marks_append, Text.marks_join, Text.marks_intercalate,
    hts.orders, hts.relations, hts.indexed, hts'.orders, hts'.relations, hts'.indexed,
    TableName.marks_bare hts.orders, TableName.marks_bare hts.relations, TableName.marks_bare hts.indexed,
    TableName.marks_bare hts'.orders, TableName.marks_bare hts'.relations,
    TableName.marks_bare hts'.indexed]

theorem Counterparts.marks_eq {t t' : Text} (h : Counterparts ts ts' t t') (hts : ts.Avoids p)
    (hts' : ts'.Avoids p) : t.marks p = t'.marks p := by
  cases h with
  | schema => exact marks_schema hts hts'
  | insertOrder row => simp only [Statement.text, Text.marks_append, hts.orders, hts'.orders]
  | updateOrder row => simp only [Statement.text, Text.marks_append, hts.orders, hts'.orders]
  | deletePairs side id => simp only [Statement.text, Text.marks_append, hts.side, hts'.side]
  | insertTriple side => simp only [insertTripleText, Text.marks_append, hts.side, hts'.side]
  | lookup column value => simp only [Statement.text, Text.marks_append, hts.orders, hts'.orders]
  | condition hs hs' => exact (Search.agree_whereText hts hts' hs hs').marks
  | select hs hs' => exact (Search.agree_texts hts hts' hs hs').1
  | count hs hs' => exact (Search.agree_texts hts hts' hs hs').2

def isForeign : Code → Bool
  | .char c => !decide (NamePart c ∨ c = '.')
  | .surrogate _ => true

def isForeignInLine (c : Code) : Bool := isForeign c && c != .char '\n'

theorem marks_foreign_plain {t : Text} (h : IsPlain t) : t.marks isForeign = [] := by
  obtain ⟨cs, hcs, rfl⟩ := h
  apply List.filter_eq_nil_iff.mpr
  intro c hc
  obtain ⟨d, hd, rfl⟩ := List.mem_map.mp hc
  simp [isForeign, hcs.mem hd]

theorem not_isPlain_break (t : Text) : ¬ IsPlain (t ++ "\n") := by
  intro h
  have hmarks := marks_foreign_plain h
  rw [Text.marks_append] at hmarks
  exact absurd (List.append_eq_nil_iff.mp hmarks).2 (by decide)

theorem marks_foreignInLine (n : TableName) : n.text.marks isForeignInLine = [] := by
  have hline {t : Text} (h : t.marks isForeign = []) : t.marks isForeignInLine = [] := by
    apply List.filter_eq_nil_iff.mpr
    intro c hc
    have := List.filter_eq_nil_iff.mp h c hc
    simp [isForeignInLine, this]
  obtain ⟨u, hu, h | h⟩ := TableName.exists_text_iff.mp ⟨n, rfl⟩
  · rw [h]
    exact hline (marks_foreign_plain hu)
  · rw [h, Text.marks_append, hline (marks_foreign_plain hu)]
    decide

structure PlainlyNamed (ts : Tables) : Prop where
  orders : IsPlain ts.orders.text
  relations : IsPlain ts.relations.text
  indexed : IsPlain ts.indexed.text

theorem PlainlyNamed.avoids (h : PlainlyNamed ts) : ts.Avoids isForeign :=
  ⟨marks_foreign_plain h.orders, marks_foreign_plain h.relations, marks_foreign_plain h.indexed⟩

theorem avoids_foreignInLine (ts : Tables) : ts.Avoids isForeignInLine :=
  ⟨marks_foreignInLine ts.orders, marks_foreignInLine ts.relations, marks_foreignInLine ts.indexed⟩

def NamesTable (v : Value) : Prop := ∃ u, IsPlain u ∧ (v = .text u ∨ v = .text (u ++ "\n"))

theorem namesTable_iff {v : Value} : NamesTable v ↔ ∃ n : TableName, v = .text n.text := by
  constructor
  · rintro ⟨u, hu, rfl | rfl⟩
    · obtain ⟨n, hn⟩ := TableName.exists_text_iff.mpr ⟨u, hu, .inl rfl⟩
      exact ⟨n, congrArg Value.text hn.symm⟩
    · obtain ⟨n, hn⟩ := TableName.exists_text_iff.mpr ⟨u, hu, .inr rfl⟩
      exact ⟨n, congrArg Value.text hn.symm⟩
  · rintro ⟨n, rfl⟩
    obtain ⟨u, hu, h⟩ := TableName.exists_text_iff.mp ⟨n, rfl⟩
    exact ⟨u, hu, h.imp (congrArg Value.text) (congrArg Value.text)⟩

theorem namesTable_iff_plain {v : Value} :
    (NamesTable v ↔ ∃ u, IsPlain u ∧ v = .text u) ↔ ∀ u, IsPlain u → v ≠ .text (u ++ "\n") := by
  constructor
  · rintro h u hu rfl
    obtain ⟨u', hu', hv⟩ := h.mp ⟨u, hu, .inr rfl⟩
    injection hv with hv
    rw [← hv] at hu'
    exact not_isPlain_break u hu'
  · intro h
    constructor
    · rintro ⟨u, hu, rfl | rfl⟩
      · exact ⟨u, hu, rfl⟩
      · exact absurd rfl (h u hu)
    · rintro ⟨u, hu, rfl⟩
      exact ⟨u, hu, .inl rfl⟩

theorem namesTable_of_ofValues {orders relations indexed : Value} {ts : Tables}
    (h : Tables.ofValues orders relations indexed = .ok ts) :
    NamesTable orders ∧ NamesTable relations ∧ NamesTable indexed := by
  obtain ⟨ho, hr, hi⟩ := Tables.ofValues_eq_ok_iff.mp h
  exact ⟨namesTable_iff.mpr ⟨_, ho⟩, namesTable_iff.mpr ⟨_, hr⟩, namesTable_iff.mpr ⟨_, hi⟩⟩

/-- A value is taken as a table name, unchanged, exactly if it is a name of the grammar or such a name with a
line break at its end; anything else is rejected, alone and among the names of the three tables. Without the
line break, the names taken are those of the grammar. Two texts of one request agree in all characters that
are foreign to names, whatever the tables are called, but for line breaks, and in these too if no name ends
with one. -/
theorem table_names_confined (v orders relations indexed : Value) :
    (NamesTable v ↔ ∃ n, TableName.ofValue v = .ok n ∧ v = .text n.text) ∧
    (¬ NamesTable v → TableName.ofValue v = .error (.badTableName v) ∧
      (Error.badTableName v).kind = .value) ∧
    ((NamesTable v ↔ ∃ u, IsPlain u ∧ v = .text u) ↔ ∀ u, IsPlain u → v ≠ .text (u ++ "\n")) ∧
    ((∃ names, Tables.ofValues orders relations indexed = .ok names ∧ NamesTable orders ∧
        NamesTable relations ∧ NamesTable indexed) ∨
      ∃ w ∈ [orders, relations, indexed], ¬ NamesTable w ∧
        Tables.ofValues orders relations indexed = .error (.badTableName w)) ∧
    ∀ {ts ts' : Tables} {t t' : Text}, Counterparts ts ts' t t' →
      t.marks isForeignInLine = t'.marks isForeignInLine ∧
      (PlainlyNamed ts → PlainlyNamed ts' → t.marks isForeign = t'.marks isForeign) := by
  refine ⟨?_, ?_, namesTable_iff_plain, ?_, ?_⟩
  · simp only [TableName.ofValue_eq_ok_iff, and_self]
    exact namesTable_iff
  · intro hv
    rw [namesTable_iff, not_exists] at hv
    exact ⟨TableName.ofValue_eq_error_iff.mpr ⟨rfl, hv⟩, rfl⟩
  · cases h : Tables.ofValues orders relations indexed with
    | ok names => exact .inl ⟨names, rfl, namesTable_of_ofValues h⟩
    | error e =>
      obtain ⟨w, hw, he⟩ := Tables.ofValues_eq_error h
      obtain ⟨rfl, hnone⟩ := TableName.ofValue_eq_error_iff.mp he
      refine .inr ⟨w, hw, ?_, rfl⟩
      rw [namesTable_iff, not_exists]
      exact hnone
  · intro ts ts' t t' ht
    constructor
    · exact ht.marks_eq (avoids_foreignInLine ts) (avoids_foreignInLine ts')
    · intro h h'
      exact ht.marks_eq h.avoids h'.avoids

theorem table_names_confined_schema :
    let name : Tables := ⟨⟨"shop.orders", by decide⟩, ⟨"_pairs2", by decide⟩, ⟨"Shop.i_9", by decide⟩⟩
    Counterparts name .default (Schema.text name) (Schema.text .default) ∧ PlainlyNamed name ∧
      PlainlyNamed .default ∧
      (Schema.text name).marks isForeign = (Schema.text .default).marks isForeign ∧
      TableName.ofValue (.text "orders;") = .error (.badTableName (.text "orders;")) := by
  intro name
  have hname : PlainlyNamed name :=
    ⟨name.orders.isPlain (by decide), name.relations.isPlain (by decide), name.indexed.isPlain (by decide)⟩
  have hdefault : PlainlyNamed .default := by
    constructor <;> exact TableName.isPlain _ (by decide)
  have ht : Counterparts name .default (Schema.text name) (Schema.text .default) := .schema
  obtain ⟨-, hreject, -, -, hmarks⟩ := table_names_confined (.text "orders;") .null .null .null
  refine ⟨ht, hname, hdefault, (hmarks ht).2 hname hdefault, (hreject ?_).1⟩
  rw [namesTable_iff]
  rintro ⟨n, hn⟩
  have hn' := n.isName
  rw [← Value.text.inj hn] at hn'
  exact absurd hn' (by decide)

theorem break_taken_as_name : ∃ n : TableName, TableName.ofValue (.text "orders\n") = .ok n ∧
    n.text = "orders\n" ∧ ¬ IsPlain "orders\n" ∧
    Text.marks isForeign (Statement.lookup n .id .null).text ≠
      Text.marks isForeign (Statement.lookup Tables.default.orders .id .null).text := by
  have hname : isTableName (Text.chars "orders\n") = true := by decide
  refine ⟨⟨"orders\n", hname⟩, TableName.ofValue_text ⟨_, hname⟩, rfl, ?_, by decide +revert⟩
  intro h
  exact absurd (marks_foreign_plain h) (by decide)

end Storage

end OrderStore
