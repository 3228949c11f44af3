import Mathlib.Data.List.Infix
import Mathlib.Data.List.Nodup
import OrderStore.Json.Reader
import OrderStore.Proofs.Sql.Joined
import OrderStore.Proofs.Storage.NamesInTexts

namespace OrderStore.Sql

open Text (Code)
open Json (after?)

inductive HasBareName : Text → Text → Prop where
  | bare {cs : List Char} (h : Identifier cs) : HasBareName (.ofChars cs) (.ofChars cs)
  | dotted {schema table : List Char} (hs : Identifier schema) (ht : Identifier table) :
    HasBareName (.ofChars (schema ++ '.' :: table)) (.ofChars table)

namespace HasBareName

variable {t b : Text}

theorem isPlain (h : HasBareName t b) : IsPlain t := by
  cases h with
  | bare h => exact ⟨_, .bare h, rfl⟩
  | dotted hs ht => exact ⟨_, .dotted hs ht, rfl⟩

theorem exists_tableName (h : HasBareName t b) : ∃ n : TableName, n.text = t ∧ n.bare = b := by
  obtain ⟨n, hn⟩ := TableName.exists_text_iff.mpr ⟨t, h.isPlain, .inl rfl⟩
  refine ⟨n, hn, ?_⟩
  rw [TableName.bare, hn]
  cases h with
  | bare h => rw [Text.chars_ofChars, splitDot?_eq_none h.dot_not_mem]
  | dotted hs ht => rw [Text.chars_ofChars, splitDot?_append hs.dot_not_mem]

end HasBareName

theorem TableName.exists_identifier_bare {n : TableName} (h : IsPlain n.text) :
    ∃ cs, Identifier cs ∧ n.bare = .ofChars cs := by
  obtain ⟨cs, hcs, htext⟩ := h
  rw [bare, htext, Text.chars_ofChars]
  cases hcs with
  | bare h =>
    rw [splitDot?_eq_none h.dot_not_mem]
    exact ⟨cs, h, rfl⟩
  | dotted hs ht =>
    rw [splitDot?_append hs.dot_not_mem]
    exact ⟨_, ht, rfl⟩

namespace Schema

inductive Mention where
  | creates (table : Text)
  | refers (table : Text)
  | indexes (index table : Text)
  deriving DecidableEq

def upTo (c : Char) (cs : List Code) : Text := ⟨cs.takeWhile (· != .char c)⟩

def beyond? (word : String) : List Code → Option (List Code)
  | [] => none
  | c :: cs => (after? word (c :: cs)).or (beyond? word cs)

def creation? (line : List Code) : Option Mention :=
  (after? "CREATE TABLE IF NOT EXISTS " line).map fun rest => .creates (upTo ' ' rest)

def indexing? (line : List Code) : Option Mention :=
  (after? "CREATE INDEX IF NOT EXISTS " line).bind fun rest =>
    (after? " ON " (rest.dropWhile (· != .char ' '))).map fun table => .indexes (upTo ' ' rest) (upTo '(' table)

def reference? (line : List Code) : Option Mention :=
  (beyond? " REFERENCES " line).map fun rest => .refers (upTo '(' rest)

/-- What follows at the start of a line decides, so that tables may have the names of keywords. -/
def mention? (line : List Code) : Option Mention := (creation? line).or ((indexing? line).or (reference? line))

def mentions (t : Text) : List Mention := (t.codes.splitOnP (· == .char '\n')).filterMap mention?

theorem upTo_append {c : Char} {t : Text} (h : Lacks c t) (cs : List Code) :
    upTo c (t.codes ++ .char c :: cs) = t := by
  have ht : ∀ x ∈ t.codes, (x != .char c) = true := fun x hx => bne_iff_ne.mpr (h x hx)
  rw [upTo, List.takeWhile_append_of_pos ht, List.takeWhile_cons_of_neg (by simp), List.append_nil]

theorem dropWhile_append {c : Char} {t : Text} (h : Lacks c t) (cs : List Code) :
    (t.codes ++ .char c :: cs).dropWhile (· != .char c) = .char c :: cs := by
  have ht : ∀ x ∈ t.codes, (x != .char c) = true := fun x hx => bne_iff_ne.mpr (h x hx)
  rw [List.dropWhile_append_of_pos ht, List.dropWhile_cons_of_neg (by simp)]

theorem mention?_creation {table : Text} (h : Lacks ' ' table) :
    mention? ("CREATE TABLE IF NOT EXISTS " ++ table ++ " (" : Text).codes = some (.creates table) := by
  have hafter :
      after? "CREATE TABLE IF NOT EXISTS " ("CREATE TABLE IF NOT EXISTS " ++ table ++ " (" : Text).codes =
        some (table.codes ++ [.char ' ', .char '(']) := rfl
  rw [mention?, creation?, hafter, Option.map_some, upTo_append h]
  rfl

theorem mention?_indexing {index table : Text} (hi : Lacks ' ' index) (ht : Lacks '(' table) (rest : Text) :
    mention? ("CREATE INDEX IF NOT EXISTS " ++ index ++ " ON " ++ table ++ "(" ++ rest : Text).codes =
      some (.indexes index table) := by
  have hcodes : ("CREATE INDEX IF NOT EXISTS " ++ index ++ " ON " ++ table ++ "(" ++ rest : Text).codes =
      ("CREATE INDEX IF NOT EXISTS " : Text).codes ++
        (index.codes ++ .char ' ' :: (("ON " : Text).codes ++ (table.codes ++ .char '(' :: rest.codes))) := by
    simp only [Text.codes_append, List.append_assoc]
    rfl
  rw [hcodes]
  generalize hrest :
    index.codes ++ .char ' ' :: (("ON " : Text).codes ++ (table.codes ++ .char '(' :: rest.codes)) = cs
  have hcreation : creation? (("CREATE INDEX IF NOT EXISTS " : Text).codes ++ cs) = none := rfl
  have hafter : after? "CREATE INDEX IF NOT EXISTS " (("CREATE INDEX IF NOT EXISTS " : Text).codes ++ cs) =
    some cs := rfl
  have hon : after? " ON " (cs.dropWhile (· != .char ' ')) = some (table.codes ++ .char '(' :: rest.codes) := by
    rw [← hrest, dropWhile_append hi]
    rfl
  rw [mention?, hcreation, indexing?, hafter, Option.bind_some, hon, Option.map_some, upTo_append ht, ← hrest,
    upTo_append hi]
  rfl

theorem mention?_reference {table : Text} (h : Lacks '(' table) (rest : Text) :
    mention? (Column.text ⟨"order_id",
        "BIGINT NOT NULL REFERENCES " ++ table ++ "(id) ON DELETE CASCADE"⟩ ++ rest).codes =
      some (.refers table) := by
  generalize hline : (Column.text _ ++ rest).codes = line
  have hcreation : creation? line = none := hline ▸ rfl
  have hindexing : indexing? line = none := hline ▸ rfl
  have hbeyond : beyond? " REFERENCES " line =
      some (table.codes ++ .char '(' :: (("id) ON DELETE CASCADE" : Text) ++ rest).codes) := by
    rw [← hline]
    change some ((table ++ "(id) ON DELETE CASCADE").codes ++ rest.codes) = _
    rw [Text.codes_append, List.append_assoc]
    rfl
  rw [mention?, hcreation, hindexing, reference?, hbeyond, Option.map_some, upTo_append h]
  rfl

/-- The text consists of lines that say this, whatever follows them. -/
def Says (t : Text) (ms : List Mention) : Prop := ∀ u, mentions (t ++ u) = ms ++ mentions u

namespace Says

variable {t u : Text} {ms ns : List Mention}

theorem line (h : Lacks '\n' t) : Says (t ++ "\n") (mention? t.codes).toList := by
  intro u
  have hcodes : (t ++ "\n" ++ u).codes = t.codes ++ .char '\n' :: u.codes := by
    rw [Text.codes_append, Text.codes_append, List.append_assoc]
    rfl
  have hline : t.codes.splitOnP (· == .char '\n') = [t.codes] :=
    List.splitOnP_eq_singleton fun x hx => beq_eq_false_iff_ne.mpr (h x hx)
  have hsplit : (t.codes ++ .char '\n' :: u.codes).splitOnP (· == .char '\n') =
      t.codes.splitOnP (· == .char '\n') ++ u.codes.splitOnP (· == .char '\n') :=
    List.splitOnP_append_cons _ _ (by decide)
  rw [mentions, hcodes, hsplit, hline, List.filterMap_append, List.filterMap_cons, List.filterMap_nil]
  cases mention? t.codes <;> rfl

theorem blank : Says "\n" [] := .line (t := "") (by decide)

theorem append (ht : Says t ms) (hu : Says u ns) : Says (t ++ u) (ms ++ ns) := by
  intro v
  rw [Text.append_assoc, ht, hu, List.append_assoc]

theorem join {α : Type} {f : α → Text} {g : α → List Mention} {xs : List α} (h : ∀ x ∈ xs, Says (f x) (g x)) :
    Says (.join (xs.map f)) (xs.flatMap g) := by
  induction xs with
  | nil => exact fun _ => rfl
  | cons x xs ih =>
    exact (h x List.mem_cons_self).append (ih fun y hy => h y (List.mem_cons_of_mem x hy))

theorem mentions_eq (h : Says t ms) : mentions t = ms := by
  have hend := h ""
  have hnone : mentions "" = [] := rfl
  rw [Search.text_append_empty, hnone, List.append_nil] at hend
  exact hend

end Says

structure Column.IsLine (c : Column) : Prop where
  line : Lacks '\n' c.text
  comma : mention? (c.text ++ ",").codes = mention? c.text.codes

instance (c : Column) : Decidable c.IsLine :=
  decidable_of_iff (Lacks '\n' c.text ∧ mention? (c.text ++ ",").codes = mention? c.text.codes)
    ⟨fun h => ⟨h.1, h.2⟩, fun h => ⟨h.1, h.2⟩⟩

theorem says_columns {cs : List Column} (hne : cs ≠ []) (hcs : ∀ c ∈ cs, c.IsLine) :
    Says (.intercalate ",\n" (cs.map Column.text) ++ "\n") (cs.filterMap fun c => mention? c.text.codes) := by
  induction cs with
  | nil => exact absurd rfl hne
  | cons c cs ih =>
    have hc := hcs c List.mem_cons_self
    have hmentions : (c :: cs).filterMap (fun c => mention? c.text.codes) =
        (mention? c.text.codes).toList ++ cs.filterMap fun c => mention? c.text.codes := by
      rw [List.filterMap_cons]
      cases mention? c.text.codes <;> rfl
    rw [hmentions]
    cases cs with
    | nil =>
      rw [List.map_singleton, Text.intercalate_singleton, List.filterMap_nil, List.append_nil]
      exact .line hc.line
    | cons d cs =>
      have hrest := ih (List.cons_ne_nil d cs) fun x hx => hcs x (List.mem_cons_of_mem c hx)
      have hbreak : (",\n" : Text) = "," ++ "\n" := rfl
      rw [List.map_cons] at hrest ⊢
      rw [List.map_cons, Text.intercalate_cons_cons, Text.append_assoc, hbreak, ← Text.append_assoc c.text,
        ← hc.comma]
      exact (Says.line (hc.line.append (by decide))).append hrest

theorem says_table {t : Table} (hcomment : Lacks '\n' t.comment)
    (hsilent : mention? ("-- " ++ t.comment : Text).codes = none) (hname : IsPlain t.name.text)
    (hne : t.columns ≠ []) (hcolumns : ∀ c ∈ t.columns, c.IsLine) :
    Says t.text (.creates t.name.text :: t.columns.filterMap fun c => mention? c.text.codes) := by
  have hlines : t.text = "-- " ++ t.comment ++ "\n" ++
      ("CREATE TABLE IF NOT EXISTS " ++ t.name.text ++ " (" ++ "\n" ++
        (.intercalate ",\n" (t.columns.map Column.text) ++ "\n" ++ (");" ++ "\n"))) := by
    simp only [Table.text, Text.append_assoc]
    rfl
  have hspace : Lacks ' ' t.name.text := hname.lacks (by decide) (by decide)
  have hbreak : Lacks '\n' t.name.text := hname.lacks (by decide) (by decide)
  have hfirst : Says ("-- " ++ t.comment ++ "\n") [] := by
    have hline := Says.line ((by decide : Lacks '\n' "-- ").append hcomment)
    rw [hsilent] at hline
    exact hline
  have hcreates : Says ("CREATE TABLE IF NOT EXISTS " ++ t.name.text ++ " (" ++ "\n") [.creates t.name.text] := by
    have hline := Says.line (((by decide : Lacks '\n' "CREATE TABLE IF NOT EXISTS ").append hbreak).append
      (by decide : Lacks '\n' " ("))
    rw [mention?_creation hspace] at hline
    exact hline
  have hclose : Says (");" ++ "\n") [] := .line (by decide)
  have hlast := (says_columns hne hcolumns).append hclose
  rw [List.append_nil] at hlast
  rw [hlines]
  exact hfirst.append (hcreates.append hlast)

theorem says_index {i : Index} (hspace : Lacks ' ' i.name) (hbreak : Lacks '\n' i.name)
    (htable : IsPlain i.table.text) (hcolumns : Lacks '\n' (.intercalate ", " i.columns)) :
    Says i.text [.indexes i.name i.table.text] := by
  have hline : i.text = "CREATE INDEX IF NOT EXISTS " ++ i.name ++ " ON " ++ i.table.text ++ "(" ++
      (.intercalate ", " i.columns ++ ");") ++ "\n" := by
    simp only [Index.text, Text.append_assoc]
    rfl
  have hsays := Says.line ((((((by decide : Lacks '\n' "CREATE INDEX IF NOT EXISTS ").append hbreak).append
    (by decide : Lacks '\n' " ON ")).append (htable.lacks (by decide) (by decide))).append
    (by decide : Lacks '\n' "(")).append (hcolumns.append (by decide : Lacks '\n' ");")))
  rw [mention?_indexing hspace (htable.lacks (by decide) (by decide))] at hsays
  rw [hline]
  exact hsays

theorem isLine_orderColumns : ∀ c ∈ orderColumns, c.IsLine := by decide +kernel

theorem mentions_orderColumns : orderColumns.filterMap (fun c => mention? c.text.codes) = [] := by decide +kernel

section

variable {orders : TableName}

theorem isLine_sideColumns (h : IsPlain orders.text) : ∀ c ∈ sideColumns orders, c.IsLine := by
  have hopen : Lacks '(' orders.text := h.lacks (by decide) (by decide)
  have hbreak : Lacks '\n' orders.text := h.lacks (by decide) (by decide)
  rw [sideColumns, List.forall_mem_cons]
  refine ⟨⟨?_, ?_⟩, by decide⟩
  · have hstart : Lacks '\n' ("    " ++ Text.padRight 20 "order_id") := by decide
    exact hstart.append (((by decide : Lacks '\n' "BIGINT NOT NULL REFERENCES ").append hbreak).append (by decide))
  · have hline := mention?_reference hopen ""
    rw [Search.text_append_empty] at hline
    rw [hline]
    exact mention?_reference hopen ","

theorem mentions_sideColumns (h : IsPlain orders.text) :
    (sideColumns orders).filterMap (fun c => mention? c.text.codes) = [.refers orders.text] := by
  have hline := mention?_reference (h.lacks (by decide) (by decide)) ""
  rw [Search.text_append_empty] at hline
  rw [sideColumns, List.filterMap_cons, hline]
  rfl

end

def indexName (bare kind : Text) : Text := "idx_" ++ bare ++ "_" ++ kind

structure Placement where
  table : Text
  bare : Text
  kind : Text

def Placement.index (p : Placement) : Text := indexName p.bare p.kind

def kinds : List Text := ["buyer", "type_status", "created", "order", "kv", "order", "kv"]

theorem eq_of_suffix {k l : Text} (hk : k ∈ kinds) (hl : l ∈ kinds)
    (h : ("_" ++ k).codes <:+ ("_" ++ l).codes) : k = l := by
  have hall : ∀ k ∈ kinds, ∀ l ∈ kinds, ("_" ++ k).codes <:+ ("_" ++ l).codes → k = l := by decide +kernel
  exact hall k hk l hl h

theorem indexName_injective {b c k l : Text} (hk : k ∈ kinds) (hl : l ∈ kinds)
    (h : indexName b k = indexName c l) : b = c ∧ k = l := by
  have hcodes : b.codes ++ ("_" ++ k).codes = c.codes ++ ("_" ++ l).codes := by
    have hwhole := congrArg Text.codes h
    simp only [indexName, Text.append_assoc] at hwhole
    exact List.append_cancel_left hwhole
  have hkind : k = l := by
    rcases List.suffix_or_suffix_of_suffix (List.suffix_append b.codes _)
      (hcodes ▸ List.suffix_append c.codes _) with hs | hs
    · exact eq_of_suffix hk hl hs
    · exact (eq_of_suffix hl hk hs).symm
  subst hkind
  exact ⟨congrArg Text.mk (List.append_cancel_right hcodes), rfl⟩

theorem exists_identifier_indexName {b k : Text} (hb : ∃ cs, Identifier cs ∧ b = .ofChars cs) (hk : k ∈ kinds) :
    ∃ cs, Identifier cs ∧ indexName b k = .ofChars cs := by
  obtain ⟨cs, hcs, rfl⟩ := hb
  have hall : ∀ k ∈ kinds, k = .ofChars k.chars ∧ Identifier k.chars := by decide +kernel
  obtain ⟨hchars, hk⟩ := hall k hk
  have hstart : Identifier ['i', 'd', 'x', '_'] := by decide
  have hbare := hstart.append fun d hd => hcs.mem hd
  refine ⟨['i', 'd', 'x', '_'] ++ cs ++ '_' :: k.chars, hbare.append ?_, ?_⟩
  · exact List.forall_mem_cons.mpr ⟨by decide, fun d hd => hk.mem hd⟩
  · rw [indexName, hchars, Text.chars_ofChars, Text.ofChars_append, Text.ofChars_append, Text.append_assoc]
    rfl

def placements (orders relations indexed : Text × Text) : List Placement :=
  [⟨orders.1, orders.2, "buyer"⟩, ⟨orders.1, orders.2, "type_status"⟩, ⟨orders.1, orders.2, "created"⟩,
    ⟨relations.1, relations.2, "order"⟩, ⟨relations.1, relations.2, "kv"⟩,
    ⟨indexed.1, indexed.2, "order"⟩, ⟨indexed.1, indexed.2, "kv"⟩]

namespace Placement

variable {orders relations indexed : Text × Text} {p p' : Placement}

theorem kind_mem (hp : p ∈ placements orders relations indexed) : p.kind ∈ kinds :=
  List.mem_map_of_mem (f := kind) hp

theorem bare_mem (hp : p ∈ placements orders relations indexed) : p.bare ∈ [orders.2, relations.2, indexed.2] := by
  have hmem : p.bare ∈ [orders.2, orders.2, orders.2, relations.2, relations.2, indexed.2, indexed.2] :=
    List.mem_map_of_mem (f := bare) hp
  simp only [List.mem_cons, List.not_mem_nil, or_false] at hmem ⊢
  tauto

theorem index_eq_iff (hp : p ∈ placements orders relations indexed)
    (hp' : p' ∈ placements orders relations indexed) :
    p.index = p'.index ↔ p.kind = p'.kind ∧ p.bare = p'.bare := by
  constructor
  · intro h
    exact (indexName_injective (kind_mem hp) (kind_mem hp') h).symm
  · rintro ⟨hkind, hbare⟩
    rw [index, index, hkind, hbare]

/-- The two side tables have indexes of the same kinds, so their bare names must differ. -/
theorem nodup_index (h : relations.2 ≠ indexed.2) :
    ((placements orders relations indexed).map index).Nodup := by
  have hpairs : ((placements orders relations indexed).map fun p => (p.kind, p.bare)).Nodup := by
    simp [placements, h]
  rw [List.Nodup, List.pairwise_map] at hpairs ⊢
  apply hpairs.imp_of_mem
  intro p p' hp hp' hne hindex
  obtain ⟨hkind, hbare⟩ := (index_eq_iff hp hp').mp hindex
  exact hne (Prod.ext hkind hbare)

end Placement

section

variable {ts : Tables} {p : Placement} {i : Index} {t : Table}

def placementsOf (ts : Tables) : List Placement :=
  placements (ts.orders.text, ts.orders.bare) (ts.relations.text, ts.relations.bare)
    (ts.indexed.text, ts.indexed.bare)

theorem exists_identifier_index (hts : Storage.PlainlyNamed ts) (hp : p ∈ placementsOf ts) :
    ∃ cs, Identifier cs ∧ p.index = .ofChars cs := by
  have hbare := Placement.bare_mem hp
  simp only [List.mem_cons, List.not_mem_nil, or_false] at hbare
  apply exists_identifier_indexName _ (Placement.kind_mem hp)
  rcases hbare with h | h | h
  · exact h ▸ TableName.exists_identifier_bare hts.orders
  · exact h ▸ TableName.exists_identifier_bare hts.relations
  · exact h ▸ TableName.exists_identifier_bare hts.indexed

theorem isPlain_name (hts : Storage.PlainlyNamed ts) (hi : i ∈ indexes ts) : IsPlain i.name := by
  have hp : ⟨i.table.text, i.table.bare, i.kind⟩ ∈ placementsOf ts :=
    List.mem_map_of_mem (f := fun i : Index => (⟨i.table.text, i.table.bare, i.kind⟩ : Placement)) hi
  obtain ⟨cs, hcs, hname⟩ := exists_identifier_index hts hp
  exact ⟨cs, .bare hcs, hname⟩

theorem isPlain_table (hts : Storage.PlainlyNamed ts) (hi : i ∈ indexes ts) : IsPlain i.table.text := by
  have hmem : i.table ∈ [ts.orders, ts.orders, ts.orders, ts.relations, ts.relations, ts.indexed, ts.indexed] :=
    List.mem_map_of_mem (f := Index.table) hi
  have hall : ∀ n ∈ [ts.orders, ts.orders, ts.orders, ts.relations, ts.relations, ts.indexed, ts.indexed],
      IsPlain n.text := by simp [hts.orders, hts.relations, hts.indexed]
  exact hall _ hmem

theorem lacks_break_columns (hi : i ∈ indexes ts) : Lacks '\n' (.intercalate ", " i.columns) := by
  have hmem : i.columns ∈ ([["buyer_id"], ["type", "status"], ["created_at"], ["order_id"],
      ["rel_key", "rel_value"], ["order_id"], ["rel_key", "rel_value"]] : List (List Text)) :=
    List.mem_map_of_mem (f := Index.columns) hi
  revert hmem
  generalize i.columns = cs
  revert cs
  decide

theorem silent_comment (ht : t ∈ tables ts) :
    Lacks '\n' t.comment ∧ mention? ("-- " ++ t.comment : Text).codes = none := by
  have hmem : t.comment ∈ (["Orders table: one row per order, free-form data kept as JSON text",
      "Relations side table: (order, key, value) triples, keys may repeat",
      "Indexed fields side table: same shape, independent namespace"] : List Text) :=
    List.mem_map_of_mem (f := Table.comment) ht
  revert hmem
  generalize t.comment = comment
  revert comment
  decide +kernel

theorem says_tables (hts : Storage.PlainlyNamed ts) :
    Says (.join ((tables ts).map fun t => "\n" ++ t.text)) [.creates ts.orders.text, .creates ts.relations.text,
      .refers ts.orders.text, .creates ts.indexed.text, .refers ts.orders.text] := by
  have htables : ∀ t ∈ tables ts, Says ("\n" ++ t.text)
      (.creates t.name.text :: t.columns.filterMap fun c => mention? c.text.codes) := by
    intro t ht
    apply Says.blank.append
    obtain ⟨hcomment, hsilent⟩ := silent_comment ht
    simp only [tables, List.mem_cons, List.not_mem_nil, or_false] at ht
    rcases ht with rfl | rfl | rfl
    · exact says_table hcomment hsilent hts.orders (List.cons_ne_nil _ _) isLine_orderColumns
    · exact says_table hcomment hsilent hts.relations (List.cons_ne_nil _ _) (isLine_sideColumns hts.orders)
    · exact says_table hcomment hsilent hts.indexed (List.cons_ne_nil _ _) (isLine_sideColumns hts.orders)
  have hall := Says.join htables
  simp only [tables, List.flatMap_cons, List.flatMap_nil, mentions_orderColumns,
    mentions_sideColumns hts.orders] at hall
  exact hall

theorem says_indexes (hts : Storage.PlainlyNamed ts) :
    Says (.join ((indexes ts).map Index.text)) ((indexes ts).map fun i => .indexes i.name i.table.text) := by
  rw [List.map_eq_flatMap (f := fun i : Index => Mention.indexes i.name i.table.text)]
  apply Says.join
  intro i hi
  have hname := isPlain_name hts hi
  exact says_index (hname.lacks (by decide) (by decide)) (hname.lacks (by decide) (by decide))
    (isPlain_table hts hi) (lacks_break_columns hi)

theorem says_text (hts : Storage.PlainlyNamed ts) :
    Says (text ts) ([.creates ts.orders.text, .creates ts.relations.text, .refers ts.orders.text,
      .creates ts.indexed.text, .refers ts.orders.text] ++
        (placementsOf ts).map fun p => .indexes p.index p.table) := by
  have hline : Says ("-- Indexes for the common filters and the correlated lookups" ++ "\n") [] :=
    .line (by decide +kernel)
  have hcomment : Says "\n-- Indexes for the common filters and the correlated lookups\n" [] :=
    Says.blank.append hline
  have hall := ((says_tables hts).append hcomment).append (says_indexes hts)
  rw [List.append_nil] at hall
  exact hall

def isBrace (c : Code) : Bool := c == .char '{' || c == .char '}'

theorem marks_isBrace_eq_nil_iff {t : Text} : t.marks isBrace = [] ↔ Lacks '{' t ∧ Lacks '}' t := by
  simp only [Text.marks, List.filter_eq_nil_iff, isBrace, Bool.or_eq_true, beq_iff_eq, not_or, forall_and]
  exact Iff.rfl

theorem lacks_braces (hts : Storage.PlainlyNamed ts) : Lacks '{' (text ts) ∧ Lacks '}' (text ts) := by
  have havoids {n : TableName} (hn : IsPlain n.text) : n.text.marks isBrace = [] :=
    marks_isBrace_eq_nil_iff.mpr ⟨hn.lacks (by decide) (by decide), hn.lacks (by decide) (by decide)⟩
  have hnames : ts.Avoids isBrace := ⟨havoids hts.orders, havoids hts.relations, havoids hts.indexed⟩
  have hdefaults : Tables.Avoids isBrace .default := by
    constructor <;> exact havoids (TableName.isPlain _ (by decide))
  have hdefault : (text .default).marks isBrace = [] := by decide +kernel
  exact marks_isBrace_eq_nil_iff.mp ((Storage.marks_schema hnames hdefaults).trans hdefault)

end

/-- For any names of tables that are identifiers, or two of them with a dot between, there is a schema. No
brace stands in it. Its lines create the tables under these names, refer to that of orders from both side
tables, and put seven indexes on the tables. The name of each index is an identifier, without a dot. Two of
the seven are called the same exactly if they are of one kind and their tables have the same bare name; so all
names differ if the bare names do. -/
theorem index_names_distinct {orders relations indexed o r i : Text} (ho : HasBareName orders o)
    (hr : HasBareName relations r) (hi : HasBareName indexed i) :
    let ps := placements (orders, o) (relations, r) (indexed, i)
    ∃ ts, Tables.ofArguments ⟨[.text orders, .text relations, .text indexed], []⟩ = .ok ts ∧
      Lacks '{' (text ts) ∧ Lacks '}' (text ts) ∧
      mentions (text ts) = [.creates orders, .creates relations, .refers orders, .creates indexed,
        .refers orders] ++ ps.map (fun p => .indexes p.index p.table) ∧
      (∀ p ∈ ps, ∃ cs, Identifier cs ∧ '.' ∉ cs ∧ p.index = .ofChars cs) ∧
      (∀ p ∈ ps, ∀ p' ∈ ps, p.index = p'.index ↔ p.kind = p'.kind ∧ p.bare = p'.bare) ∧
      ([o, r, i].Nodup → (ps.map Placement.index).Nodup) := by
  intro ps
  obtain ⟨n, rfl, rfl⟩ := ho.exists_tableName
  obtain ⟨m, rfl, rfl⟩ := hr.exists_tableName
  obtain ⟨k, rfl, rfl⟩ := hi.exists_tableName
  have hts : Storage.PlainlyNamed ⟨n, m, k⟩ := ⟨ho.isPlain, hr.isPlain, hi.isPlain⟩
  obtain ⟨hopen, hclose⟩ := lacks_braces hts
  refine ⟨⟨n, m, k⟩, Tables.ofValues_eq_ok_iff.mpr ⟨rfl, rfl, rfl⟩, hopen, hclose, (says_text hts).mentions_eq,
    ?_, ?_, ?_⟩
  · intro p hp
    obtain ⟨cs, hcs, hindex⟩ := exists_identifier_index hts hp
    exact ⟨cs, hcs, hcs.dot_not_mem, hindex⟩
  · intro p hp p' hp'
    exact Placement.index_eq_iff hp hp'
  · intro hbare
    have hne : m.bare ≠ k.bare := by simpa using hbare.of_cons
    exact Placement.nodup_index hne

theorem index_names_distinct_of_like_kinds :
    HasBareName "shop.a_kv" "a_kv" ∧ HasBareName "a" "a" ∧ HasBareName "x.a_order" "a_order" ∧
      [("a_kv" : Text), "a", "a_order"].Nodup ∧
      ∃ ts, Tables.ofArguments ⟨[.text "shop.a_kv", .text "a", .text "x.a_order"], []⟩ = .ok ts ∧
        .indexes "idx_a_kv" "a" ∈ mentions (text ts) ∧ .indexes "idx_a_order_kv" "x.a_order" ∈ mentions (text ts) ∧
        ((placements ("shop.a_kv", "a_kv") ("a", "a") ("x.a_order", "a_order")).map Placement.index).Nodup := by
  have hshop : Identifier ['s', 'h', 'o', 'p'] := by decide
  have hkv : Identifier ['a', '_', 'k', 'v'] := by decide
  have ha : Identifier ['a'] := by decide
  have hx : Identifier ['x'] := by decide
  have horder : Identifier ['a', '_', 'o', 'r', 'd', 'e', 'r'] := by decide
  have horders : HasBareName "shop.a_kv" "a_kv" := .dotted hshop hkv
  have hrelations : HasBareName "a" "a" := .bare ha
  have hindexed : HasBareName "x.a_order" "a_order" := .dotted hx horder
  have hbare : [("a_kv" : Text), "a", "a_order"].Nodup := by decide
  obtain ⟨ts, hts, -, -, hmentions, -, -, hdistinct⟩ := index_names_distinct horders hrelations hindexed
  refine ⟨horders, hrelations, hindexed, hbare, ts, hts, ?_, ?_, hdistinct hbare⟩
  · rw [hmentions]
    decide
  · rw [hmentions]
    decide

end Schema

end OrderStore.Sql
