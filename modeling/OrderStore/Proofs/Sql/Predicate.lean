import OrderStore.Proofs.Sql.Template
/-!
What a query asks of an order: predicates, with their values in their places. And the conditions of a
search as templates.
-/

namespace OrderStore.Sql

open Text (Code)

inductive Predicate where
  | compare (column : Text) (comparison : Comparison) (value : Value)
  | among (column : Text) (values : List Value)
  | keyword (value : Value)
  | linked (side : Side) (key : Text) (filter : Filter)

namespace Predicate

def values : Predicate → List Value
  | compare _ _ v => [v]
  | among _ vs => vs
  | keyword v => [v]
  | linked _ key filter => .text key :: filter.choices

section

open Pieces (literal)

def comparePieces (column : Text) (comparison : Comparison) (v : Value) : Pieces :=
  literal (column ++ " " ++ comparison.symbol ++ " ") ++ [.value v]

def amongPieces (column : Text) (vs : List Value) : Pieces :=
  literal (column ++ " IN (") ++ (literal ", ").intercalate (vs.map fun v => [.value v]) ++ literal ")"

def filterPieces : Filter → Pieces
  | .scalar v => comparePieces "kv.rel_value" .equal v
  | .oneOf [] => literal "FALSE"
  | .oneOf vs => amongPieces "kv.rel_value" vs

def pieces (tables : Tables) : Predicate → Pieces
  | compare column comparison v => comparePieces column comparison v
  | among column vs => amongPieces column vs
  | keyword v =>
    literal "(" ++ comparePieces "order_no" .like v ++ literal " OR " ++
      comparePieces "attributes_json" .like v ++ literal ")"
  | linked side key filter =>
    literal ("EXISTS (SELECT 1 FROM " ++ (tables.side side).text ++ " kv WHERE kv.order_id = " ++
        tables.orders.text ++ ".id AND kv.rel_key = ") ++
      [.value (.text key)] ++ literal " AND " ++ filterPieces filter ++ literal ")"

def wherePieces (tables : Tables) : List Predicate → Pieces
  | [] => []
  | ps => literal "WHERE " ++ (literal " AND ").intercalate (ps.map (pieces tables))

end

def ofChoices (column : Text) (f : Value → Value) (v : Value) : List Predicate :=
  match v.elements? with
  | some (x :: xs) => [among column ((x :: xs).map f)]
  | _ => []

def ofBuyers (q : Query) : List Predicate :=
  if (q .buyerId).isNull then ofChoices "buyer_id" Clause.keyValue (q .buyerIds)
  else [compare "buyer_id" .equal (Clause.keyValue (q .buyerId))]

def ofOrderNo (q : Query) : List Predicate :=
  if !(q .orderNo).isEmpty then [compare "order_no" .equal (q .orderNo)]
  else if !(q .orderNoLike).isEmpty then [compare "order_no" .like (q .orderNoLike)]
  else []

def ofKeyword (v : Value) : List Predicate := if v.isEmpty then [] else [keyword v]

def ofTime (column : Text) (comparison : Comparison) : Value → List Predicate
  | .moment m => [compare column comparison (.text m.stamp.text)]
  | .date d => [compare column comparison (.text (Timestamp.text ⟨d, .midnight⟩))]
  | _ => []

def ofAmount (comparison : Comparison) (v : Value) : List Predicate :=
  if v.isNull then [] else [compare "amount" comparison v]

def ofFilters (side : Side) (fs : Filters) : List Predicate := fs.map fun f => linked side f.1 f.2

def ofColumns (q : Query) : List Predicate :=
  ofChoices "type" id (q .types) ++ ofChoices "status" id (q .statuses) ++ ofBuyers q ++ ofOrderNo q ++
    ofKeyword (q .keyword) ++
    ofTime "created_at" .atLeast (q .createdFrom) ++ ofTime "created_at" .atMost (q .createdTo) ++
    ofTime "updated_at" .atLeast (q .updatedFrom) ++ ofTime "updated_at" .atMost (q .updatedTo) ++
    ofAmount .atLeast (q .amountMin) ++ ofAmount .atMost (q .amountMax)

def ofQuery (q : Query) : List Predicate :=
  ofColumns q ++ ofFilters .relations (q.filters .relations) ++ ofFilters .indexed (q.filters .indexedFields)

end Predicate

def Lacks (c : Char) (t : Text) : Prop := ∀ x ∈ t.codes, x ≠ .char c

instance (c : Char) (t : Text) : Decidable (Lacks c t) :=
  inferInstanceAs (Decidable (∀ x ∈ t.codes, x ≠ .char c))

theorem Lacks.append {c : Char} {t u : Text} (ht : Lacks c t) (hu : Lacks c u) : Lacks c (t ++ u) := by
  intro x hx
  rcases List.mem_append.mp hx with hx | hx
  · exact ht x hx
  · exact hu x hx

structure Bare (t : Text) : Prop where
  ne_nil : t.codes ≠ []
  percent : Lacks '%' t
  opening : Lacks '(' t
  closing : Lacks ')' t

instance (t : Text) : Decidable (Bare t) :=
  decidable_of_iff (t.codes ≠ [] ∧ Lacks '%' t ∧ Lacks '(' t ∧ Lacks ')' t)
    ⟨fun h => ⟨h.1, h.2.1, h.2.2.1, h.2.2.2⟩, fun h => ⟨h.1, h.2, h.3, h.4⟩⟩

namespace Bare

variable {t u : Text}

theorem append (ht : Bare t) (hu : Bare u) : Bare (t ++ u) where
  ne_nil := fun h => ht.ne_nil (List.append_eq_nil_iff.mp h).1
  percent := ht.percent.append hu.percent
  opening := ht.opening.append hu.opening
  closing := ht.closing.append hu.closing

theorem nests (h : Bare t) : Nests t :=
  .literal h.ne_nil fun c hc => ⟨h.opening c hc, h.closing c hc⟩

end Bare

structure IsName (t : Text) : Prop where
  ne_nil : t.codes ≠ []
  word : ∀ c ∈ t.codes, isWord c = true

instance (t : Text) : Decidable (IsName t) :=
  decidable_of_iff (t.codes ≠ [] ∧ ∀ c ∈ t.codes, isWord c = true)
    ⟨fun h => ⟨h.1, h.2⟩, fun h => ⟨h.1, h.2⟩⟩

namespace IsName

variable {t : Text}

theorem lacks {c : Char} (h : IsName t) (hc : isWord (.char c) = false) : Lacks c t := by
  intro x hx hxc
  have hword := h.word x hx
  rw [hxc, hc] at hword
  cases hword

theorem bare (h : IsName t) : Bare t :=
  ⟨h.ne_nil, h.lacks (by decide), h.lacks (by decide), h.lacks (by decide)⟩

theorem scans (h : IsName t) : Scans (placeholder t) [.name t] := .placeholder h.ne_nil h.word

theorem nests (h : IsName t) : Nests (placeholder t) := by
  have hsplit : placeholder t = "%" ++ ("(" ++ t ++ ")") ++ "s" := by
    apply congrArg Text.mk
    simp only [Text.codes_append, List.append_assoc]
    rfl
  have hpercent : Nests "%" := .literal (by decide) (by decide)
  have hletter : Nests "s" := .literal (by decide) (by decide)
  rw [hsplit]
  exact (hpercent.append h.bare.nests.parenthesised).append hletter

end IsName

namespace Condition

open Template (literal) in
def template : Condition → Template
  | compare column comparison parameter =>
    literal (column ++ " " ++ comparison.symbol ++ " ") ++ [.name parameter]
  | among column parameters =>
    literal (column ++ " IN (") ++ (literal ", ").intercalate (parameters.map fun n => [.name n]) ++
      literal ")"
  | either a b => literal "(" ++ a.template ++ literal " OR " ++ b.template ++ literal ")"
  | linked table orders keyParameter value =>
    literal ("EXISTS (SELECT 1 FROM " ++ table ++ " kv WHERE kv.order_id = " ++ orders ++
        ".id AND kv.rel_key = ") ++
      [.name keyParameter] ++ literal " AND " ++ value.template ++ literal ")"
  | never => literal "FALSE"

def Plain : Condition → Prop
  | compare column _ parameter => Bare column ∧ IsName parameter
  | among column parameters => Bare column ∧ parameters ≠ [] ∧ ∀ n ∈ parameters, IsName n
  | either a b => a.Plain ∧ b.Plain
  | linked table orders keyParameter value => Bare table ∧ Bare orders ∧ IsName keyParameter ∧ value.Plain
  | never => True

theorem bare_symbol (c : Comparison) : Bare c.symbol := by
  cases c <;> decide

theorem Plain.scans {c : Condition} (h : c.Plain) : Scans c.text c.template := by
  induction c with
  | compare column comparison parameter =>
    obtain ⟨hcolumn, hname⟩ := h
    have hblank : Lacks '%' " " := by decide
    have htext := (hcolumn.percent.append hblank).append (bare_symbol comparison).percent
    exact (Scans.literal (htext.append hblank)).append hname.scans
  | among column parameters =>
    obtain ⟨hcolumn, -, hnames⟩ := h
    have hseparator : Scans ", " (.literal ", ") := .literal (by decide)
    have hopen : Lacks '%' " IN (" := by decide
    have hclose : Scans ")" (.literal ")") := .literal (by decide)
    have hlist := Scans.intercalate hseparator fun n hn => (hnames n hn).scans
    exact ((Scans.literal (hcolumn.percent.append hopen)).append hlist).append hclose
  | either a b iha ihb =>
    have hopen : Scans "(" (.literal "(") := .literal (by decide)
    have hor : Scans " OR " (.literal " OR ") := .literal (by decide)
    have hclose : Scans ")" (.literal ")") := .literal (by decide)
    exact (((hopen.append (iha h.1)).append hor).append (ihb h.2)).append hclose
  | linked table orders keyParameter value ih =>
    obtain ⟨htable, horders, hkey, hvalue⟩ := h
    have hselect : Lacks '%' "EXISTS (SELECT 1 FROM " := by decide
    have hwhere : Lacks '%' " kv WHERE kv.order_id = " := by decide
    have hid : Lacks '%' ".id AND kv.rel_key = " := by decide
    have hhead := (((hselect.append htable.percent).append hwhere).append horders.percent).append hid
    have hand : Scans " AND " (.literal " AND ") := .literal (by decide)
    have hclose : Scans ")" (.literal ")") := .literal (by decide)
    exact ((((Scans.literal hhead).append hkey.scans).append hand).append (ih hvalue)).append hclose
  | never => exact .literal (by decide)

theorem Plain.nests {c : Condition} (h : c.Plain) : Nests c.text := by
  induction c with
  | compare column comparison parameter =>
    obtain ⟨hcolumn, hname⟩ := h
    have hblank : Bare " " := by decide
    exact (((hcolumn.append hblank).append (bare_symbol comparison)).append hblank).nests.append hname.nests
  | among column parameters =>
    obtain ⟨hcolumn, hne, hnames⟩ := h
    have hin : Bare " IN " := by decide
    have hseparator : Nests ", " := .literal (by decide) (by decide)
    have hlist : Nests (.intercalate ", " (parameters.map placeholder)) := by
      apply hseparator.intercalate
      · exact fun hnil => hne (List.map_eq_nil_iff.mp hnil)
      · intro t ht
        obtain ⟨n, hn, rfl⟩ := List.mem_map.mp ht
        exact (hnames n hn).nests
    have hsplit : (among column parameters).text =
        column ++ " IN " ++ ("(" ++ .intercalate ", " (parameters.map placeholder) ++ ")") := by
      apply congrArg Text.mk
      simp only [Text.codes_append, List.append_assoc]
      rfl
    rw [hsplit]
    exact (hcolumn.append hin).nests.append hlist.parenthesised
  | either a b iha ihb =>
    have hor : Nests " OR " := .literal (by decide) (by decide)
    have hsplit : (either a b).text = "(" ++ (a.text ++ " OR " ++ b.text) ++ ")" := by
      apply congrArg Text.mk
      simp only [Text.codes_append, List.append_assoc]
    rw [hsplit]
    exact (((iha h.1).append hor).append (ihb h.2)).parenthesised
  | linked table orders keyParameter value ih =>
    obtain ⟨htable, horders, hkey, hvalue⟩ := h
    have hexists : Nests "EXISTS " := .literal (by decide) (by decide)
    have hselect : Bare "SELECT 1 FROM " := by decide
    have hwhere : Bare " kv WHERE kv.order_id = " := by decide
    have hid : Bare ".id AND kv.rel_key = " := by decide
    have hand : Nests " AND " := .literal (by decide) (by decide)
    have hhead := (((hselect.append htable).append hwhere).append horders).append hid
    have hbody := ((hhead.nests.append hkey.nests).append hand).append (ih hvalue)
    have hsplit : (linked table orders keyParameter value).text =
        "EXISTS " ++ ("(" ++ ("SELECT 1 FROM " ++ table ++ " kv WHERE kv.order_id = " ++ orders ++
          ".id AND kv.rel_key = " ++ placeholder keyParameter ++ " AND " ++ value.text) ++ ")") := by
      apply congrArg Text.mk
      simp only [Text.codes_append, List.append_assoc]
      rfl
    rw [hsplit]
    exact hexists.append hbody.parenthesised
  | never => exact .literal (by decide) (by decide)

end Condition

end OrderStore.Sql
