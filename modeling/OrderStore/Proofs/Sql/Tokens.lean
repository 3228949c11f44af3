import OrderStore.Proofs.Sql.Grammar
import OrderStore.Proofs.Sql.TableName

namespace OrderStore.Sql

open Text (Code)

def Apart (q : Pieces) : Prop := ∀ run, lexFrom run q = flush run ++ lex q

theorem apart_code {c : Code} {q : Pieces} (hc : isWord c = false) : Apart (.code c :: q) := by
  intro run
  have hword : ¬ isWord c = true := by simp [hc]
  rw [lex, lexFrom, if_neg hword, lexFrom, if_neg hword]
  split <;> rfl

def Lexes (p : Pieces) (ts : List Token) : Prop := ∀ q, lex (p ++ q) = ts ++ lex q

def LexesApart (p : Pieces) (ts : List Token) : Prop := ∀ q, Apart q → lex (p ++ q) = ts ++ lex q

section

variable {p r : Pieces} {ts us : List Token} {t u : Text}

theorem literal_append (t u : Text) : Pieces.literal (t ++ u) = .literal t ++ .literal u := List.map_append

theorem Lexes.apart (h : Lexes p ts) : LexesApart p ts := fun q _ => h q

theorem Lexes.append (hp : Lexes p ts) (hr : Lexes r us) : Lexes (p ++ r) (ts ++ us) := by
  intro q
  rw [List.append_assoc, hp, hr, List.append_assoc]

theorem Lexes.appendApart (hp : Lexes p ts) (hr : LexesApart r us) : LexesApart (p ++ r) (ts ++ us) := by
  intro q hq
  rw [List.append_assoc, hp, hr q hq, List.append_assoc]

theorem LexesApart.append (hp : LexesApart p ts) (hr : Lexes r us) (hopen : ∀ q, Apart (r ++ q)) :
    Lexes (p ++ r) (ts ++ us) := by
  intro q
  rw [List.append_assoc, hp _ (hopen q), hr, List.append_assoc]

theorem lexes_value (v : Value) : Lexes [.value v] [.value v] := fun _ => rfl

theorem lexFrom_word {w : List Code} (hw : ∀ c ∈ w, isWord c = true) (run : List Code) (q : Pieces) :
    lexFrom run (w.map .code ++ q) = lexFrom (run ++ w) q := by
  induction w generalizing run with
  | nil => rw [List.append_nil, List.map_nil, List.nil_append]
  | cons c w ih =>
    have hc := hw c List.mem_cons_self
    have hrest := fun x hx => hw x (List.mem_cons_of_mem c hx)
    rw [List.map_cons, List.cons_append, lexFrom, if_pos hc, ih hrest, List.append_assoc]
    rfl

theorem lexes_word (h : IsName t) : LexesApart (.literal t) [.word t] := by
  intro q hq
  have hne : t.codes.isEmpty = false := List.isEmpty_eq_false_iff.mpr h.ne_nil
  rw [lex, Pieces.literal, lexFrom_word h.word, List.nil_append, hq, flush, hne]
  rfl

def nameTokens (ws : List Text) : List Token := [.mark (.char '.')].intercalate (ws.map fun w => [.word w])

theorem lexes_name {ws : List Text} (hne : ws ≠ []) (hws : ∀ w ∈ ws, IsName w) :
    LexesApart (.literal (.intercalate "." ws)) (nameTokens ws) := by
  induction ws with
  | nil => exact absurd rfl hne
  | cons w ws ih =>
    have hw := lexes_word (hws w List.mem_cons_self)
    cases ws with
    | nil =>
      rw [Text.intercalate_singleton]
      exact hw
    | cons v ws =>
      have hdot : Lexes (.literal ".") [.mark (.char '.')] := fun _ => rfl
      have hrest := ih (by simp) fun x hx => hws x (List.mem_cons_of_mem _ hx)
      rw [Text.intercalate_cons_cons, literal_append, literal_append]
      exact (hw.append hdot fun q => apart_code rfl).appendApart hrest

end

def symbolTokens : Comparison → List Token
  | .equal => [.mark (.char '=')]
  | .atLeast => [.mark (.char '>'), .mark (.char '=')]
  | .atMost => [.mark (.char '<'), .mark (.char '=')]
  | .like => [.word "ILIKE"]

def compareTokens (ws : List Text) (comparison : Comparison) (v : Value) : List Token :=
  nameTokens ws ++ symbolTokens comparison ++ [.value v]

theorem lexes_compare {ws : List Text} (hne : ws ≠ []) (hws : ∀ w ∈ ws, IsName w) (comparison : Comparison)
    (v : Value) :
    Lexes (Predicate.comparePieces (.intercalate "." ws) comparison v) (compareTokens ws comparison v) := by
  have hsymbol : Lexes (.literal (" " ++ comparison.symbol ++ " ")) (symbolTokens comparison) := by
    cases comparison <;> exact fun _ => rfl
  have hopen (q : Pieces) : Apart (.literal (" " ++ comparison.symbol ++ " ") ++ q) := apart_code rfl
  rw [Predicate.comparePieces, Text.append_assoc, Text.append_assoc, literal_append, ← Text.append_assoc]
  exact ((lexes_name hne hws).append hsymbol hopen).append (lexes_value v)

def valuesTokens (vs : List Value) : List Token :=
  [.mark (.char ',')].intercalate (vs.map fun v => [.value v])

theorem lexes_values (vs : List Value) :
    Lexes ((Pieces.literal ", ").intercalate (vs.map fun v => [.value v])) (valuesTokens vs) := by
  induction vs with
  | nil => exact fun _ => rfl
  | cons v vs ih =>
    cases vs with
    | nil => exact lexes_value v
    | cons w vs =>
      have hcomma : Lexes (.literal ", ") [.mark (.char ',')] := fun _ => rfl
      rw [List.map_cons] at ih ⊢
      rw [List.map_cons, List.intercalate_cons_cons]
      exact ((lexes_value v).append hcomma).append ih

def amongTokens (ws : List Text) (vs : List Value) : List Token :=
  nameTokens ws ++ [.word "IN", .mark (.char '(')] ++ valuesTokens vs ++ [.mark (.char ')')]

theorem lexes_among {ws : List Text} (hne : ws ≠ []) (hws : ∀ w ∈ ws, IsName w) (vs : List Value) :
    Lexes (Predicate.amongPieces (.intercalate "." ws) vs) (amongTokens ws vs) := by
  have hin : Lexes (.literal " IN (") [.word "IN", .mark (.char '(')] := fun _ => rfl
  have hclose : Lexes (.literal ")") [.mark (.char ')')] := fun _ => rfl
  rw [Predicate.amongPieces, literal_append]
  exact (((lexes_name hne hws).append hin fun q => apart_code rfl).append (lexes_values vs)).append hclose

theorem TableName.lexes_text (n : TableName) : LexesApart (.literal n.text) (nameTokens n.words) := by
  obtain ⟨-, e, he, htext⟩ := n.text_eq_key
  obtain ⟨hne, hws, hkey⟩ := n.words_spec
  have hname := lexes_name hne hws
  rw [← hkey] at hname
  rw [htext, literal_append]
  rcases he with rfl | rfl
  · have hend : Pieces.literal "" = [] := rfl
    rw [hend, List.append_nil]
    exact hname
  · have hbreak : Lexes (.literal "\n") [] := fun _ => rfl
    have h := (hname.append hbreak fun q => apart_code rfl).apart
    rw [List.append_nil] at h
    exact h

def valueColumn : List Text := ["kv", "rel_value"]

theorem isName_valueColumn : ∀ w ∈ valueColumn, IsName w := by decide

def filterTokens : Filter → List Token
  | .scalar v => compareTokens valueColumn .equal v
  | .oneOf [] => [.word "FALSE"]
  | .oneOf vs => amongTokens valueColumn vs

theorem lexes_filter (filter : Filter) :
    LexesApart (Predicate.filterPieces filter) (filterTokens filter) := by
  have hne : valueColumn ≠ [] := by simp [valueColumn]
  cases filter with
  | scalar v => exact (lexes_compare hne isName_valueColumn .equal v).apart
  | oneOf vs =>
    cases vs with
    | nil => exact lexes_word (by decide)
    | cons v vs => exact (lexes_among hne isName_valueColumn (v :: vs)).apart

def keywordTokens (v : Value) : List Token :=
  [.mark (.char '(')] ++ compareTokens ["order_no"] .like v ++ [.word "OR"] ++
    compareTokens ["attributes_json"] .like v ++ [.mark (.char ')')]

def linkedTokens (table orders : List Text) (key : Text) (filter : Filter) : List Token :=
  [.word "EXISTS", .mark (.char '('), .word "SELECT", .word "1", .word "FROM"] ++ nameTokens table ++
    [.word "kv", .word "WHERE"] ++
    (nameTokens ["kv", "order_id"] ++ [.mark (.char '=')] ++ nameTokens (orders ++ [("id" : Text)])) ++
    [.word "AND"] ++
    compareTokens ["kv", "rel_key"] .equal (.text key) ++ [.word "AND"] ++ filterTokens filter ++
    [.mark (.char ')')]

theorem lexes_keyword (tables : Tables) (v : Value) :
    Lexes ((Predicate.keyword v).pieces tables) (keywordTokens v) := by
  have hopen : Lexes (.literal "(") [.mark (.char '(')] := fun _ => rfl
  have hor : Lexes (.literal " OR ") [.word "OR"] := fun _ => rfl
  have hclose : Lexes (.literal ")") [.mark (.char ')')] := fun _ => rfl
  have hcompare (column : Text) (h : IsName column) :
      Lexes (Predicate.comparePieces column .like v) (compareTokens [column] .like v) := by
    have hcolumn : ∀ w ∈ [column], IsName w := by
      intro w hw
      rw [List.mem_singleton.mp hw]
      exact h
    have hlexes := lexes_compare (by simp) hcolumn .like v
    rw [Text.intercalate_singleton] at hlexes
    exact hlexes
  have horder := hcompare "order_no" (by decide)
  have hattributes := hcompare "attributes_json" (by decide)
  exact (((hopen.append horder).append hor).append hattributes).append hclose

theorem nameTokens_concat {ws : List Text} (hne : ws ≠ []) (w : Text) :
    nameTokens (ws ++ [w]) = nameTokens ws ++ [.mark (.char '.'), .word w] := by
  have hmap : ws.map (fun w => [Token.word w]) ≠ [] := by simpa using hne
  rw [nameTokens, List.map_append, List.map_singleton, intercalate_concat hmap, List.append_assoc]
  rfl

theorem lexes_linked (tables : Tables) (side : Side) (key : Text) (filter : Filter) :
    Lexes ((Predicate.linked side key filter).pieces tables)
      (linkedTokens (tables.side side).words tables.orders.words key filter) := by
  have hselect : Lexes (.literal "EXISTS (SELECT 1 FROM ")
      [.word "EXISTS", .mark (.char '('), .word "SELECT", .word "1", .word "FROM"] := fun _ => rfl
  have hwhere : Lexes (.literal " kv WHERE kv.order_id = ")
      ([.word "kv", .word "WHERE"] ++ nameTokens ["kv", "order_id"] ++ [.mark (.char '=')]) := fun _ => rfl
  have hid : Lexes (.literal ".id AND kv.rel_key = ") ([.mark (.char '.'), .word "id"] ++ [.word "AND"] ++
      nameTokens ["kv", "rel_key"] ++ [.mark (.char '=')]) := fun _ => rfl
  have hand : Lexes (.literal " AND ") [.word "AND"] := fun _ => rfl
  have hclose : Lexes (.literal ")") [.mark (.char ')')] := fun _ => rfl
  have htable := (hselect.appendApart (tables.side side).lexes_text).append hwhere fun q => apart_code rfl
  have horders := (htable.appendApart tables.orders.lexes_text).append hid fun q => apart_code rfl
  have hkey := (horders.append (lexes_value (.text key))).append hand
  have h := (hkey.appendApart (lexes_filter filter)).append hclose fun q => apart_code rfl
  rw [linkedTokens, nameTokens_concat tables.orders.words_spec.1]
  simp only [Predicate.pieces, literal_append, compareTokens, symbolTokens, List.append_assoc] at h ⊢
  exact h

end OrderStore.Sql
