import OrderStore.Proofs.Sql.Reading

namespace OrderStore.Sql

def IsColumn (t : Text) : Prop := IsName t ∧ t ≠ "FALSE" ∧ t ≠ "EXISTS"

instance (t : Text) : Decidable (IsColumn t) := inferInstanceAs (Decidable (_ ∧ _ ∧ _))

namespace Predicate

def Simple : Predicate → Prop
  | compare column _ _ => IsColumn column
  | among column vs => IsColumn column ∧ vs ≠ []
  | keyword _ => True
  | linked .. => True

def tokens (tables : Tables) : Predicate → List Token
  | compare column comparison v => compareTokens [column] comparison v
  | among column vs => amongTokens [column] vs
  | keyword v => keywordTokens v
  | linked side key filter => linkedTokens (tables.side side).words tables.orders.words key filter

def expr (tables : Tables) : Predicate → Expr
  | compare column comparison v => compareExpr [column] comparison v
  | among column vs => .among (.ofWords [column]) vs
  | keyword v => keywordExpr v
  | linked side key filter => linkedExpr (tables.side side).words tables.orders.words key filter

variable {tables : Tables} {p : Predicate} {ps : List Predicate}

theorem isName_of_mem_singleton {column : Text} (h : IsName column) : ∀ w ∈ [column], IsName w := by
  intro w hw
  rw [List.mem_singleton.mp hw]
  exact h

theorem Simple.lexes (tables : Tables) (h : p.Simple) : Lexes (p.pieces tables) (p.tokens tables) := by
  cases p with
  | compare column comparison v =>
    have hlexes := lexes_compare (by simp) (isName_of_mem_singleton h.1) comparison v
    rw [Text.intercalate_singleton] at hlexes
    exact hlexes
  | among column vs =>
    have hlexes := lexes_among (by simp) (isName_of_mem_singleton h.1.1) vs
    rw [Text.intercalate_singleton] at hlexes
    exact hlexes
  | keyword v => exact lexes_keyword tables v
  | linked side key filter => exact lexes_linked tables side key filter

theorem Simple.reads (tables : Tables) (h : p.Simple) (depth : Nat) :
    Reads Closed (readPrimary (readExpr (depth + 1))) (p.tokens tables) (p.expr tables) := by
  cases p with
  | compare column comparison v => exact reads_compare h.2.1 h.2.2 comparison v _
  | among column vs => exact reads_among h.1.2.1 h.1.2.2 h.2 _
  | keyword v => exact reads_keyword v depth
  | linked side key filter => exact reads_linked (tables.side side).words_spec.1 _ key filter depth

def whereTokens (tables : Tables) : List Predicate → List Token
  | [] => []
  | p :: ps => .word "WHERE" :: [.word "AND"].intercalate ((p :: ps).map (tokens tables))

def whereExpr (tables : Tables) : List Predicate → Expr
  | [] => .always
  | p :: ps => joinAll .and (p.expr tables) (ps.map (expr tables))

theorem lexes_chain (tables : Tables) (h : ∀ x ∈ ps, x.Simple) :
    Lexes ((Pieces.literal " AND ").intercalate (ps.map (pieces tables)))
      ([.word "AND"].intercalate (ps.map (tokens tables))) := by
  have hand : Lexes (.literal " AND ") [.word "AND"] := fun _ => rfl
  induction ps with
  | nil => exact fun _ => rfl
  | cons p ps ih =>
    have hp := (h p List.mem_cons_self).lexes tables
    cases ps with
    | nil =>
      rw [List.map_singleton, List.map_singleton, List.intercalate_singleton, List.intercalate_singleton]
      exact hp
    | cons r ps =>
      have hrest := ih fun x hx => h x (List.mem_cons_of_mem _ hx)
      simp only [List.map_cons] at hrest ⊢
      rw [List.intercalate_cons_cons, List.intercalate_cons_cons]
      exact (hp.append hand).append hrest

theorem lex_wherePieces (h : ∀ x ∈ ps, x.Simple) : lex (wherePieces tables ps) = whereTokens tables ps := by
  have hwhere : Lexes (.literal "WHERE ") [.word "WHERE"] := fun _ => rfl
  cases ps with
  | nil => rfl
  | cons p ps =>
    have hlexes := (hwhere.append (lexes_chain tables h)) []
    rw [List.append_nil] at hlexes
    exact hlexes.trans (List.append_nil _)

theorem readWhere_whereTokens (h : ∀ x ∈ ps, x.Simple) :
    readWhere (whereTokens tables ps) = some (whereExpr tables ps) := by
  cases ps with
  | nil => rfl
  | cons p ps =>
    let ts := [.word "AND"].intercalate ((p :: ps).map (tokens tables))
    have hitem : ∀ y ∈ p :: ps, Reads Closed (readPrimary (readExpr (ts.length + 1))) (y.tokens tables)
      (y.expr tables) := fun y hy => (h y hy).reads tables ts.length
    have hread := readExpr_single (readAll_items hitem) [] ⟨⟨rfl, rfl⟩, rfl⟩
    rw [List.append_nil] at hread
    change (readExpr (ts.length + 2) ts).bind _ = _
    rw [hread]
    rfl

end Predicate

theorem holds_joinAll {db : Database} {env : Scopes} {a : Expr} {es : List Expr} :
    (joinAll .and a es).Holds db env ↔ ∀ e ∈ a :: es, e.Holds db env := by
  induction es generalizing a with
  | nil =>
    rw [joinAll, List.forall_mem_singleton]
  | cons b es ih =>
    rw [joinAll, Expr.Holds, ih]
    exact List.forall_mem_cons.symm

theorem resolves_joinAll {env : Scopes} {a : Expr} {es : List Expr} :
    (joinAll .and a es).Resolves env ↔ ∀ e ∈ a :: es, e.Resolves env := by
  induction es generalizing a with
  | nil => rw [joinAll, List.forall_mem_singleton]
  | cons b es ih =>
    rw [joinAll, Expr.Resolves, ih]
    exact List.forall_mem_cons.symm

def orderScope (tables : Tables) (row : Text → Value) : Scope :=
  ⟨tables.orders.key, fun column => some (row column)⟩

/-- Inside the subqueries `kv` means the side table, so that a table of orders of that name is out of sight. -/
def Tables.OrdersVisible (tables : Tables) : Prop := tables.orders.key.lowerAscii ≠ "kv"

instance (tables : Tables) : Decidable tables.OrdersVisible := inferInstanceAs (Decidable (¬ _))

namespace Predicate

def Resolves (tables : Tables) : Predicate → Prop
  | compare .. | among .. | keyword _ => True
  | linked .. => tables.OrdersVisible

def Holds (db : Database) (tables : Tables) (row : Text → Value) : Predicate → Prop
  | compare column comparison v => db.compares comparison (row column) v
  | among column vs => ∃ v ∈ vs, db.compares .equal (row column) v
  | keyword v => db.compares .like (row "order_no") v ∨ db.compares .like (row "attributes_json") v
  | linked side key filter => tables.OrdersVisible ∧ ∃ t ∈ db.triples (tables.side side).key,
      db.compares .equal t.orderId (row "id") ∧ db.compares .equal t.key (.text key) ∧
        ∃ v ∈ filter.choices, db.compares .equal t.value v

end Predicate

section

variable {db : Database} {tables : Tables} {row : Text → Value} {env : Scopes}

theorem value?_column (column : Text) :
    Scopes.value? [orderScope tables row] (.ofWords [column]) = some (row column) := rfl

theorem value?_id (t : Triple) :
    Scopes.value? [⟨"kv", t.column?⟩, orderScope tables row]
      (.ofWords (tables.orders.words ++ [("id" : Text)])) =
      if tables.OrdersVisible then some (row "id") else none := by
  obtain ⟨-, -, hkey⟩ := tables.orders.words_spec
  have href : Ref.ofWords (tables.orders.words ++ [("id" : Text)]) = ⟨tables.orders.key, "id"⟩ := by
    rw [Ref.ofWords, List.dropLast_concat, List.getLast?_concat, hkey]
    rfl
  have hlower : Text.lowerAscii "kv" = "kv" := by decide
  have hne : ¬ tables.orders.key.isEmpty = true := fun h =>
    tables.orders.text_eq_key.1.ne_nil (List.isEmpty_iff.mp h)
  rw [href, Scopes.value?, if_neg hne]
  -- The first row that is called as the orders are is the inner one exactly if they are called `kv`.
  by_cases hvisible : tables.OrdersVisible
  · have hinner : ¬ Text.lowerAscii "kv" = tables.orders.key.lowerAscii := fun h => hvisible (h ▸ hlower)
    simp [hinner, orderScope, hvisible]
  · have hinner : Text.lowerAscii "kv" = tables.orders.key.lowerAscii := hlower.trans (not_not.mp hvisible).symm
    simp [hinner, hvisible, Triple.column?]

theorem value?_id_eq_some_iff {t : Triple} {x : Value} :
    Scopes.value? [⟨"kv", t.column?⟩, orderScope tables row]
      (.ofWords (tables.orders.words ++ [("id" : Text)])) = some x ↔ tables.OrdersVisible ∧ row "id" = x := by
  rw [value?_id]
  split <;> simp [*]

theorem value?_kv (env : Scopes) (t : Triple) :
    Scopes.value? (⟨"kv", t.column?⟩ :: env) (.ofWords ["kv", "order_id"]) = some t.orderId ∧
      Scopes.value? (⟨"kv", t.column?⟩ :: env) (.ofWords ["kv", "rel_key"]) = some t.key ∧
      Scopes.value? (⟨"kv", t.column?⟩ :: env) (.ofWords valueColumn) = some t.value := ⟨rfl, rfl, rfl⟩

theorem holds_filterExpr (t : Triple) (filter : Filter) :
    (filterExpr filter).Holds db (⟨"kv", t.column?⟩ :: env) ↔
      ∃ v ∈ filter.choices, db.compares .equal t.value v := by
  obtain ⟨-, -, hvalue⟩ := value?_kv env t
  cases filter with
  | scalar v => simp [filterExpr, compareExpr, Expr.Holds, hvalue, Operand.value?, Filter.choices]
  | oneOf vs =>
    cases vs with
    | nil => simp [filterExpr, Expr.Holds, Filter.choices]
    | cons v vs => simp [filterExpr, Expr.Holds, hvalue, Filter.choices]

theorem resolves_filterExpr (t : Triple) (filter : Filter) :
    (filterExpr filter).Resolves (⟨"kv", t.column?⟩ :: env) := by
  obtain ⟨-, -, hvalue⟩ := value?_kv env t
  cases filter with
  | scalar v => simp [filterExpr, compareExpr, Expr.Resolves, hvalue, Operand.value?]
  | oneOf vs => cases vs <;> simp [filterExpr, Expr.Resolves, hvalue]

theorem holds_compareExpr (column : Text) (comparison : Comparison) (v : Value) :
    (compareExpr [column] comparison v).Holds db [orderScope tables row] ↔
      db.compares comparison (row column) v := by
  simp [compareExpr, Expr.Holds, value?_column, Operand.value?]

theorem resolves_compareExpr (column : Text) (comparison : Comparison) (v : Value) :
    (compareExpr [column] comparison v).Resolves [orderScope tables row] := by
  simp [compareExpr, Expr.Resolves, value?_column, Operand.value?]

theorem holds_linkedExpr (side : Side) (key : Text) (filter : Filter) :
    (linkedExpr (tables.side side).words tables.orders.words key filter).Holds db [orderScope tables row] ↔
      (Predicate.linked side key filter).Holds db tables row := by
  obtain ⟨-, -, htable⟩ := (tables.side side).words_spec
  have hkv (t : Triple) := value?_kv [orderScope tables row] t
  rw [linkedExpr, ← htable]
  simp only [compareExpr, Expr.Holds, Predicate.Holds, Operand.value?, holds_filterExpr, (hkv _).1, (hkv _).2.1,
    value?_id_eq_some_iff]
  by_cases hvisible : tables.OrdersVisible <;> simp [hvisible]

theorem resolves_linkedExpr (side : Side) (key : Text) (filter : Filter) :
    (linkedExpr (tables.side side).words tables.orders.words key filter).Resolves [orderScope tables row] ↔
      (Predicate.linked side key filter).Resolves tables := by
  have hkv (t : Triple) := value?_kv [orderScope tables row] t
  rw [linkedExpr]
  simp only [compareExpr, Expr.Resolves, Predicate.Resolves, Operand.value?, resolves_filterExpr, (hkv _).1,
    (hkv _).2.1, value?_id]
  by_cases hvisible : tables.OrdersVisible
  · simp [hvisible]
  · simp only [hvisible, if_false]
    -- Whether a name resolves is asked of every row, so one row without the column is enough.
    exact iff_of_false (fun h => (h ⟨.null, .null, .null⟩).1.2 rfl) not_false

theorem holds_expr (p : Predicate) :
    (p.expr tables).Holds db [orderScope tables row] ↔ p.Holds db tables row := by
  cases p with
  | compare column comparison v => exact holds_compareExpr column comparison v
  | among column vs => simp [Predicate.expr, Expr.Holds, value?_column, Predicate.Holds]
  | keyword v =>
    exact or_congr (holds_compareExpr "order_no" .like v) (holds_compareExpr "attributes_json" .like v)
  | linked side key filter => exact holds_linkedExpr side key filter

theorem resolves_expr (p : Predicate) :
    (p.expr tables).Resolves [orderScope tables row] ↔ p.Resolves tables := by
  cases p with
  | compare column comparison v => exact iff_of_true (resolves_compareExpr column comparison v) trivial
  | among column vs => simp [Predicate.expr, Expr.Resolves, value?_column, Predicate.Resolves]
  | keyword v =>
    exact iff_of_true ⟨resolves_compareExpr "order_no" .like v, resolves_compareExpr "attributes_json" .like v⟩
      trivial
  | linked side key filter => exact resolves_linkedExpr side key filter

theorem holds_whereExpr (ps : List Predicate) :
    (Predicate.whereExpr tables ps).Holds db [orderScope tables row] ↔ ∀ p ∈ ps, p.Holds db tables row := by
  cases ps with
  | nil => simp [Predicate.whereExpr, Expr.Holds]
  | cons p ps =>
    rw [Predicate.whereExpr, holds_joinAll, ← List.map_cons, List.forall_mem_map]
    exact forall₂_congr fun x _ => holds_expr x

theorem resolves_whereExpr (ps : List Predicate) :
    (Predicate.whereExpr tables ps).Resolves [orderScope tables row] ↔ ∀ p ∈ ps, p.Resolves tables := by
  cases ps with
  | nil => simp [Predicate.whereExpr, Expr.Resolves]
  | cons p ps =>
    rw [Predicate.whereExpr, resolves_joinAll, ← List.map_cons, List.forall_mem_map]
    exact forall₂_congr fun x _ => resolves_expr x

end

end OrderStore.Sql
