import OrderStore.Proofs.Sql.Tokens

namespace OrderStore.Sql

def Closed (rest : List Token) : Prop := expectMark '.' rest = none

/-- The tokens are read as the expression, whatever follows that may follow. -/
def Reads (follows : List Token → Prop) (r : Reader) (ts : List Token) (e : Expr) : Prop :=
  ∀ rest, follows rest → r (ts ++ rest) = some (e, rest)

theorem readName_closed (w : Text) {rest : List Token} (hrest : Closed rest) :
    readName (.word w :: rest) = some ([w], rest) := by
  cases rest with
  | nil => rfl
  | cons t ts =>
    cases t with
    | word v => rfl
    | value v => rfl
    | mark c =>
      rw [Closed, expectMark] at hrest
      rw [readName]
      split
      · rename_i hc
        rw [if_pos hc] at hrest
        cases hrest
      · rfl

theorem readName_nameTokens {ws : List Text} (hne : ws ≠ []) {rest : List Token} (hrest : Closed rest) :
    readName (nameTokens ws ++ rest) = some (ws, rest) := by
  induction ws with
  | nil => exact absurd rfl hne
  | cons w ws ih =>
    cases ws with
    | nil => exact readName_closed w hrest
    | cons v ws =>
      have htokens : nameTokens (w :: v :: ws) ++ rest =
          .word w :: .mark (.char '.') :: (nameTokens (v :: ws) ++ rest) := by
        rw [nameTokens, List.map_cons, List.map_cons, List.intercalate_cons_cons]
        rfl
      rw [htokens, readName, if_pos rfl, ih (by simp)]
      rfl

theorem nameTokens_cons (w : Text) (ws : List Text) : ∃ ts, nameTokens (w :: ws) = .word w :: ts := by
  cases ws with
  | nil => exact ⟨[], rfl⟩
  | cons v ws =>
    refine ⟨.mark (.char '.') :: nameTokens (v :: ws), ?_⟩
    rw [nameTokens, List.map_cons, List.map_cons, List.intercalate_cons_cons]
    rfl

theorem readOperand_nameTokens {ws : List Text} (hne : ws ≠ []) {rest : List Token} (hrest : Closed rest) :
    readOperand (nameTokens ws ++ rest) = some (.column (.ofWords ws), rest) := by
  have hname := readName_nameTokens hne hrest
  obtain ⟨w, ws, rfl⟩ := List.exists_cons_of_ne_nil hne
  obtain ⟨ts, hts⟩ := nameTokens_cons w ws
  rw [hts, List.cons_append] at hname ⊢
  rw [readOperand, hname]
  · rfl
  · intro v ts h
    cases h

theorem readComparison_symbol (c : Comparison) (rest : List Token) :
    readComparison (symbolTokens c ++ rest) = some (c, rest) := by
  cases c <;> rfl

theorem readValues_valuesTokens {vs : List Value} (hne : vs ≠ []) (rest : List Token) :
    readValues (valuesTokens vs ++ .mark (.char ')') :: rest) = some (vs, rest) := by
  induction vs with
  | nil => exact absurd rfl hne
  | cons v vs ih =>
    cases vs with
    | nil => rfl
    | cons w vs =>
      have htokens : valuesTokens (v :: w :: vs) ++ .mark (.char ')') :: rest =
          .value v :: .mark (.char ',') :: (valuesTokens (w :: vs) ++ .mark (.char ')') :: rest) := by
        rw [valuesTokens, List.map_cons, List.map_cons, List.intercalate_cons_cons]
        rfl
      have hcomma : ¬ (Text.Code.char ',' = .char ')') := by decide
      rw [htokens, readValues, if_neg hcomma, if_pos rfl, ih (by simp)]
      rfl

section

variable {ws us : List Text}

theorem readTest_compare (hne : ws ≠ []) (c : Comparison) (v : Value) :
    Reads Closed readTest (compareTokens ws c v) (.compare (.ofWords ws) c (.value v)) := by
  intro rest _
  have hclosed : Closed (symbolTokens c ++ .value v :: rest) := by cases c <;> rfl
  have hin : expect "IN" (symbolTokens c ++ .value v :: rest) = none := by cases c <;> rfl
  have htokens : compareTokens ws c v ++ rest = nameTokens ws ++ (symbolTokens c ++ .value v :: rest) := by
    simp [compareTokens]
  rw [htokens]
  simp only [readTest, readName_nameTokens hne hclosed, hin, readComparison_symbol, Option.bind_eq_bind,
    Option.bind_some]
  rfl

theorem readTest_column (hne : ws ≠ []) (hus : us ≠ []) :
    Reads Closed readTest (nameTokens ws ++ [.mark (.char '=')] ++ nameTokens us)
      (.compare (.ofWords ws) .equal (.column (.ofWords us))) := by
  intro rest hrest
  have hclosed : Closed (symbolTokens .equal ++ (nameTokens us ++ rest)) := rfl
  have hin : expect "IN" (symbolTokens .equal ++ (nameTokens us ++ rest)) = none := rfl
  have htokens : nameTokens ws ++ [.mark (.char '=')] ++ nameTokens us ++ rest =
      nameTokens ws ++ (symbolTokens .equal ++ (nameTokens us ++ rest)) := by simp [symbolTokens]
  rw [htokens]
  simp only [readTest, readName_nameTokens hne hclosed, hin, readComparison_symbol,
    readOperand_nameTokens hus hrest, Option.bind_eq_bind, Option.bind_some]
  rfl

theorem readTest_among (hne : ws ≠ []) {vs : List Value} (hvs : vs ≠ []) :
    Reads Closed readTest (amongTokens ws vs) (.among (.ofWords ws) vs) := by
  intro rest _
  have hvalues := readValues_valuesTokens hvs rest
  have htokens : amongTokens ws vs ++ rest = nameTokens ws ++ (.word "IN" :: .mark (.char '(') ::
      (valuesTokens vs ++ .mark (.char ')') :: rest)) := by simp [amongTokens]
  generalize valuesTokens vs ++ .mark (.char ')') :: rest = inner at htokens hvalues
  have hclosed : Closed (.word "IN" :: .mark (.char '(') :: inner) := rfl
  have hin : expect "IN" (.word "IN" :: .mark (.char '(') :: inner) = some (.mark (.char '(') :: inner) := rfl
  have hopen : expectMark '(' (.mark (.char '(') :: inner) = some inner := rfl
  rw [htokens]
  simp only [readTest, readName_nameTokens hne hclosed, hin, hopen, hvalues, Option.bind_eq_bind,
    Option.bind_some]
  rfl

theorem readPrimary_test {w : Text} (hfalse : w ≠ "FALSE") (hexists : w ≠ "EXISTS") {inner : Reader}
    {ts : List Token} {e : Expr} (h : Reads Closed readTest ts e) (hts : ∃ us, ts = .word w :: us) :
    Reads Closed (readPrimary inner) ts e := by
  obtain ⟨us, rfl⟩ := hts
  intro rest hrest
  have htest := h rest hrest
  rw [List.cons_append] at htest ⊢
  have hopen : expectMark '(' (.word w :: (us ++ rest)) = none := rfl
  have hnever : expect "FALSE" (.word w :: (us ++ rest)) = none := if_neg hfalse
  have hsub : expect "EXISTS" (.word w :: (us ++ rest)) = none := if_neg hexists
  simp only [readPrimary, hopen, hnever, hsub]
  exact htest

end

def joinAll (join : Expr → Expr → Expr) : Expr → List Expr → Expr
  | a, [] => a
  | a, b :: bs => join a (joinAll join b bs)

section

variable {α : Type} {word : Text} {join : Expr → Expr → Expr} {item : Reader} {toks : α → List Token}
  {expr : α → Expr} {x : α} {xs : List α} {rest : List Token} {follows : List Token → Prop}

theorem readChain_items {fuel : Nat} (hitem : ∀ y ∈ x :: xs, Reads follows item (toks y) (expr y))
    (hfollows : ∀ ts, follows (.word word :: ts)) (hfuel : xs.length < fuel) (hrest : follows rest)
    (hend : expect word rest = none) :
    readChain word join item fuel ([.word word].intercalate ((x :: xs).map toks) ++ rest) =
      some (joinAll join (expr x) (xs.map expr), rest) := by
  induction xs generalizing x fuel with
  | nil =>
    obtain ⟨fuel, rfl⟩ : ∃ n, fuel = n + 1 := ⟨fuel - 1, by simp only [List.length_nil] at hfuel; omega⟩
    have hx := hitem x List.mem_cons_self rest hrest
    rw [List.map_singleton, List.intercalate_singleton, readChain]
    simp only [hx, hend, Option.bind_eq_bind, Option.bind_some]
    rfl
  | cons y ys ih =>
    obtain ⟨fuel, rfl⟩ : ∃ n, fuel = n + 1 := ⟨fuel - 1, by simp only [List.length_cons] at hfuel; omega⟩
    have hless : ys.length < fuel := by
      rw [List.length_cons] at hfuel
      omega
    have hnext := ih (fun z hz => hitem z (List.mem_cons_of_mem _ hz)) hless
    have htokens : [.word word].intercalate ((x :: y :: ys).map toks) ++ rest =
        toks x ++ .word word :: ([.word word].intercalate ((y :: ys).map toks) ++ rest) := by
      rw [List.map_cons, List.map_cons, List.intercalate_cons_cons]
      simp
    generalize [.word word].intercalate ((y :: ys).map toks) ++ rest = next at hnext htokens
    have hx := hitem x List.mem_cons_self _ (hfollows next)
    have hword : expect word (.word word :: next) = some next := if_pos rfl
    rw [htokens, readChain]
    simp only [hx, hword, hnext, Option.bind_eq_bind, Option.bind_some]
    rfl

theorem length_le_intercalate (toks : α → List Token) (xs : List α) (word : Text) :
    xs.length ≤ ([Token.word word].intercalate (xs.map toks)).length + 1 := by
  induction xs with
  | nil => simp
  | cons x xs ih =>
    cases xs with
    | nil => simp
    | cons y ys =>
      simp only [List.map_cons, List.length_cons] at ih ⊢
      rw [List.intercalate_cons_cons, List.length_append, List.length_append, List.length_singleton]
      omega

def Ended (rest : List Token) : Prop := Closed rest ∧ expect "AND" rest = none

theorem readAll_items (hitem : ∀ y ∈ x :: xs, Reads Closed item (toks y) (expr y)) :
    Reads Ended (readAll item) ([.word "AND"].intercalate ((x :: xs).map toks))
      (joinAll .and (expr x) (xs.map expr)) := by
  intro rest hrest
  have hlength := length_le_intercalate toks (x :: xs) "AND"
  apply readChain_items hitem (fun _ => rfl) _ hrest.1 hrest.2
  rw [List.length_append]
  simp only [List.length_cons] at hlength
  omega

def Finished (rest : List Token) : Prop := Ended rest ∧ expect "OR" rest = none

theorem readExpr_items {depth : Nat}
    (hitem : ∀ y ∈ x :: xs, Reads Ended (readAll (readPrimary (readExpr depth))) (toks y) (expr y)) :
    Reads Finished (readExpr (depth + 1)) ([.word "OR"].intercalate ((x :: xs).map toks))
      (joinAll .or (expr x) (xs.map expr)) := by
  intro rest hrest
  have hlength := length_le_intercalate toks (x :: xs) "OR"
  apply readChain_items hitem (fun _ => ⟨rfl, rfl⟩) _ hrest.1 hrest.2
  rw [List.length_append]
  simp only [List.length_cons] at hlength
  omega

theorem readAll_single {ts : List Token} {e : Expr} (h : Reads Closed item ts e) :
    Reads Ended (readAll item) ts e := by
  have hitem : ∀ y ∈ [()], Reads Closed item ts e := fun _ _ => h
  have hchain := readAll_items hitem
  rw [List.map_singleton, List.intercalate_singleton] at hchain
  exact hchain

theorem readExpr_single {depth : Nat} {ts : List Token} {e : Expr}
    (h : Reads Ended (readAll (readPrimary (readExpr depth))) ts e) :
    Reads Finished (readExpr (depth + 1)) ts e := by
  have hitem : ∀ y ∈ [()], Reads Ended (readAll (readPrimary (readExpr depth))) ts e := fun _ _ => h
  have hchain := readExpr_items hitem
  rw [List.map_singleton, List.intercalate_singleton] at hchain
  exact hchain

end

theorem readPrimary_parenthesised {inner : Reader} {ts : List Token} {e : Expr}
    (h : Reads Finished inner ts e) :
    Reads Closed (readPrimary inner) ([.mark (.char '(')] ++ ts ++ [.mark (.char ')')]) e := by
  intro rest _
  have hinner := h (.mark (.char ')') :: rest) ⟨⟨rfl, rfl⟩, rfl⟩
  have htokens : [.mark (.char '(')] ++ ts ++ [.mark (.char ')')] ++ rest =
      .mark (.char '(') :: (ts ++ .mark (.char ')') :: rest) := by simp
  rw [htokens]
  change (inner _).bind _ = _
  rw [hinner]
  rfl

theorem readPrimary_subquery {inner : Reader} {table : List Text} (htable : table ≠ []) (label : Text)
    {ts : List Token} {e : Expr} (h : Reads Finished inner ts e) :
    Reads Closed (readPrimary inner)
      ([.word "EXISTS", .mark (.char '('), .word "SELECT", .word "1", .word "FROM"] ++ nameTokens table ++
        [.word label, .word "WHERE"] ++ ts ++ [.mark (.char ')')])
      (.any (.intercalate "." table) label e) := by
  intro rest _
  have hinner := h (.mark (.char ')') :: rest) ⟨⟨rfl, rfl⟩, rfl⟩
  have hclosed : Closed (.word label :: .word "WHERE" :: (ts ++ .mark (.char ')') :: rest)) := rfl
  have htable := readName_nameTokens htable hclosed
  have htokens : [.word "EXISTS", .mark (.char '('), .word "SELECT", .word "1", .word "FROM"] ++
      nameTokens table ++ [.word label, .word "WHERE"] ++ ts ++ [.mark (.char ')')] ++ rest =
      .word "EXISTS" :: .mark (.char '(') :: .word "SELECT" :: .word "1" :: .word "FROM" ::
        (nameTokens table ++ .word label :: .word "WHERE" :: (ts ++ .mark (.char ')') :: rest)) := by simp
  rw [htokens]
  change (readName (nameTokens table ++ _)).bind _ = _
  rw [htable, Option.bind_some]
  change (inner _).bind _ = _
  rw [hinner]
  rfl

def compareExpr (ws : List Text) (comparison : Comparison) (v : Value) : Expr :=
  .compare (.ofWords ws) comparison (.value v)

def filterExpr : Filter → Expr
  | .scalar v => compareExpr valueColumn .equal v
  | .oneOf [] => .never
  | .oneOf vs => .among (.ofWords valueColumn) vs

def keywordExpr (v : Value) : Expr :=
  .or (compareExpr ["order_no"] .like v) (compareExpr ["attributes_json"] .like v)

def linkedExpr (table orders : List Text) (key : Text) (filter : Filter) : Expr :=
  .any (.intercalate "." table) "kv"
    (.and (.compare (.ofWords ["kv", "order_id"]) .equal (.column (.ofWords (orders ++ [("id" : Text)]))))
      (.and (compareExpr ["kv", "rel_key"] .equal (.text key)) (filterExpr filter)))

theorem reads_compare {w : Text} {ws : List Text} (hfalse : w ≠ "FALSE") (hexists : w ≠ "EXISTS")
    (c : Comparison) (v : Value) (inner : Reader) :
    Reads Closed (readPrimary inner) (compareTokens (w :: ws) c v) (compareExpr (w :: ws) c v) := by
  apply readPrimary_test hfalse hexists (readTest_compare (by simp) c v)
  obtain ⟨ts, hts⟩ := nameTokens_cons w ws
  rw [compareTokens, hts]
  exact ⟨_, rfl⟩

theorem reads_among {w : Text} {ws : List Text} (hfalse : w ≠ "FALSE") (hexists : w ≠ "EXISTS")
    {vs : List Value} (hvs : vs ≠ []) (inner : Reader) :
    Reads Closed (readPrimary inner) (amongTokens (w :: ws) vs) (.among (.ofWords (w :: ws)) vs) := by
  apply readPrimary_test hfalse hexists (readTest_among (by simp) hvs)
  obtain ⟨ts, hts⟩ := nameTokens_cons w ws
  rw [amongTokens, hts]
  exact ⟨_, rfl⟩

theorem reads_filter (filter : Filter) (inner : Reader) :
    Reads Closed (readPrimary inner) (filterTokens filter) (filterExpr filter) := by
  cases filter with
  | scalar v => exact reads_compare (by decide) (by decide) .equal v inner
  | oneOf vs =>
    cases vs with
    | nil => exact fun _ _ => rfl
    | cons v vs => exact reads_among (by decide) (by decide) (by simp) inner

theorem reads_keyword (v : Value) (depth : Nat) :
    Reads Closed (readPrimary (readExpr (depth + 1))) (keywordTokens v) (keywordExpr v) := by
  have hitem : ∀ c ∈ [("order_no" : Text), "attributes_json"],
      Reads Ended (readAll (readPrimary (readExpr depth))) (compareTokens [c] .like v)
        (compareExpr [c] .like v) := by
    intro c hc
    apply readAll_single
    rcases List.mem_pair.mp hc with rfl | rfl
    · exact reads_compare (by decide) (by decide) .like v _
    · exact reads_compare (by decide) (by decide) .like v _
  have h := readPrimary_parenthesised (readExpr_items hitem)
  have htokens : [.word "OR"].intercalate ([("order_no" : Text), "attributes_json"].map fun c =>
      compareTokens [c] .like v) = compareTokens ["order_no"] .like v ++ [.word "OR"] ++
        compareTokens ["attributes_json"] .like v := List.intercalate_cons_cons
  rw [htokens, ← List.append_assoc, ← List.append_assoc] at h
  exact h

def linkedItems (orders : List Text) (key : Text) (filter : Filter) : List (List Token × Expr) :=
  [(nameTokens ["kv", "order_id"] ++ [.mark (.char '=')] ++ nameTokens (orders ++ [("id" : Text)]),
      .compare (.ofWords ["kv", "order_id"]) .equal (.column (.ofWords (orders ++ [("id" : Text)])))),
    (compareTokens ["kv", "rel_key"] .equal (.text key), compareExpr ["kv", "rel_key"] .equal (.text key)),
    (filterTokens filter, filterExpr filter)]

theorem reads_linkedItems (orders : List Text) (key : Text) (filter : Filter) (inner : Reader) :
    ∀ y ∈ linkedItems orders key filter, Reads Closed (readPrimary inner) y.1 y.2 := by
  intro y hy
  rcases List.mem_cons.mp hy with rfl | hy
  · apply readPrimary_test (w := "kv") (by decide) (by decide) (readTest_column (by simp) (by simp))
    exact ⟨_, rfl⟩
  · rcases List.mem_pair.mp hy with rfl | rfl
    · exact reads_compare (by decide) (by decide) .equal _ inner
    · exact reads_filter filter inner

theorem reads_linked {table : List Text} (htable : table ≠ []) (orders : List Text) (key : Text)
    (filter : Filter) (depth : Nat) :
    Reads Closed (readPrimary (readExpr (depth + 1))) (linkedTokens table orders key filter)
      (linkedExpr table orders key filter) := by
  have hcondition := readExpr_single (readAll_items (reads_linkedItems orders key filter (readExpr depth)))
  have h := readPrimary_subquery htable "kv" hcondition
  simp only [List.map_cons, List.map_nil, List.intercalate_cons_cons, List.intercalate_singleton,
    List.append_assoc] at h
  simp only [linkedTokens, List.append_assoc]
  exact h

end OrderStore.Sql
