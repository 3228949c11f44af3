import OrderStore.Proofs.Sql.Joined
import OrderStore.Proofs.Sql.Selection

namespace OrderStore.Sql

structure SortKey where
  column : Text
  ascending : Bool
  deriving DecidableEq, Repr

structure Statement where
  table : Text
  condition : Expr
  keys : List SortKey
  limit : Value
  offset : Value

def ascending? (w : Text) : Option Bool :=
  if w = "ASC" then some true else if w = "DESC" then some false else none

def readKeys : List Token → Option (List SortKey × List Token)
  | .word column :: .word w :: .mark c :: ts => do
    let ascending ← ascending? w
    let (keys, ts) ← if c = .char ',' then readKeys ts else none
    return (⟨column, ascending⟩ :: keys, ts)
  | .word column :: .word w :: ts => do
    let ascending ← ascending? w
    return ([⟨column, ascending⟩], ts)
  | _ => none

def readCondition : Reader := fun ts =>
  match expect "WHERE" ts with
  | some ts => readExpr (ts.length + 2) ts
  | none => some (.always, ts)

def readValue : List Token → Option (Value × List Token)
  | .value v :: ts => some (v, ts)
  | _ => none

def readStatement (ts : List Token) : Option Statement := do
  let ts ← expect "FROM" (← expectMark '*' (← expect "SELECT" ts))
  let (table, ts) ← readName ts
  let (condition, ts) ← readCondition ts
  let (keys, ts) ← readKeys (← expect "BY" (← expect "ORDER" ts))
  let (limit, ts) ← readValue (← expect "LIMIT" ts)
  let (offset, ts) ← readValue (← expect "OFFSET" ts)
  if ts.isEmpty then return ⟨.intercalate "." table, condition, keys, limit, offset⟩ else none

def Search.statement? (s : Search) : Option Statement := do
  let template ← scan s.selectText
  let pieces ← template.fill fun n => s.selectParams.get? n
  readStatement (lex pieces)

def Spells (f : Text → Option Value) (t : Text) (ps : Pieces) : Prop :=
  ∃ p : Template, Scans t p ∧ p.fill f = some ps

namespace Spells

variable {f : Text → Option Value} {t u : Text} {ps qs : Pieces}

theorem append (ht : Spells f t ps) (hu : Spells f u qs) : Spells f (t ++ u) (ps ++ qs) := by
  obtain ⟨p, hscans, hfill⟩ := ht
  obtain ⟨q, hscans', hfill'⟩ := hu
  exact ⟨p ++ q, hscans.append hscans', Template.fill_append hfill hfill'⟩

theorem literal (h : Lacks '%' t) : Spells f t (.literal t) := ⟨.literal t, .literal h, Template.fill_literal t⟩

theorem placeholder {v : Value} (ht : IsName t) (h : f t = some v) :
    Spells f (placeholder t) [.value v] :=
  ⟨[.name t], ht.scans, Template.fill_name h⟩

theorem read_eq (h : Spells f t ps) : ((scan t).bind fun p => p.fill f) = some ps := by
  obtain ⟨p, hscans, hfill⟩ := h
  rw [hscans.scan_eq, Option.bind_some, hfill]

end Spells

section

variable {f : Text → Option Value} {tables : Tables} {cs : List Clause} {ps : List Predicate}

def Predicate.spacedPieces (tables : Tables) : List Predicate → Pieces
  | [] => []
  | p :: ps => .literal " " ++ wherePieces tables (p :: ps)

theorem Clause.AllMean.spells (h : AllMean tables cs ps) (hf : ∀ b ∈ allBindings cs, f b.1 = some b.2) :
    Spells f (Search.spaced (whereText cs)) (Predicate.spacedPieces tables ps) := by
  have hwhere : Spells f (whereText cs) (Predicate.wherePieces tables ps) :=
    ⟨_, scans_whereText h.plain, h.fill_whereTemplate hf⟩
  cases h with
  | nil => exact .literal (by decide)
  | cons hc h =>
    have hblank : Spells f " " (.literal " ") := .literal (by decide)
    exact hblank.append hwhere

def selectPieces (tables : Tables) (ps : List Predicate) (sorting : Sorting) (limit offset : Value) : Pieces :=
  .literal "SELECT * FROM " ++ .literal tables.orders.text ++ Predicate.spacedPieces tables ps ++ .literal " " ++
    .literal sorting.text ++ .literal " LIMIT " ++ [.value limit] ++ .literal " OFFSET " ++ [.value offset]

theorem Search.nodup_selectParams {q : Query} {s : Search} (h : ofQuery tables q = .ok s) :
    (s.selectParams.map Prod.fst).Nodup := by
  have hbinds := binds_ofQuery h
  rw [selectParams, List.map_append]
  refine hbinds.names.append (by simp [pagingParams]) ?_
  intro n hn hpaging
  exact hbinds.paging n hpaging hn

theorem Search.spells_selectText {q : Query} {s : Search} (h : ofQuery tables q = .ok s)
    (hf : ∀ b ∈ s.selectParams, f b.1 = some b.2) :
    Spells f s.selectText
      (selectPieces tables (Predicate.ofQuery q) (.ofQuery q) (q .limit) (q .offset)) := by
  obtain ⟨hparams, hpaging⟩ := List.forall_mem_append.mp hf
  obtain ⟨cs, hcs, rfl⟩ := map_eq_ok.mp h
  have hlimit : f "limit" = some (q .limit) := hpaging _ List.mem_cons_self
  have hoffset : f "offset" = some (q .offset) := hpaging _ (List.mem_cons_of_mem _ List.mem_cons_self)
  have hwhere := (Clause.means_ofQuery hcs).spells hparams
  have hfrom : Spells f "SELECT * FROM " _ := .literal (by decide)
  have hblank : Spells f " " _ := .literal (by decide)
  have htake : Spells f " LIMIT " _ := .literal (by decide)
  have hdrop : Spells f " OFFSET " _ := .literal (by decide)
  have htable : Spells f tables.orders.text _ := .literal tables.orders.bare_text.percent
  have hsorting : Spells f (Sorting.ofQuery q).text _ := .literal (Sorting.bare_text q).percent
  have hfirst : Spells f (placeholder "limit") [.value (q .limit)] := .placeholder (by decide) hlimit
  have hsecond : Spells f (placeholder "offset") [.value (q .offset)] := .placeholder (by decide) hoffset
  rw [selectText_eq]
  exact (((((((hfrom.append htable).append hwhere).append hblank).append hsorting).append htake).append
    hfirst).append hdrop).append hsecond

end

namespace Sorting

def keys (s : Sorting) : List SortKey :=
  if s.column = "id" then [⟨"id", s.ascending⟩] else [⟨s.column, s.ascending⟩, ⟨"id", s.ascending⟩]

end Sorting

def SortKey.tokens (k : SortKey) : List Token := [.word k.column, .word (if k.ascending then "ASC" else "DESC")]

def keysTokens (ks : List SortKey) : List Token := [.mark (.char ',')].intercalate (ks.map SortKey.tokens)

theorem Sorting.lexes_text (q : Query) :
    Lexes (.literal ((Sorting.ofQuery q).text ++ " LIMIT "))
      ([.word "ORDER", .word "BY"] ++ keysTokens (Sorting.ofQuery q).keys ++ [.word "LIMIT"]) := by
  have hcolumn : (Sorting.ofQuery q).column ∈ sortableColumns := sortColumn_mem _
  generalize Sorting.ofQuery q = s at hcolumn ⊢
  obtain ⟨column, ascending⟩ := s
  simp only [sortableColumns, List.mem_cons, List.not_mem_nil, or_false] at hcolumn
  rcases hcolumn with rfl | rfl | rfl | rfl | rfl
  all_goals cases ascending <;> exact fun _ => rfl

theorem readKeys_keysTokens {ks : List SortKey} (hne : ks ≠ []) {w : Text} (rest : List Token) :
    readKeys (keysTokens ks ++ .word w :: rest) = some (ks, .word w :: rest) := by
  have hascending (b : Bool) : ascending? (if b then "ASC" else "DESC") = some b := by cases b <;> decide
  induction ks with
  | nil => exact absurd rfl hne
  | cons k ks ih =>
    cases ks with
    | nil =>
      change (ascending? _).bind _ = _
      rw [hascending]
      rfl
    | cons l ks =>
      have htokens : keysTokens (k :: l :: ks) ++ .word w :: rest =
          k.tokens ++ .mark (.char ',') :: (keysTokens (l :: ks) ++ .word w :: rest) := by
        rw [keysTokens, List.map_cons, List.map_cons, List.intercalate_cons_cons]
        simp [keysTokens]
      rw [htokens]
      change (ascending? _).bind _ = _
      rw [hascending, Option.bind_some, if_pos rfl, ih (by simp)]
      rfl

theorem Sorting.keys_ne_nil (s : Sorting) : s.keys ≠ [] := by
  rw [keys]
  split <;> simp

section

variable {tables : Tables} {ps : List Predicate}

theorem lexes_spacedPieces (h : ∀ p ∈ ps, p.Simple) :
    Lexes (Predicate.spacedPieces tables ps ++ .literal " ") (Predicate.whereTokens tables ps) := by
  have hblank : Lexes (.literal " ") [] := fun _ => rfl
  have hwhere : Lexes (.literal " WHERE ") [.word "WHERE"] := fun _ => rfl
  cases ps with
  | nil => exact hblank
  | cons p ps =>
    have hchain := (hwhere.append (Predicate.lexes_chain tables h)).append hblank
    rw [List.append_nil] at hchain
    exact hchain

theorem apart_spacedPieces (q : Pieces) : Apart (Predicate.spacedPieces tables ps ++ .literal " " ++ q) := by
  cases ps <;> exact apart_code rfl

def selectTokens (tables : Tables) (ps : List Predicate) (ks : List SortKey) (limit offset : Value) :
    List Token :=
  [.word "SELECT", .mark (.char '*'), .word "FROM"] ++ nameTokens tables.orders.words ++
    Predicate.whereTokens tables ps ++ ([.word "ORDER", .word "BY"] ++ keysTokens ks ++ [.word "LIMIT"]) ++
    [.value limit] ++ [.word "OFFSET"] ++ [.value offset]

theorem lex_selectPieces (h : ∀ p ∈ ps, p.Simple) (q : Query) (limit offset : Value) :
    lex (selectPieces tables ps (.ofQuery q) limit offset) =
      selectTokens tables ps (Sorting.ofQuery q).keys limit offset := by
  have hselect : Lexes (.literal "SELECT * FROM ") [.word "SELECT", .mark (.char '*'), .word "FROM"] :=
    fun _ => rfl
  have hskip : Lexes (.literal " OFFSET ") [.word "OFFSET"] := fun _ => rfl
  have hwhere : Lexes (Predicate.spacedPieces tables ps ++ .literal " ") _ := lexes_spacedPieces h
  have hfrom := (hselect.appendApart tables.orders.lexes_text).append hwhere apart_spacedPieces
  have hsorted := (hfrom.append (Sorting.lexes_text q)).append (lexes_value limit)
  have hall := ((hsorted.append hskip).append (lexes_value offset)) []
  simp only [List.append_nil, List.append_assoc, literal_append] at hall
  simp only [selectPieces, selectTokens, List.append_assoc]
  exact hall

theorem readCondition_whereTokens (h : ∀ p ∈ ps, p.Simple) (rest : List Token) :
    readCondition (Predicate.whereTokens tables ps ++ .word "ORDER" :: rest) =
      some (Predicate.whereExpr tables ps, .word "ORDER" :: rest) := by
  cases ps with
  | nil => rfl
  | cons p ps =>
    let ts := [.word "AND"].intercalate ((p :: ps).map (Predicate.tokens tables)) ++ .word "ORDER" :: rest
    have hitem : ∀ y ∈ p :: ps, Reads Closed (readPrimary (readExpr (ts.length + 1))) (y.tokens tables)
      (y.expr tables) := fun y hy => (h y hy).reads tables ts.length
    exact readExpr_single (readAll_items hitem) (.word "ORDER" :: rest) ⟨⟨rfl, rfl⟩, rfl⟩

theorem readStatement_selectTokens (h : ∀ p ∈ ps, p.Simple) {ks : List SortKey} (hks : ks ≠ [])
    (limit offset : Value) :
    readStatement (selectTokens tables ps ks limit offset) =
      some ⟨tables.orders.key, Predicate.whereExpr tables ps, ks, limit, offset⟩ := by
  obtain ⟨hne, -, hkey⟩ := tables.orders.words_spec
  let page : List Token := [.value limit, .word "OFFSET", .value offset]
  let sorted : List Token := .word "ORDER" :: .word "BY" :: (keysTokens ks ++ .word "LIMIT" :: page)
  have htokens : selectTokens tables ps ks limit offset = .word "SELECT" :: .mark (.char '*') ::
      .word "FROM" :: (nameTokens tables.orders.words ++ (Predicate.whereTokens tables ps ++ sorted)) := by
    simp [selectTokens, sorted, page]
  have hclosed : Closed (Predicate.whereTokens tables ps ++ sorted) := by cases ps <;> rfl
  have hname := readName_nameTokens hne hclosed
  have hcondition : readCondition (Predicate.whereTokens tables ps ++ sorted) = _ :=
    readCondition_whereTokens h _
  have hkeys := readKeys_keysTokens hks (w := "LIMIT") page
  rw [htokens, hkey]
  change (readName _).bind _ = _
  rw [hname, Option.bind_some]
  change (readCondition _).bind _ = _
  rw [hcondition, Option.bind_some]
  change (readKeys _).bind _ = _
  rw [hkeys]
  rfl

end

theorem Search.statement?_eq {tables : Tables} {q : Query} {s : Search} (h : ofQuery tables q = .ok s) :
    s.statement? = some ⟨tables.orders.key, Predicate.whereExpr tables (Predicate.ofQuery q),
      (Sorting.ofQuery q).keys, q .limit, q .offset⟩ := by
  have hspells := spells_selectText (f := fun n => s.selectParams.get? n) h
    fun b hb => Named.get?_of_mem (nodup_selectParams h) hb
  have hpieces := hspells.read_eq
  rw [← readStatement_selectTokens (simple_ofQuery q) (Sorting.ofQuery q).keys_ne_nil,
    ← lex_selectPieces (simple_ofQuery q)]
  obtain ⟨p, hp, hfill⟩ := Option.bind_eq_some_iff.mp hpieces
  rw [statement?, hp]
  change (p.fill _).bind _ = _
  rw [hfill]
  rfl

end OrderStore.Sql
