import OrderStore.Proofs.Except
import OrderStore.Proofs.Sql.Parameter
import OrderStore.Proofs.Sql.TableName

namespace OrderStore

namespace Value

theorem isEmpty_eq_of_elements? {v : Value} {xs : List Value} (h : v.elements? = some xs) :
    v.isEmpty = xs.isEmpty := by
  cases v with
  | text t =>
    cases h
    exact List.isEmpty_map.symm
  | bytes bs =>
    cases h
    exact List.isEmpty_map.symm
  | map es =>
    cases h
    exact List.isEmpty_map.symm
  | list xs | tuple xs | set xs =>
    cases h
    rfl
  | _ => cases h

theorem elements?_of_toElements {v : Value} {xs : List Value} (h : v.toElements = .ok xs) :
    v.elements? = some xs := by
  rw [toElements] at h
  cases hv : v.elements? with
  | none =>
    rw [hv] at h
    cases h
  | some ys =>
    rw [hv] at h
    cases h
    rfl

end Value

namespace Sql

theorem Slot.isName (s : Slot) : IsName s.name := ⟨s.name_ne_nil, s.isWord_of_mem_name⟩

open Template (fill_append fill_literal fill_name fill_intercalate)

namespace Clause

/-- The clause binds these values under the names in its condition, in which they stand as the pieces
say. -/
structure Renders (c : Clause) (vs : List Value) (ps : Pieces) : Prop where
  plain : c.condition.Plain
  names : ∀ n, n ∈ c.condition.template.names ↔ n ∈ c.bindings.map Prod.fst
  values : c.bindings.map Prod.snd = vs
  fills : ∀ f : Text → Option Value, (∀ b ∈ c.bindings, f b.1 = some b.2) →
    c.condition.template.fill f = some ps

theorem renders_compare {column : Text} (comparison : Comparison) (s : Slot) (v : Value)
    (hcolumn : Bare column) :
    Renders (compare column comparison s.name v) [v] (Predicate.comparePieces column comparison v) where
  plain := ⟨hcolumn, s.isName⟩
  names := by
    intro n
    simp [compare, Condition.template]
  values := rfl
  fills := by
    intro f hf
    have hv : f s.name = some v := hf (s.name, v) List.mem_cons_self
    exact fill_append (fill_literal _) (fill_name hv)

theorem isName_of_mem_numbered {s : Slot} {vs : List Value} {n : Text}
    (h : n ∈ (numbered s.name vs).map Prod.fst) : IsName n := by
  rw [numbered, Slot.map_fst_numberedFrom] at h
  obtain ⟨j, -, rfl⟩ := List.mem_map.mp h
  exact (s.numbered j).isName

theorem renders_among {column : Text} (s : Slot) {vs : List Value} (hcolumn : Bare column) (hvs : vs ≠ []) :
    Renders (among column s.name vs) vs (Predicate.amongPieces column vs) where
  plain := by
    refine ⟨hcolumn, ?_, fun n hn => isName_of_mem_numbered hn⟩
    intro hnil
    have hlength := congrArg List.length hnil
    rw [numbered, map_fst_numberedFrom] at hlength
    exact hvs (List.length_eq_zero_iff.mp (by simpa using hlength))
  names := by
    intro n
    simp [among, Condition.template]
  values := map_snd_numberedFrom s.name 0 vs
  fills := by
    intro f hf
    have hlist : List.Forall₂ (fun n v => Template.fill f [.name n] = some [.value v])
        ((numbered s.name vs).map Prod.fst) ((numbered s.name vs).map Prod.snd) := by
      rw [List.forall₂_map_left_iff, List.forall₂_map_right_iff, List.forall₂_same]
      intro b hb
      exact fill_name (hf b hb)
    rw [numbered, map_snd_numberedFrom] at hlist
    exact fill_append (fill_append (fill_literal _) (fill_intercalate ", " hlist)) (fill_literal ")")

theorem renders_ofFilter (s : Slot) (filter : Filter) :
    Renders (ofFilter s.name filter) filter.choices (Predicate.filterPieces filter) := by
  have hcolumn : Bare "kv.rel_value" := by decide
  cases filter with
  | scalar v => exact renders_compare .equal s v hcolumn
  | oneOf vs =>
    cases vs with
    | nil =>
      refine ⟨trivial, ?_, rfl, fun f _ => fill_literal _⟩
      intro n
      simp [ofFilter, Condition.template]
    | cons v vs => exact renders_among s hcolumn (by simp)

theorem ofKey_eq (table orders : TableName) (side : Side) (n : Nat) (key : Text) (filter : Filter) :
    ofKey table orders (Slot.sideText side) n key filter =
      ⟨.linked table.text orders.text (Slot.name ⟨.key side, [n]⟩)
          (ofFilter (Slot.name ⟨.value side, [n]⟩) filter).condition,
        (Slot.name ⟨.key side, [n]⟩, .text key) ::
          (ofFilter (Slot.name ⟨.value side, [n]⟩) filter).bindings⟩ := by
  rw [ofKey, Slot.name_key, Slot.name_value]

theorem renders_ofKey (tables : Tables) (side : Side) (n : Nat) (key : Text) (filter : Filter) :
    Renders (ofKey (tables.side side) tables.orders (Slot.sideText side) n key filter)
      (Predicate.linked side key filter).values ((Predicate.linked side key filter).pieces tables) := by
  have hvalue := renders_ofFilter ⟨.value side, [n]⟩ filter
  rw [ofKey_eq]
  refine ⟨⟨(tables.side side).bare_text, tables.orders.bare_text, Slot.isName _, hvalue.plain⟩, ?_, ?_, ?_⟩
  · intro m
    have hm := hvalue.names m
    simp [Condition.template, hm]
  · rw [List.map_cons, hvalue.values]
    rfl
  · intro f hf
    have hkey := fill_name (hf _ List.mem_cons_self)
    have hrest := hvalue.fills f fun b hb => hf b (List.mem_cons_of_mem _ hb)
    exact fill_append (fill_append (fill_append (fill_append (fill_literal _) hkey) (fill_literal " AND "))
      hrest) (fill_literal ")")

theorem renders_keyword {tables : Tables} (v : Value) :
    Renders ⟨.either (.compare "order_no" .like "keyword") (.compare "attributes_json" .like "keyword"),
      [("keyword", v)]⟩ [v] ((Predicate.keyword v).pieces tables) where
  plain := by
    have hname : IsName "keyword" := Slot.isName ⟨.criterion .keyword, []⟩
    exact ⟨⟨by decide, hname⟩, by decide, hname⟩
  names := by
    intro n
    simp [Condition.template]
  values := rfl
  fills := by
    intro f hf
    have hv : f "keyword" = some v := hf ("keyword", v) List.mem_cons_self
    have hcompare (column : Text) :=
      fill_append (fill_literal (f := f) (column ++ " " ++ "ILIKE" ++ " ")) (fill_name hv)
    exact fill_append (fill_append (fill_append (fill_append (fill_literal "(") (hcompare _))
      (fill_literal " OR ")) (hcompare _)) (fill_literal ")")

def Means (tables : Tables) (c : Clause) (p : Predicate) : Prop := Renders c p.values (p.pieces tables)

def AllMean (tables : Tables) : List Clause → List Predicate → Prop := List.Forall₂ (Means tables)

section

variable {tables : Tables} {q : Query} {cs : List Clause}

theorem means_compare {column parameter : Text} {comparison : Comparison} {v : Value} (c : Criterion)
    (hcolumn : Bare column) (hname : c.name = parameter) :
    AllMean tables [compare column comparison parameter v] [.compare column comparison v] := by
  rw [← hname, ← Slot.name_criterion]
  exact .cons (renders_compare comparison _ v hcolumn) .nil

theorem means_ofChoices {column stem : Text} {f : Value → Value} {v : Value} (s : Slot)
    (hcolumn : Bare column) (hname : s.name = stem) (h : ofChoices column stem f v = .ok cs) :
    AllMean tables cs (Predicate.ofChoices column f v) := by
  rw [ofChoices] at h
  cases hv : v.isEmpty with
  | true =>
    rw [hv] at h
    cases h
    cases hx : v.elements? with
    | none =>
      rw [Predicate.ofChoices, hx]
      exact .nil
    | some xs =>
      rw [Value.isEmpty_eq_of_elements? hx, List.isEmpty_iff] at hv
      rw [Predicate.ofChoices, hx, hv]
      exact .nil
  | false =>
    rw [hv] at h
    obtain ⟨xs, hxs, rfl⟩ := map_eq_ok.mp h
    have hx := Value.elements?_of_toElements hxs
    rw [Value.isEmpty_eq_of_elements? hx] at hv
    obtain ⟨x, rest, rfl⟩ := List.exists_cons_of_ne_nil (by simpa using hv)
    rw [Predicate.ofChoices, hx, ← hname]
    exact .cons (renders_among s hcolumn (by simp)) .nil

theorem means_ofBuyers (h : ofBuyers q = .ok cs) : AllMean tables cs (Predicate.ofBuyers q) := by
  rw [ofBuyers] at h
  by_cases hnull : (q .buyerId).isNull = true
  · rw [if_pos hnull] at h
    rw [Predicate.ofBuyers, if_pos hnull]
    exact means_ofChoices ⟨.buyer, []⟩ (by decide) rfl h
  · rw [if_neg hnull] at h
    rw [Predicate.ofBuyers, if_neg hnull]
    cases h
    exact means_compare .buyerId (by decide) rfl

theorem means_ofOrderNo : AllMean tables (ofOrderNo q) (Predicate.ofOrderNo q) := by
  rw [ofOrderNo, Predicate.ofOrderNo]
  split
  · exact means_compare .orderNo (by decide) rfl
  · split
    · exact means_compare .orderNoLike (by decide) rfl
    · exact .nil

theorem means_ofKeyword (v : Value) : AllMean tables (ofKeyword v) (Predicate.ofKeyword v) := by
  rw [ofKeyword, Predicate.ofKeyword]
  split
  · exact .nil
  · exact .cons (renders_keyword v) .nil

theorem means_ofTime {column : Text} {comparison : Comparison} (c : Criterion) (hcolumn : Bare column)
    (h : ofTime column comparison c q = .ok cs) :
    AllMean tables cs (Predicate.ofTime column comparison (q c)) := by
  rw [ofTime] at h
  generalize q c = v at h ⊢
  cases v with
  | null =>
    cases h
    exact .nil
  | moment m =>
    cases h
    exact means_compare c hcolumn rfl
  | date d =>
    cases h
    exact means_compare c hcolumn rfl
  | _ => cases h

theorem means_ofAmount (comparison : Comparison) (c : Criterion) :
    AllMean tables (ofAmount comparison c q) (Predicate.ofAmount comparison (q c)) := by
  rw [ofAmount, Predicate.ofAmount]
  split
  · exact .nil
  · exact means_compare c (by decide) rfl

theorem means_ofFilters (side : Side) (fs : Filters) :
    AllMean tables (ofFilters (tables.side side) tables.orders (Slot.sideText side) fs)
      (Predicate.ofFilters side fs) := by
  rw [ofFilters, Predicate.ofFilters]
  generalize 1 = n
  induction fs generalizing n with
  | nil => exact .nil
  | cons e fs ih => exact .cons (renders_ofKey tables side n e.1 e.2) (ih (n + 1))

theorem ofQuery_eq_ok (h : ofQuery tables q = .ok cs) :
    ∃ types statuses buyers createdFrom createdTo updatedFrom updatedTo,
      ofChoices "type" "type" id (q .types) = .ok types ∧
      ofChoices "status" "status" id (q .statuses) = .ok statuses ∧
      ofBuyers q = .ok buyers ∧
      ofTime "created_at" .atLeast .createdFrom q = .ok createdFrom ∧
      ofTime "created_at" .atMost .createdTo q = .ok createdTo ∧
      ofTime "updated_at" .atLeast .updatedFrom q = .ok updatedFrom ∧
      ofTime "updated_at" .atMost .updatedTo q = .ok updatedTo ∧
      cs = types ++ statuses ++ buyers ++ ofOrderNo q ++ ofKeyword (q .keyword) ++
        createdFrom ++ createdTo ++ updatedFrom ++ updatedTo ++
        ofAmount .atLeast .amountMin q ++ ofAmount .atMost .amountMax q ++
        ofFilters tables.relations tables.orders "rel" (q.filters .relations) ++
        ofFilters tables.indexed tables.orders "idx" (q.filters .indexedFields) := by
  obtain ⟨types, htypes, h⟩ := bind_eq_ok.mp h
  obtain ⟨statuses, hstatuses, h⟩ := bind_eq_ok.mp h
  obtain ⟨buyers, hbuyers, h⟩ := bind_eq_ok.mp h
  obtain ⟨createdFrom, hcreatedFrom, h⟩ := bind_eq_ok.mp h
  obtain ⟨createdTo, hcreatedTo, h⟩ := bind_eq_ok.mp h
  obtain ⟨updatedFrom, hupdatedFrom, h⟩ := bind_eq_ok.mp h
  obtain ⟨updatedTo, hupdatedTo, h⟩ := bind_eq_ok.mp h
  cases h
  exact ⟨types, statuses, buyers, createdFrom, createdTo, updatedFrom, updatedTo, htypes, hstatuses,
    hbuyers, hcreatedFrom, hcreatedTo, hupdatedFrom, hupdatedTo, rfl⟩

theorem AllMean.append {ds : List Clause} {ps rs : List Predicate} (hc : AllMean tables cs ps)
    (hd : AllMean tables ds rs) : AllMean tables (cs ++ ds) (ps ++ rs) :=
  List.rel_append hc hd

theorem means_ofQuery (h : ofQuery tables q = .ok cs) : AllMean tables cs (Predicate.ofQuery q) := by
  obtain ⟨types, statuses, buyers, createdFrom, createdTo, updatedFrom, updatedTo, htypes, hstatuses,
    hbuyers, hcreatedFrom, hcreatedTo, hupdatedFrom, hupdatedTo, rfl⟩ := ofQuery_eq_ok h
  apply AllMean.append _ (means_ofFilters .indexed _)
  apply AllMean.append _ (means_ofFilters .relations _)
  apply AllMean.append _ (means_ofAmount .atMost .amountMax)
  apply AllMean.append _ (means_ofAmount .atLeast .amountMin)
  apply AllMean.append _ (means_ofTime .updatedTo (by decide) hupdatedTo)
  apply AllMean.append _ (means_ofTime .updatedFrom (by decide) hupdatedFrom)
  apply AllMean.append _ (means_ofTime .createdTo (by decide) hcreatedTo)
  apply AllMean.append _ (means_ofTime .createdFrom (by decide) hcreatedFrom)
  apply AllMean.append _ (means_ofKeyword _)
  apply AllMean.append _ means_ofOrderNo
  apply AllMean.append _ (means_ofBuyers hbuyers)
  apply AllMean.append _ (means_ofChoices ⟨.status, []⟩ (by decide) rfl hstatuses)
  exact means_ofChoices ⟨.type, []⟩ (by decide) rfl htypes

end

end Clause

end Sql

end OrderStore
