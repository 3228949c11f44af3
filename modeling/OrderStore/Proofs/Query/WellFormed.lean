import Mathlib.Data.List.DropRight
import OrderStore.Proofs.Query.LastWriter
import OrderStore.Proofs.Sql.Selection

namespace OrderStore

open Sql

namespace Text

structure IsTrimmed (t : Text) : Prop where
  isEmpty : t.isEmpty = false
  first : ∀ c, t.codes.head? = some c → c.isBlank = false
  last : ∀ c, t.codes.getLast? = some c → c.isBlank = false

theorem head?_dropWhile {α : Type} {p : α → Bool} {xs : List α} {x : α}
    (h : (xs.dropWhile p).head? = some x) : p x = false := by
  have hnot := List.head?_dropWhile_not p xs
  rw [h] at hnot
  simpa using hnot

theorem getLast?_trimWith {α : Type} {p : α → Bool} {xs : List α} {x : α}
    (h : (trimWith p xs).getLast? = some x) : p x = false := by
  rw [trimWith, List.getLast?_reverse] at h
  exact head?_dropWhile h

theorem head?_trimWith {α : Type} {p : α → Bool} {xs : List α} {x : α}
    (h : (trimWith p xs).head? = some x) : p x = false := by
  obtain ⟨rest, hrest⟩ : trimWith p xs <+: xs.dropWhile p := List.rdropWhile_prefix p _
  have hfirst : (xs.dropWhile p).head? = some x := by rw [← hrest, List.head?_append, h, Option.some_or]
  exact head?_dropWhile hfirst

theorem isTrimmed_trim {t : Text} (h : t.trim.isEmpty = false) : t.trim.IsTrimmed :=
  ⟨h, fun _ => head?_trimWith, fun _ => getLast?_trimWith⟩

theorem isTrimmed_quoteBytes (bs : List UInt8) : IsTrimmed (quoteBytes bs) := by
  have hcodes : (Text.ofString (quoteBytes bs)).codes = .char 'b' ::
      (quoteFor (bs.map fun b => Char.ofNat b.toNat) ::
        bs.flatMap (escapeByte (quoteFor (bs.map fun b => Char.ofNat b.toNat)))).map Code.char ++
      [.char (quoteFor (bs.map fun b => Char.ofNat b.toNat))] := by
    rw [Text.ofString, quoteBytes, String.toList_ofList, codes_ofChars, List.map_append, List.map_cons]
    rfl
  refine ⟨?_, ?_, ?_⟩
  · rw [Text.isEmpty, hcodes]
    rfl
  · intro c hc
    rw [hcodes] at hc
    obtain rfl : Code.char 'b' = c := Option.some.inj hc
    rfl
  · intro c hc
    rw [hcodes, List.getLast?_concat] at hc
    obtain rfl := Option.some.inj hc
    rw [quoteFor]
    split <;> rfl

end Text

theorem Value.isTrimmed_of_toTrimmed {v : Value} {t : Text} (h : v.toTrimmed = .ok (some t)) :
    t.IsTrimmed := by
  unfold toTrimmed at h
  split at h
  · cases h
  · cases v with
    | text u =>
      simp only [Except.ok.injEq, Option.ite_none_left_eq_some, Option.some.injEq] at h
      obtain ⟨hempty, rfl⟩ := h
      exact Text.isTrimmed_trim (Bool.eq_false_iff.mpr hempty)
    | bytes bs =>
      simp only [Except.ok.injEq, Option.ite_none_left_eq_some, Option.some.injEq] at h
      obtain ⟨-, rfl⟩ := h
      exact Text.isTrimmed_quoteBytes _
    | _ => cases h

namespace Query

def IsLocalBound (v : Value) : Prop := v = .null ∨ ∃ m : Moment, v = .moment m ∧ m.offset = none ∧ m.micro = 0

def IsFilterMap (v : Value) : Prop :=
  ∃ es, v = .map es ∧ ∀ e ∈ es, (∃ t, e.1 = .text t) ∧ ((∃ x, e.2 = .scalar x) ∨ ∃ xs, e.2 = .oneOf xs)

structure WellFormed (q : Query) : Prop where
  limit : ∃ n, q .limit = .int n ∧ 1 ≤ n
  offset : ∃ n, q .offset = .int n ∧ 0 ≤ n
  direction : q .direction = .text "asc" ∨ q .direction = .text "desc"
  types : IsTuple (q .types)
  statuses : IsTuple (q .statuses)
  buyerIds : IsTuple (q .buyerIds)
  keyword : q .keyword = .null ∨ ∃ t : Text, t.IsTrimmed ∧ q .keyword = .text ("%" ++ t ++ "%")
  orderNoLike : q .orderNoLike = .null ∨
    ∃ t : Text, t.IsTrimmed ∧ (q .orderNoLike = .text (t ++ "%") ∨ q .orderNoLike = .text ("%" ++ t ++ "%"))
  orderNo : q .orderNo = .null ∨ (q .orderNo).isEmpty = false
  createdFrom : IsLocalBound (q .createdFrom)
  createdTo : IsLocalBound (q .createdTo)
  updatedFrom : IsLocalBound (q .updatedFrom)
  updatedTo : IsLocalBound (q .updatedTo)
  amountMin : q .amountMin = .null ∨ ∃ d, q .amountMin = .decimal d
  amountMax : q .amountMax = .null ∨ ∃ d, q .amountMax = .decimal d
  relations : IsFilterMap (q .relations)
  indexedFields : IsFilterMap (q .indexedFields)

variable {xs : List Call} {c : Criterion} {v : Value}

theorem isLocalBound_of_isTimeBound (h : IsTimeBound v) : IsLocalBound v :=
  h.imp_right fun ⟨t, ht⟩ => ⟨.ofTimestamp t, ht, rfl, rfl⟩

theorem isFilterMap_of_isFilters (h : IsFilters v) : IsFilterMap v := by
  obtain ⟨fs, rfl, -⟩ := h
  refine ⟨fs.toEntries, rfl, fun e he => ?_⟩
  obtain ⟨⟨key, filter⟩, -, rfl⟩ := List.mem_map.mp he
  refine ⟨⟨key, rfl⟩, ?_⟩
  cases filter with
  | scalar x => exact .inl ⟨x, rfl⟩
  | oneOf vs => exact .inr ⟨vs, rfl⟩

theorem LastSet.cases (h : LastSet xs c v) :
    v = c.default ∨ ∃ (x : Call) (n : Int) (ws : Refinement.Writes),
      x.writes n = .ok ws ∧ (c, v) ∈ ws ∧ c ∈ x.refinement.criteria := by
  cases h with
  | unset hv _ => exact .inl hv
  | @set _ _ x n ws _ _ hws hv _ =>
    exact .inr ⟨x, n, ws, hws, hv, x.map_fst_writes hws ▸ List.mem_map_of_mem hv⟩

theorem of_mem_writeText {wrap : Text → Text} {text : Value} {ws : Refinement.Writes}
    (h : Refinement.writeText c wrap text = .ok ws) (hv : (c, v) ∈ ws) :
    v = .null ∨ ∃ t : Text, t.IsTrimmed ∧ v = .text (wrap t) := by
  obtain ⟨t, ht, rfl⟩ := map_eq_ok.mp h
  obtain rfl : v = _ := congrArg Prod.snd (List.mem_singleton.mp hv)
  cases t with
  | none => exact .inl rfl
  | some t => exact .inr ⟨t, Value.isTrimmed_of_toTrimmed ht, rfl⟩

theorem LastSet.keyword (h : LastSet xs .keyword v) :
    v = .null ∨ ∃ t : Text, t.IsTrimmed ∧ v = .text ("%" ++ t ++ "%") := by
  rcases h.cases with rfl | ⟨⟨now, r⟩, n, ws, hws, hv, hc⟩
  · exact .inl rfl
  · cases r with
    | keyword text => exact of_mem_writeText hws hv
    | _ => simp [Refinement.criteria] at hc

theorem LastSet.orderNoLike (h : LastSet xs .orderNoLike v) :
    v = .null ∨ ∃ t : Text, t.IsTrimmed ∧ (v = .text (t ++ "%") ∨ v = .text ("%" ++ t ++ "%")) := by
  rcases h.cases with rfl | ⟨⟨now, r⟩, n, ws, hws, hv, hc⟩
  · exact .inl rfl
  · cases r with
    | orderNoLike text prefixOnly =>
      refine (of_mem_writeText hws hv).imp_right fun ⟨t, ht, hwrap⟩ => ⟨t, ht, ?_⟩
      split at hwrap
      · exact .inr hwrap
      · exact .inl hwrap
    | _ => simp [Refinement.criteria] at hc

theorem wellFormed_follow (xs : List Call) : (default.follow xs).WellFormed := by
  have hq : ∀ c : Criterion, c.Admits (default.follow xs c) := (Built.default.follow xs).admits
  exact {
    limit := hq .limit
    offset := hq .offset
    direction := hq .direction
    types := hq .types
    statuses := hq .statuses
    buyerIds := hq .buyerIds
    keyword := (lastSet_follow xs .keyword).keyword
    orderNoLike := (lastSet_follow xs .orderNoLike).orderNoLike
    orderNo := hq .orderNo
    createdFrom := isLocalBound_of_isTimeBound (hq .createdFrom)
    createdTo := isLocalBound_of_isTimeBound (hq .createdTo)
    updatedFrom := isLocalBound_of_isTimeBound (hq .updatedFrom)
    updatedTo := isLocalBound_of_isTimeBound (hq .updatedTo)
    amountMin := hq .amountMin
    amountMax := hq .amountMax
    relations := isFilterMap_of_isFilters (hq .relations)
    indexedFields := isFilterMap_of_isFilters (hq .indexedFields) }

/-- Whatever is called, the query is well formed, and its conditions and its search can be made for any
tables. -/
theorem calls_lead_to_searches (xs : List Call) :
    (default.follow xs).WellFormed ∧
      ∀ tables, (∃ cs, Clause.ofQuery tables (default.follow xs) = .ok cs) ∧
        ∃ s, Search.ofQuery tables (default.follow xs) = .ok s := by
  refine ⟨wellFormed_follow xs, fun tables => ?_⟩
  obtain ⟨cs, hcs⟩ := exists_ofQuery tables (Built.default.follow xs).admits
  exact ⟨⟨cs, hcs⟩, _, map_eq_ok.mpr ⟨cs, hcs, rfl⟩⟩

end Query

end OrderStore
