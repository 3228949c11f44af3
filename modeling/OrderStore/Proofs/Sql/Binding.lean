import OrderStore.Proofs.Sql.BoundNames

namespace OrderStore

theorem Named.get?_of_mem {ns : Named} {b : Text × Value} (hnodup : (ns.map Prod.fst).Nodup) (hb : b ∈ ns) :
    ns.get? b.1 = some b.2 := by
  induction ns with
  | nil => cases hb
  | cons e ns ih =>
    obtain ⟨he, hrest⟩ := List.nodup_cons.mp hnodup
    rw [get?, Assoc.get?]
    rcases List.mem_cons.mp hb with rfl | hb
    · simp
    · have hne : e.1 ≠ b.1 := fun h => he (h ▸ List.mem_map_of_mem hb)
      simpa [hne, get?] using ih hrest hb

namespace Sql

namespace Clause

def whereTemplate : List Clause → Template
  | [] => []
  | cs => .literal "WHERE " ++ (Template.literal " AND ").intercalate (cs.map fun c => c.condition.template)

variable {tables : Tables} {q : Query} {cs : List Clause} {ps : List Predicate}

theorem AllMean.plain (h : AllMean tables cs ps) : ∀ c ∈ cs, c.condition.Plain := by
  induction h with
  | nil =>
    intro c hc
    cases hc
  | cons hc _ ih =>
    intro d hd
    rcases List.mem_cons.mp hd with rfl | hd
    · exact hc.plain
    · exact ih d hd

theorem AllMean.values (h : AllMean tables cs ps) :
    (allBindings cs).map Prod.snd = ps.flatMap Predicate.values := by
  induction h with
  | nil => rfl
  | cons hc _ ih =>
    rw [List.flatMap_cons, ← ih, ← hc.values, ← List.map_append]
    rfl

theorem AllMean.names (h : AllMean tables cs ps) (n : Text) :
    n ∈ cs.flatMap (fun c => c.condition.template.names) ↔ n ∈ (allBindings cs).map Prod.fst := by
  induction h with
  | nil => rfl
  | cons hc _ ih =>
    rw [List.flatMap_cons, allBindings, List.flatMap_cons, List.map_append]
    rw [List.mem_append, List.mem_append]
    exact or_congr (hc.names n) ih

theorem AllMean.fills (h : AllMean tables cs ps) {f : Text → Option Value}
    (hf : ∀ b ∈ allBindings cs, f b.1 = some b.2) :
    List.Forall₂ (fun c p => c.condition.template.fill f = some (p.pieces tables)) cs ps := by
  induction h with
  | nil => exact .nil
  | cons hc _ ih =>
    refine .cons (hc.fills f ?_) (ih ?_)
    · exact fun b hb => hf b (List.mem_append_left _ hb)
    · exact fun b hb => hf b (List.mem_append_right _ hb)

theorem scans_whereText (h : ∀ c ∈ cs, c.condition.Plain) : Scans (whereText cs) (whereTemplate cs) := by
  have hwhere : Scans "WHERE " (.literal "WHERE ") := .literal (by decide)
  have hand : Scans " AND " (.literal " AND ") := .literal (by decide)
  cases cs with
  | nil => exact .literal (by decide)
  | cons c cs => exact hwhere.append (.intercalate hand fun d hd => (h d hd).scans)

theorem nests_whereText (h : ∀ c ∈ cs, c.condition.Plain) (hne : cs ≠ []) : Nests (whereText cs) := by
  have hwhere : Nests "WHERE " := .literal (by decide) (by decide)
  have hand : Nests " AND " := .literal (by decide) (by decide)
  obtain ⟨c, cs, rfl⟩ := List.exists_cons_of_ne_nil hne
  apply hwhere.append
  apply hand.intercalate (by simp)
  intro t ht
  obtain ⟨d, hd, rfl⟩ := List.mem_map.mp ht
  exact (h d hd).nests

theorem names_whereTemplate (cs : List Clause) :
    (whereTemplate cs).names = cs.flatMap fun c => c.condition.template.names := by
  cases cs with
  | nil => rfl
  | cons c cs =>
    have htemplate : whereTemplate (c :: cs) = .literal "WHERE " ++
        (Template.literal " AND ").intercalate ((c :: cs).map fun c => c.condition.template) := rfl
    rw [htemplate, Template.names_append, Template.names_literal, Template.names_intercalate,
      List.flatMap_map]
    rfl

theorem AllMean.fill_whereTemplate (h : AllMean tables cs ps) {f : Text → Option Value}
    (hf : ∀ b ∈ allBindings cs, f b.1 = some b.2) :
    (whereTemplate cs).fill f = some (Predicate.wherePieces tables ps) := by
  have hfills := h.fills hf
  cases h with
  | nil => rfl
  | cons hc h =>
    have hchain := Template.fill_intercalate " AND " hfills
    exact Template.fill_append (Template.fill_literal _) hchain

theorem nodup_names (h : ofQuery tables q = .ok cs) : ((allBindings cs).map Prod.fst).Nodup := by
  obtain ⟨slots, hslots, hnodup, -⟩ := named_ofQuery h
  rw [hslots]
  exact Slot.name_nodup hnodup

theorem scan_whereText (h : ofQuery tables q = .ok cs) : scan (whereText cs) = some (whereTemplate cs) :=
  (scans_whereText (means_ofQuery h).plain).scan_eq

theorem fill_whereTemplate_ofQuery (h : ofQuery tables q = .ok cs) :
    (whereTemplate cs).fill (fun n => Named.get? n (allBindings cs)) =
      some (Predicate.wherePieces tables (Predicate.ofQuery q)) :=
  (means_ofQuery h).fill_whereTemplate fun _ hb => Named.get?_of_mem (nodup_names h) hb

end Clause

namespace Sorting

theorem sortColumn_mem (v : Value) : sortColumn v ∈ sortableColumns := by
  have hdefault : Criterion.defaultColumn ∈ sortableColumns := by decide
  cases v with
  | text t =>
    rw [sortColumn]
    split
    · rename_i h
      exact List.contains_iff_mem.mp h
    · exact hdefault
  | _ => exact hdefault

theorem bare_sortColumn (v : Value) : Bare (sortColumn v) := by
  have hall : ∀ t ∈ sortableColumns, Bare t := by decide
  exact hall _ (sortColumn_mem v)

theorem bare_text (q : Query) : Bare (Sorting.ofQuery q).text := by
  have hcolumn : Bare (Sorting.ofQuery q).column := bare_sortColumn _
  have hdirection : Bare (if (Sorting.ofQuery q).ascending then "ASC" else "DESC" : Text) := by
    split <;> decide
  have horder : Bare "ORDER BY " := by decide
  have hid : Bare "ORDER BY id " := by decide
  have hblank : Bare " " := by decide
  have hnext : Bare ", id " := by decide
  rw [Sorting.text]
  split
  · exact hid.append hdirection
  · exact ((((horder.append hcolumn).append hblank).append hdirection).append hnext).append hdirection

end Sorting

namespace Search

structure Part where
  text : Text
  template : Template
  scans : Scans text template
  nests : text.isEmpty = false → Nests text

namespace Part

theorem names_eq_nil {p : Part} (h : p.text.isEmpty = true) : p.template.names = [] := by
  have hcodes : p.text.codes = [] := List.isEmpty_iff.mp h
  have hscan := p.scans []
  rw [hcodes] at hscan
  have htemplate : [] = p.template ++ [] := Option.some.inj hscan
  rw [List.append_nil] at htemplate
  rw [← htemplate]
  rfl

end Part

variable {parts : List Part}

theorem joinParts_map (parts : List Part) :
    joinParts (parts.map Part.text) =
      .intercalate " " ((parts.filter fun p => !p.text.isEmpty).map Part.text) := by
  rw [joinParts, List.filter_map]
  rfl

theorem names_filter (parts : List Part) :
    (parts.filter fun p => !p.text.isEmpty).flatMap (fun x => x.template.names) =
      parts.flatMap fun x => x.template.names := by
  induction parts with
  | nil => rfl
  | cons x parts ih =>
    cases hx : x.text.isEmpty with
    | true =>
      rw [List.filter_cons_of_neg (by simp [hx]), List.flatMap_cons, Part.names_eq_nil hx, ih]
      rfl
    | false => rw [List.filter_cons_of_pos (by simp [hx]), List.flatMap_cons, List.flatMap_cons, ih]

theorem scans_joinParts (parts : List Part) :
    ∃ p, Scans (joinParts (parts.map Part.text)) p ∧ p.names = parts.flatMap fun x => x.template.names := by
  have hblank : Scans " " (.literal " ") := .literal (by decide)
  have hparts : ∀ x ∈ parts.filter fun p => !p.text.isEmpty, Scans x.text x.template := fun x _ => x.scans
  have hscans := hblank.intercalate hparts
  rw [← joinParts_map] at hscans
  refine ⟨_, hscans, ?_⟩
  rw [Template.names_intercalate, List.flatMap_map]
  exact names_filter parts

theorem nests_joinParts (parts : List Part) {x : Part} (hx : x ∈ parts) (hne : x.text.isEmpty = false) :
    Nests (joinParts (parts.map Part.text)) := by
  have hblank : Nests " " := .literal (by decide) (by decide)
  rw [joinParts_map]
  apply hblank.intercalate
  · intro hnil
    have hmem : x ∈ parts.filter fun p => !p.text.isEmpty := List.mem_filter.mpr ⟨hx, by simp [hne]⟩
    rw [List.map_eq_nil_iff.mp hnil] at hmem
    cases hmem
  · intro t ht
    obtain ⟨y, hy, rfl⟩ := List.mem_map.mp ht
    have hfull := (List.mem_filter.mp hy).2
    exact y.nests (by simpa using hfull)

def fromPart (columns : Text) (hscans : Lacks '%' columns) (hnests : Nests columns) (orders : TableName) :
    Part where
  text := columns ++ orders.text
  template := .literal (columns ++ orders.text)
  scans := .literal (hscans.append orders.bare_text.percent)
  nests := fun _ => hnests.append orders.bare_text.nests

def wherePart (cs : List Clause) (h : ∀ c ∈ cs, c.condition.Plain) : Part where
  text := Clause.whereText cs
  template := Clause.whereTemplate cs
  scans := Clause.scans_whereText h
  nests := by
    intro hne
    apply Clause.nests_whereText h
    rintro rfl
    cases hne

def sortingPart (q : Query) : Part where
  text := (Sorting.ofQuery q).text
  template := .literal (Sorting.ofQuery q).text
  scans := .literal (Sorting.bare_text q).percent
  nests := fun _ => (Sorting.bare_text q).nests

def limitSlot : Slot := ⟨.criterion .limit, []⟩

def offsetSlot : Slot := ⟨.criterion .offset, []⟩

def pagePart : Part where
  text := "LIMIT " ++ placeholder limitSlot.name ++ " OFFSET " ++ placeholder offsetSlot.name
  template := Template.literal "LIMIT " ++ [.name limitSlot.name] ++ Template.literal " OFFSET " ++
    [.name offsetSlot.name]
  scans := by
    have hlimit : Scans "LIMIT " (.literal "LIMIT ") := .literal (by decide)
    have hoffset : Scans " OFFSET " (.literal " OFFSET ") := .literal (by decide)
    exact ((hlimit.append limitSlot.isName.scans).append hoffset).append offsetSlot.isName.scans
  nests := by
    intro _
    have hlimit : Nests "LIMIT " := .literal (by decide) (by decide)
    have hoffset : Nests " OFFSET " := .literal (by decide) (by decide)
    exact ((hlimit.append limitSlot.isName.nests).append hoffset).append offsetSlot.isName.nests

theorem names_fromPart {columns : Text} {hscans : Lacks '%' columns} {hnests : Nests columns}
    {orders : TableName} : (fromPart columns hscans hnests orders).template.names = [] :=
  Template.names_literal _

theorem names_sortingPart (q : Query) : (sortingPart q).template.names = [] := Template.names_literal _

theorem names_pagePart : pagePart.template.names = ["limit", "offset"] := by
  rw [pagePart, Template.names_append, Template.names_append, Template.names_append, Template.names_literal,
    Template.names_literal]
  rfl

/-- Every percent sign of the statements starts a placeholder, their parentheses close and none of them
is empty, and placeholders and parameters name each other: each parameter is bound once, and its value
stands in the place of its own predicate. -/
structure Binds (tables : Tables) (q : Query) (s : Search) : Prop where
  whereScan : ∃ p, scan s.whereText = some p ∧ (∀ n, n ∈ p.names ↔ n ∈ s.params.map Prod.fst) ∧
    p.fill (fun n => s.params.get? n) = some (Predicate.wherePieces tables (Predicate.ofQuery q))
  countScan : ∃ p, scan s.countText = some p ∧ ∀ n, n ∈ p.names ↔ n ∈ s.params.map Prod.fst
  selectScan : ∃ p, scan s.selectText = some p ∧
    ∀ n, n ∈ p.names ↔ n ∈ s.params.map Prod.fst ∨ n ∈ [("limit" : Text), "offset"]
  paging : ∀ n ∈ [("limit" : Text), "offset"], n ∉ s.params.map Prod.fst
  names : (s.params.map Prod.fst).Nodup
  values : s.params.map Prod.snd = (Predicate.ofQuery q).flatMap Predicate.values
  countNests : depthAfter 0 false s.countText.codes = some 0
  selectNests : depthAfter 0 false s.selectText.codes = some 0

theorem binds_ofQuery {tables : Tables} {q : Query} {s : Search} (h : ofQuery tables q = .ok s) :
    s.Binds tables q := by
  obtain ⟨cs, hcs, rfl⟩ := map_eq_ok.mp h
  have hmeans := Clause.means_ofQuery hcs
  obtain ⟨slots, hslots, -, hstems⟩ := Clause.named_ofQuery hcs
  have hselect : Nests "SELECT * FROM " := .literal (by decide) (by decide)
  have hcount : Nests "SELECT COUNT(*) FROM " := by
    have hname : Nests "SELECT COUNT" := .literal (by decide) (by decide)
    have hstar : Nests "*" := .literal (by decide) (by decide)
    have hfrom : Nests " FROM " := .literal (by decide) (by decide)
    exact (hname.append hstar.parenthesised).append hfrom
  let select := fromPart "SELECT * FROM " (by decide) hselect tables.orders
  let count := fromPart "SELECT COUNT(*) FROM " (by decide) hcount tables.orders
  let filter := wherePart cs hmeans.plain
  have hfilter (n : Text) : n ∈ filter.template.names ↔ n ∈ (Clause.allBindings cs).map Prod.fst := by
    rw [← hmeans.names]
    change n ∈ (Clause.whereTemplate cs).names ↔ _
    rw [Clause.names_whereTemplate]
  constructor
  case whereScan =>
    exact ⟨_, Clause.scan_whereText hcs, hfilter, Clause.fill_whereTemplate_ofQuery hcs⟩
  case countScan =>
    obtain ⟨p, hp, hpnames⟩ := scans_joinParts [count, filter]
    refine ⟨p, hp.scan_eq, ?_⟩
    intro n
    change _ ↔ n ∈ (Clause.allBindings cs).map Prod.fst
    rw [hpnames, ← hfilter]
    simp [count, names_fromPart]
  case selectScan =>
    obtain ⟨p, hp, hpnames⟩ := scans_joinParts [select, filter, sortingPart q, pagePart]
    refine ⟨p, hp.scan_eq, ?_⟩
    intro n
    change _ ↔ n ∈ (Clause.allBindings cs).map Prod.fst ∨ _
    rw [hpnames, ← hfilter]
    simp [select, names_fromPart, names_sortingPart, names_pagePart]
  case paging =>
    intro n hn hmem
    change n ∈ (Clause.allBindings cs).map Prod.fst at hmem
    rw [hslots] at hmem
    obtain ⟨s, hs, rfl⟩ := List.mem_map.mp hmem
    have hstem := hstems s hs
    rcases List.mem_pair.mp hn with hlimit | hoffset
    · have hs : s = limitSlot := Slot.name_injective hlimit
      rw [hs] at hstem
      exact absurd hstem (by decide)
    · have hs : s = offsetSlot := Slot.name_injective hoffset
      rw [hs] at hstem
      exact absurd hstem (by decide)
  case names => exact Clause.nodup_names hcs
  case values => exact hmeans.values
  case countNests =>
    have hne : count.text.isEmpty = false := rfl
    exact (nests_joinParts [count, filter] List.mem_cons_self hne).depthAfter_eq
  case selectNests =>
    have hne : select.text.isEmpty = false := rfl
    have h : Nests _ := nests_joinParts [select, filter, sortingPart q, pagePart] List.mem_cons_self hne
    exact h.depthAfter_eq

theorem binds_ofQuery_choices :
    let q := assignAll [(.types, .tuple [.text "a", .text "b"]), (.buyerId, .int 7),
      (.relations, .map [(.text "k", .oneOf [.text "x", .text "y"]), (.text "l", .scalar (.text "z"))])]
      Query.default
    ∃ s, ofQuery .default q = .ok s ∧ s.params.length = 8 ∧ s.Binds .default q :=
  ⟨_, rfl, rfl, binds_ofQuery rfl⟩

end Search

end Sql

end OrderStore
