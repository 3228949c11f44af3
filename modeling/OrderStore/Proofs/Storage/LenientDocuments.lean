import OrderStore.Proofs.Json.Grammar
import OrderStore.Proofs.Value.Plain
import OrderStore.Storage.Find

namespace OrderStore

open Json (IsDocument IsObject Short maxDepth)

def Value.documentCodes? : Value → Option (List Text.Code)
  | .text t => some t.codes
  | .bytes bs => Text.decodeBytes? bs
  | _ => none

def Value.documentNesting (v : Value) : Nat := v.documentCodes?.elim 0 Json.nesting

namespace Column

variable {v : Value} {cs : List Text.Code}

theorem ofDocument_ok {r : Except Json.Fault Json} (h : ∀ b, r ≠ .error (.tooDeep b)) :
    ∃ reading, ofDocument r = .ok reading ∧ (reading.malformed = true → reading.entries = []) := by
  unfold ofDocument
  split
  · exact ⟨_, rfl, fun _ => by contradiction⟩
  · exact ⟨_, rfl, fun _ => by contradiction⟩
  · exact ⟨_, rfl, fun _ => rfl⟩
  · exact absurd rfl (h _)

theorem read_ne_tooDeep {t : Text} (h : Json.nesting t.codes ≤ maxDepth) (b : Bool) :
    Json.read t ≠ .error (.tooDeep b) := by
  intro hread
  unfold Json.read at hread
  split at hread
  · cases hread
  · exact Nat.not_lt.mpr h (Json.nesting_of_readCodes hread)

theorem readBytes_ne_tooDeep {bs : List UInt8} (h : (Value.bytes bs).documentNesting ≤ maxDepth)
    (b : Bool) : Json.readBytes bs ≠ .error (.tooDeep b) := by
  intro hread
  rw [Value.documentNesting, Value.documentCodes?] at h
  rw [Json.readBytes] at hread
  cases hcs : Text.decodeBytes? bs with
  | none =>
    rw [hcs] at hread
    cases hread
  | some cs =>
    rw [hcs] at hread h
    exact Nat.not_lt.mpr h (Json.nesting_of_readCodes hread)

theorem decode_ok (h : v.documentNesting ≤ maxDepth) :
    ∃ reading, decode v = .ok reading ∧ (reading.malformed = true → reading.entries = []) := by
  cases v with
  | text t =>
    rw [decode]
    split
    · exact ⟨_, rfl, fun _ => rfl⟩
    · exact ofDocument_ok (read_ne_tooDeep h)
  | bytes bs => exact ofDocument_ok (readBytes_ne_tooDeep h)
  | map es => exact ⟨_, rfl, fun _ => by contradiction⟩
  | _ => exact ⟨_, rfl, fun _ => rfl⟩

theorem decode_document {admits : List Char → Prop} (hv : v.documentCodes? = some cs)
    (h : IsDocument admits cs) : decode v = ofDocument (Json.readCodes cs) := by
  obtain ⟨c, ds, rfl, hmark⟩ := h.exists_first
  cases v with
  | text t =>
    injection hv with hv
    have hne : t.isEmpty = false := by
      rw [Text.isEmpty, hv]
      rfl
    rw [decode, hne, Json.read_of_codes hv hmark, hv]
    rfl
  | bytes bs =>
    rw [Value.documentCodes?] at hv
    rw [decode, Json.readBytes, hv]
    rfl
  | _ => cases hv

theorem decode_read (hv : v.documentCodes? = some cs) (h : IsDocument Short cs)
    (hn : Json.nesting cs ≤ maxDepth) :
    (¬ IsObject cs → decode v = .ok ⟨[], false⟩) ∧
    (IsObject cs → ∃ ms, Json.readCodes cs = .ok (.object ms) ∧
      decode v = .ok ⟨Json.toEntries ms, false⟩) := by
  rw [decode_document hv h]
  rcases Json.readCodes_document h with ⟨j, hj, hobject⟩ | ⟨b, hb⟩
  · refine ⟨fun ho => ?_, fun ho => ?_⟩
    · rw [hj]
      cases j with
      | object ms => exact absurd (hobject.mp ⟨ms, rfl⟩) ho
      | _ => rfl
    · obtain ⟨ms, rfl⟩ := hobject.mpr ho
      rw [hj]
      exact ⟨ms, rfl, rfl⟩
  · exact absurd (Json.nesting_of_readCodes hb) (Nat.not_lt.mpr hn)

theorem decode_cut {u t : Text} (hu : encode v = .ok u) (ht : t.codes <+: u.codes) (hne : t ≠ u) :
    decode (.text t) = .ok ⟨[], !t.isEmpty⟩ := by
  obtain ⟨es, -, hes⟩ := bind_eq_ok.mp hu
  have hes : encodeEntries es = .ok u := by rwa [encodeEntries, encode, encode_map]
  obtain ⟨-, ms, -, -, hdepth, rfl⟩ := encodeEntries_ok hes
  cases hempty : t.isEmpty with
  | true =>
    rw [decode, hempty]
    rfl
  | false =>
    have hcodes : t.codes ≠ [] := by
      intro hnil
      rw [Text.isEmpty, hnil] at hempty
      cases hempty
    have hcut : t.codes ≠ (Json.object ms).codes := fun h => hne (congrArg Text.mk h)
    rw [decode, hempty, Json.read_cut_object hdepth ht hcodes hcut]
    rfl

end Column

namespace Order

def Row.value (row : Row) (column : Text) : Value := (row.get? column).getD .null

structure Row.Valid (now : WallClock) (row : Row) : Prop where
  columns : ∀ c ∈ plainColumns, row.contains c = true
  amount : row.value "amount" = .null ∨ ∃ d, (row.value "amount").toAmount = .ok d
  createdAt : ∃ s, (row.value "created_at").toTimestamp now = .ok s
  updatedAt : ∃ s, (row.value "updated_at").toTimestamp now = .ok s

variable {now : WallClock} {row : Row}

theorem Row.Valid.firstMissing? (h : row.Valid now) : row.firstMissing? plainColumns = none := by
  rw [Named.firstMissing?, List.find?_eq_none]
  intro c hc
  rw [h.columns c hc]
  decide

theorem Row.Valid.mappingAmount (h : row.Valid now) (ds : Named) :
    ∃ d, (mappingDraft (plainMapping row ++ ds) .amount).toAmount = .ok d := by
  change ∃ d, (if (row.value "amount").isNull then .int 0 else row.value "amount").toAmount = .ok d
  rcases h.amount with hnull | ⟨d, hd⟩
  · rw [hnull]
    exact ⟨_, rfl⟩
  · split
    · exact ⟨_, rfl⟩
    · exact ⟨d, hd⟩

theorem ofMapping_plain (h : row.Valid now) (attributes relations indexedFields : Value.Entries) :
    ∃ o, ofMapping now (plainMapping row ++ ([("attributes", .map attributes),
        ("relations", .map relations), ("indexed_fields", .map indexedFields)] : Named)) = .ok o ∧
      o.attributes = attributes ∧ o.relations = relations ∧ o.indexedFields = indexedFields := by
  generalize hds : ([("attributes", .map attributes), ("relations", .map relations),
    ("indexed_fields", .map indexedFields)] : Named) = ds
  have hmissing : (plainMapping row ++ ds).firstMissing? ["order_no", "type", "status"] = none := rfl
  obtain ⟨amount, hamount⟩ := h.mappingAmount ds
  obtain ⟨createdAt, hcreated⟩ := h.createdAt
  obtain ⟨updatedAt, hupdated⟩ := h.updatedAt
  have hcreated' : (mappingDraft (plainMapping row ++ ds) .createdAt).toTimestamp now = .ok createdAt :=
    hcreated
  have hupdated' : (mappingDraft (plainMapping row ++ ds) .updatedAt).toTimestamp now = .ok updatedAt :=
    hupdated
  have hattributes : (mappingDraft (plainMapping row ++ ds) .attributes).toEntries = .ok attributes := by
    subst hds
    exact Value.toEntries_map attributes
  have hrelations : (mappingDraft (plainMapping row ++ ds) .relations).toEntries = .ok relations := by
    subst hds
    exact Value.toEntries_map relations
  have hindexed : (mappingDraft (plainMapping row ++ ds) .indexedFields).toEntries = .ok indexedFields := by
    subst hds
    exact Value.toEntries_map indexedFields
  rw [ofMapping, hmissing]
  simp only [settle, hamount, hcreated', hupdated', hattributes, hrelations, hindexed]
  exact ⟨_, rfl, rfl, rfl, rfl⟩

theorem ofRow_lenient (h : row.Valid now) {attributes relations indexedFields : Column.Reading}
    (ha : Column.decode (row.value "attributes_json") = .ok attributes)
    (hr : Column.decode (row.value "relations_json") = .ok relations)
    (hi : Column.decode (row.value "indexed_fields_json") = .ok indexedFields) :
    ∃ o, ofRow now row = ⟨[attributes, relations, indexedFields].countP Column.Reading.malformed, .ok o⟩ ∧
      o.attributes = attributes.entries ∧ o.relations = relations.entries ∧
      o.indexedFields = indexedFields.entries := by
  obtain ⟨o, ho, hmaps⟩ :=
    ofMapping_plain h attributes.entries relations.entries indexedFields.entries
  refine ⟨o, ?_, hmaps⟩
  rw [Row.value] at ha hr hi
  simp only [ofRow, h.firstMissing?, documentColumns, readDocuments, ha, hr, hi, List.countP_cons,
    List.countP_nil]
  rw [← ho]
  rfl

end Order

namespace Storage

def warnings (readings : List Column.Reading) : List Event :=
  List.replicate (readings.countP Column.Reading.malformed) (.logged malformedDocument)

theorem loadOrder_lenient {w : World} {row : Order.Row} (h : row.Valid w.now)
    {attributes relations indexedFields : Column.Reading}
    (ha : Column.decode (row.value "attributes_json") = .ok attributes)
    (hr : Column.decode (row.value "relations_json") = .ok relations)
    (hi : Column.decode (row.value "indexed_fields_json") = .ok indexedFields) :
    ∃ o, Action.loadOrder row w =
        (.ok o, { w with trace := w.trace ++ warnings [attributes, relations, indexedFields] }) ∧
      o.attributes = attributes.entries ∧ o.relations = relations.entries ∧
      o.indexedFields = indexedFields.entries := by
  obtain ⟨o, ho, hmaps⟩ := Order.ofRow_lenient h ha hr hi
  refine ⟨o, ?_, hmaps⟩
  unfold Action.loadOrder
  simp only [Action.bind_apply, Action.present, Action.emitAll, Action.ofExcept, ho]
  rfl

/-- Documents that are not too deep never fail. In a row each map holds what its own column is read as, and
every malformed column is reported. A document that was cut off reads as nothing, and so does one that is
no object; an object is read as its members. -/
theorem documents_read_leniently :
    (∀ v : Value, v.documentNesting ≤ maxDepth →
      ∃ reading, Column.decode v = .ok reading ∧ (reading.malformed = true → reading.entries = [])) ∧
    (∀ (row : Order.Row) (w : World), row.Valid w.now →
      (∀ d ∈ Order.documentColumns, (row.value d.2).documentNesting ≤ maxDepth) →
      ∃ (o : Order) (attributes relations indexedFields : Column.Reading),
        Column.decode (row.value "attributes_json") = .ok attributes ∧
        Column.decode (row.value "relations_json") = .ok relations ∧
        Column.decode (row.value "indexed_fields_json") = .ok indexedFields ∧
        Action.loadOrder row w =
          (.ok o, { w with trace := w.trace ++ warnings [attributes, relations, indexedFields] }) ∧
        o.attributes = attributes.entries ∧ o.relations = relations.entries ∧
        o.indexedFields = indexedFields.entries) ∧
    (∀ (v : Value) (u t : Text), Column.encode v = .ok u → t.codes <+: u.codes → t ≠ u →
      Column.decode (.text t) = .ok ⟨[], !t.isEmpty⟩) ∧
    (∀ (v : Value) (cs : List Text.Code), v.documentCodes? = some cs → IsDocument Short cs →
      Json.nesting cs ≤ maxDepth →
      (¬ IsObject cs → Column.decode v = .ok ⟨[], false⟩) ∧
      (IsObject cs → ∃ ms, Json.readCodes cs = .ok (.object ms) ∧
        Column.decode v = .ok ⟨Json.toEntries ms, false⟩)) := by
  refine ⟨fun v hv => Column.decode_ok hv, ?_, fun v u t hu ht hne => Column.decode_cut hu ht hne,
    fun v cs hv h hn => Column.decode_read hv h hn⟩
  intro row w hrow hdeep
  have hread (d : Field × Text) (hd : d ∈ Order.documentColumns) := Column.decode_ok (hdeep d hd)
  obtain ⟨attributes, ha, -⟩ := hread (.attributes, "attributes_json") (by decide)
  obtain ⟨relations, hr, -⟩ := hread (.relations, "relations_json") (by decide)
  obtain ⟨indexedFields, hi, -⟩ := hread (.indexedFields, "indexed_fields_json") (by decide)
  obtain ⟨o, ho, hmaps⟩ := loadOrder_lenient hrow ha hr hi
  exact ⟨o, attributes, relations, indexedFields, ha, hr, hi, ho, hmaps⟩

theorem documents_read_leniently_cut :
    let cut : Text := "\x7b\"a\": \"\x7d\""
    let other : Text := "[ ]"
    let w : World := ⟨.ofTimestamp ⟨⟨2024, 1, 31, by decide⟩, .midnight⟩, [], .empty, true, []⟩
    let row : Order.Row :=
      [("id", .int 7), ("order_no", .text "A-1"), ("type", .text "sale"), ("status", .text "open"),
        ("amount", .null), ("currency", .null), ("buyer_id", .null), ("created_at", .null),
        ("updated_at", .null), ("attributes_json", .text cut), ("relations_json", .text other)]
    (∃ reading, Column.decode (.bytes [91, 255]) = .ok reading ∧
      (reading.malformed = true → reading.entries = [])) ∧
    (∃ o, Action.loadOrder row w = (.ok o, { w with trace := [.logged malformedDocument] }) ∧
      o.attributes = [] ∧ o.relations = []) ∧
    Column.decode (.text cut) = .ok ⟨[], true⟩ ∧ Column.decode (.text other) = .ok ⟨[], false⟩ := by
  intro cut other w row
  obtain ⟨hall, hrow, hcut, hother⟩ := documents_read_leniently
  have hwritten : Column.encode (.map [(.text "a", .text "\x7d")]) = .ok "\x7b\"a\": \"\x7d\"\x7d" := rfl
  have hcut : Column.decode (.text cut) = .ok ⟨[], true⟩ :=
    hcut _ _ cut hwritten ⟨[.char '\x7d'], rfl⟩ (by decide)
  have hdocument : IsDocument Short other.codes :=
    ⟨[], _, [], rfl, List.forall_mem_nil _, .emptyList (g := [.char ' ']) (by simp [Json.IsGaps]),
      List.forall_mem_nil _⟩
  have hother : Column.decode (.text other) = .ok ⟨[], false⟩ :=
    (hother _ _ rfl hdocument (by decide)).1 (by decide)
  have hvalid : row.Valid w.now := ⟨by decide, .inl rfl, ⟨_, rfl⟩, ⟨_, rfl⟩⟩
  refine ⟨hall _ (by decide), ?_, hcut, hother⟩
  obtain ⟨o, attributes, relations, indexedFields, ha, hr, hi, hload, hattributes, hrelations, -⟩ :=
    hrow row w hvalid (by decide)
  cases hcut.symm.trans ha
  cases hother.symm.trans hr
  cases hi
  exact ⟨o, hload, hattributes, hrelations⟩

/-- An integer of too many digits is reported, although it is a document and no object. -/
theorem long_integer_reported :
    let cs : List Text.Code := (List.replicate 4301 '1').map .char
    IsDocument (fun _ => True) cs ∧ ¬ IsObject cs ∧ Json.nesting cs ≤ maxDepth ∧
      Column.decode (.text ⟨cs⟩) = .ok ⟨[], true⟩ := by
  intro cs
  have hdigits (c : Char) (hc : c ∈ List.replicate 4301 '1') : Text.isDigit c = true := by
    rw [List.eq_of_mem_replicate hc]
    rfl
  have hwhole : Json.IsWhole (List.replicate 4301 '1') :=
    .digits (by decide) ⟨List.cons_ne_nil _ _, hdigits⟩
  have hnumber : Json.IsNumber (fun _ => True) (List.replicate 4301 '1') := by
    have h : Json.IsNumber (fun _ => True) ([] ++ (List.replicate 4301 '1' ++ ([] ++ []))) :=
      .parts (.inl rfl) hwhole .none .none fun _ _ => trivial
    rwa [List.nil_append, List.append_nil, List.append_nil] at h
  have hdocument : IsDocument (fun _ => True) cs :=
    ⟨[], cs, [], (List.append_nil cs).symm, List.forall_mem_nil _, .number hnumber, List.forall_mem_nil _⟩
  refine ⟨hdocument, ?_, ?_, ?_⟩
  · have hskip : Json.skip cs = cs := Json.skip_char (c := '1') _ rfl
    rw [IsObject, hskip]
    intro h
    cases h
  · have hplain : ∀ c ∈ cs, Json.IsPlain c :=
      Json.isPlain_of_mem fun c hc => Json.isPlain_of_isDigit (hdigits c hc)
    exact Nat.le_trans ((Json.Stretch.plain (k := 0) hplain) 0).2.2 (Nat.zero_le _)
  · rw [Column.decode_document rfl hdocument, Json.readCodes_long hwhole]
    · rfl
    · rw [List.length_replicate]
      decide

end Storage

end OrderStore
