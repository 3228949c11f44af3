import OrderStore.Proofs.Calendar.StoredText
import OrderStore.Proofs.Except
import OrderStore.Proofs.Order.Equality
import OrderStore.Proofs.Value.Plain
import OrderStore.Storage.Find

namespace OrderStore

open Value (Plain)

structure Order.Storable (o : Order) : Prop where
  currency : ∃ t : Text, o.currency = .text t ∧ t.isEmpty = false
  buyer : o.buyerId = .null ∨ ∃ t, o.buyerId = .text t
  amount : o.amount.isNaN = false
  createdAt : 1000 ≤ o.createdAt.date.year
  attributes : Plain (.map o.attributes)
  relations : Plain (.map o.relations)
  indexedFields : Plain (.map o.indexedFields)

namespace Storage

def writtenColumns (o : Order) (stamp : Timestamp) (attributes relations indexedFields : Text) :
    Order.Row :=
  [("type", .text o.type), ("status", .text o.status), ("amount", .decimal o.amount),
    ("currency", o.currency), ("buyer_id", if o.buyerId.isNull then .null else .text o.buyerId.keyText),
    ("attributes_json", .text attributes), ("relations_json", .text relations),
    ("indexed_fields_json", .text indexedFields), ("updated_at", .text stamp.text)]

theorem savedColumns_ok {o : Order} {stamp : Timestamp} {row : Order.Row}
    (h : savedColumns o stamp = .ok row) :
    ∃ attributes relations indexedFields, Column.encodeEntries o.attributes = .ok attributes ∧
      Column.encodeEntries o.relations = .ok relations ∧
      Column.encodeEntries o.indexedFields = .ok indexedFields ∧
      row = writtenColumns o stamp attributes relations indexedFields := by
  obtain ⟨attributes, ha, h⟩ := bind_eq_ok.mp h
  obtain ⟨relations, hr, h⟩ := bind_eq_ok.mp h
  obtain ⟨indexedFields, hi, h⟩ := bind_eq_ok.mp h
  cases h
  exact ⟨attributes, relations, indexedFields, ha, hr, hi, rfl⟩

theorem savedColumns_eq {o : Order} {stamp : Timestamp} {attributes relations indexedFields : Text}
    (ha : Column.encodeEntries o.attributes = .ok attributes)
    (hr : Column.encodeEntries o.relations = .ok relations)
    (hi : Column.encodeEntries o.indexedFields = .ok indexedFields) :
    savedColumns o stamp = .ok (writtenColumns o stamp attributes relations indexedFields) := by
  simp only [savedColumns, ha, hr, hi]
  rfl

def storedRow (o : Order) (columns : Order.Row) : Order.Row :=
  columns ++
    ([("order_no", .text o.orderNo), ("created_at", .text o.createdAt.text), ("id", o.id)] : Order.Row)

def IsRowOf (row : Order.Row) (o : Order) : Prop :=
  ∃ columns, savedColumns o o.updatedAt = .ok columns ∧ row = storedRow o columns

namespace IsRowOf

variable {row : Order.Row} {o : Order}

theorem column_id (h : IsRowOf row o) : Contents.column "id" row = .ok o.id := by
  obtain ⟨columns, hc, rfl⟩ := h
  obtain ⟨attributes, relations, indexedFields, -, -, -, rfl⟩ := savedColumns_ok hc
  rfl

theorem column_orderNo (h : IsRowOf row o) : Contents.column "order_no" row = .ok (.text o.orderNo) := by
  obtain ⟨columns, hc, rfl⟩ := h
  obtain ⟨attributes, relations, indexedFields, -, -, -, rfl⟩ := savedColumns_ok hc
  rfl

theorem ne_nil (h : IsRowOf row o) : row ≠ [] := by
  obtain ⟨columns, hc, rfl⟩ := h
  simp [storedRow]

end IsRowOf

theorem storedBuyer {o : Order} (ho : o.Storable) :
    (if o.buyerId.isNull then Value.null else .text o.buyerId.keyText) = o.buyerId := by
  rcases ho.buyer with h | ⟨t, h⟩ <;> rw [h] <;> rfl

def storedMapping (o : Order) : Named :=
  [("id", o.id), ("order_no", .text o.orderNo), ("type", .text o.type), ("status", .text o.status),
    ("amount", .decimal o.amount), ("currency", o.currency), ("buyer_id", o.buyerId),
    ("created_at", .text o.createdAt.text), ("updated_at", .text o.updatedAt.text),
    ("attributes", .map o.attributes), ("relations", .map o.relations),
    ("indexed_fields", .map o.indexedFields)]

theorem ofMapping_storedMapping {o : Order} (ho : o.Storable) (hu : 1000 ≤ o.updatedAt.date.year)
    (now : WallClock) : Order.ofMapping now (storedMapping o) = .ok o := by
  obtain ⟨t, ht, hne⟩ := ho.currency
  have hmissing : (storedMapping o).firstMissing? ["order_no", "type", "status"] = none := rfl
  have hcurrency : Order.mappingDraft (storedMapping o) .currency = o.currency := by
    have hempty : o.currency.isEmpty = false := by
      rw [ht]
      exact hne
    change (if o.currency.isEmpty then .text Settings.default.currency else o.currency) = o.currency
    rw [hempty]
    rfl
  have hamount : (Order.mappingDraft (storedMapping o) .amount).toAmount = .ok o.amount := rfl
  have hcreated : (Order.mappingDraft (storedMapping o) .createdAt).toTimestamp now = .ok o.createdAt :=
    Value.toTimestamp_stored now ho.createdAt
  have hupdated : (Order.mappingDraft (storedMapping o) .updatedAt).toTimestamp now = .ok o.updatedAt :=
    Value.toTimestamp_stored now hu
  have hattributes : (Order.mappingDraft (storedMapping o) .attributes).toEntries = .ok o.attributes :=
    Value.toEntries_map o.attributes
  have hrelations : (Order.mappingDraft (storedMapping o) .relations).toEntries = .ok o.relations :=
    Value.toEntries_map o.relations
  have hindexed : (Order.mappingDraft (storedMapping o) .indexedFields).toEntries = .ok o.indexedFields :=
    Value.toEntries_map o.indexedFields
  rw [Order.ofMapping, hmissing]
  simp only [Order.settle, hamount, hcreated, hupdated, hattributes, hrelations, hindexed, hcurrency]
  rfl

theorem ofRow_result {row : Order.Row} {o : Order} (h : IsRowOf row o) (ho : o.Storable)
    (hu : 1000 ≤ o.updatedAt.date.year) (now : WallClock) : (Order.ofRow now row).result = .ok o := by
  obtain ⟨columns, hc, rfl⟩ := h
  obtain ⟨attributes, relations, indexedFields, ha, hr, hi, rfl⟩ := savedColumns_ok hc
  have hattributes := Column.decode_encodeEntries ho.attributes ha
  have hrelations := Column.decode_encodeEntries ho.relations hr
  have hindexed := Column.decode_encodeEntries ho.indexedFields hi
  generalize hrow : storedRow o (writtenColumns o o.updatedAt attributes relations indexedFields) = row
  have hmissing : row.firstMissing? Order.plainColumns = none := by
    subst hrow
    rfl
  have hdocuments : Order.readDocuments row Order.documentColumns =
      ⟨0, .ok [("attributes", .map o.attributes), ("relations", .map o.relations),
        ("indexed_fields", .map o.indexedFields)]⟩ := by
    have hget₁ : row.get? "attributes_json" = some (.text attributes) := by
      subst hrow
      rfl
    have hget₂ : row.get? "relations_json" = some (.text relations) := by
      subst hrow
      rfl
    have hget₃ : row.get? "indexed_fields_json" = some (.text indexedFields) := by
      subst hrow
      rfl
    simp only [Order.documentColumns, Order.readDocuments, hget₁, hget₂, hget₃, Option.getD_some,
      hattributes, hrelations, hindexed]
    rfl
  have hplain : Order.plainMapping row ++ ([("attributes", .map o.attributes),
      ("relations", .map o.relations), ("indexed_fields", .map o.indexedFields)] : Named) =
      storedMapping o := by
    subst hrow
    rw [storedMapping, ← storedBuyer ho]
    rfl
  simp only [Order.ofRow, hmissing, hdocuments, Except.bind, hplain]
  exact ofMapping_storedMapping ho hu now

theorem ofRow_congr {row row' : Order.Row} (now : WallClock)
    (hplain : ∀ c ∈ Order.plainColumns, row.get? c = row'.get? c)
    (hdocuments : ∀ d ∈ Order.documentColumns, row.get? d.2 = row'.get? d.2) :
    Order.ofRow now row = Order.ofRow now row' := by
  have hmissing (names : List Text) (h : ∀ c ∈ names, row.get? c = row'.get? c) :
      row.firstMissing? names = row'.firstMissing? names := by
    induction names with
    | nil => rfl
    | cons c names ih =>
      have hrest := ih fun c' hc' => h c' (List.mem_cons_of_mem _ hc')
      have hfirst : row.contains c = row'.contains c := by
        rw [← Named.isSome_get?, ← Named.isSome_get?, h c List.mem_cons_self]
      simp only [Named.firstMissing?, List.find?_cons] at hrest ⊢
      rw [hfirst, hrest]
  have hread (columns : List (Field × Text)) (h : ∀ d ∈ columns, row.get? d.2 = row'.get? d.2) :
      Order.readDocuments row columns = Order.readDocuments row' columns := by
    induction columns with
    | nil => rfl
    | cons d columns ih =>
      have hrest := ih fun d' hd' => h d' (List.mem_cons_of_mem _ hd')
      simp only [Order.readDocuments, h d List.mem_cons_self, hrest]
  have hmapping : Order.plainMapping row = Order.plainMapping row' := by
    apply List.map_congr_left
    intro c hc
    rw [hplain c hc]
  simp only [Order.ofRow, hmissing _ hplain, hread _ hdocuments, hmapping]

end Storage

end OrderStore
