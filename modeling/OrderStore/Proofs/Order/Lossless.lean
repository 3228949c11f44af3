import OrderStore.Proofs.Calendar.StoredText
import OrderStore.Proofs.Order.Equality
import OrderStore.Proofs.Order.Obtained
import OrderStore.Proofs.Value.Amount

namespace OrderStore

namespace Order

structure Lossless (o : Order) : Prop where
  amount : o.amount.isNaN = false
  inRange : o.amount.InRange
  currency : o.currency.isEmpty = false
  createdAt : 1000 ≤ o.createdAt.date.year
  updatedAt : 1000 ≤ o.updatedAt.date.year

def readCurrency (o : Order) : Value :=
  if o.currency.isEmpty then .text Settings.default.currency else o.currency

theorem ofMapping_toMapping (now : WallClock) (o : Order) :
    ofMapping now o.toMapping = (do
      let amount ← (Value.text o.amount.text).toAmount
      let createdAt ← (Value.text o.createdAt.text).toTimestamp now
      let updatedAt ← (Value.text o.updatedAt.text).toTimestamp now
      return { o with currency := o.readCurrency, amount, createdAt, updatedAt }) := by
  have hdraft : mappingDraft o.toMapping = fun f => match f with
      | .amount => .text o.amount.text
      | .currency => o.readCurrency
      | .createdAt => .text o.createdAt.text
      | .updatedAt => .text o.updatedAt.text
      | f => o.draft f := by
    funext f
    cases f <;> rfl
  have hread : ofMapping now o.toMapping = settle now (mappingDraft o.toMapping) := rfl
  rw [hread, hdraft]
  simp only [settle, draft, Value.toEntries_map]
  rfl

theorem Lossless.ofMapping_toMapping {o : Order} (h : o.Lossless) (now : WallClock) :
    ofMapping now o.toMapping = .ok o := by
  have hcurrency : o.readCurrency = o.currency := by rw [readCurrency, h.currency]; rfl
  rw [Order.ofMapping_toMapping, Value.toAmount_text h.amount, if_pos h.inRange,
    Value.toTimestamp_stored now h.createdAt, Value.toTimestamp_stored now h.updatedAt, hcurrency]
  rfl

theorem same_readCurrency {o : Order} (h : o.currency.isEmpty = true) :
    Value.same o.readCurrency o.currency = .ok false := by
  rw [readCurrency, if_pos h]
  cases hc : o.currency with
  | text t =>
    rw [hc] at h
    have ht : t ≠ Settings.default.currency := by
      rintro rfl
      cases h
    simp [Value.same, Value.isSameNaN, Value.equal, ht.symm]
  | _ => simp [Value.same, Value.isSameNaN, Value.equal, Value.numberEqual, Value.number?]

theorem equal_readCurrency {o : Order} (ha : o.amount.isNaN = false) (h : o.currency.isEmpty = true) :
    Order.equal { o with currency := o.readCurrency } o = .ok false := by
  have hfields : Field.all = [.orderNo, .type, .status, .amount] ++ .currency ::
    [.buyerId, .createdAt, .updatedAt, .attributes, .relations, .indexedFields, .id] := rfl
  rw [Order.equal, hfields]
  refine Value.allHold_of_false (fun f hf => ?_) (same_readCurrency h)
  rw [← equalField_self ha f]
  simp only [List.mem_cons, List.not_mem_nil, or_false] at hf
  rcases hf with rfl | rfl | rfl | rfl <;> rfl

theorem roundTrips_iff {now : WallClock} {o : Order} (ha : o.amount.isNaN = false) :
    o.roundTrips now = .ok true ↔ o.Lossless := by
  constructor
  · intro h
    obtain ⟨p, hp, hequal⟩ := bind_eq_ok.mp h
    rw [ofMapping_toMapping] at hp
    obtain ⟨amount, hamount, hp⟩ := bind_eq_ok.mp hp
    obtain ⟨createdAt, hcreated, hp⟩ := bind_eq_ok.mp hp
    obtain ⟨updatedAt, hupdated, hp⟩ := bind_eq_ok.mp hp
    have late {t t' : Timestamp} (ht : (Value.text t.text).toTimestamp now = .ok t') :
        1000 ≤ t.date.year ∧ t' = t := by
      by_cases hyear : t.date.year < 1000
      · rw [Value.toTimestamp_early now hyear] at ht
        cases ht
      · have hle : 1000 ≤ t.date.year := Nat.le_of_not_lt hyear
        rw [Value.toTimestamp_stored now hle] at ht
        cases ht
        exact ⟨hle, rfl⟩
    obtain ⟨hc, rfl⟩ := late hcreated
    obtain ⟨hu, rfl⟩ := late hupdated
    rw [Value.toAmount_text ha] at hamount
    split at hamount
    · rename_i hr
      cases hamount
      cases hp
      refine ⟨ha, hr, ?_, hc, hu⟩
      apply Bool.eq_false_iff.mpr
      intro hempty
      rw [equal_readCurrency ha hempty] at hequal
      cases hequal
    · cases hamount
  · intro h
    rw [roundTrips, h.ofMapping_toMapping]
    exact equal_self ha

/-- An order comes back from its mapping form if and only if its currency is not empty and its years have
four digits. -/
theorem obtained_roundTrips_iff {o : Order} (ho : o.Obtained) (ha : o.amount.isNaN = false) (now : WallClock) :
    (o.roundTrips now = .ok true ↔ o.currency.isEmpty = false ∧ 1000 ≤ o.createdAt.date.year ∧
      1000 ≤ o.updatedAt.date.year) ∧
    (o.roundTrips now = .ok true → ofMapping now o.toMapping = .ok o) := by
  refine ⟨(roundTrips_iff ha).trans ⟨fun h => ⟨h.currency, h.createdAt, h.updatedAt⟩, ?_⟩, ?_⟩
  · rintro ⟨hcurrency, hcreated, hupdated⟩
    exact ⟨ha, ho.inRange, hcurrency, hcreated, hupdated⟩
  · intro h
    exact ((roundTrips_iff ha).mp h).ofMapping_toMapping now

theorem obtained_roundTrips_least :
    let now : WallClock := .ofTimestamp ⟨⟨2024, 1, 31, by decide⟩, .midnight⟩
    let fields : Named := [("order_no", .text "A-1"), ("type", .text "refund"), ("status", .text "open"),
      ("amount", .decimal (.finite true 1 Decimal.minExponent)), ("created_at", .date ⟨1000, 1, 1, by decide⟩)]
    let o : Order := ⟨"A-1", "refund", "open", .finite true 1 Decimal.minExponent, .text "CNY", .null,
      ⟨⟨1000, 1, 1, by decide⟩, .midnight⟩, ⟨⟨2024, 1, 31, by decide⟩, .midnight⟩, [], [], [], .null⟩
    fields.InRange ∧ Order.make now fields = .ok o ∧ o.Obtained ∧ o.amount.isNaN = false ∧
      o.roundTrips now = .ok true ∧ ofMapping now o.toMapping = .ok o := by
  intro now fields o
  have hf : fields.InRange := by
    have hamount : Decimal.InRange (.finite true 1 Decimal.minExponent) := by decide
    simp [fields, Named.InRange, Value.InRange, hamount]
  have hmake : Order.make now fields = .ok o := rfl
  have ho : o.Obtained := .make hf hmake
  obtain ⟨hiff, hback⟩ := obtained_roundTrips_iff ho rfl now
  have h : o.roundTrips now = .ok true := hiff.mpr ⟨rfl, by decide, by decide⟩
  exact ⟨hf, hmake, ho, rfl, h, hback h⟩

theorem early_year_lost :
    let now : WallClock := .ofTimestamp ⟨⟨2024, 1, 31, by decide⟩, .midnight⟩
    let fields : Named := [("order_no", .text "A-1"), ("type", .text "sale"), ("status", .text "open"),
      ("created_at", .text "0999-01-01 00:00:00")]
    let o : Order := ⟨"A-1", "sale", "open", .zero, .text "CNY", .null,
      ⟨⟨999, 1, 1, by decide⟩, .midnight⟩, ⟨⟨2024, 1, 31, by decide⟩, .midnight⟩, [], [], [], .null⟩
    Order.make now fields = .ok o ∧ o.Obtained ∧ o.amount.isNaN = false ∧
      ofMapping now o.toMapping = .error (.notTimestamp "999-01-01 00:00:00") := by
  intro now fields o
  have hf : fields.InRange := by simp [fields, Named.InRange, Value.InRange]
  have hmake : Order.make now fields = .ok o := rfl
  have hyear : o.createdAt.date.year < 1000 := by decide
  have hamount : o.amount.InRange := by decide
  have hchars : o.createdAt.chars = "999-01-01 00:00:00".toList := by decide
  have htext : o.createdAt.text = "999-01-01 00:00:00" := by
    rw [Timestamp.text, hchars, String.ofList_toList]
  have hlost : ofMapping now o.toMapping = .error (.notTimestamp "999-01-01 00:00:00") := by
    rw [ofMapping_toMapping, Value.toAmount_text rfl, if_pos hamount, Value.toTimestamp_early now hyear, htext]
    rfl
  exact ⟨hmake, .make hf hmake, rfl, hlost⟩

end Order

end OrderStore
