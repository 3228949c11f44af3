import OrderStore.Order.Revision
import OrderStore.Proofs.Except
/-!
Each field of an order is settled by itself, to its normal value, and a normal value is left as it is. So
replacing some fields leaves the others unchanged.
-/

namespace OrderStore

namespace Field

def normalize (now : WallClock) (v : Value) : Field → Except Error Value
  | orderNo | type | status => .ok (.text v.display)
  | amount => v.toAmount.map .decimal
  | createdAt | updatedAt => (v.toTimestamp now).map fun t => .moment (.ofTimestamp t)
  | attributes | relations | indexedFields => v.toEntries.map .map
  | currency | buyerId | id => .ok v

theorem normalize_draft (now : WallClock) (o : Order) (f : Field) :
    f.normalize now (o.draft f) = .ok (o.draft f) := by
  cases f with
  | attributes | relations | indexedFields => exact map_eq_ok.mpr ⟨_, Value.toEntries_map _, rfl⟩
  | _ => rfl

end Field

def Error.IsReading : Error → Prop
  | .notAmount _ | .notTimestamp _ | .calendar _ | .offset _ | .beyondCalendar | .unshownInteger
  | .wrongType | .pairLength .. => True
  | _ => False

namespace Value

variable {v : Value} {e : Error}

theorem isReading_of_shown (h : v.shown = .error e) : e.IsReading := by
  rw [shown] at h
  split at h
  · cases h
  · cases h
    trivial

theorem isReading_of_toAmount (h : v.toAmount = .error e) : e.IsReading := by
  unfold toAmount at h
  split at h
  · cases h
  · cases h
    trivial
  · rcases bind_eq_error.mp h with h | ⟨t, -, h⟩
    · exact isReading_of_shown h
    · split at h
      · cases h
      · cases h
        trivial

theorem isReading_of_settle {z : Zone} {m : Moment} (h : settle z m = .error e) : e.IsReading := by
  rw [settle] at h
  split at h
  · cases h
  · cases h
    trivial

theorem isReading_of_readMoment {t : Text} (h : readMoment t = .error e) : e.IsReading := by
  rw [readMoment] at h
  cases hread : Iso.read t.trim with
  | ok m =>
    rw [hread] at h
    cases h
  | error fault =>
    rw [hread] at h
    cases h
    cases fault <;> trivial

theorem isReading_of_toTimestamp {now : WallClock} (h : v.toTimestamp now = .error e) : e.IsReading := by
  unfold toTimestamp at h
  split at h
  · exact isReading_of_settle h
  · exact isReading_of_settle h
  · cases h
  · rcases bind_eq_error.mp h with h | ⟨t, -, h⟩
    · exact isReading_of_shown h
    · split at h
      · exact isReading_of_settle h
      · rcases bind_eq_error.mp h with h | ⟨m, -, h⟩
        · exact isReading_of_readMoment h
        · exact isReading_of_settle h

theorem isReading_of_toPair {n : Nat} (h : toPair n v = .error e) : e.IsReading := by
  rw [toPair] at h
  split at h
  · cases h
    trivial
  · split at h
    · cases h
    · cases h
      trivial
  · cases h
    trivial

theorem isReading_of_addPairs {es : Entries} {n : Nat} {xs : List Value} (h : addPairs es n xs = .error e) :
    e.IsReading := by
  induction xs generalizing es n with
  | nil => cases h
  | cons x xs ih =>
    rw [addPairs] at h
    rcases bind_eq_error.mp h with h | ⟨⟨k, v⟩, -, h⟩
    · exact isReading_of_toPair h
    · exact ih h

theorem isReading_of_toEntries (h : v.toEntries = .error e) : e.IsReading := by
  unfold toEntries at h
  split at h
  · cases h
  · split at h
    · cases h
    · split at h
      · cases h
        trivial
      · exact isReading_of_addPairs h

end Value

theorem Field.isReading_of_normalize {now : WallClock} {v : Value} {f : Field} {e : Error}
    (h : f.normalize now v = .error e) : e.IsReading := by
  cases f with
  | amount => exact Value.isReading_of_toAmount (map_eq_error.mp h)
  | createdAt | updatedAt => exact Value.isReading_of_toTimestamp (map_eq_error.mp h)
  | attributes | relations | indexedFields => exact Value.isReading_of_toEntries (map_eq_error.mp h)
  | _ => cases h

namespace Order

variable {now : WallClock} {d : Draft} {o p : Order} {e : Error} {f : Field}

theorem settle_ok (h : settle now d = .ok o) :
    o.id = d .id ∧ o.orderNo = (d .orderNo).display ∧
      (d .createdAt).toTimestamp now = .ok o.createdAt ∧ (d .relations).toEntries = .ok o.relations ∧
      (d .indexedFields).toEntries = .ok o.indexedFields ∧ (d .amount).toAmount = .ok o.amount := by
  obtain ⟨amount, hamount, h⟩ := bind_eq_ok.mp h
  obtain ⟨createdAt, hcreated, h⟩ := bind_eq_ok.mp h
  obtain ⟨updatedAt, -, h⟩ := bind_eq_ok.mp h
  obtain ⟨attributes, -, h⟩ := bind_eq_ok.mp h
  obtain ⟨relations, hrelations, h⟩ := bind_eq_ok.mp h
  obtain ⟨indexedFields, hindexed, h⟩ := bind_eq_ok.mp h
  cases h
  exact ⟨rfl, rfl, hcreated, hrelations, hindexed, hamount⟩

theorem settle_normalize (h : settle now d = .ok o) (f : Field) : f.normalize now (d f) = .ok (o.draft f) := by
  obtain ⟨amount, hamount, h⟩ := bind_eq_ok.mp h
  obtain ⟨createdAt, hcreated, h⟩ := bind_eq_ok.mp h
  obtain ⟨updatedAt, hupdated, h⟩ := bind_eq_ok.mp h
  obtain ⟨attributes, hattributes, h⟩ := bind_eq_ok.mp h
  obtain ⟨relations, hrelations, h⟩ := bind_eq_ok.mp h
  obtain ⟨indexedFields, hindexed, h⟩ := bind_eq_ok.mp h
  cases h
  cases f with
  | amount => exact map_eq_ok.mpr ⟨_, hamount, rfl⟩
  | createdAt => exact map_eq_ok.mpr ⟨_, hcreated, rfl⟩
  | updatedAt => exact map_eq_ok.mpr ⟨_, hupdated, rfl⟩
  | attributes => exact map_eq_ok.mpr ⟨_, hattributes, rfl⟩
  | relations => exact map_eq_ok.mpr ⟨_, hrelations, rfl⟩
  | indexedFields => exact map_eq_ok.mpr ⟨_, hindexed, rfl⟩
  | _ => rfl

theorem exists_normalize_error (h : settle now d = .error e) : ∃ f : Field, f.normalize now (d f) = .error e := by
  rcases bind_eq_error.mp h with h | ⟨_, -, h⟩
  · exact ⟨.amount, map_eq_error.mpr h⟩
  rcases bind_eq_error.mp h with h | ⟨_, -, h⟩
  · exact ⟨.createdAt, map_eq_error.mpr h⟩
  rcases bind_eq_error.mp h with h | ⟨_, -, h⟩
  · exact ⟨.updatedAt, map_eq_error.mpr h⟩
  rcases bind_eq_error.mp h with h | ⟨_, -, h⟩
  · exact ⟨.attributes, map_eq_error.mpr h⟩
  rcases bind_eq_error.mp h with h | ⟨_, -, h⟩
  · exact ⟨.relations, map_eq_error.mpr h⟩
  rcases bind_eq_error.mp h with h | ⟨_, -, h⟩
  · exact ⟨.indexedFields, map_eq_error.mpr h⟩
  cases h

theorem eq_of_draft_eq (now : WallClock) (h : ∀ f, o.draft f = p.draft f) : o = p := by
  have hsettle := settle_draft now o
  rw [funext h, settle_draft] at hsettle
  exact (Except.ok.inj hsettle).symm

theorem settle_eq_ok_iff : settle now d = .ok o ↔ ∀ f : Field, f.normalize now (d f) = .ok (o.draft f) := by
  constructor
  · exact settle_normalize
  · intro h
    cases hd : settle now d with
    | error e =>
      obtain ⟨f, hf⟩ := exists_normalize_error hd
      rw [h f] at hf
      cases hf
    | ok p =>
      rw [eq_of_draft_eq now fun f => Except.ok.inj ((settle_normalize hd f).symm.trans (h f))]

variable {changes : List (Field × Value)}

theorem replace_eq_ok_iff :
    o.replace now changes = .ok p ↔ ∀ f : Field, f.normalize now (assignAll changes o.draft f) = .ok (p.draft f) :=
  settle_eq_ok_iff

theorem replace_other (h : o.replace now changes = .ok p) (hf : f ∉ changes.map Prod.fst) :
    p.draft f = o.draft f := by
  have hother : assignAll changes o.draft f = o.draft f :=
    assignAll_other _ fun c hc hcf => hf (hcf ▸ List.mem_map_of_mem hc)
  have hp := replace_eq_ok_iff.mp h f
  rw [hother, f.normalize_draft] at hp
  exact (Except.ok.inj hp).symm

theorem replace_error (h : o.replace now changes = .error e) :
    ∃ c ∈ changes, c.1.normalize now c.2 = .error e := by
  obtain ⟨f, hf⟩ := exists_normalize_error h
  rcases assignAll_cases changes o.draft f with ⟨c, hc, rfl, hv⟩ | ⟨-, hv⟩
  · rw [hv] at hf
    exact ⟨c, hc, hf⟩
  · rw [hv, f.normalize_draft] at hf
    cases hf

end Order

end OrderStore
