import OrderStore.Arguments
import OrderStore.Assign
import OrderStore.Settings

namespace OrderStore

/-- The three maps are free-form: attributes are kept only as a document, relations and indexed
fields are also written to side tables. An order that was never saved has no identifier. -/
structure Order where
  orderNo : Text
  type : Text
  status : Text
  amount : Decimal
  currency : Value
  buyerId : Value
  createdAt : Timestamp
  updatedAt : Timestamp
  attributes : Value.Entries
  relations : Value.Entries
  indexedFields : Value.Entries
  id : Value
  deriving Repr

inductive Field where
  | orderNo
  | type
  | status
  | amount
  | currency
  | buyerId
  | createdAt
  | updatedAt
  | attributes
  | relations
  | indexedFields
  | id
  deriving DecidableEq, Repr

namespace Field

def all : List Field :=
  [orderNo, type, status, amount, currency, buyerId, createdAt, updatedAt, attributes, relations,
    indexedFields, id]

def name : Field → Text
  | orderNo => "order_no"
  | type => "type"
  | status => "status"
  | amount => "amount"
  | currency => "currency"
  | buyerId => "buyer_id"
  | createdAt => "created_at"
  | updatedAt => "updated_at"
  | attributes => "attributes"
  | relations => "relations"
  | indexedFields => "indexed_fields"
  | id => "id"

def ofName? (t : Text) : Option Field := all.find? fun f => f.name == t

def frozen : List Field := [id, orderNo, createdAt]

def default? : Field → Option Value
  | orderNo | type | status => none
  | amount => some (.decimal .zero)
  | currency => some (.text Settings.default.currency)
  | attributes | relations | indexedFields => some (.map [])
  | buyerId | createdAt | updatedAt | id => some .null

def parameter (f : Field) : Parameter := (f.name, f.default?)

theorem mem_all (f : Field) : f ∈ all := by cases f <;> decide

theorem ofName?_name (f : Field) : ofName? f.name = some f := by cases f <;> rfl

end Field

abbrev Draft := Field → Value

namespace Draft

def ofFields (fs : List Field) (vs : List Value) : Draft :=
  assignAll (fs.zip vs) fun f => f.default?.getD .null

end Draft

namespace Order

/-- The amount is checked first, then the timestamps, then the maps. -/
def settle (now : WallClock) (d : Draft) : Except Error Order := do
  let amount ← (d .amount).toAmount
  let createdAt ← (d .createdAt).toTimestamp now
  let updatedAt ← (d .updatedAt).toTimestamp now
  let attributes ← (d .attributes).toEntries
  let relations ← (d .relations).toEntries
  let indexedFields ← (d .indexedFields).toEntries
  return {
    orderNo := (d .orderNo).display
    type := (d .type).display
    status := (d .status).display
    currency := d .currency
    buyerId := d .buyerId
    id := d .id
    amount, createdAt, updatedAt, attributes, relations, indexedFields }

def draft (o : Order) : Draft
  | .orderNo => .text o.orderNo
  | .type => .text o.type
  | .status => .text o.status
  | .amount => .decimal o.amount
  | .currency => o.currency
  | .buyerId => o.buyerId
  | .createdAt => .moment (.ofTimestamp o.createdAt)
  | .updatedAt => .moment (.ofTimestamp o.updatedAt)
  | .attributes => .map o.attributes
  | .relations => .map o.relations
  | .indexedFields => .map o.indexedFields
  | .id => o.id

def make (now : WallClock) (fields : Named) : Except Error Order :=
  (Arguments.bind (Field.all.map Field.parameter) ⟨[], fields⟩).bind fun vs =>
    settle now (.ofFields Field.all vs)

def creationFields : List Field :=
  [.orderNo, .type, .status, .amount, .currency, .buyerId, .attributes, .relations, .indexedFields]

def create (now : WallClock) (fields : Named) : Except Error Order :=
  (Arguments.bind (creationFields.map Field.parameter) ⟨[], fields⟩).bind fun vs =>
    settle now (.ofFields creationFields vs)

def isPersisted (o : Order) : Bool := !o.id.isNull

def text (o : Order) : Text :=
  "#" ++ o.id.display ++ " " ++ o.orderNo ++ " | " ++ o.type ++ "/" ++ o.status ++ " | " ++
    o.amount.text ++ " " ++ o.currency.display

/-- Amounts are always compared as numbers, and the maps in the order of the second one. -/
def equalField (a b : Order) (f : Field) : Except Error Bool :=
  match f with
  | .amount => (a.draft f).equal (b.draft f)
  | .attributes | .relations | .indexedFields => (b.draft f).equal (a.draft f)
  | _ => (a.draft f).same (b.draft f)

def equal (a b : Order) : Except Error Bool := Value.allHold (equalField a b) Field.all

theorem settle_draft (now : WallClock) (o : Order) : settle now o.draft = .ok o := by
  simp [settle, draft, Value.toAmount_decimal, Value.toTimestamp_moment_ofTimestamp,
    Value.toEntries_map, Value.display, bind, Except.bind, pure, Except.pure]

end Order

end OrderStore
