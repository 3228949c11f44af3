import OrderStore.Arguments
import OrderStore.Assign
import OrderStore.Filter
import OrderStore.Settings

namespace OrderStore

inductive Criterion where
  | types
  | statuses
  | buyerId
  | buyerIds
  | orderNo
  | orderNoLike
  | keyword
  | relations
  | indexedFields
  | createdFrom
  | createdTo
  | updatedFrom
  | updatedTo
  | amountMin
  | amountMax
  | limit
  | offset
  | column
  | direction
  | includeTotal
  deriving DecidableEq, Repr

namespace Criterion

def all : List Criterion :=
  [types, statuses, buyerId, buyerIds, orderNo, orderNoLike, keyword, relations, indexedFields,
    createdFrom, createdTo, updatedFrom, updatedTo, amountMin, amountMax, limit, offset, column,
    direction, includeTotal]

def name : Criterion → Text
  | types => "types"
  | statuses => "statuses"
  | buyerId => "buyer_id"
  | buyerIds => "buyer_ids"
  | orderNo => "order_no"
  | orderNoLike => "order_no_like"
  | keyword => "keyword"
  | relations => "relations"
  | indexedFields => "indexed_fields"
  | createdFrom => "created_from"
  | createdTo => "created_to"
  | updatedFrom => "updated_from"
  | updatedTo => "updated_to"
  | amountMin => "amount_min"
  | amountMax => "amount_max"
  | limit => "limit"
  | offset => "offset"
  | column => "order_column"
  | direction => "order_direction"
  | includeTotal => "include_total"

def defaultColumn : Text := "created_at"

def default : Criterion → Value
  | types | statuses | buyerIds => .tuple []
  | relations | indexedFields => .map []
  | limit => .int Settings.default.pageSize
  | offset => .int 0
  | column => .text defaultColumn
  | direction => .text "desc"
  | includeTotal => .bool true
  | _ => .null

def parameter (c : Criterion) : Parameter := (c.name, some c.default)

theorem mem_all (c : Criterion) : c ∈ all := by cases c <;> decide

end Criterion

/-- A value for every criterion. The maps of key-value filters are always resolved. -/
abbrev Query := Criterion → Value

namespace Query

def default : Query := Criterion.default

/-- Criteria by name, as they are given; only the filter maps are resolved. -/
def make (fields : Named) : Except Error Query := do
  let values ← Arguments.bind (Criterion.all.map Criterion.parameter) ⟨[], fields⟩
  let q := assignAll (Criterion.all.zip values) default
  let relations ← Filters.ofValue (q .relations)
  let indexedFields ← Filters.ofValue (q .indexedFields)
  return assignAll [(.relations, relations.toValue), (.indexedFields, indexedFields.toValue)] q

def equalCriterion (p q : Query) (c : Criterion) : Except Error Bool :=
  match c with
  | .relations | .indexedFields => (q c).equal (p c)
  | _ => (p c).equal (q c)

/-- Equality criterion by criterion, up to the first that differs; those that are `shared` hold one
value and are not compared. -/
def equal (shared : Criterion → Bool) (p q : Query) : Except Error Bool :=
  Value.allHold (fun c => if shared c then .ok true else equalCriterion p q c) Criterion.all

/-- Every query is asked for a total, unless its flag says otherwise. -/
def wantsTotal (q : Query) : Bool := !(q .includeTotal).isEmpty

end Query

end OrderStore
