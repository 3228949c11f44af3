import OrderStore.Order
/-!
Changes to an order. Each gives a new order; the identifier, the order number and the time of
creation never change once they are set.
-/

namespace OrderStore

inductive Revision where
  | id (value : Value)
  | updatedAt (value : Value)
  | status (value : Value)
  | attributes (value : Value)
  | relations (value : Value)
  | indexedFields (value : Value)
  | changes (named : Named)
  deriving Repr

namespace Revision

def changesOf (a : Arguments) : Except Error Revision :=
  if a.positional.isEmpty && !a.named.contains "self" then .ok (.changes a.named)
  else .error .wrongArguments

def ofCall (name : String) (a : Arguments) : Except Error Revision :=
  match name with
  | "with_id" => (a.one ("id", none)).map .id
  | "with_updated_at" => (a.one ("updated_at", none)).map .updatedAt
  | "with_status" => (a.one ("status", none)).map .status
  | "with_attributes" => (a.one ("attributes", none)).map .attributes
  | "with_relations" => (a.one ("relations", none)).map .relations
  | "with_indexed_fields" => (a.one ("indexed_fields", none)).map .indexedFields
  | "with_changes" => changesOf a
  | _ => .error .unknownOperation

end Revision

namespace Order

def replace (now : WallClock) (changes : List (Field × Value)) (o : Order) : Except Error Order :=
  settle now (assignAll changes o.draft)

def withId (now : WallClock) (value : Value) (o : Order) : Except Error Order :=
  if o.id.isNull then o.replace now [(.id, value)]
  else
    (o.id.equal value).bind fun e =>
      if e then o.replace now [(.id, value)] else .error (.identified o.orderNo o.id)

def unknownNames (named : Named) : List Text :=
  ((named.map Prod.fst).filter fun name => (Field.ofName? name).isNone).mergeSort fun a b => !(b < a)

def knownChanges (named : Named) : List (Field × Value) :=
  named.filterMap fun e => (Field.ofName? e.1).map fun f => (f, e.2)

/-- Naming a frozen field is refused before naming an unknown one. -/
def withChanges (now : WallClock) (named : Named) (o : Order) : Except Error Order :=
  let blocked := (Field.frozen.map Field.name).filter fun name => named.contains name
  if !blocked.isEmpty then .error (.frozen blocked o.orderNo)
  else
    let unknown := unknownNames named
    if !unknown.isEmpty then .error (.unknownFields unknown)
    else o.replace now (knownChanges named)

def revise (now : WallClock) (o : Order) : Revision → Except Error Order
  | .id v => o.withId now v
  | .updatedAt v => o.replace now [(.updatedAt, v)]
  | .status v => o.replace now [(.status, v)]
  | .attributes v => o.replace now [(.attributes, v)]
  | .relations v => o.replace now [(.relations, v)]
  | .indexedFields v => o.replace now [(.indexedFields, v)]
  | .changes named => o.withChanges now named

end Order

end OrderStore
