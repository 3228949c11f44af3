import OrderStore.Pairs
/-!
Key-value filters: one value, or any of several. Loosely typed maps are resolved to them; a key
with nothing to match keeps an empty choice, which no stored pair satisfies.
-/

namespace OrderStore

/-- Values in filters are texts, except in filters that a caller tagged already. -/
inductive Filter where
  | scalar (value : Value)
  | oneOf (values : List Value)
  deriving Repr

abbrev Filters := List (Text × Filter)

namespace Filter

def ofValue : Value → Filter
  | .scalar v => .scalar v
  | .oneOf vs => .oneOf vs
  | .list xs | .tuple xs | .set xs =>
    .oneOf ((xs.filter fun x => !x.isNull).map fun x => .text x.keyText)
  | .null => .oneOf []
  | v => .scalar (.text v.keyText)

def toValue : Filter → Value
  | .scalar v => .scalar v
  | .oneOf vs => .oneOf vs

def choices : Filter → List Value
  | .scalar v => [v]
  | .oneOf vs => vs

@[simp] theorem ofValue_toValue (f : Filter) : ofValue f.toValue = f := by cases f <;> rfl

end Filter

namespace Filters

/-- Keys are compared as texts; the last entry of a key counts, at the place of the first. -/
def ofEntries (es : Value.Entries) : Filters :=
  Assoc.ofList (fun a b => a == b) (es.map fun e => (e.1.keyText, Filter.ofValue e.2))

def ofValue (v : Value) : Except Error Filters :=
  if v.isEmpty then .ok []
  else
    match v with
    | .map es => .ok (ofEntries es)
    | _ => .error .unknownOperation

def toEntries (fs : Filters) : Value.Entries := fs.map fun f => (.text f.1, f.2.toValue)

def toValue (fs : Filters) : Value := .map fs.toEntries

end Filters

end OrderStore
