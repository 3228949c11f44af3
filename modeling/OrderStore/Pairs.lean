import OrderStore.Value.Coerce
/-!
The key and value texts that a map contributes to a side table: one pair for a single value, one
for each element of a collection, none for nothing.
-/

namespace OrderStore

abbrev Pairs := List (Text × Text)

namespace Pairs

/-- The values that stand for one entry; collections are taken apart one level deep. -/
def members : Value → List Value
  | .list xs | .tuple xs | .set xs => xs.filter fun x => !x.isNull
  | .null => []
  | v => [v]

def ofEntry (key value : Value) : Pairs := (members value).map fun x => (key.keyText, x.keyText)

def ofEntries (es : Value.Entries) : Pairs := es.flatMap fun e => ofEntry e.1 e.2

def ofValue : Value → Except Error Pairs
  | .map es => .ok (ofEntries es)
  | _ => .error .unknownOperation

@[simp] theorem ofEntries_nil : ofEntries [] = [] := rfl

@[simp] theorem ofEntries_cons (e : Value × Value) (es : Value.Entries) :
    ofEntries (e :: es) = ofEntry e.1 e.2 ++ ofEntries es := rfl

end Pairs

end OrderStore
