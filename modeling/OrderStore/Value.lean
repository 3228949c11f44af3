import OrderStore.Number.Binary64
import OrderStore.Calendar.Moment
import OrderStore.Text

namespace OrderStore

/-- The two filter constructors tag a value as a key-value filter that is already resolved. Maps
keep the order of insertion; a set has at most one element. -/
inductive Value where
  | null
  | bool (b : Bool)
  | int (n : Int)
  | float (x : Binary64)
  | text (t : Text)
  | decimal (d : Decimal)
  | moment (m : Moment)
  | date (d : Date)
  | bytes (bs : List UInt8)
  | list (xs : List Value)
  | tuple (xs : List Value)
  | set (xs : List Value)
  | map (es : List (Value × Value))
  | scalar (v : Value)
  | oneOf (vs : List Value)
  deriving Repr, Inhabited

namespace Value

abbrev Entries := List (Value × Value)

def isNull : Value → Bool
  | .null => true
  | _ => false

def isEmpty : Value → Bool
  | .null => true
  | .bool b => !b
  | .int n => n == 0
  | .float x => x.isZero
  | .text t => t.isEmpty
  | .decimal d => d.isZero
  | .bytes bs => bs.isEmpty
  | .list xs | .tuple xs | .set xs => xs.isEmpty
  | .map es => es.isEmpty
  | .moment _ | .date _ | .scalar _ | .oneOf _ => false

def elements? : Value → Option (List Value)
  | .text t => some (t.codes.map fun c => .text ⟨[c]⟩)
  | .bytes bs => some (bs.map fun b => .int b.toNat)
  | .list xs | .tuple xs | .set xs => some xs
  | .map es => some (es.map Prod.fst)
  | _ => none

end Value

end OrderStore
