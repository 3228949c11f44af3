import OrderStore.Json.Reader
import OrderStore.Value.Coerce
/-!
Maps as JSON columns: which values JSON can hold, how a map is written to a column, and how a column
is read back. A column that holds no document reads as the empty map and is reported; only a document
that is too deep is an error. How deep it may be is a matter of the stack.
-/

namespace OrderStore

namespace Value

/-- An integer of more digits than can be read back has no text. -/
def jsonInt (n : Int) : Except Error Json :=
  if Numeral.maxDigits < (Text.digits n.natAbs).length then .error .unshownInteger else .ok (.int n)

def jsonName : Value → Except Error Text
  | .text t => .ok t
  | .int n => (jsonInt n).map Json.written
  | .float x => .ok (Json.float x).written
  | .bool b => .ok (Json.bool b).written
  | .null => .ok Json.null.written
  | v => .error (.badKey v.kindName)

/-- What is left of the room on the stack below so many levels. -/
def descend (levels room : Nat) : Except Error Nat :=
  if levels ≤ room then .ok (room - levels) else .error .deepMap

mutual

/-- Decimals, moments and dates become texts; every collection becomes a list. A level is taken by each collection
and by each request for another form, which all but lists, tuples and maps make. -/
def toJson (room : Nat) : Value → Except Error Json
  | .null => .ok .null
  | .bool b => .ok (.bool b)
  | .int n => jsonInt n
  | .float x => .ok (.float x)
  | .text t => .ok (.text t)
  | .decimal d => (descend 1 room).map fun _ => .text d.text
  | .moment m => (descend 1 room).map fun _ => .text m.isoText
  | .date d => (descend 1 room).map fun _ => .text d.text
  | .list xs | .tuple xs => (descend 1 room).bind fun room => (toJsonAll room xs).map .list
  | .set xs => (descend 2 room).bind fun room => (toJsonAll room xs).map .list
  | .map es => (descend 1 room).bind fun room => (toJsonMembers room es).map .object
  | v => (descend 1 room).bind fun _ => .error (.notEncodable v.kindName)

def toJsonAll (room : Nat) : List Value → Except Error (List Json)
  | [] => .ok []
  | x :: xs => (x.toJson room).bind fun j => (toJsonAll room xs).map (j :: ·)

def toJsonMembers (room : Nat) : List (Value × Value) → Except Error (List (Text × Json))
  | [] => .ok []
  | (k, v) :: es =>
    k.jsonName.bind fun name => (v.toJson room).bind fun j => (toJsonMembers room es).map ((name, j) :: ·)

end

end Value

namespace Json

mutual

def toValue : Json → Value
  | .null => .null
  | .bool b => .bool b
  | .int n => .int n
  | .float x => .float x
  | .text t => .text t
  | .list xs => .list (toValues xs)
  | .object ms => .map (toEntries ms)

def toValues : List Json → List Value
  | [] => []
  | x :: xs => x.toValue :: toValues xs

def toEntries : List (Text × Json) → Value.Entries
  | [] => []
  | (name, x) :: ms => (.text name, x.toValue) :: toEntries ms

end

end Json

namespace Column

def encodeWithin (room : Nat) (v : Value) : Except Error Text :=
  v.toEntries.bind fun es => ((Value.map es).toJson room).map Json.written

def encode (v : Value) : Except Error Text := encodeWithin Json.maxDepth v

def encodeEntries (es : Value.Entries) : Except Error Text := encode (.map es)

structure Reading where
  entries : Value.Entries
  malformed : Bool

def ofDocument : Except Json.Fault Json → Except Error Reading
  | .ok (.object ms) => .ok ⟨Json.toEntries ms, false⟩
  | .ok _ => .ok ⟨[], false⟩
  | .error .malformed => .ok ⟨[], true⟩
  | .error (.tooDeep inObject) => .error (.deepDocument inObject)

def decode : Value → Except Error Reading
  | .null => .ok ⟨[], false⟩
  | .map es => .ok ⟨es, false⟩
  | .text t => if t.isEmpty then .ok ⟨[], false⟩ else ofDocument (Json.read t)
  | .bytes bs => ofDocument (Json.readBytes bs)
  | _ => .ok ⟨[], true⟩

end Column

end OrderStore
