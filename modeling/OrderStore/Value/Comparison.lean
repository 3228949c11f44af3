import OrderStore.Assoc
import OrderStore.Error
/-!
Equality and order of values. Numbers of all kinds are compared by value. A comparison fails where a
signaling NaN meets a number, and an order does not exist between values of different kinds. What can
be a key is compared without failure.
-/

namespace OrderStore.Value

def number? : Value → Option Decimal
  | .bool b => some (.ofInt (if b then 1 else 0))
  | .int n => some (.ofInt n)
  | .float x => some x.toDecimal
  | .decimal d => some d
  | _ => none

def numberEqual (a b : Value) : Except Error Bool :=
  match a.number?, b.number? with
  | some x, some y => if x.isSignaling || y.isSignaling then .error .nanCompared else .ok (x.equal y)
  | _, _ => .ok false

def isSameNaN : Value → Value → Bool
  | .float (.nan t), .float (.nan t') => t == t'
  | .decimal (.nan s q p t), .decimal (.nan s' q' p' t') => s == s' && q == q' && p == p' && t == t'
  | _, _ => false

def holds : Except Error Bool → Bool
  | .ok b => b
  | .error _ => false

mutual

/-- Equality of values. A NaN differs from every number; only inside other values it equals itself. -/
def equal : Value → Value → Except Error Bool
  | .null, .null => .ok true
  | .text s, .text t => .ok (s == t)
  | .moment m, .moment n => .ok (m.equal n)
  | .date d, .date e => .ok (d == e)
  | .bytes bs, .bytes cs => .ok (bs == cs)
  | .list xs, .list ys => if xs.length = ys.length then allSame xs ys else .ok false
  | .tuple xs, .tuple ys => allSame xs ys
  | .set xs, .set ys => if xs.length = ys.length then allSame xs ys else .ok false
  | .map es, .map fs => if es.length = fs.length then allWithin es fs else .ok false
  | .scalar v, .scalar w => if isSameNaN v w then .ok true else equal v w
  | .oneOf vs, .oneOf ws => allSame vs ws
  | a, b => numberEqual a b

def allSame : List Value → List Value → Except Error Bool
  | [], [] => .ok true
  | x :: xs, y :: ys =>
    (if isSameNaN x y then .ok true else equal x y).bind fun e => if e then allSame xs ys else .ok false
  | _, _ => .ok false

/-- Every entry of the first map is in the second, wherever it stands. Where it is not, the value
that the second map has for the key decides whether the comparison fails. -/
def allWithin : List (Value × Value) → List (Value × Value) → Except Error Bool
  | [], _ => .ok true
  | (k, v) :: es, fs =>
    let fs' := fs.filter fun f => isSameNaN k f.1 || holds (equal k f.1)
    if fs'.any fun f => isSameNaN v f.2 || holds (equal v f.2) then allWithin es fs
    else
      match fs' with
      | [] => .ok false
      | f :: _ => equal v f.2

end

def same (a b : Value) : Except Error Bool := if isSameNaN a b then .ok true else equal a b

def allHold {α : Type} (test : α → Except Error Bool) : List α → Except Error Bool
  | [] => .ok true
  | x :: xs => (test x).bind fun b => if b then allHold test xs else .ok false

mutual

def canBeKey : Value → Bool
  | .list _ | .set _ | .map _ => false
  | .decimal d => !d.isSignaling
  | .tuple xs => allCanBeKeys xs
  | .scalar v => v.canBeKey
  | .oneOf vs => allCanBeKeys vs
  | _ => true

def allCanBeKeys : List Value → Bool
  | [] => true
  | x :: xs => x.canBeKey && allCanBeKeys xs

end

def sameKey (a b : Value) : Bool := holds (same a b)

def Entries.put (key value : Value) (es : Entries) : Entries := Assoc.put sameKey key value es

def Entries.ofList (es : Entries) : Entries := Assoc.ofList sameKey es

def isDecimal : Value → Bool
  | .decimal _ => true
  | _ => false

/-- A NaN is never less or greater, and next to a decimal it cannot be asked. -/
def numberLess (a b : Value) : Except Error Bool :=
  match a.number?, b.number? with
  | some x, some y =>
    if (x.isNaN || y.isNaN) && (a.isDecimal || b.isDecimal) then .error .nanCompared else .ok (x.less y)
  | _, _ => .error .wrongType

mutual

def less : Value → Value → Except Error Bool
  | .text s, .text t => .ok (s < t)
  | .moment m, .moment n =>
    if m.offset.isSome == n.offset.isSome then .ok (m.micros < n.micros) else .error .wrongType
  | .date d, .date e => .ok (d.dayNumber < e.dayNumber)
  | .bytes bs, .bytes cs => .ok (bs < cs)
  | .list xs, .list ys => allLess xs ys
  | .tuple xs, .tuple ys => allLess xs ys
  | .set xs, .set ys => .ok (xs.isEmpty && !ys.isEmpty)
  | a, b => numberLess a b

def allLess : List Value → List Value → Except Error Bool
  | x :: xs, y :: ys => (same x y).bind fun e => if e then allLess xs ys else less x y
  | [], _ :: _ => .ok true
  | _, [] => .ok false

end

end OrderStore.Value
