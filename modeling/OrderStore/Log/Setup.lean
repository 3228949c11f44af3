import OrderStore.Log.Threshold

namespace OrderStore.Log

structure Setup where
  level : Value
  handlers : Nat
  initialized : Bool

namespace Setup

def start : Setup := ⟨.int Level.warning.number, 0, false⟩

/-- The level is set before the handler is added, so a bad level leaves everything as it was. -/
def init (notes : List (Text × Text)) (level : Text) (s : Setup) : Except Error Setup :=
  if s.initialized then .ok s
  else (threshold notes level).map fun v => ⟨v, s.handlers + 1, true⟩

def getLogger (notes : List (Text × Text)) (level name : Text) (s : Setup) : Except Error (Text × Setup) :=
  (s.init notes level).map fun s => (if name.isEmpty then "root" else name, s)

inductive Reached (notes : List (Text × Text)) (level : Text) : Setup → Prop where
  | start : Reached notes level .start
  | call {s s' : Setup} {name logger : Text} (h : Reached notes level s)
    (hcall : s.getLogger notes level name = .ok (logger, s')) : Reached notes level s'

end Setup

end OrderStore.Log
