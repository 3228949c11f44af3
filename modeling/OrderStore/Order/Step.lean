import OrderStore.Order.Mapping
import OrderStore.Order.Revision

namespace OrderStore

structure OrderStep where
  name : String
  arguments : Arguments
  deriving Repr

inductive OrderAnswer where
  | revised (o : Order)
  | text (t : Text)
  | flag (b : Bool)
  deriving Repr

namespace Order

def step (now : WallClock) (o : Order) (s : OrderStep) : Except Error OrderAnswer :=
  match s.name with
  | "str" => .ok (.text o.text)
  | "is_persisted" => .ok (.flag o.isPersisted)
  | "round_trip" => (o.roundTrips now).map .flag
  | name => ((Revision.ofCall name s.arguments).bind (o.revise now)).map .revised

def after (o : Order) : OrderAnswer → Order
  | .revised p => p
  | _ => o

def run (now : WallClock) (o : Order) (steps : List OrderStep) : Except Error Order :=
  steps.foldlM (fun o s => (o.step now s).map o.after) o

end Order

end OrderStore
