import OrderStore.Query.Refinement
/-!
A query that is refined step by step, and earlier queries kept under names. Two queries hold the same
value of a criterion if it comes from the same write.
-/

namespace OrderStore

structure TrackedQuery where
  query : Query
  origin : Criterion → Nat

structure Worksheet where
  current : TrackedQuery
  marks : List (Text × TrackedQuery)
  writes : Nat

namespace Worksheet

def start (q : Query) : Worksheet := ⟨⟨q, fun _ => 0⟩, [], 0⟩

def refine (now : WallClock) (w : Worksheet) (r : Refinement) : Except Error Worksheet :=
  (r.writes now w.current.query).map fun ws =>
    let origins := ws.map fun e => (e.1, w.writes + 1)
    { w with
      current := ⟨assignAll ws w.current.query, assignAll origins w.current.origin⟩
      writes := w.writes + 1 }

def mark (name : Text) (w : Worksheet) : Worksheet :=
  { w with marks := Assoc.put (fun a b => a == b) name w.current w.marks }

def marked (name : Text) (w : Worksheet) : Except Error TrackedQuery :=
  match Assoc.get? (fun a b => a == b) name w.marks with
  | some q => .ok q
  | none => .error (.missing name)

def use (name : Text) (w : Worksheet) : Except Error Worksheet :=
  (w.marked name).map fun q => { w with current := q }

def equals (name : Text) (w : Worksheet) : Except Error Bool :=
  (w.marked name).bind fun q =>
    Query.equal (fun c => w.current.origin c == q.origin c) w.current.query q.query

end Worksheet

end OrderStore
