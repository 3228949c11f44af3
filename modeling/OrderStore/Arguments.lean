import OrderStore.Assoc
import OrderStore.Error

namespace OrderStore

abbrev Named := List (Text × Value)

namespace Named

def ofList (xs : List (Text × Value)) : Named := Assoc.ofList (fun a b => a == b) xs

def put (name : Text) (value : Value) (ns : Named) : Named :=
  Assoc.put (fun a b => a == b) name value ns

def get? (name : Text) (ns : Named) : Option Value := Assoc.get? (fun a b => a == b) name ns

def contains (name : Text) (ns : Named) : Bool := ns.any fun e => e.1 == name

def erase (name : Text) (ns : Named) : Named := ns.filter fun e => e.1 != name

def firstMissing? (names : List Text) (ns : Named) : Option Text :=
  names.find? fun name => !ns.contains name

theorem isSome_get? (name : Text) (ns : Named) : (ns.get? name).isSome = ns.contains name := by
  induction ns with
  | nil => rfl
  | cons e ns ih =>
    obtain ⟨k, v⟩ := e
    simp only [get?, Assoc.get?, contains, List.any_cons] at ih ⊢
    by_cases h : k = name <;> simp [h, ih]

end Named

abbrev Parameter := Text × Option Value

structure Arguments where
  positional : List Value
  named : Named
  deriving Repr

namespace Arguments

/-- One value for each parameter, in their order. No parameter may be given twice, and nothing may
be given that is no parameter. -/
def bindAll : List Parameter → List Value → Named → Except Error (List Value)
  | [], [], [] => .ok []
  | [], _, _ => .error .wrongArguments
  | p :: ps, v :: vs, named =>
    if named.contains p.1 then .error .wrongArguments
    else (bindAll ps vs named).map (v :: ·)
  | (name, default) :: ps, [], named =>
    match (named.get? name).or default with
    | some v => (bindAll ps [] (named.erase name)).map (v :: ·)
    | none => .error .wrongArguments

def bind (ps : List Parameter) (a : Arguments) : Except Error (List Value) :=
  bindAll ps a.positional a.named

def one (p : Parameter) (a : Arguments) : Except Error Value :=
  (a.bind [p]).bind fun
    | [v] => .ok v
    | _ => .error .wrongArguments

def two (p q : Parameter) (a : Arguments) : Except Error (Value × Value) :=
  (a.bind [p, q]).bind fun
    | [v, w] => .ok (v, w)
    | _ => .error .wrongArguments

theorem length_of_bindAll {ps : List Parameter} {vs : List Value} {named : Named} {xs : List Value}
    (h : bindAll ps vs named = .ok xs) : xs.length = ps.length := by
  fun_induction bindAll ps vs named generalizing xs with
  | case1 => cases h; rfl
  | case2 => cases h
  | case3 => cases h
  | case4 p ps v vs named hc ih =>
    cases hb : bindAll ps vs named with
    | error e => simp [hb, Except.map] at h
    | ok ys => simp only [hb, Except.map] at h; cases h; simp [ih hb]
  | case5 name default ps named v hv ih =>
    cases hb : bindAll ps [] (named.erase name) with
    | error e => simp [hb, Except.map] at h
    | ok ys => simp only [hb, Except.map] at h; cases h; simp [ih hb]
  | case6 => cases h

end Arguments

end OrderStore
