import OrderStore.Proofs.Sql.Predicate
/-!
Conditions as a database reads them: words, marks and values, the expressions they spell, and when an
expression holds of a row. `AND` binds closer than `OR`.
-/

namespace OrderStore.Sql

open Text (Code)

inductive Token where
  | word (t : Text)
  | mark (c : Code)
  | value (v : Value)

def flush (run : List Code) : List Token := if run.isEmpty then [] else [.word ⟨run⟩]

/-- Blanks part words and are dropped; `run` is the word that has begun. -/
def lexFrom : (run : List Code) → Pieces → List Token
  | run, [] => flush run
  | run, .code c :: ps =>
    if isWord c then lexFrom (run ++ [c]) ps
    else if c.isBlank then flush run ++ lexFrom [] ps
    else flush run ++ .mark c :: lexFrom [] ps
  | run, .value v :: ps => flush run ++ .value v :: lexFrom [] ps

def lex (ps : Pieces) : List Token := lexFrom [] ps

structure Ref where
  qualifier : Text
  column : Text

def Ref.ofWords (ws : List Text) : Ref := ⟨.intercalate "." ws.dropLast, ws.getLast?.getD ""⟩

inductive Operand where
  | value (v : Value)
  | column (r : Ref)

inductive Expr where
  | always
  | never
  | and (a b : Expr)
  | or (a b : Expr)
  | compare (column : Ref) (comparison : Comparison) (operand : Operand)
  | among (column : Ref) (values : List Value)
  | any (table label : Text) (condition : Expr)

def expect (t : Text) : List Token → Option (List Token)
  | .word w :: ts => if w = t then some ts else none
  | _ => none

def expectMark (m : Char) : List Token → Option (List Token)
  | .mark c :: ts => if c = .char m then some ts else none
  | _ => none

def readWord : List Token → Option (Text × List Token)
  | .word w :: ts => some (w, ts)
  | _ => none

def readName : List Token → Option (List Text × List Token)
  | .word w :: .mark c :: ts =>
    if c = .char '.' then (readName ts).map fun r => (w :: r.1, r.2) else some ([w], .mark c :: ts)
  | .word w :: ts => some ([w], ts)
  | _ => none

def readComparison : List Token → Option (Comparison × List Token)
  | .word w :: ts => if w = "ILIKE" then some (.like, ts) else none
  | .mark c :: ts =>
    if c = .char '=' then some (.equal, ts)
    else if c = .char '>' then (expectMark '=' ts).map fun ts => (.atLeast, ts)
    else if c = .char '<' then (expectMark '=' ts).map fun ts => (.atMost, ts)
    else none
  | _ => none

def readOperand : List Token → Option (Operand × List Token)
  | .value v :: ts => some (.value v, ts)
  | ts => (readName ts).map fun r => (.column (.ofWords r.1), r.2)

def readValues : List Token → Option (List Value × List Token)
  | .value v :: .mark c :: ts =>
    if c = .char ')' then some ([v], ts)
    else if c = .char ',' then (readValues ts).map fun r => (v :: r.1, r.2)
    else none
  | _ => none

abbrev Reader := List Token → Option (Expr × List Token)

def readTest : Reader := fun ts => do
  let (ws, ts) ← readName ts
  match expect "IN" ts with
  | some ts =>
    let (vs, ts) ← readValues (← expectMark '(' ts)
    return (.among (.ofWords ws) vs, ts)
  | none =>
    let (comparison, ts) ← readComparison ts
    let (operand, ts) ← readOperand ts
    return (.compare (.ofWords ws) comparison operand, ts)

def readSubquery (inner : Reader) : Reader := fun ts => do
  let ts ← expect "FROM" (← expect "1" (← expect "SELECT" (← expectMark '(' ts)))
  let (table, ts) ← readName ts
  let (label, ts) ← readWord ts
  let (condition, ts) ← inner (← expect "WHERE" ts)
  return (.any (.intercalate "." table) label condition, ← expectMark ')' ts)

def readPrimary (inner : Reader) : Reader := fun ts =>
  match expectMark '(' ts with
  | some ts => do
    let (e, ts) ← inner ts
    return (e, ← expectMark ')' ts)
  | none =>
    match expect "FALSE" ts with
    | some ts => some (.never, ts)
    | none =>
      match expect "EXISTS" ts with
      | some ts => readSubquery inner ts
      | none => readTest ts

def readChain (word : Text) (join : Expr → Expr → Expr) (item : Reader) : (fuel : Nat) → Reader
  | 0 => fun _ => none
  | fuel + 1 => fun ts => do
    let (a, ts) ← item ts
    match expect word ts with
    | some ts =>
      let (b, ts) ← readChain word join item fuel ts
      return (join a b, ts)
    | none => return (a, ts)

def readAll (item : Reader) : Reader := fun ts => readChain "AND" .and item (ts.length + 1) ts

def readExpr : (depth : Nat) → Reader
  | 0 => fun _ => none
  | depth + 1 => fun ts => readChain "OR" .or (readAll (readPrimary (readExpr depth))) (ts.length + 1) ts

def readWhere : List Token → Option Expr
  | [] => some .always
  | ts => do
    let ts ← expect "WHERE" ts
    match ← readExpr (ts.length + 2) ts with
    | (e, []) => return e
    | _ => none

structure Triple where
  orderId : Value
  key : Value
  value : Value

def Triple.column? (t : Triple) (column : Text) : Option Value :=
  if column = "order_id" then some t.orderId
  else if column = "rel_key" then some t.key
  else if column = "rel_value" then some t.value
  else none

structure Scope where
  name : Text
  column? : Text → Option Value

abbrev Scopes := List Scope

/-- Names of tables are the same in capitals. A table that is named is the innermost of its name, also if that
lacks the column; a column alone belongs to the first row that has it. -/
def Scopes.value? (env : Scopes) (r : Ref) : Option Value :=
  if r.qualifier.isEmpty then env.findSome? fun s => s.column? r.column
  else (env.find? fun s => s.name.lowerAscii = r.qualifier.lowerAscii).bind fun s => s.column? r.column

def Operand.value? (env : Scopes) : Operand → Option Value
  | .value v => some v
  | .column r => env.value? r

/-- What the comparisons say about two values is left open, and so is what the side tables hold. -/
structure Database where
  compares : Comparison → Value → Value → Prop
  triples : Text → List Triple

namespace Expr

/-- Each column is found; a statement with one that is not is refused. -/
def Resolves : Scopes → Expr → Prop
  | _, always => True
  | _, never => True
  | env, and a b => a.Resolves env ∧ b.Resolves env
  | env, or a b => a.Resolves env ∧ b.Resolves env
  | env, compare column _ operand => env.value? column ≠ none ∧ operand.value? env ≠ none
  | env, among column _ => env.value? column ≠ none
  | env, any _ label condition => ∀ t : Triple, condition.Resolves (⟨label, t.column?⟩ :: env)

def Holds (db : Database) : Scopes → Expr → Prop
  | _, always => True
  | _, never => False
  | env, and a b => a.Holds db env ∧ b.Holds db env
  | env, or a b => a.Holds db env ∨ b.Holds db env
  | env, compare column comparison operand =>
    ∃ x y, env.value? column = some x ∧ operand.value? env = some y ∧ db.compares comparison x y
  | env, among column vs => ∃ x, env.value? column = some x ∧ ∃ v ∈ vs, db.compares .equal x v
  | env, any table label condition => ∃ t ∈ db.triples table, condition.Holds db (⟨label, t.column?⟩ :: env)

end Expr

end OrderStore.Sql
