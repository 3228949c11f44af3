import OrderStore.Arguments
import OrderStore.Settings

namespace OrderStore.Sql

def isNameStart (c : Char) : Bool := c.isAlpha || c == '_'

def isNamePart (c : Char) : Bool := isNameStart c || c.isDigit

def isIdentifier : List Char → Bool
  | [] => false
  | c :: cs => isNameStart c && cs.all isNamePart

def splitDot? (cs : List Char) : Option (List Char × List Char) :=
  match cs.dropWhile (· != '.') with
  | [] => none
  | _ :: rest => some (cs.takeWhile (· != '.'), rest)

def isPlainName (cs : List Char) : Bool :=
  match splitDot? cs with
  | none => isIdentifier cs
  | some (schema, table) => isIdentifier schema && isIdentifier table

/-- One line break at the end is let pass. -/
def withoutBreak (cs : List Char) : List Char :=
  if cs.getLast? = some '\n' then cs.dropLast else cs

def isTableName (cs : List Char) : Bool := isPlainName (withoutBreak cs)

structure TableName where
  text : Text
  isName : isTableName text.chars = true

namespace TableName

def ofValue : Value → Except Error TableName
  | .text t => if h : isTableName t.chars = true then .ok ⟨t, h⟩ else .error (.badTableName (.text t))
  | v => .error (.badTableName v)

def bare (n : TableName) : Text :=
  match splitDot? n.text.chars with
  | some (_, table) => .ofChars table
  | none => n.text

def key (n : TableName) : Text := n.text.trim

theorem ofValue_text (n : TableName) : ofValue (.text n.text) = .ok n := by
  simp [ofValue, n.isName]

end TableName

inductive Side where
  | relations
  | indexed
  deriving DecidableEq, Repr

structure Tables where
  orders : TableName
  relations : TableName
  indexed : TableName

namespace Tables

def side (t : Tables) : Side → TableName
  | .relations => t.relations
  | .indexed => t.indexed

/-- The table that the name of a side table stands for. A name of several tables stands for the first
of them; `none` is the table of orders. -/
def target (t : Tables) (s : Side) : Option Side :=
  if (t.side s).key = t.orders.key then none
  else if (t.side s).key = t.relations.key then some .relations
  else some .indexed

def parameters : List Parameter :=
  [("orders", some (.text Settings.default.ordersTable)),
    ("relations", some (.text Settings.default.relationsTable)),
    ("indexed", some (.text Settings.default.indexedTable))]

def ofValues (orders relations indexed : Value) : Except Error Tables := do
  return ⟨← TableName.ofValue orders, ← TableName.ofValue relations, ← TableName.ofValue indexed⟩

def ofArguments (a : Arguments) : Except Error Tables :=
  (a.bind parameters).bind fun
    | [orders, relations, indexed] => ofValues orders relations indexed
    | _ => .error .wrongArguments

def default : Tables where
  orders := ⟨Settings.default.ordersTable, by decide⟩
  relations := ⟨Settings.default.relationsTable, by decide⟩
  indexed := ⟨Settings.default.indexedTable, by decide⟩

theorem target_eq_some (t : Tables) (s : Side) (ho : (t.side s).key ≠ t.orders.key)
    (hi : t.indexed.key ≠ t.relations.key) : t.target s = some s := by
  rw [target, if_neg ho]
  cases s with
  | relations => simp [side]
  | indexed => simp [side, hi]

end Tables

end OrderStore.Sql
