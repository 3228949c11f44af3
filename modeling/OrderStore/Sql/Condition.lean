import OrderStore.Sql.TableName

namespace OrderStore.Sql

def placeholder (name : Text) : Text := "%(" ++ name ++ ")s"

inductive Comparison where
  | equal
  | atLeast
  | atMost
  | like
  deriving DecidableEq, Repr

def Comparison.symbol : Comparison → Text
  | equal => "="
  | atLeast => ">="
  | atMost => "<="
  | like => "ILIKE"

/-- A linked condition asks for a row of a side table that belongs to the order, has the key, and
satisfies a condition on its value. -/
inductive Condition where
  | compare (column : Text) (comparison : Comparison) (parameter : Text)
  | among (column : Text) (parameters : List Text)
  | either (a b : Condition)
  | linked (table orders keyParameter : Text) (value : Condition)
  | never
  deriving Repr

namespace Condition

def text : Condition → Text
  | compare column comparison parameter =>
    column ++ " " ++ comparison.symbol ++ " " ++ placeholder parameter
  | among column parameters => column ++ " IN (" ++ Text.intercalate ", " (parameters.map placeholder) ++ ")"
  | either a b => "(" ++ a.text ++ " OR " ++ b.text ++ ")"
  | linked table orders keyParameter value =>
    "EXISTS (SELECT 1 FROM " ++ table ++ " kv WHERE kv.order_id = " ++ orders ++ ".id AND kv.rel_key = " ++
      placeholder keyParameter ++ " AND " ++ value.text ++ ")"
  | never => "FALSE"

end Condition

structure Clause where
  condition : Condition
  bindings : Named
  deriving Repr

namespace Clause

def compare (column : Text) (comparison : Comparison) (parameter : Text) (v : Value) : Clause :=
  ⟨.compare column comparison parameter, [(parameter, v)]⟩

def numberedFrom (stem : Text) : Nat → List Value → Named
  | _, [] => []
  | i, v :: vs => (stem ++ "_" ++ Text.natText i, v) :: numberedFrom stem (i + 1) vs

def numbered (stem : Text) (vs : List Value) : Named := numberedFrom stem 0 vs

def among (column stem : Text) (vs : List Value) : Clause :=
  let bindings := numbered stem vs
  ⟨.among column (bindings.map Prod.fst), bindings⟩

def whereText : List Clause → Text
  | [] => ""
  | cs => "WHERE " ++ Text.intercalate " AND " (cs.map fun c => c.condition.text)

def allBindings (cs : List Clause) : Named := cs.flatMap bindings

theorem map_fst_numberedFrom (stem : Text) (i : Nat) (vs : List Value) :
    (numberedFrom stem i vs).map Prod.fst =
      (List.range' i vs.length).map fun j => stem ++ "_" ++ Text.natText j := by
  induction vs generalizing i with
  | nil => rfl
  | cons v vs ih => simp [numberedFrom, List.range'_succ, ih]

theorem map_snd_numberedFrom (stem : Text) (i : Nat) (vs : List Value) :
    (numberedFrom stem i vs).map Prod.snd = vs := by
  induction vs generalizing i with
  | nil => rfl
  | cons v vs ih => simp [numberedFrom, ih]

end Clause

end OrderStore.Sql
