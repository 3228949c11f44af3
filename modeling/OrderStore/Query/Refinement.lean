import OrderStore.Query
import OrderStore.Text.Upper
import OrderStore.Value.Coerce

namespace OrderStore

inductive Refinement where
  | types (values : Value)
  | type (value : Value)
  | statuses (values : Value)
  | status (value : Value)
  | buyerId (value : Value)
  | buyerIds (values : Value)
  | orderNo (value : Value)
  | orderNoLike (text prefixOnly : Value)
  | keyword (text : Value)
  | relations (filters : Value)
  | indexedFields (filters : Value)
  | createdBetween (start stop : Value)
  | createdAfter (start : Value)
  | createdBefore (stop : Value)
  | updatedBetween (start stop : Value)
  | updatedAfter (start : Value)
  | updatedBefore (stop : Value)
  | amountBetween (minimum maximum : Value)
  | amountMin (minimum : Value)
  | amountMax (maximum : Value)
  | limit (limit : Value)
  | offset (offset : Value)
  | page (number size : Value)
  | orderBy (column direction : Value)
  | total (includeTotal : Value)
  deriving Repr

namespace Refinement

def ofCall (name : String) (a : Arguments) : Except Error Refinement :=
  let one (parameter : Text) (make : Value → Refinement) := (a.one (parameter, none)).map make
  let two (p q : Parameter) (make : Value → Value → Refinement) :=
    (a.two p q).map fun vs => make vs.1 vs.2
  match name with
  | "with_types" => one "types" .types
  | "with_type" => one "type" .type
  | "with_statuses" => one "statuses" .statuses
  | "with_status" => one "status" .status
  | "with_buyer_id" => one "buyer_id" .buyerId
  | "with_buyer_ids" => one "buyer_ids" .buyerIds
  | "with_order_no" => one "order_no" .orderNo
  | "with_order_no_like" => two ("text", none) ("prefix_only", some (.bool true)) .orderNoLike
  | "with_keyword" => one "keyword" .keyword
  | "with_relations" => one "relations" .relations
  | "with_indexed_fields" => one "indexed_fields" .indexedFields
  | "with_created_between" => two ("start", none) ("end", none) .createdBetween
  | "with_created_after" => one "start" .createdAfter
  | "with_created_before" => one "end" .createdBefore
  | "with_updated_between" => two ("start", none) ("end", none) .updatedBetween
  | "with_updated_after" => one "start" .updatedAfter
  | "with_updated_before" => one "end" .updatedBefore
  | "with_amount_between" => two ("minimum", none) ("maximum", none) .amountBetween
  | "with_amount_min" => one "minimum" .amountMin
  | "with_amount_max" => one "maximum" .amountMax
  | "with_limit" => one "limit" .limit
  | "with_offset" => one "offset" .offset
  | "with_page" => two ("page", none) ("per_page", some .null) .page
  | "order_by" => two ("column", none) ("direction", some (.text "desc")) .orderBy
  | "with_total" => one "include_total" .total
  | _ => .error .unknownOperation

abbrev Writes := List (Criterion × Value)

def writeTuple (c : Criterion) (v : Value) : Except Error Writes :=
  v.toElements.map fun xs => [(c, .tuple xs)]

def orNull (v : Value) : Value := if v.isEmpty then .null else v

def anywhere (text : Text) : Text := "%" ++ text ++ "%"

def atStart (text : Text) : Text := text ++ "%"

def writeText (c : Criterion) (wrap : Text → Text) (v : Value) : Except Error Writes :=
  v.toTrimmed.map fun text => [(c, (text.map fun t => .text (wrap t)).getD .null)]

def writeFilters (c : Criterion) (v : Value) : Except Error Writes :=
  (Filters.ofValue v).map fun fs => [(c, fs.toValue)]

def toTimeBound (now : WallClock) (v : Value) : Except Error Value :=
  if v.isEmpty then .ok .null else (v.toTimestamp now).map fun t => .moment (.ofTimestamp t)

def writeTime (now : WallClock) (c : Criterion) (v : Value) : Except Error Writes :=
  (toTimeBound now v).map fun b => [(c, b)]

/-- Only nothing leaves a side of an amount range open. -/
def toAmountBound (v : Value) : Except Error Value :=
  if v.isNull then .ok .null else v.toAmount.map .decimal

def writeAmount (c : Criterion) (v : Value) : Except Error Writes :=
  (toAmountBound v).map fun b => [(c, b)]

def isSettledTime : Value → Bool
  | .null => true
  | .moment m => m.offset.isNone && m.micro.val == 0
  | _ => false

def isSettledAmount : Value → Bool
  | .null | .decimal _ => true
  | _ => false

/-- The other side of a time range is read again if it is not settled yet. -/
def settleTime (now : WallClock) (c : Criterion) (q : Query) : Except Error Writes :=
  if isSettledTime (q c) then .ok [] else writeTime now c (q c)

def settleAmount (c : Criterion) (q : Query) : Except Error Writes :=
  if isSettledAmount (q c) then .ok [] else writeAmount c (q c)

def both (a b : Except Error Writes) : Except Error Writes := a.bind fun xs => b.map fun ys => xs ++ ys

def writeLimit (v : Value) : Except Error Writes :=
  v.toInteger.map fun n => [(.limit, .int (max 1 n))]

def writeOffset (v : Value) : Except Error Writes :=
  v.toInteger.map fun n => [(.offset, .int (max 0 n))]

/-- Pages count from one, and every page before the first is the first. -/
def writePage (number size : Value) : Except Error Writes :=
  size.toInteger.bind fun size => number.toInteger.map fun number =>
    let limit := max 1 size
    [(.limit, .int limit), (.offset, .int ((max 1 number - 1) * limit))]

def directionOf (v : Value) : Text :=
  if v.display.trim.lowerAscii = "asc" then "asc" else "desc"

/-- What a refinement writes. Only a page without a size depends on the limit before it, and one side
of a range on the other side, as far as that is not settled. -/
def writes (now : WallClock) (q : Query) : Refinement → Except Error Writes
  | .types vs => writeTuple .types vs
  | .type v => .ok [(.types, .tuple [v])]
  | .statuses vs => writeTuple .statuses vs
  | .status v => .ok [(.statuses, .tuple [v])]
  | .buyerId v => .ok [(.buyerId, v)]
  | .buyerIds vs => writeTuple .buyerIds vs
  | .orderNo v => .ok [(.orderNo, orNull v)]
  | .orderNoLike text prefixOnly => writeText .orderNoLike (if prefixOnly.isEmpty then anywhere else atStart) text
  | .keyword text => writeText .keyword anywhere text
  | .relations fs => writeFilters .relations fs
  | .indexedFields fs => writeFilters .indexedFields fs
  | .createdBetween start stop => both (writeTime now .createdFrom start) (writeTime now .createdTo stop)
  | .createdAfter start => both (writeTime now .createdFrom start) (settleTime now .createdTo q)
  | .createdBefore stop => both (settleTime now .createdFrom q) (writeTime now .createdTo stop)
  | .updatedBetween start stop => both (writeTime now .updatedFrom start) (writeTime now .updatedTo stop)
  | .updatedAfter start => both (writeTime now .updatedFrom start) (settleTime now .updatedTo q)
  | .updatedBefore stop => both (settleTime now .updatedFrom q) (writeTime now .updatedTo stop)
  | .amountBetween lo hi => both (writeAmount .amountMin lo) (writeAmount .amountMax hi)
  | .amountMin lo => both (writeAmount .amountMin lo) (settleAmount .amountMax q)
  | .amountMax hi => both (settleAmount .amountMin q) (writeAmount .amountMax hi)
  | .limit v => writeLimit v
  | .offset v => writeOffset v
  | .page number size => writePage number (if size.isNull then q .limit else size)
  | .orderBy column direction => .ok [(.column, column), (.direction, .text (directionOf direction))]
  | .total v => .ok [(.includeTotal, .bool (!v.isEmpty))]

end Refinement

def Query.refine (now : WallClock) (q : Query) (r : Refinement) : Except Error Query :=
  (r.writes now q).map fun ws => assignAll ws q

end OrderStore
