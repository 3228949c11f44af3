import OrderStore.Number.Numeral
import OrderStore.Value.Display

namespace OrderStore

inductive ErrorKind where
  | value
  | frozenField
  | type
  | attribute
  | key
  | overflow
  | runtime
  | depth
  | arithmetic
  | memory
  | integrity
  | operational
  | data
  deriving DecidableEq, Repr

inductive Error where
  | notAmount (value : Value)
  | notTimestamp (text : Text)
  | calendar (fault : CalendarFault)
  | offset (micros : Int)
  | beyondCalendar
  | notNumeral (value : Value)
  | longNumeral (digits : Nat)
  | nanInteger (ofFloat : Bool)
  | infiniteInteger
  | hugeInteger
  | unshownInteger
  | pairLength (index length : Nat)
  | wrongType
  | wrongArguments
  | unknownOperation
  | missing (key : Text)
  | identified (orderNo : Text) (id : Value)
  | frozen (fields : List Text) (orderNo : Text)
  | unknownFields (fields : List Text)
  | notEncodable (kind : String)
  | badKey (kind : String)
  | badTableName (name : Value)
  | deepDocument (inObject : Bool)
  | deepMap
  | nanCompared
  | badLevel (name : Text)
  | unknownLevel (text : Text)
  | poolClosed
  | duplicateOrderNo
  | failure (kind : ErrorKind) (message : Text)
  deriving Repr

namespace Error

def kind : Error → ErrorKind
  | .notAmount _ | .notTimestamp _ | .calendar _ | .offset _ | .notNumeral _ | .longNumeral _
  | .nanInteger _ | .unshownInteger | .pairLength .. | .badTableName _ | .unknownLevel _ => .value
  | .beyondCalendar | .infiniteInteger => .overflow
  | .wrongType | .wrongArguments | .unknownFields _ | .notEncodable _ | .badKey _
  | .badLevel _ => .type
  | .unknownOperation => .attribute
  | .missing _ => .key
  | .identified .. | .frozen .. => .frozenField
  | .poolClosed => .runtime
  | .deepDocument _ | .deepMap => .depth
  | .nanCompared => .arithmetic
  | .hugeInteger => .memory
  | .duplicateOrderNo => .integrity
  | .failure kind _ => kind

def calendarMessage : CalendarFault → String
  | .year year => "year " ++ Text.natText year ++ " is out of range"
  | .month => "month must be in 1..12"
  | .day => "day is out of range for month"
  | .hour => "hour must be in 0..23"
  | .minute => "minute must be in 0..59"
  | .second => "second must be in 0..59"

def digitsMessage (known : String) : String :=
  "Exceeds the limit (" ++ Text.natText Numeral.maxDigits ++ " digits) for integer string conversion" ++
    known ++ "; use sys.set_int_max_str_digits() to increase the limit"

/-- A quoted value is cut after 200 characters in the message about numerals. -/
def message : Error → Text
  | .notAmount value => "Not an amount: " ++ value.quoted
  | .notTimestamp text => "Invalid isoformat string: " ++ Text.quote text
  | .calendar fault => calendarMessage fault
  | .offset micros =>
    "offset must be a timedelta strictly between -timedelta(hours=24) and timedelta(hours=24), not " ++
      durationText micros ++ "."
  | .beyondCalendar => "date value out of range"
  | .notNumeral value =>
    "invalid literal for int() with base 10: " ++ String.ofList (value.quoted.toList.take 200)
  | .longNumeral digits => digitsMessage (": value has " ++ Text.natText digits ++ " digits")
  | .nanInteger ofFloat =>
    if ofFloat then "cannot convert float NaN to integer" else "cannot convert NaN to integer"
  | .infiniteInteger => "cannot convert Infinity to integer"
  | .hugeInteger => ""
  | .unshownInteger => digitsMessage ""
  | .pairLength index length =>
    "dictionary update sequence element #" ++ Text.natText index ++ " has length " ++
      Text.natText length ++ "; 2 is required"
  | .wrongType => "unsupported type"
  | .wrongArguments => "unsupported arguments"
  | .unknownOperation => "unknown operation"
  | .missing key => Text.quote key
  | .identified orderNo id => "Order " ++ orderNo ++ " already has id " ++ id.display
  | .frozen fields orderNo =>
    "Cannot change " ++ Text.intercalate ", " fields ++ " of order " ++ orderNo
  | .unknownFields fields => "Unknown order fields: " ++ Text.intercalate ", " fields
  | .notEncodable kind => "Object of type " ++ kind ++ " is not JSON serializable"
  | .badKey kind => "keys must be str, int, float, bool or None, not " ++ kind
  | .badTableName name => "Invalid table name: " ++ name.quoted
  | .deepDocument inObject =>
    "maximum recursion depth exceeded while decoding a JSON " ++ (if inObject then "object" else "array") ++
      " from a unicode string"
  | .deepMap => "maximum recursion depth exceeded while encoding a JSON object"
  | .nanCompared => "[<class 'decimal.InvalidOperation'>]"
  | .badLevel name => "Level not an integer or a valid string: " ++ name
  | .unknownLevel text => "Unknown level: " ++ Text.quote text
  | .poolClosed => "Database pool not initialized. Call init_pool() first."
  | .duplicateOrderNo => "duplicate key value violates unique constraint on order_no"
  | .failure kind message => if kind = .key then Text.quote message else message

end Error

end OrderStore
