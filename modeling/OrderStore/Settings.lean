import OrderStore.Text.Upper
import OrderStore.Value.Coerce

namespace OrderStore

structure Settings where
  dbHost : Text
  dbPort : Int
  dbName : Text
  dbUser : Text
  dbPass : Text
  databaseUrl : Text
  poolMin : Int
  poolMax : Int
  ordersTable : Text
  relationsTable : Text
  indexedTable : Text
  currency : Text
  pageSize : Int
  logLevel : Text
  deriving DecidableEq, Repr

namespace Settings

def address (user pass host : Text) (port : Int) (name : Text) : Text :=
  "postgresql://" ++ user ++ ":" ++ pass ++ "@" ++ host ++ ":" ++ Text.intText port ++ "/" ++ name

def default : Settings where
  dbHost := "localhost"
  dbPort := 5432
  dbName := "orderflex"
  dbUser := "orderflex_user"
  dbPass := ""
  databaseUrl := "postgresql://orderflex_user:@localhost:5432/orderflex"
  poolMin := 1
  poolMax := 5
  ordersTable := "orders"
  relationsTable := "order_relations"
  indexedTable := "order_indexed_fields"
  currency := "CNY"
  pageSize := 20
  logLevel := "INFO"

abbrev Environment := List (Text × Text)

def lookup? (env : Environment) (name : Text) : Option Text :=
  Assoc.get? (fun a b => a == b) name env

def lookup (env : Environment) (name default : Text) : Text := (lookup? env name).getD default

def lookupInteger (env : Environment) (name : Text) (default : Int) : Except Error Int :=
  match lookup? env name with
  | some t => (Value.text t).toInteger
  | none => .ok default

def ofEnvironment (env : Environment) : Except Error Settings := do
  let dbHost := lookup env "DB_HOST" default.dbHost
  let dbPort ← lookupInteger env "DB_PORT" default.dbPort
  let dbName := lookup env "DB_NAME" default.dbName
  let dbUser := lookup env "DB_USER" default.dbUser
  let dbPass := lookup env "DB_PASS" default.dbPass
  let poolMin ← lookupInteger env "DB_POOL_MIN" default.poolMin
  let poolMax ← lookupInteger env "DB_POOL_MAX" default.poolMax
  let pageSize ← lookupInteger env "DEFAULT_PAGE_SIZE" default.pageSize
  return {
    databaseUrl := lookup env "DATABASE_URL" (address dbUser dbPass dbHost dbPort dbName)
    ordersTable := lookup env "ORDERS_TABLE" default.ordersTable
    relationsTable := lookup env "ORDER_RELATIONS_TABLE" default.relationsTable
    indexedTable := lookup env "ORDER_INDEXED_TABLE" default.indexedTable
    currency := lookup env "DEFAULT_CURRENCY" default.currency
    logLevel := ((lookup? env "LOG_LEVEL").map Text.upper).getD default.logLevel
    dbHost, dbPort, dbName, dbUser, dbPass, poolMin, poolMax, pageSize }

end Settings

end OrderStore
