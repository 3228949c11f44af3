import OrderStore.Storage.Action

namespace OrderStore.Storage.Action

open Sql

def createFailed (logger : Text) (e : Error) : Log.Record :=
  ⟨.error, logger, "Failed to initialize schema: " ++ e.message⟩

def createTables (logger : Text) : Action Unit :=
  transaction (createFailed logger) do
    openCursor false
    let _ ← execute (.createTables Tables.default)
    commit
    log .info logger "Database schema initialized successfully."

def poolParameters : List Parameter :=
  [("min_conn", some (.int Settings.default.poolMin)), ("max_conn", some (.int Settings.default.poolMax))]

def openPoolWith (a : Arguments) : Action Unit := do
  let (minimum, maximum) ← ofExcept
    ((a.bind poolParameters).bind fun
      | [minimum, maximum] => .ok (minimum, maximum)
      | _ => .error .wrongArguments)
  openPool minimum maximum

def bootstrap : Action Text := do
  openPoolWith ⟨[], []⟩
  createTables "__main__"
  return "✅ Database schema created successfully.\n"

end OrderStore.Storage.Action
