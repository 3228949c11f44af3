import OrderStore.Assoc
import OrderStore.Error
import OrderStore.Log

namespace OrderStore.Log

def parts : List String :=
  ["BufferingFormatter", "FileHandler", "Filter", "Filterer", "Formatter", "GenericAlias",
    "Handler", "LogRecord", "Logger", "LoggerAdapter", "Manager", "NullHandler", "PercentStyle",
    "PlaceHolder", "RootLogger", "StrFormatStyle", "StreamHandler", "StringTemplateStyle",
    "Template", "addLevelName", "atexit", "basicConfig", "captureWarnings", "collections",
    "critical", "currentframe", "debug", "disable", "error", "exception", "fatal", "getLevelName",
    "getLevelNamesMapping", "getLogRecordFactory", "getLogger", "getLoggerClass", "info", "io",
    "lastResort", "log", "makeLogRecord", "os", "re", "root", "setLogRecordFactory",
    "setLoggerClass", "shutdown", "sys", "threading", "time", "traceback", "warn", "warning",
    "warnings", "weakref"]

def innerParts : List String :=
  ["_STYLES", "_StderrHandler", "_acquireLock", "_addHandlerRef",
    "_after_at_fork_child_reinit_locks", "_at_fork_reinit_lock_weakset", "_checkLevel",
    "_defaultFormatter", "_defaultLastResort", "_handlerList", "_handlers", "_is_internal_frame",
    "_levelToName", "_lock", "_logRecordFactory", "_loggerClass", "_nameToLevel",
    "_register_at_fork_reinit_lock", "_releaseLock", "_removeHandlerRef", "_showwarning",
    "_startTime", "_str_formatter", "_warnings_showwarning"]

def commonParts : List String :=
  ["__all__", "__annotations__", "__builtins__", "__class__", "__delattr__", "__dict__",
    "__dir__", "__eq__", "__format__", "__ge__", "__getattribute__", "__getstate__", "__gt__",
    "__hash__", "__init__", "__init_subclass__", "__le__", "__loader__", "__lt__", "__ne__",
    "__new__", "__path__", "__reduce__", "__reduce_ex__", "__repr__", "__setattr__", "__sizeof__",
    "__spec__", "__str__", "__subclasshook__"]

def texts : List (Text × Text) :=
  [("BASIC_FORMAT", "%(levelname)s:%(name)s:%(message)s"), ("__name__", "logging"), ("__package__", "logging"),
    ("__version__", "0.5.1.2"), ("__date__", "07 February 2010"), ("__status__", "production")]

def switches : List Text := ["raiseExceptions", "logThreads", "logMultiprocessing", "logProcesses"]

/-- The level that a name gives to the log, whose notes are further texts under names of their own. A switch gives
its state; unknown names mean the level of information. -/
def threshold (notes : List (Text × Text)) (name : Text) : Except Error Value :=
  match Assoc.get? (fun a b => a == b) name (texts ++ notes) with
  | some text => .error (.unknownLevel text)
  | none =>
    if (parts ++ innerParts ++ commonParts).any fun part => name == part then
      .error (.badLevel name)
    else if switches.contains name then .ok (.bool true)
    else .ok (.int ((Level.ofName? name).getD .info).number)

end OrderStore.Log
