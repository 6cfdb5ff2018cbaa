import EndpointMonitor.CommandLine.Basic

/-!
What the program logs while it looks for its configuration. The lines of the log go to the same
output as what the program prints. How a line is written, with the time, is up to the formatter.
-/

namespace EndpointMonitor

inductive LogLevel where
  | error
  | warn
  | info
  | debug
  | trace
  deriving DecidableEq

namespace LogLevel

def name : LogLevel → String
  | .error => "ERROR"
  | .warn => "WARN"
  | .info => "INFO"
  | .debug => "DEBUG"
  | .trace => "TRACE"

/-- How much is logged at a level; each logs what those before it log. -/
def rank : LogLevel → Nat
  | .error => 1
  | .warn => 2
  | .info => 3
  | .debug => 4
  | .trace => 5

/-- The level that a number of verbose options asks for. -/
def ofVerbosity : Nat → LogLevel
  | 0 => .warn
  | 1 => .info
  | 2 => .debug
  | _ => .trace

end LogLevel

/-- What there is to tell about how the configuration was found. -/
inductive LogRecord where
  | loading (path : String)
  | noFile
  | unusable (error : ConfigError)
  deriving DecidableEq

namespace LogRecord

def level : LogRecord → LogLevel
  | .loading _ | .noFile => .debug
  | .unusable _ => .warn

/-- The part of the program that logs it. -/
def target : LogRecord → String
  | .loading _ | .noFile => "secmon_client::config::loader"
  | .unusable _ => "secmon_client"

def message : LogRecord → String
  | .loading _ => "Loading config file"
  | .noFile => "No config file found, using defaults"
  | .unusable _ => "Failed to load config, using defaults"

def fields : LogRecord → List (String × String)
  | .loading path => [("path", path)]
  | .noFile => []
  | .unusable error => [("error", error.message)]

/-- A record as the formatter writes it without colours, after the time. -/
def line (time : String) (r : LogRecord) : String :=
  time ++ " " ++ (if r.level.name.length < 5 then " " else "") ++ r.level.name ++ " " ++ r.target ++
    ": " ++ r.message ++ String.join (r.fields.map fun (name, value) => " " ++ name ++ "=" ++ value)

end LogRecord

namespace ConfigLoader

def found (loader : ConfigLoader) (files : Files) : LogRecord :=
  match loader.find? files with
  | some path => .loading path
  | none => .noFile

/-- What a search for the configuration logs. -/
def log (loader : ConfigLoader) (files : Files) : List LogRecord :=
  match loader.load files with
  | .ok _ => [loader.found files]
  | .error error => [loader.found files, .unusable error]

end ConfigLoader

/-- How a run of the program logs: the filter that the environment asks for, if it asks for one, and
how a record is written. -/
structure Logging where
  filter : Option (LogRecord → Bool)
  line : LogRecord → String

namespace Logging

def shows (logging : Logging) (level : LogLevel) (record : LogRecord) : Bool :=
  match logging.filter with
  | some filter => filter record
  | none => record.level.rank ≤ level.rank

/-- The lines that are logged. -/
def lines (logging : Logging) (level : LogLevel) (records : List LogRecord) : List String :=
  (records.filter (logging.shows level)).map logging.line

end Logging

namespace CommandLine

def verbosity (arguments : List String) : Nat :=
  ((scan programSpecs arguments).occurrences.filter (·.spec.meaning = .verbose)).length

/-- What the program logs when it shows the configuration. -/
def showConfigLog (logging : Logging) (arguments : List String) (loader : ConfigLoader)
    (files : Files) : List String :=
  logging.lines (.ofVerbosity (verbosity arguments)) (loader.log files)

/-- All that stands on the output then. -/
def showConfigOutput (logging : Logging) (arguments : List String) (loader : ConfigLoader)
    (files : Files) : String :=
  textOf (showConfigLog logging arguments loader files ++
    (showConfig (configOf loader files)).lines)

end CommandLine

end EndpointMonitor
