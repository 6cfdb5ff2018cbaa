import EndpointMonitor.Config.Text
import EndpointMonitor.Text.Bytes

/-!
Where a configuration comes from: the first file of a search list that exists.
-/

namespace EndpointMonitor

/-- What stands under a path. -/
inductive FileState where
  | missing
  | unreadable
  | content (bytes : Bytes)

abbrev Files := String → FileState

def FileState.exists : FileState → Bool
  | .missing => false
  | .unreadable | .content _ => true

/-- Why a file that exists gives no configuration. -/
inductive ConfigError where
  | read (path : String)
  | parse (path : String)
  | invalid (path reason : String)
  deriving DecidableEq

def ConfigError.message : ConfigError → String
  | .read path => "Failed to read config file " ++ path
  | .parse path => "Failed to parse config file " ++ path
  | .invalid path reason => "Invalid config file " ++ path ++ ": " ++ reason

/-- Looks for a configuration under several paths, the first first. -/
structure ConfigLoader where
  searchPaths : List String

namespace ConfigLoader

/-- The file that the current directory may hold. -/
def localPath : String := ".secmon-client.toml"

/-- A name below a directory; a slash at the end of the directory is not repeated. -/
def joined (dir name : String) : String :=
  if dir = "" || dir.endsWith "/" then dir ++ name else dir ++ "/" ++ name

/-- The file inside of the user's directory for configurations. -/
def userPath (configDir : String) : String :=
  joined (joined configDir "secmon-client") "config.toml"

/-- The default list. An override comes first unless it is empty. -/
def ofEnvironment (override configDir : Option String) : ConfigLoader :=
  ⟨(override.filter (· ≠ "")).toList ++ localPath :: (configDir.map userPath).toList⟩

def ofPath (path : String) : ConfigLoader := ⟨[path]⟩

def find? (loader : ConfigLoader) (files : Files) : Option String :=
  loader.searchPaths.find? fun path => (files path).exists

/-- The values that would make every call fail. -/
def invalid? (c : ClientConfig) : Option String :=
  if c.timeoutMs = 0 then some "timeout_ms must be greater than zero"
  else if c.codec.maxPayloadBytes = 0 then
    some "codec.max_payload_bytes must be greater than zero"
  else none

/-- The configuration of one file. -/
def loadFile (path : String) (state : FileState) : Except ConfigError ClientConfig :=
  match state with
  | .missing | .unreadable => .error (.read path)
  | .content bytes =>
    match Bytes.text? bytes with
    | none => .error (.read path)
    | some text =>
      match ClientConfig.ofToml? text with
      | none => .error (.parse path)
      | some config =>
        match invalid? config with
        | some reason => .error (.invalid path reason)
        | none => .ok config

/-- Tries one path after the other. The first file that exists ends the search, whatever is wrong
with it; the defaults are for when none does. -/
def loadFirst (files : Files) : List String → Except ConfigError ClientConfig
  | [] => .ok .default
  | path :: others =>
    if (files path).exists then loadFile path (files path) else loadFirst files others

def load (loader : ConfigLoader) (files : Files) : Except ConfigError ClientConfig :=
  loadFirst files loader.searchPaths

end ConfigLoader

end EndpointMonitor
