import EndpointMonitor.Scenario.Basic

/-!
A demonstration: a client goes through its life against a service in the same process, and tells
what it sees in lines of text.
-/

namespace EndpointMonitor.Demo

/-- The events that the client subscribes to. -/
def watched : EventSet := .ofList [.authExec, .notifyExec, .notifyExit]

/-- Nobody may run what lies in the directory for temporary files. -/
def authorize (message : EventMessage) : Resolution :=
  if beginsWith "/tmp/" message.process.path then .deny true else .allow false

def handlers : HandlerSet where
  pathInterest := some fun process =>
    if process.name = "mdworker" then .verdict (some ⟨.ofList [.notifyExec], false⟩)
    else .verdict none
  auth := some fun message => .send (authorize message)
  notify := some fun _ => false
  customMessage := none

/-- The line that tells of something the client does. -/
def clientLine? : ClientEvent → Option String
  | .handled (.ok ()) => some "state  connected"
  | .handled (.error error) => some ("state  " ++ error.message)
  | .messageAnswered _ (.ok data) => some ("custom " ++ (Bytes.text? data).getD "")
  | .messageAnswered _ (.error error) => some ("custom failed: " ++ error.message)
  | .completed _ _ | .connection _ => none

/-- The line that a handler prints. -/
def handlerLine? : DispatchEvent → Option String
  | .invoked (.auth m) =>
    some ("auth   " ++ m.eventType.text ++ " " ++ m.process.path ++ " -> "
      ++ (authorize m).result.text)
  | .invoked (.notify m) =>
    some ("notify " ++ m.eventType.text ++ " pid=" ++ toString m.process.pid.toNat ++ " "
      ++ m.process.path)
  | .invoked (.interest _) | .invoked (.custom _) | .resolved _ _ | .replied _ _ => none

/-- A demonstration on its way, the lines that it has printed, and the error that has ended it. -/
structure Run where
  scenario : Scenario
  lines : Array String
  failure : Option ClientError

namespace Run

/-- Moves what has happened since the last time into lines. -/
def print (r : Run) : Run :=
  let (events, client) := r.scenario.client.drain
  let (dispatched, dispatcher) := client.dispatcher.drain
  { r with
    scenario := { r.scenario with client := { client with dispatcher } }
    lines := r.lines ++ (events.filterMap clientLine? ++ dispatched.filterMap handlerLine?) }

/-- The error that an answer tells of. -/
def failure? : Answer → Option ClientError
  | .outcome (.error error) | .control (.error error) => some error
  | _ => none

/-- Does one more thing, unless an error has ended the demonstration. -/
def act (r : Run) (action : Action) : Run :=
  match r.failure with
  | some _ => r
  | none =>
    let (answer, scenario) := r.scenario.step action
    { r with scenario, failure := failure? answer }.print

end Run

/-- The notification that a process runs a program. -/
def execOf (pid : UInt32) (path : String) : Action :=
  .emitNotify (.notify .notifyExec (.ofPath pid path))

/-- The number of the first process. -/
def firstPid : UInt32 := 1000

def tool (i : Nat) : Action :=
  execOf (firstPid + i.toUInt32) ("/usr/bin/tool" ++ toString i)

def prepare : List Action := [
  .setHandlers fun _ => handlers,
  .setStateHandler [.control (.subscribe watched)],
  .activate,
  .control (.subscribe watched),
  .control (.muteProcess (.name "backupd") (.ofList [.notifyExec]))]

def authorizations : List Action :=
  ["/usr/bin/true", "/tmp/payload"].map fun path => .emitAuth (.auth .authExec (.ofPath 4242 path))

/-- How long the demonstration waits beyond the reconnect delay. -/
def graceMs : Nat := 200

def interruption (config : ClientConfig) : List Action := [
  .interrupt,
  .advance (config.reconnectDelayMs.toNat + graceMs),
  .emitNotify (.notify .notifyExit (.ofPath firstPid "/usr/bin/tool0"))]

def script (config : ClientConfig) (events : UInt32) (interrupt : Bool) : List Action :=
  prepare ++ (List.range events.toNat).map tool
    ++ execOf 77 "/usr/libexec/backupd" :: authorizations
    ++ (if interrupt then interruption config else [])
    ++ [.sendCustom (Bytes.ofText "ping"), .invalidate]

/-- The demonstration. Client and service share the limits of the configuration. -/
def run (config : ClientConfig) (events : UInt32) (interrupt : Bool) : Run :=
  (script config events interrupt).foldl Run.act ⟨.new config config.codec, #[], none⟩

end EndpointMonitor.Demo
