import EndpointMonitor.Codec
import EndpointMonitor.Mute.Table
import EndpointMonitor.Resolution
import EndpointMonitor.Service.Request

/-!
What the service remembers of the client at the other end of a channel, and how control requests
change it.
-/

namespace EndpointMonitor

structure ServiceTables where
  subscriptions : EventSet
  mutes : Mutes
  /-- The verdict on each path for which the client was asked; `none` is no opinion. -/
  interest : Table String (Option InterestVerdict)
  resolutions : Table (String × EventType) Resolution

namespace ServiceTables

def empty : ServiceTables := ⟨.empty, .empty, .empty, .empty⟩

def eventSet (events : List EventType) : Except String EventSet :=
  (Codec.decodeEvents events).mapError (·.message)

def decodeRule (codec : Codec) (rule : Bytes) : Except String MuteProcessRule :=
  (codec.decode rule).mapError (·.message)

def mapProcesses (t : ServiceTables)
    (f : MuteTable MuteProcessRule → MuteTable MuteProcessRule) : ServiceTables :=
  { t with mutes := { t.mutes with processes := f t.mutes.processes } }

def mapPaths (t : ServiceTables) (f : MuteTable PathSelector → MuteTable PathSelector) :
    ServiceTables :=
  { t with mutes := { t.mutes with paths := f t.mutes.paths } }

/-- Carries out a request, or says why not. Opening a session changes no table. -/
def apply (codec : Codec) (t : ServiceTables) (request : ServiceRequest) :
    Except String (ServiceReply × ServiceTables) :=
  match request with
  | .createSession _ => pure (.done, t)
  | .clearPathInterestCache => pure (.done, { t with interest := .empty })
  | .muteProcess ⟨rule, events⟩ => do
    let rule ← decodeRule codec rule
    let events ← eventSet events
    pure (.done, t.mapProcesses (·.mute rule events))
  | .unmuteProcess ⟨rule, events⟩ => do
    let rule ← decodeRule codec rule
    let events ← eventSet events
    pure (.done, t.mapProcesses (·.unmute rule events))
  | .mutePath ⟨path, pathType, events⟩ => do
    let events ← eventSet events
    pure (.done, t.mapPaths (·.mute (path, pathType) events))
  | .unmutePath ⟨path, pathType, events⟩ => do
    let events ← eventSet events
    pure (.done, t.mapPaths (·.unmute (path, pathType) events))
  | .unmuteAllProcesses => pure (.done, t.mapProcesses fun _ => .empty)
  | .unmuteAllPaths => pure (.done, t.mapPaths (·.filter fun key => key.2.isTarget))
  | .unmuteAllTargetPaths => pure (.done, t.mapPaths (·.filter fun key => !key.2.isTarget))
  | .subscribe events => do
    let events ← eventSet events
    pure (.done, { t with subscriptions := t.subscriptions.union events })
  | .unsubscribe events => do
    let events ← eventSet events
    pure (.done, { t with subscriptions := t.subscriptions.subtract events })
  | .unsubscribeAll => pure (.done, { t with subscriptions := .empty })
  | .clearCache => pure (.done, { t with resolutions := .empty })
  | .invertMuting ⟨muteType, invert⟩ =>
    let mutes := { t.mutes with inversions := t.mutes.inversions.set muteType invert }
    pure (.done, { t with mutes })
  | .mutingInverted muteType => pure (.flag (t.mutes.inversions.get muteType), t)

/-- Whether a message passes subscriptions and mutes. -/
def passes (t : ServiceTables) (message : EventMessage) : Bool :=
  t.subscriptions.contains message.eventType && !t.mutes.mutes message

end ServiceTables

end EndpointMonitor
