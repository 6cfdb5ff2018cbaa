import EndpointMonitor.Event.Wire
import EndpointMonitor.Mute.Rule

/-!
Control requests to the service, and its replies.
-/

namespace EndpointMonitor

open Wire

/-- A process rule, encoded, and the events that it concerns. -/
structure ProcessMute where
  rule : Bytes
  events : List EventType
  deriving DecidableEq

/-- A path, how it is compared, and the events that it concerns. -/
structure PathMute where
  path : String
  pathType : MutePathType
  events : List EventType
  deriving DecidableEq

/-- A class of mutes and whether it is to be inverted. -/
structure Inversion where
  muteType : InvertMutingType
  invert : Bool
  deriving DecidableEq

/-- A control request. Structured arguments travel encoded, event sets as lists of ids. -/
inductive ServiceRequest where
  | createSession (converter : Bytes)
  | clearPathInterestCache
  | muteProcess (mute : ProcessMute)
  | unmuteProcess (mute : ProcessMute)
  | mutePath (mute : PathMute)
  | unmutePath (mute : PathMute)
  | unmuteAllProcesses
  | unmuteAllPaths
  | unmuteAllTargetPaths
  | subscribe (events : List EventType)
  | unsubscribe (events : List EventType)
  | unsubscribeAll
  | clearCache
  | invertMuting (inversion : Inversion)
  | mutingInverted (muteType : InvertMutingType)
  deriving DecidableEq

namespace ServiceRequest

def name : ServiceRequest → String
  | .createSession _ => "create_session"
  | .clearPathInterestCache => "clear_path_interest_cache"
  | .muteProcess _ => "mute_process"
  | .unmuteProcess _ => "unmute_process"
  | .mutePath _ => "mute_path"
  | .unmutePath _ => "unmute_path"
  | .unmuteAllProcesses => "unmute_all_processes"
  | .unmuteAllPaths => "unmute_all_paths"
  | .unmuteAllTargetPaths => "unmute_all_target_paths"
  | .subscribe _ => "subscribe"
  | .unsubscribe _ => "unsubscribe"
  | .unsubscribeAll => "unsubscribe_all"
  | .clearCache => "clear_cache"
  | .invertMuting _ => "invert_muting"
  | .mutingInverted _ => "muting_inverted"

def converterRecord : Record Bytes Bytes :=
  (Record.of id) |>.field (.required "converter" id)

def processMuteRecord : Record ProcessMute ProcessMute :=
  (Record.of ProcessMute.mk)
    |>.field (.required "rule" (·.rule))
    |>.field (.required "events" (·.events))

def pathMuteRecord : Record PathMute PathMute :=
  (Record.of PathMute.mk)
    |>.field (.required "path" (·.path))
    |>.field (.required "path_type" (·.pathType))
    |>.field (.required "events" (·.events))

def eventsRecord : Record (List EventType) (List EventType) :=
  (Record.of id) |>.field (.required "events" id)

def inversionRecord : Record Inversion Inversion :=
  (Record.of Inversion.mk)
    |>.field (.required "mute_type" (·.muteType))
    |>.field (.required "invert" (·.invert))

def muteTypeRecord : Record InvertMutingType InvertMutingType :=
  (Record.of id) |>.field (.required "mute_type" id)

/-- The members of a request beside its name. -/
def members : ServiceRequest → List (String × Json)
  | .createSession converter => converterRecord.write converter
  | .muteProcess mute | .unmuteProcess mute => processMuteRecord.write mute
  | .mutePath mute | .unmutePath mute => pathMuteRecord.write mute
  | .subscribe events | .unsubscribe events => eventsRecord.write events
  | .invertMuting inversion => inversionRecord.write inversion
  | .mutingInverted muteType => muteTypeRecord.write muteType
  | .clearPathInterestCache | .unmuteAllProcesses | .unmuteAllPaths | .unmuteAllTargetPaths
  | .unsubscribeAll | .clearCache => []

def fields {ρ : Type} (variant : String) (record : Record ρ ρ) (build : ρ → ServiceRequest) :
    Fields ServiceRequest :=
  .ofRecord ("struct variant ServiceRequest::" ++ variant) record build

def internal : Internal ServiceRequest where
  name := "ServiceRequest"
  tag := "op"
  variants := [
    ("create_session", fields "CreateSession" converterRecord .createSession),
    ("clear_path_interest_cache", .none .clearPathInterestCache),
    ("mute_process", fields "MuteProcess" processMuteRecord .muteProcess),
    ("unmute_process", fields "UnmuteProcess" processMuteRecord .unmuteProcess),
    ("mute_path", fields "MutePath" pathMuteRecord .mutePath),
    ("unmute_path", fields "UnmutePath" pathMuteRecord .unmutePath),
    ("unmute_all_processes", .none .unmuteAllProcesses),
    ("unmute_all_paths", .none .unmuteAllPaths),
    ("unmute_all_target_paths", .none .unmuteAllTargetPaths),
    ("subscribe", fields "Subscribe" eventsRecord .subscribe),
    ("unsubscribe", fields "Unsubscribe" eventsRecord .unsubscribe),
    ("unsubscribe_all", .none .unsubscribeAll),
    ("clear_cache", .none .clearCache),
    ("invert_muting", fields "InvertMuting" inversionRecord .invertMuting),
    ("muting_inverted", fields "MutingInverted" muteTypeRecord .mutingInverted)]

instance : Wire ServiceRequest where
  encode request := .object (("op", .string request.name) :: request.members)
  decode := internal.decode

end ServiceRequest

/-- What the service answers to a request that it accepts. -/
inductive ServiceReply where
  | done
  | flag (value : Bool)
  | data (value : Bytes)
  deriving DecidableEq

namespace ServiceReply

def text : ServiceReply → String
  | .done => "Done"
  | .flag value => "Flag(" ++ toString value ++ ")"
  | .data value => "Data([" ++ ", ".intercalate (value.map fun b => toString b.toNat) ++ "])"

def adjacent : Adjacent ServiceReply where
  name := "ServiceReply"
  tag := "reply"
  content := "value"
  variants := [
    ("done", .unit .done "unit variant ServiceReply::Done"),
    ("flag", .map .flag),
    ("data", .map .data)]

instance : Wire ServiceReply where
  encode
    | .done => adjacent.encode "done" none
    | .flag value => adjacent.encode "flag" (some (Wire.encode value))
    | .data value => adjacent.encode "data" (some (Wire.encode value))
  decode := adjacent.decode

end ServiceReply

/-- A reply, or the text of the service's refusal. -/
abbrev RemoteResult := Except String ServiceReply

end EndpointMonitor
