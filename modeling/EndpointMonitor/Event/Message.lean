import EndpointMonitor.Event.Wire
import EndpointMonitor.Process
import EndpointMonitor.Wire.Variant

/-!
Event messages, as the service sends them to a client.
-/

namespace EndpointMonitor

open Wire

/-- Whether the service waits for an answer. -/
inductive ActionKind where
  | auth
  | notify
  deriving DecidableEq

namespace ActionKind

def name : ActionKind → String
  | .auth => "auth"
  | .notify => "notify"

def variants : Variants ActionKind := [("auth", .auth), ("notify", .notify)]

instance : Wire ActionKind where
  encode a := .string a.name
  decode := variants.decodePlain

end ActionKind

/-- A security event. Its details are free JSON that only handlers interpret. -/
structure EventMessage where
  version : UInt32
  seqNum : UInt64
  time : UInt64
  eventType : EventType
  action : ActionKind
  process : ProcessDescriptor
  event : Document

namespace EventMessage

/-- A message of the first version, without details. -/
def ofAction (action : ActionKind) (eventType : EventType) (process : ProcessDescriptor) :
    EventMessage :=
  ⟨1, 0, 0, eventType, action, process, .null⟩

def notify : EventType → ProcessDescriptor → EventMessage := ofAction .notify

def auth : EventType → ProcessDescriptor → EventMessage := ofAction .auth

/-- The path that the event acts on, if its details name one. -/
def target? (m : EventMessage) : Option String :=
  match m.event.value with
  | .object members =>
    match members.lookup "target" with
    | some (.string path) => some path
    | _ => none
  | _ => none

def record : Record EventMessage EventMessage :=
  (Record.of EventMessage.mk)
    |>.field (.required "version" (·.version))
    |>.field (.required "seq_num" (·.seqNum))
    |>.field (.required "time" (·.time))
    |>.field (.required "event_type" (·.eventType))
    |>.field (.required "action" (·.action))
    |>.field (.required "process" (·.process))
    |>.field (.withDefault "event" (·.event) .null)

instance : Wire EventMessage where
  encode := record.encode
  decode := record.decode "struct EventMessage"

end EventMessage

end EndpointMonitor
