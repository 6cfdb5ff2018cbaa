import EndpointMonitor.Wire.Variant

/-!
The states of a connection to the service.
-/

namespace EndpointMonitor

open Wire

inductive ConnectionState where
  | idle
  | connecting
  | connected
  | interrupted
  | invalidated
  deriving DecidableEq, Inhabited

namespace ConnectionState

def name : ConnectionState → String
  | .idle => "Idle"
  | .connecting => "Connecting"
  | .connected => "Connected"
  | .interrupted => "Interrupted"
  | .invalidated => "Invalidated"

def variants : Variants ConnectionState := [
  ("Idle", .idle),
  ("Connecting", .connecting),
  ("Connected", .connected),
  ("Interrupted", .interrupted),
  ("Invalidated", .invalidated)]

instance : Wire ConnectionState where
  encode s := .string s.name
  decode := variants.decodePlain

end ConnectionState

end EndpointMonitor
