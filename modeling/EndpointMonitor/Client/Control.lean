import EndpointMonitor.Service.Tables

/-!
The control operations of a client: what each asks of the service, and what it makes of the reply.
-/

namespace EndpointMonitor

inductive Control where
  | subscribe (events : EventSet)
  | unsubscribe (events : EventSet)
  | unsubscribeAll
  | clearCache
  | clearPathInterestCache
  | muteProcess (rule : MuteProcessRule) (events : EventSet)
  | unmuteProcess (rule : MuteProcessRule) (events : EventSet)
  | mutePath (path : String) (pathType : MutePathType) (events : EventSet)
  | unmutePath (path : String) (pathType : MutePathType) (events : EventSet)
  | unmuteAllProcesses
  | unmuteAllPaths
  | unmuteAllTargetPaths
  | invertMuting (muteType : InvertMutingType) (invert : Bool)
  | mutingInverted (muteType : InvertMutingType)
  deriving DecidableEq

/-- What a control operation returns. -/
inductive ControlValue where
  | done
  | flag (value : Bool)
  deriving DecidableEq

abbrev ControlResult := Except ClientError ControlValue

namespace Control

/-- The request for an operation. A rule that does not fit the codec is refused here. -/
def request (codec : Codec) : Control → Except ClientError ServiceRequest
  | .subscribe events => pure (.subscribe (Codec.encodeEvents events))
  | .unsubscribe events => pure (.unsubscribe (Codec.encodeEvents events))
  | .unsubscribeAll => pure .unsubscribeAll
  | .clearCache => pure .clearCache
  | .clearPathInterestCache => pure .clearPathInterestCache
  | .muteProcess rule events => do
    pure (.muteProcess ⟨← codec.encode rule, Codec.encodeEvents events⟩)
  | .unmuteProcess rule events => do
    pure (.unmuteProcess ⟨← codec.encode rule, Codec.encodeEvents events⟩)
  | .mutePath path pathType events =>
    pure (.mutePath ⟨path, pathType, Codec.encodeEvents events⟩)
  | .unmutePath path pathType events =>
    pure (.unmutePath ⟨path, pathType, Codec.encodeEvents events⟩)
  | .unmuteAllProcesses => pure .unmuteAllProcesses
  | .unmuteAllPaths => pure .unmuteAllPaths
  | .unmuteAllTargetPaths => pure .unmuteAllTargetPaths
  | .invertMuting muteType invert => pure (.invertMuting ⟨muteType, invert⟩)
  | .mutingInverted muteType => pure (.mutingInverted muteType)

/-- What an operation makes of a reply. All but one expect the empty reply. -/
def interpret (control : Control) (reply : ServiceReply) : ControlResult :=
  match control, reply with
  | .mutingInverted _, .flag value => pure (.flag value)
  | .mutingInverted _, other =>
    throw (.unexpected ("expected a flag reply, got " ++ other.text))
  | _, .done => pure .done
  | _, other => throw (.unexpected ("expected an empty reply, got " ++ other.text))

end Control

end EndpointMonitor
