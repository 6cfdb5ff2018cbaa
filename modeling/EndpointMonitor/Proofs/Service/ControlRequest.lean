import EndpointMonitor.Proofs.Service.Holdings

/-!
The request of an operation. Only a rule that is too large keeps it from being made, and the service
reads the same operation out of it again.
-/

namespace EndpointMonitor.Control

/-- The name under which the service has an operation on record. -/
def name : Control → String
  | .subscribe _ => "subscribe"
  | .unsubscribe _ => "unsubscribe"
  | .unsubscribeAll => "unsubscribe_all"
  | .clearCache => "clear_cache"
  | .clearPathInterestCache => "clear_path_interest_cache"
  | .muteProcess _ _ => "mute_process"
  | .unmuteProcess _ _ => "unmute_process"
  | .mutePath _ _ _ => "mute_path"
  | .unmutePath _ _ _ => "unmute_path"
  | .unmuteAllProcesses => "unmute_all_processes"
  | .unmuteAllPaths => "unmute_all_paths"
  | .unmuteAllTargetPaths => "unmute_all_target_paths"
  | .invertMuting _ _ => "invert_muting"
  | .mutingInverted _ => "muting_inverted"

def rule? : Control → Option MuteProcessRule
  | .muteProcess rule _ | .unmuteProcess rule _ => some rule
  | _ => none

/-- The rule of an operation, if it has one, is not too large. -/
def Fits (codec : Codec) (control : Control) : Prop :=
  ∀ rule, control.rule? = some rule → (Wire.encode rule).write.length ≤ codec.limit

theorem eventSet_encodeEvents (events : EventSet) :
    ServiceTables.eventSet (Codec.encodeEvents events) = .ok events := by
  simp only [ServiceTables.eventSet, Codec.decodeEvents, Codec.encodeEvents, EventSet.ofList_toList]
  rfl

/-- What the service can make of a request. -/
structure Asks (codec : Codec) (request : ServiceRequest) (control : Control) : Prop where
  name : request.name = control.name
  control : request.control? codec = some control

theorem request_of_fits {codec : Codec} {control : Control} (fits : control.Fits codec) :
    ∃ request, control.request codec = .ok request ∧ Asks codec request control := by
  cases control with
  | muteProcess rule events | unmuteProcess rule events =>
    have encoded := Codec.encode_of_fits (fits rule rfl)
    refine ⟨_, by simp only [request, encoded]; rfl, rfl, ?_⟩
    simp only [ServiceRequest.control?, Codec.decodeRule_of_encode encoded,
      eventSet_encodeEvents]
    rfl
  | subscribe events | unsubscribe events | mutePath path pathType events
  | unmutePath path pathType events =>
    refine ⟨_, rfl, rfl, ?_⟩
    simp only [ServiceRequest.control?, eventSet_encodeEvents]
    rfl
  | unsubscribeAll | clearCache | clearPathInterestCache | unmuteAllProcesses | unmuteAllPaths
  | unmuteAllTargetPaths | invertMuting muteType invert | mutingInverted muteType =>
    exact ⟨_, rfl, rfl, rfl⟩

theorem request_of_oversized {codec : Codec} {control : Control} (large : ¬ control.Fits codec) :
    ∃ rule, control.rule? = some rule ∧ codec.limit < (Wire.encode rule).write.length ∧
      control.request codec =
        .error (.encodeFailure (codec.oversized (Wire.encode rule).write)) := by
  simp only [Fits, Classical.not_forall, Nat.not_le] at large
  obtain ⟨rule, named, large⟩ := large
  have refused : codec.encode rule =
      .error (.encodeFailure (codec.oversized (Wire.encode rule).write)) :=
    if_neg (Nat.not_le.2 large)
  refine ⟨rule, named, large, ?_⟩
  cases control with
  | muteProcess first events | unmuteProcess first events =>
    obtain rfl := Option.some.inj named
    simp only [request, refused]
    rfl
  | _ => cases named

theorem asks_of_request {codec : Codec} {control : Control} {request : ServiceRequest}
    (made : control.request codec = .ok request) : Asks codec request control := by
  by_cases fits : control.Fits codec
  · obtain ⟨same, made', asks⟩ := request_of_fits fits
    obtain rfl := Except.ok.inj (made'.symm.trans made)
    exact asks
  · obtain ⟨rule, -, -, refused⟩ := request_of_oversized fits
    rw [made] at refused
    cases refused

end EndpointMonitor.Control
