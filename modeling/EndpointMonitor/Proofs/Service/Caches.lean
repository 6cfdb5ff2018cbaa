import EndpointMonitor.Proofs.Service.Operation

/-!
What the service has cached, and how long. Nothing but an emission adds to it; what is cached lasts
until a channel is made or the cache is cleared.
-/

namespace EndpointMonitor

/-- Whether a request clears the cache of interests. -/
def ServiceRequest.clearsInterest : ServiceRequest → Bool
  | .clearPathInterestCache => true
  | _ => false

/-- Whether a request clears the cache of resolutions. -/
def ServiceRequest.clearsResolutions : ServiceRequest → Bool
  | .clearCache => true
  | _ => false

theorem ServiceRequest.name_eq_clearCache (request : ServiceRequest) :
    request.name = "clear_cache" ↔ request.clearsResolutions = true := by
  cases request <;> simp [name, clearsResolutions]

namespace ServiceTables

/-- The tables with empty caches. -/
def forget (t : ServiceTables) : ServiceTables :=
  { t with interest := .empty, resolutions := .empty }

variable {codec : Codec} {t after : ServiceTables} {request : ServiceRequest} {reply : ServiceReply}

theorem apply_caches (accepted : t.apply codec request = .ok (reply, after)) :
    after.interest = (if request.clearsInterest then .empty else t.interest) ∧
      after.resolutions = if request.clearsResolutions then .empty else t.resolutions := by
  cases request with
  | muteProcess mute | unmuteProcess mute =>
    simp only [apply] at accepted
    cases h : decodeRule codec mute.rule <;> cases h' : eventSet mute.events <;>
      simp only [h, h', bind, Except.bind] at accepted <;> cases accepted
    exact ⟨rfl, rfl⟩
  | mutePath mute | unmutePath mute =>
    simp only [apply] at accepted
    cases h : eventSet mute.events <;> simp only [h, bind, Except.bind] at accepted <;>
      cases accepted
    exact ⟨rfl, rfl⟩
  | subscribe events | unsubscribe events =>
    simp only [apply] at accepted
    cases h : eventSet events <;> simp only [h, bind, Except.bind] at accepted <;> cases accepted
    exact ⟨rfl, rfl⟩
  | _ =>
    cases accepted
    exact ⟨rfl, rfl⟩

/-- What is cached is no matter to a request. -/
theorem apply_forget (codec : Codec) (t : ServiceTables) (request : ServiceRequest) :
    t.forget.apply codec request =
      (t.apply codec request).map fun (reply, after) => (reply, after.forget) := by
  cases request with
  | muteProcess mute | unmuteProcess mute =>
    simp only [apply]
    cases decodeRule codec mute.rule <;> cases eventSet mute.events <;> rfl
  | mutePath mute | unmutePath mute =>
    simp only [apply]
    cases eventSet mute.events <;> rfl
  | subscribe events | unsubscribe events =>
    simp only [apply]
    cases eventSet events <;> rfl
  | _ => rfl

end ServiceTables

namespace Service

/-- Whether an operation comes from outside, and is no trace of something that was sent. -/
def Operation.isExternal : Operation → Bool
  | .remember _ _ => false
  | _ => true

/-- How often the cache of resolutions has been cleared on request. -/
def clears (s : Service) : Nat := s.requests.count "clear_cache"

/-- The service with empty caches. -/
def forget (s : Service) : Service := { s with tables := s.tables.forget }

variable {s s' t u : Service}

/-! ### How long something is cached -/

/-- Nothing new is cached. What is cached lasts until a channel is made or it is cleared. -/
structure Ages (s s' : Service) : Prop where
  codec : s'.codec = s.codec
  channels : s.channels ≤ s'.channels
  clears : s.clears ≤ s'.clears
  interest : s'.tables.interest = s.tables.interest ∨ s'.tables.interest = .empty
  resolutions : s'.tables.resolutions =
    if s'.channels = s.channels ∧ s'.clears = s.clears then s.tables.resolutions else .empty

theorem Ages.of_steady (h : Steady s s') : Ages s s' where
  codec := h.codec
  channels := Nat.le_of_eq h.channels.symm
  clears := Nat.le_of_eq (congrArg (List.count "clear_cache") h.requests).symm
  interest := .inl (congrArg (·.interest) h.tables)
  resolutions := by
    rw [if_pos ⟨h.channels, congrArg (List.count "clear_cache") h.requests⟩, h.tables]

theorem Ages.refl (s : Service) : Ages s s := .of_steady (.refl s)

theorem Ages.trans (h : Ages s t) (h' : Ages t u) : Ages s u where
  codec := h'.codec.trans h.codec
  channels := Nat.le_trans h.channels h'.channels
  clears := Nat.le_trans h.clears h'.clears
  interest := by
    rcases h'.interest with same | emptied
    · rw [same]
      exact h.interest
    · exact .inr emptied
  resolutions := by
    have channels := h.channels
    have clears := h.clears
    have channels' := h'.channels
    have clears' := h'.clears
    rw [h'.resolutions, h.resolutions]
    split_ifs <;> first | rfl | omega

/-- A request that goes on record may have cleared a cache. -/
theorem ages_of_request (request : ServiceRequest)
    (requests : s'.requests = s.requests ++ [request.name]) (codec : s'.codec = s.codec)
    (channels : s'.channels = s.channels)
    (interest : s'.tables.interest = s.tables.interest ∨ s'.tables.interest = .empty)
    (resolutions : s'.tables.resolutions =
      if request.clearsResolutions then .empty else s.tables.resolutions) : Ages s s' := by
  have counted : s'.clears = s.clears + if request.clearsResolutions then 1 else 0 := by
    have named := request.name_eq_clearCache
    rw [clears, requests, List.count_append, List.count_singleton, clears]
    simp only [beq_iff_eq, named]
  refine ⟨codec, Nat.le_of_eq channels.symm, counted ▸ Nat.le_add_right _ _, interest, ?_⟩
  rw [resolutions, counted]
  cases request.clearsResolutions <;> simp [channels]

theorem apply_of_tables {request : ServiceRequest}
    (other : ∀ converter, request ≠ .createSession converter) (s : Service) :
    s.apply request = match s.tables.apply s.codec request with
      | .ok (reply, tables) =>
        (.ok reply, { s with requests := s.requests ++ [request.name], tables })
      | .error reason => (.error reason, { s with requests := s.requests ++ [request.name] }) := by
  cases request with
  | createSession converter => exact absurd rfl (other converter)
  | _ => rfl

/-- Only what can be refused is. -/
theorem refused_clears {codec : Codec} {tables : ServiceTables} {request : ServiceRequest}
    {reason : String} (refused : tables.apply codec request = .error reason) :
    request.clearsResolutions = false := by
  cases request with
  | clearCache => cases refused
  | _ => rfl

theorem apply_ages (s : Service) (request : ServiceRequest) : Ages s (s.apply request).2 := by
  by_cases session : ∃ converter, request = .createSession converter
  · obtain ⟨converter, rfl⟩ := session
    simp only [apply, openSession]
    split <;> exact ages_of_request (.createSession converter) rfl rfl rfl (.inl rfl) rfl
  · rw [apply_of_tables fun converter same => session ⟨converter, same⟩]
    split
    · next accepted =>
      obtain ⟨interest, resolutions⟩ := ServiceTables.apply_caches accepted
      refine ages_of_request request rfl rfl rfl ?_ resolutions
      rw [interest]
      split
      · exact .inr rfl
      · exact .inl rfl
    · next refused =>
      refine ages_of_request request rfl rfl rfl (.inl rfl) ?_
      rw [refused_clears refused]
      rfl

theorem served_ages (s : Service) (channel : Nat) (request : ServiceRequest) :
    Ages s (s.served channel request) := by
  unfold served
  split
  · exact apply_ages s request
  · exact .refl s

theorem bind_ages (s : Service) (generation : Nat) : Ages s (s.bind generation).2 := by
  unfold bind
  split
  · refine ⟨rfl, Nat.le_succ _, Nat.le_refl _, .inr rfl, ?_⟩
    rw [if_neg fun same => Nat.succ_ne_self _ same.1]
    rfl
  · exact .refl s

theorem unbind_ages (s : Service) (channel : Nat) : Ages s (s.unbind channel) := by
  unfold unbind
  split
  · exact ⟨rfl, Nat.le_refl _, Nat.le_refl _, .inl rfl, (if_pos ⟨rfl, rfl⟩).symm⟩
  · exact .refl s

theorem perform_ages (s : Service) (operation : Operation)
    (outside : operation.isExternal = true) : Ages s (s.perform operation) := by
  cases operation with
  | bind generation => exact bind_ages s generation
  | unbind channel => exact unbind_ages s channel
  | interrupt => exact ⟨rfl, Nat.le_refl _, Nat.le_refl _, .inl rfl, (if_pos ⟨rfl, rfl⟩).symm⟩
  | request channel request deliver =>
    rw [perform, request_eq]
    exact (served_ages s channel request).trans (.of_steady (respond_steady _ _))
  | customMessage channel data deliver => exact .of_steady (customMessage_steady s _ _ _)
  | releaseHeld => exact .of_steady s.releaseHeld_steady
  | deliverDelayed limitMs => exact .of_steady (deliverDelayed_perform s limitMs)
  | configure setting => exact .of_steady (configure_steady s setting)
  | remember interest resolutions => cases outside

/-! ### What else there is -/

theorem apply_forget (s : Service) (request : ServiceRequest) :
    s.forget.apply request = ((s.apply request).1, (s.apply request).2.forget) := by
  by_cases session : ∃ converter, request = .createSession converter
  · obtain ⟨converter, rfl⟩ := session
    simp only [apply, openSession, forget]
    split <;> rfl
  · have other := fun converter same => session ⟨converter, same⟩
    have tables := ServiceTables.apply_forget s.codec s.tables request
    rw [apply_of_tables other, apply_of_tables other]
    show (match s.tables.forget.apply s.codec request with
      | .ok (reply, tables) => _
      | .error reason => _) = _
    rw [tables]
    cases s.tables.apply s.codec request <;> rfl

theorem respond_forget (s : Service) (delivery : Delivery) :
    s.forget.respond delivery = ((s.respond delivery).1, (s.respond delivery).2.forget) := by
  obtain ⟨_, _, _, _, _, _, _, unresponsive, replyDelayMs, _, _, _, _, _, _⟩ := s
  cases unresponsive <;> cases replyDelayMs <;> rfl

/-- What is cached is no matter to what comes from outside. -/
theorem perform_forget (s : Service) {operation : Operation}
    (outside : operation.isExternal = true) : s.forget.perform operation = (s.perform operation).forget := by
  cases operation with
  | bind generation =>
    have ready : s.forget.available = s.available := rfl
    rw [perform, perform, Service.bind, Service.bind, ready]
    cases s.available <;> rfl
  | unbind channel =>
    have current : s.forget.isCurrent channel = s.isCurrent channel := rfl
    rw [perform, perform, unbind, unbind, current]
    cases s.isCurrent channel <;> rfl
  | interrupt => rfl
  | request channel request deliver =>
    have current : s.forget.isCurrent channel = s.isCurrent channel := rfl
    rw [perform, perform, Service.request, Service.request, current, apply_forget]
    cases s.isCurrent channel with
    | true => exact congrArg Prod.snd (respond_forget (s.apply request).2 _)
    | false => exact congrArg Prod.snd (respond_forget s _)
  | customMessage channel data deliver =>
    have current : s.forget.isCurrent channel = s.isCurrent channel := rfl
    rw [perform, perform, Service.customMessage, Service.customMessage, current]
    cases s.isCurrent channel with
    | true => exact congrArg Prod.snd (respond_forget s _)
    | false => rfl
  | releaseHeld => rfl
  | deliverDelayed limitMs =>
    simp only [perform, deliverDelayed?, forget]
    split
    · next i _ => cases s.delayed[i]? <;> rfl
    · rfl
  | configure setting => cases setting <;> rfl
  | remember interest resolutions => cases outside

end Service

end EndpointMonitor
