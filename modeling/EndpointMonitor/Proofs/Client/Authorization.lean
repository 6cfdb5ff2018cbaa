import Mathlib.Data.List.Induction
import EndpointMonitor.Proofs.Client.Aside
import EndpointMonitor.Proofs.Codec.RoundTrip
import EndpointMonitor.Proofs.Mute.Table

/-!
Authorization requests to a client that has any past. What the handler has decided counts until the
next channel is made or the cache is cleared, if it was to be cached. A reply that comes too late is
as good as none.
-/

namespace EndpointMonitor

/-- How the service hears what a handler does with its reply. A lost reply allows once; one that is
kept is not there in time. -/
def AuthOutcome.Tells (outcome : AuthOutcome) : ReplyUse Resolution → Prop
  | .send resolution => ∃ heard, outcome = .resolved heard ∧ heard.toWire = resolution.toWire
  | .drop => ∃ heard, outcome = .resolved heard ∧ heard.toWire = (0xffffffff, false)
  | .keep => outcome = .timedOut

/-- No channel has been made since, and the cache of resolutions has not been cleared. -/
def Service.Retains (s s' : Service) : Prop := s'.channels = s.channels ∧ s'.clears = s.clears

namespace Client

variable {η : Type}

/-- What happens to a client. Besides its operations, the reply to an authorization request that a
handler has kept is resolved or dropped, each at its own time. -/
inductive Occurrence (η : Type) where
  | operation (operation : Operation η)
  | useKept (call : Nat) (resolution : Option Resolution)

namespace Occurrence

/-- What the service sends, if it sends something. -/
def emission? : Occurrence η → Option Exchange.Operation
  | .operation (.emitNotify message) => some (.emitNotify message)
  | .operation (.emitAuth message) => some (.emitAuth message)
  | .operation (.customToClient data) => some (.sendCustom data)
  | _ => none

/-- Whether replies that were kept are used. -/
def isLate : Occurrence η → Bool
  | .operation (.resolveKept _) | .useKept _ _ => true
  | _ => false

end Occurrence

def occur (c : Client η) : Occurrence η → Client η
  | .operation operation => c.perform operation
  | .useKept call resolution => c.withDispatcher (c.dispatcher.step (.useKept call resolution))

/-- What the service hears. -/
def hears (c : Client η) (occurrence : Occurrence η) : Exchange.Emitted :=
  match occurrence.emission? with
  | some emission => (c.exchange.perform emission).1
  | none => .nothing

def outcomes (c : Client η) : List (Occurrence η) → List Exchange.Emitted
  | [] => []
  | occurrence :: more => c.hears occurrence :: (c.occur occurrence).outcomes more

/-- A client of a new service that has the same codec, with a past. -/
def course (config : ClientConfig) (past : List (Occurrence η)) : Client η :=
  past.foldl occur (ofNewService config config.codec)

/-- The handler resolves a request for this path and kind of event, to be cached. -/
def Resolves (c : Client η) (key : String × EventType) (resolution : Resolution)
    (occurrence : Occurrence η) : Prop :=
  ∃ m, occurrence = .operation (.emitAuth m) ∧ Exchange.resolutionKey m = key ∧
    (c.emitAuth m).1 = .resolved resolution ∧ resolution.cache = true

variable {codec : Codec} {c c' : Client η}

/-! ### Replies that come late -/

/-- The same client with another dispatcher, which answers by the same handlers. -/
inductive Alike (codec : Codec) (c : Client η) : Client η → Prop where
  | intro {handlers : HandlerSet} {d : Dispatcher} (left : c.dispatcher.Serves codec handlers)
    (right : d.Serves codec handlers) : Alike codec c (c.withDispatcher d)

namespace Alike

theorem refl {handlers : HandlerSet} (serves : c.dispatcher.Serves codec handlers) :
    Alike codec c c := .intro serves serves

theorem serves (h : Alike codec c c') : ∃ handlers, c.dispatcher.Serves codec handlers := by
  obtain ⟨left, -⟩ := h
  exact ⟨_, left⟩

theorem emits (h : Alike codec c c') (emission : Exchange.Operation) :
    (c'.exchange.perform emission).1 = (c.exchange.perform emission).1 ∧
      Alike codec (c.withExchange (c.exchange.perform emission).2)
        (c'.withExchange (c'.exchange.perform emission).2) := by
  obtain @⟨handlers, d, left, right⟩ := h
  obtain ⟨heard, alike⟩ := Exchange.perform_alike (x := c.exchange)
    (y := (c.withDispatcher d).exchange) ⟨rfl, left, right⟩ emission
  refine ⟨heard, ?_⟩
  have aside : (c.withDispatcher d).withExchange
      ((c.withDispatcher d).exchange.perform emission).2 =
      (c.withExchange (c.exchange.perform emission).2).withDispatcher
        ((c.withDispatcher d).exchange.perform emission).2.dispatcher := by
    simp only [withExchange, alike.service]
    rfl
  rw [aside]
  exact .intro alike.left alike.right

theorem silent (h : Alike codec c c') {operation : Operation η}
    (silent : operation.isSilent = true) :
    Alike codec (c.occur (.operation operation)) (c'.occur (.operation operation)) := by
  obtain @⟨handlers, d, left, right⟩ := h
  have aside : (c.withDispatcher d).occur (.operation operation) =
      (c.occur (.operation operation)).withDispatcher d := perform_aside c d silent
  rw [aside]
  exact .intro (by rwa [Client.occur, perform_dispatcher c silent]) right

/-- Whatever happens, nothing tells the two dispatchers apart. -/
theorem occur (h : Alike codec c c') (occurrence : Occurrence η) :
    c'.hears occurrence = c.hears occurrence ∧
      Alike codec (c.occur occurrence) (c'.occur occurrence) := by
  cases occurrence with
  | useKept call resolution =>
    obtain ⟨left, right⟩ := h
    exact ⟨rfl, .intro (left.useKept call resolution) (right.useKept call resolution)⟩
  | operation operation =>
    cases operation with
    | emitNotify message => exact h.emits (.emitNotify message)
    | emitAuth message => exact h.emits (.emitAuth message)
    | customToClient data => exact h.emits (.sendCustom data)
    | resolveKept resolution =>
      obtain ⟨left, right⟩ := h
      exact ⟨rfl, .intro (left.resolveKept resolution) (right.resolveKept resolution)⟩
    | configure setting =>
      cases setting with
      | executor executor =>
        obtain ⟨left, right⟩ := h
        exact ⟨rfl, .intro (left.setExecutor executor) (right.setExecutor executor)⟩
      | handlers handlers =>
        obtain ⟨left, right⟩ := h
        exact ⟨rfl, .intro (left.install handlers) (right.install handlers)⟩
      | _ => exact ⟨rfl, h.silent rfl⟩
    | _ => exact ⟨rfl, h.silent rfl⟩

theorem outcomes (h : Alike codec c c') (more : List (Occurrence η)) :
    c'.outcomes more = c.outcomes more := by
  induction more generalizing c c' with
  | nil => rfl
  | cons occurrence more ih =>
    obtain ⟨heard, alike⟩ := h.occur occurrence
    exact congrArg₂ List.cons heard (ih alike)

theorem course (config : ClientConfig) (past : List (Occurrence η)) :
    Alike config.codec (course config past) (course config past) := by
  have keeps (c : Client η) (h : Alike config.codec c c) :
      Alike config.codec (past.foldl Client.occur c) (past.foldl Client.occur c) := by
    induction past generalizing c with
    | nil => exact h
    | cons occurrence past ih => exact ih _ (h.occur occurrence).2
  exact keeps _ (refl (.new config.codec .serial))

/-- A late reply is seen by its dispatcher only. -/
theorem late (h : Alike codec c c) {occurrence : Occurrence η}
    (late : occurrence.isLate = true) :
    (c.occur occurrence).service = c.service ∧ Alike codec c (c.occur occurrence) := by
  obtain ⟨handlers, serves⟩ := h.serves
  cases occurrence with
  | useKept call resolution => exact ⟨rfl, .intro serves (serves.useKept call resolution)⟩
  | operation operation =>
    cases operation <;> cases late
    exact ⟨rfl, .intro serves (serves.resolveKept _)⟩

end Alike

/-! ### What has been decided -/

theorem occur_ages {occurrence : Occurrence η} (quiet : occurrence.emission? = none)
    (c : Client η) : c.service.Ages (c.occur occurrence).service := by
  cases occurrence with
  | useKept => exact .refl _
  | operation operation =>
    cases operation with
    | emitNotify | emitAuth | customToClient => cases quiet
    | resolveKept => exact .refl _
    | configure setting => cases setting <;> exact .refl _
    | _ => exact perform_ages c rfl

/-- How something that happens changes what is cached. -/
structure Turns (c : Client η) (occurrence : Occurrence η) : Prop where
  codec : (c.occur occurrence).service.codec = c.service.codec
  channels : c.service.channels ≤ (c.occur occurrence).service.channels
  clears : c.service.clears ≤ (c.occur occurrence).service.clears
  cached : ∀ key resolution,
    (c.occur occurrence).service.tables.resolutions.find? key = some resolution ↔
      c.Resolves key resolution occurrence ∨
        (c.service.Retains (c.occur occurrence).service ∧
          c.service.tables.resolutions.find? key = some resolution)

theorem not_resolves {occurrence : Occurrence η} {key : String × EventType}
    {resolution : Resolution} (other : ∀ m, occurrence ≠ .operation (.emitAuth m)) :
    ¬c.Resolves key resolution occurrence := fun ⟨m, this, _⟩ => other m this

theorem turns_of_ages {occurrence : Occurrence η} (quiet : occurrence.emission? = none)
    (c : Client η) : c.Turns occurrence := by
  have ages := occur_ages quiet c
  refine ⟨ages.codec, ages.channels, ages.clears, fun key resolution => ?_⟩
  have other : ∀ m, occurrence ≠ .operation (.emitAuth m) := by
    rintro m rfl
    cases quiet
  rw [ages.resolutions, or_iff_right (not_resolves other), Service.Retains]
  split
  · next same => exact (and_iff_right same).symm
  · next other => exact iff_of_false (fun found => by cases found) fun h => other h.1

theorem turns_of_remember {occurrence : Occurrence η}
    {interest : Table String (Option InterestVerdict)}
    {resolutions : Table (String × EventType) Resolution}
    (made : (c.occur occurrence).service = c.service.remember interest resolutions)
    (cached : ∀ key resolution, resolutions.find? key = some resolution ↔
      c.Resolves key resolution occurrence ∨
        c.service.tables.resolutions.find? key = some resolution) : c.Turns occurrence where
  codec := by rw [made]; rfl
  channels := by rw [made]; exact Nat.le_refl _
  clears := by rw [made]; exact Nat.le_refl _
  cached key resolution := by
    have retains : c.service.Retains (c.occur occurrence).service := by
      rw [made]
      exact ⟨rfl, rfl⟩
    rw [and_iff_right retains, made]
    exact cached key resolution

theorem resolves_emitAuth {m : EventMessage} {key : String × EventType} {resolution : Resolution} :
    c.Resolves key resolution (.operation (.emitAuth m)) ↔
      Exchange.resolutionKey m = key ∧ (c.emitAuth m).1 = .resolved resolution ∧
        resolution.cache = true := by
  refine ⟨?_, fun h => ⟨m, rfl, h⟩⟩
  rintro ⟨other, same, h⟩
  cases same
  exact h

theorem turns (c : Client η) (occurrence : Occurrence η) : c.Turns occurrence := by
  cases occurrence with
  | useKept => exact turns_of_ages rfl c
  | operation operation =>
    cases operation with
    | emitNotify m =>
      obtain ⟨interest, made⟩ := c.exchange.emitNotify_service m
      exact turns_of_remember made fun _ _ => (or_iff_right (not_resolves fun _ same => by cases same)).symm
    | customToClient data =>
      have made := c.exchange.sendCustom_service data
      exact turns_of_remember made fun _ _ => (or_iff_right (not_resolves fun _ same => by cases same)).symm
    | emitAuth m =>
      obtain ⟨⟨interest, made⟩, absent⟩ := c.exchange.emitAuth_service m
      refine turns_of_remember made fun key resolution => ?_
      rw [resolves_emitAuth]
      exact AuthOutcome.find_cachedIn absent key resolution
    | _ => exact turns_of_ages rfl c

theorem course_snoc (config : ClientConfig) (past : List (Occurrence η))
    (occurrence : Occurrence η) :
    course config (past ++ [occurrence]) = (course config past).occur occurrence :=
  List.foldl_append

theorem service_codec (config : ClientConfig) (past : List (Occurrence η)) :
    (course config past).service.codec = config.codec := by
  induction past using List.reverseRecOn with
  | nil => rfl
  | append_singleton past occurrence ih =>
    rw [course_snoc, (turns _ occurrence).codec, ih]

end Client

end EndpointMonitor
