import EndpointMonitor.Event.Message
import EndpointMonitor.Mute.Rule
import EndpointMonitor.Table

/-!
Which events are muted, and for whom. There are three classes of mutes: by process, by the path of
the process, and by the path that an event acts on. Each class can be inverted as a whole.
-/

namespace EndpointMonitor

/-- Which classes of mutes are inverted. -/
structure Inversions where
  process : Bool
  path : Bool
  targetPath : Bool
  deriving DecidableEq

namespace Inversions

def none : Inversions := ⟨false, false, false⟩

def get (i : Inversions) : InvertMutingType → Bool
  | .process => i.process
  | .path => i.path
  | .targetPath => i.targetPath

def set (i : Inversions) (muteType : InvertMutingType) (invert : Bool) : Inversions :=
  match muteType with
  | .process => { i with process := invert }
  | .path => { i with path := invert }
  | .targetPath => { i with targetPath := invert }

end Inversions

/-- Selectors, each with the events that are muted where it matches. -/
abbrev MuteTable (κ : Type) := Table κ EventSet

namespace MuteTable

variable {κ : Type} [DecidableEq κ]

/-- The events that are muted under a selector. -/
def muted (t : MuteTable κ) (key : κ) : EventSet := (t.find? key).getD .empty

/-- Mutes events on top of those that are muted already. -/
def mute (t : MuteTable κ) (key : κ) (events : EventSet) : MuteTable κ :=
  t.put key ((t.muted key).union events)

/-- Unmutes events; a selector that is left without any is dropped. -/
def unmute (t : MuteTable κ) (key : κ) (events : EventSet) : MuteTable κ :=
  match t.find? key with
  | none => t
  | some old =>
    let rest := old.subtract events
    if rest.isEmpty then t.erase key else t.put key rest

end MuteTable

/-- A path and how it is compared. -/
abbrev PathSelector := String × MutePathType

structure Mutes where
  processes : MuteTable MuteProcessRule
  paths : MuteTable PathSelector
  inversions : Inversions

namespace Mutes

def empty : Mutes := ⟨.empty, .empty, .none⟩

/-- Whether a path is muted for an event, be it the path of a process or a target. -/
def coversPath (m : Mutes) (event : EventType) (candidate : String) (target : Bool) : Bool :=
  m.paths.any fun (path, pathType) events =>
    pathType.isTarget = target && events.contains event && pathType.covers path candidate

def mutesProcess (m : Mutes) (message : EventMessage) : Bool :=
  (m.processes.any fun rule events =>
    events.contains message.eventType && rule.selects message.process) != m.inversions.process

def mutesPath (m : Mutes) (message : EventMessage) : Bool :=
  m.coversPath message.eventType message.process.path false != m.inversions.path

/-- A message without a target belongs to no target class, inverted or not. -/
def mutesTarget (m : Mutes) (message : EventMessage) : Bool :=
  match message.target? with
  | some target => m.coversPath message.eventType target true != m.inversions.targetPath
  | none => false

/-- A message is muted if any class mutes it. -/
def mutes (m : Mutes) (message : EventMessage) : Bool :=
  m.mutesProcess message || m.mutesPath message || m.mutesTarget message

end Mutes

end EndpointMonitor
