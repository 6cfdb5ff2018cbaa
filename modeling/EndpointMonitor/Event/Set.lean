import EndpointMonitor.Event.Mask

/-!
Sets of event kinds, each stored as the one bit mask that is as long as its largest member needs. So
equal sets are equal values.
-/

namespace EndpointMonitor

/-- A set of event kinds with ids up to 1023. -/
structure EventSet where
  words : EventMask
  canonical : words.Canonical
  deriving DecidableEq

/-- An event id that no set can hold. -/
structure EventOutOfRange where
  event : EventType
  deriving DecidableEq

namespace EventSet

/-- The largest id that a set can hold. -/
def maxId : Nat := EventMask.capacity - 1

def empty : EventSet := ⟨[], by decide, nofun⟩

instance : Inhabited EventSet := ⟨empty⟩

instance : EmptyCollection EventSet := ⟨empty⟩

def contains (s : EventSet) (e : EventType) : Bool := s.words.contains e

instance : Membership EventType EventSet := ⟨fun s e => s.contains e = true⟩

instance (s : EventSet) (e : EventType) : Decidable (e ∈ s) :=
  inferInstanceAs (Decidable (s.contains e = true))

def isEmpty (s : EventSet) : Bool := s.words.isEmpty

def size (s : EventSet) : Nat := s.words.size

def union (s t : EventSet) : EventSet := ⟨s.words.union t.words, s.canonical.union t.canonical⟩

/-- The members of `s` that `t` lacks. -/
def subtract (s t : EventSet) : EventSet :=
  ⟨s.words.subtract t.words, s.canonical.subtract t.words⟩

/-- Adds an event and tells whether it was new. -/
def insert? (s : EventSet) (e : EventType) : Except EventOutOfRange (Bool × EventSet) :=
  if inRange : e.id.toNat ≤ maxId then
    let inserted := s.words.insert e
    .ok (inserted.1, ⟨inserted.2, s.canonical.insert (Nat.lt_succ_of_le inRange)⟩)
  else .error ⟨e⟩

/-- Adds an event that a set can hold; any other leaves the set as it is. -/
def insert (s : EventSet) (e : EventType) : Bool × EventSet :=
  match s.insert? e with
  | .ok result => result
  | .error _ => (false, s)

/-- Removes an event and tells whether it was there. -/
def remove (s : EventSet) (e : EventType) : Bool × EventSet :=
  let removed := s.words.remove e
  (removed.1, ⟨removed.2, s.canonical.remove e⟩)

/-- The set of the listed events; the first that a set cannot hold is the error. -/
def ofList? (events : List EventType) : Except EventOutOfRange EventSet :=
  events.foldlM (fun s e => (·.2) <$> s.insert? e) empty

/-- The set of those listed events that a set can hold. -/
def ofList (events : List EventType) : EventSet :=
  events.foldl (fun s e => (s.insert e).2) empty

/-- The members in ascending order. -/
def toList (s : EventSet) : List EventType := s.words.toList

def text (s : EventSet) : String :=
  "\x7b" ++ ", ".intercalate (s.toList.map fun e => toString e.id.toNat) ++ "\x7d"

end EventSet

namespace EventOutOfRange

def message (e : EventOutOfRange) : String :=
  "event id " ++ toString e.event.id.toNat ++ " exceeds the maximum of " ++ toString EventSet.maxId

end EventOutOfRange

end EndpointMonitor
