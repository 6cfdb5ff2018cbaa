/-!
Queues that run their jobs one at a time, in the order in which they were submitted.
-/

namespace EndpointMonitor

/-- The jobs that wait, the next one first, and the job that runs, if any. -/
structure SerialQueue (α : Type) where
  waiting : List α
  running : Option α

namespace SerialQueue

variable {α : Type}

def empty : SerialQueue α := ⟨[], none⟩

def submit (q : SerialQueue α) (job : α) : SerialQueue α := { q with waiting := q.waiting ++ [job] }

/-- Starts the next job, unless one is running. -/
def start? (q : SerialQueue α) : Option (α × SerialQueue α) :=
  match q.running, q.waiting with
  | none, job :: rest => some (job, ⟨rest, some job⟩)
  | _, _ => none

/-- The running job ends. Whether it ended well makes no difference to the others. -/
def finish (q : SerialQueue α) : SerialQueue α := { q with running := none }

def isIdle (q : SerialQueue α) : Bool := q.waiting.isEmpty && q.running.isNone

end SerialQueue

end EndpointMonitor
