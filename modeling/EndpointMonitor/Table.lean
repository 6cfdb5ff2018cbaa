/-!
Finite maps: each key has one entry.
-/

namespace EndpointMonitor

/-- Entries with distinct keys, the one written last first. -/
structure Table (κ α : Type) where
  entries : List (κ × α)
  nodup : (entries.map (·.1)).Nodup

namespace Table

variable {κ α : Type}

def empty : Table κ α := ⟨[], .nil⟩

instance : Inhabited (Table κ α) := ⟨empty⟩

/-- The entries whose keys satisfy `keep`. -/
def filter (t : Table κ α) (keep : κ → Bool) : Table κ α :=
  ⟨t.entries.filter fun e => keep e.1, t.nodup.sublist (List.filter_sublist.map _)⟩

def any (t : Table κ α) (p : κ → α → Bool) : Bool := t.entries.any fun e => p e.1 e.2

variable [DecidableEq κ]

def find? (t : Table κ α) (key : κ) : Option α := t.entries.lookup key

def erase (t : Table κ α) (key : κ) : Table κ α := t.filter (· ≠ key)

def put (t : Table κ α) (key : κ) (value : α) : Table κ α :=
  ⟨(key, value) :: (t.erase key).entries, by
    refine List.nodup_cons.2 ⟨?_, (t.erase key).nodup⟩
    simp [erase, filter]⟩

end Table

end EndpointMonitor
