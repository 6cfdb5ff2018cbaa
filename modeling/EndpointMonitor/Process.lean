import EndpointMonitor.Wire.Record

/-!
Processes that trigger events.
-/

namespace EndpointMonitor

open Wire

/-- The kernel's token of a process: eight words, opaque but for two of them. -/
structure AuditToken where
  words : List UInt32
  eight : words.length = 8
  deriving DecidableEq

namespace AuditToken

def pid (t : AuditToken) : UInt32 := t.words.get ⟨5, by simp [t.eight]⟩

def euid (t : AuditToken) : UInt32 := t.words.get ⟨1, by simp [t.eight]⟩

/-- The token that holds nothing but a process id. -/
def ofPid (pid : UInt32) : AuditToken := ⟨[0, 0, 0, 0, 0, pid, 0, 0], rfl⟩

instance : Wire AuditToken where
  encode t := Wire.encode t.words
  decode source node := do
    let expected := "an array of length 8"
    let (inner, items) ← openSequence expected source node
    let (words, items) ← takeItems expected inner 0 8 items
    items.finish inner
    pure ⟨words.1, words.2⟩

end AuditToken

/-- The process behind an event. -/
structure ProcessDescriptor where
  auditToken : AuditToken
  pid : UInt32
  euid : UInt32
  path : String
  teamId : Option String
  signingId : Option String
  isPlatformBinary : Bool
  deriving DecidableEq

namespace ProcessDescriptor

/-- A process of which only id and path are known. -/
def ofPath (pid : UInt32) (path : String) : ProcessDescriptor :=
  ⟨.ofPid pid, pid, 0, path, none, none, false⟩

/-- The part of the path after its last slash. -/
def name (p : ProcessDescriptor) : String :=
  String.ofList (p.path.toList.reverse.takeWhile (· ≠ '/')).reverse

def record : Record ProcessDescriptor ProcessDescriptor :=
  (Record.of ProcessDescriptor.mk)
    |>.field (.required "audit_token" (·.auditToken))
    |>.field (.required "pid" (·.pid))
    |>.field (.required "euid" (·.euid))
    |>.field (.required "path" (·.path))
    |>.field (.optional "team_id" (·.teamId))
    |>.field (.optional "signing_id" (·.signingId))
    |>.field (.withDefault "is_platform_binary" (·.isPlatformBinary) false)

instance : Wire ProcessDescriptor where
  encode := record.encode
  decode := record.decode "struct ProcessDescriptor"

end ProcessDescriptor

end EndpointMonitor
