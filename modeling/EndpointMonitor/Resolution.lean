import EndpointMonitor.Event.Wire
import EndpointMonitor.Wire.Variant

/-!
Answers of a client: resolutions of authorization requests, and verdicts on which events of a
process it wants.
-/

namespace EndpointMonitor

open Wire

/-- A decision. Its code is one word, so full flags and a plain "allow" share a code, and so do no
flags and a plain "deny". -/
inductive AuthResult where
  | auth (allowed : Bool)
  | flags (value : UInt32)
  deriving DecidableEq

namespace AuthResult

def code : AuthResult → UInt32
  | .auth true => 0xffffffff
  | .auth false => 0
  | .flags value => value

/-- The decision with the code; the two shared codes denote plain ones. -/
def ofCode (code : UInt32) : AuthResult :=
  if code = 0xffffffff then .auth true else if code = 0 then .auth false else .flags code

def text : AuthResult → String
  | .auth allowed => "Auth(" ++ toString allowed ++ ")"
  | .flags value => "Flags(" ++ toString value.toNat ++ ")"

def variants : Variants (Decoder AuthResult) := [
  ("auth", fun source node => .auth <$> Wire.decode source node),
  ("flags", fun source node => .flags <$> Wire.decode source node)]

instance : Wire AuthResult where
  encode
    | .auth allowed => .object [("auth", Wire.encode allowed)]
    | .flags value => .object [("flags", Wire.encode value)]
  decode := variants.decodeKeyed

end AuthResult

/-- The answer to an authorization request; the service may keep it where `cache` says so. -/
structure Resolution where
  result : AuthResult
  cache : Bool
  deriving DecidableEq

namespace Resolution

def allow (cache : Bool) : Resolution := ⟨.auth true, cache⟩

def deny (cache : Bool) : Resolution := ⟨.auth false, cache⟩

/-- The answer when nobody decides. -/
def allowOnce : Resolution := allow false

instance : Inhabited Resolution := ⟨allowOnce⟩

/-- The decision code and the cache flag. -/
def toWire (r : Resolution) : UInt32 × Bool := (r.result.code, r.cache)

def ofWire (wire : UInt32 × Bool) : Resolution := ⟨.ofCode wire.1, wire.2⟩

def record : Record Resolution Resolution :=
  (Record.of Resolution.mk)
    |>.field (.required "result" (·.result))
    |>.field (.required "cache" (·.cache))

instance : Wire Resolution where
  encode := record.encode
  decode := record.decode "struct Resolution"

end Resolution

/-- Which events of a process a client does not want. -/
structure InterestVerdict where
  ignored : EventSet
  nativeMuting : Bool
  deriving DecidableEq

namespace InterestVerdict

def record : Record InterestVerdict InterestVerdict :=
  (Record.of InterestVerdict.mk)
    |>.field (.required "ignored" (·.ignored))
    |>.field (.withDefault "native_muting" (·.nativeMuting) false)

instance : Wire InterestVerdict where
  encode := record.encode
  decode := record.decode "struct InterestVerdict"

end InterestVerdict

end EndpointMonitor
