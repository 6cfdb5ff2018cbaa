import EndpointMonitor.Process
import EndpointMonitor.Wire.Variant

/-!
Selectors of mute requests.
-/

namespace EndpointMonitor

open Wire

/-- Whether `path` begins with `start`. -/
def beginsWith (start path : String) : Bool := start.toList.isPrefixOf path.toList

/-- Selects the processes whose events are muted. -/
inductive MuteProcessRule where
  | token (value : AuditToken)
  | pid (value : UInt32)
  | euid (value : UInt32)
  | name (value : String)
  | pathPrefix (value : String)
  | pathLiteral (value : String)
  | teamIdentifier (value : String)
  | signingId (value : String)
  deriving DecidableEq

namespace MuteProcessRule

def selects (rule : MuteProcessRule) (p : ProcessDescriptor) : Bool :=
  match rule with
  | .token value => value = p.auditToken
  | .pid value => value = p.pid
  | .euid value => value = p.euid
  | .name value => value = p.name
  | .pathPrefix value => beginsWith value p.path
  | .pathLiteral value => value = p.path
  | .teamIdentifier value => p.teamId = some value
  | .signingId value => p.signingId = some value

def kind : MuteProcessRule → String
  | .token _ => "token"
  | .pid _ => "pid"
  | .euid _ => "euid"
  | .name _ => "name"
  | .pathPrefix _ => "path_prefix"
  | .pathLiteral _ => "path_literal"
  | .teamIdentifier _ => "team_identifier"
  | .signingId _ => "signing_id"

def value : MuteProcessRule → Json
  | .token value => Wire.encode value
  | .pid value | .euid value => Wire.encode value
  | .name value | .pathPrefix value | .pathLiteral value | .teamIdentifier value
  | .signingId value => Wire.encode value

def adjacent : Adjacent MuteProcessRule where
  name := "MuteProcessRule"
  tag := "kind"
  content := "value"
  variants := [
    ("token", .map .token),
    ("pid", .map .pid),
    ("euid", .map .euid),
    ("name", .map .name),
    ("path_prefix", .map .pathPrefix),
    ("path_literal", .map .pathLiteral),
    ("team_identifier", .map .teamIdentifier),
    ("signing_id", .map .signingId)]

instance : Wire MuteProcessRule where
  encode rule := adjacent.encode rule.kind rule.value
  decode := adjacent.decode

end MuteProcessRule

/-- How a muted path is compared, and with which path of an event. -/
inductive MutePathType where
  | processPrefix
  | processLiteral
  | targetPrefix
  | targetLiteral
  deriving DecidableEq

namespace MutePathType

/-- Whether the path that the event acts on is meant, and not that of the acting process. -/
def isTarget : MutePathType → Bool
  | .processPrefix | .processLiteral => false
  | .targetPrefix | .targetLiteral => true

def covers (t : MutePathType) (path candidate : String) : Bool :=
  match t with
  | .processPrefix | .targetPrefix => beginsWith path candidate
  | .processLiteral | .targetLiteral => path = candidate

def name : MutePathType → String
  | .processPrefix => "prefix"
  | .processLiteral => "literal"
  | .targetPrefix => "target_prefix"
  | .targetLiteral => "target_literal"

def variants : Variants MutePathType := [
  ("prefix", .processPrefix),
  ("literal", .processLiteral),
  ("target_prefix", .targetPrefix),
  ("target_literal", .targetLiteral)]

instance : Wire MutePathType where
  encode t := .string t.name
  decode := variants.decodePlain

end MutePathType

/-- The three classes of mutes, each of which can be inverted. -/
inductive InvertMutingType where
  | process
  | path
  | targetPath
  deriving DecidableEq

namespace InvertMutingType

def name : InvertMutingType → String
  | .process => "process"
  | .path => "path"
  | .targetPath => "target_path"

def variants : Variants InvertMutingType := [
  ("process", .process),
  ("path", .path),
  ("target_path", .targetPath)]

instance : Wire InvertMutingType where
  encode t := .string t.name
  decode := variants.decodePlain

end InvertMutingType

end EndpointMonitor
