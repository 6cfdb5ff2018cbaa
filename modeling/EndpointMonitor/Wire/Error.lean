import EndpointMonitor.Binary64.Shortest
import EndpointMonitor.Event.Set
import EndpointMonitor.Json.Document
import EndpointMonitor.Text.Quoted

/-!
Why a payload could not be decoded.
-/

namespace EndpointMonitor.Wire

/-- What a decoder met in the place of what it expected. -/
inductive Found where
  | null
  | bool (value : Bool)
  | integer (value : Int)
  | float (value : Binary64)
  | string (value : String)
  | sequence
  | map
  | unitVariant

namespace Found

def ofNumber : Number → Found
  | .integer i => .integer i
  | .float x => .float x

def message : Found → String
  | .null => "null"
  | .bool b => "boolean \x60" ++ toString b ++ "\x60"
  | .integer i => "integer \x60" ++ toString i ++ "\x60"
  | .float x => "floating point \x60" ++ x.text ++ "\x60"
  | .string s => "string " ++ Text.quote s
  | .sequence => "sequence"
  | .map => "map"
  | .unitVariant => "unit variant"

end Found

/-- The first problem in reading order. -/
inductive DecodeError where
  | malformed
  | missingField (name : String)
  | duplicateField (name : String)
  | invalidType (found : Found) (expected : String)
  | invalidValue (found : Found) (expected : String)
  | invalidLength (length : Nat) (expected : String)
  | unknownVariant (name : String) (known : List String)
  | eventOutOfRange (event : EventOutOfRange)

namespace DecodeError

def ticked (s : String) : String := "\x60" ++ s ++ "\x60"

/-- The alternatives of an enumeration: two are joined by "or", more are listed. -/
def oneOf : List String → String
  | [a] => ticked a
  | [a, b] => ticked a ++ " or " ++ ticked b
  | names => "one of " ++ ", ".intercalate (names.map ticked)

def message : DecodeError → String
  | .malformed => "malformed JSON"
  | .missingField name => "missing field " ++ ticked name
  | .duplicateField name => "duplicate field " ++ ticked name
  | .invalidType found expected => "invalid type: " ++ found.message ++ ", expected " ++ expected
  | .invalidValue found expected => "invalid value: " ++ found.message ++ ", expected " ++ expected
  | .invalidLength length expected =>
    "invalid length " ++ toString length ++ ", expected " ++ expected
  | .unknownVariant name known =>
    "unknown variant " ++ ticked name ++ ", expected " ++ oneOf known
  | .eventOutOfRange event => event.message

end DecodeError

end EndpointMonitor.Wire
