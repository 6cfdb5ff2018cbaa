import EndpointMonitor.Wire.Decoder

/-!
Records: objects with named fields. One description of the fields gives the writer, the reader of
objects, whose members come in any order, and the reader of arrays, whose items follow the fields.
-/

namespace EndpointMonitor.Wire

open Json (Node)

/-- One field of a record. A value that encodes to nothing is left out, and `absent` stands in for
a field that is missing. -/
structure Field (ρ α : Type) where
  name : String
  get : ρ → α
  encode : α → Option Json
  decode : Decoder α
  absent : Option α

namespace Field

def required {ρ α : Type} [Wire α] (name : String) (get : ρ → α) : Field ρ α :=
  { name, get, encode := fun a => some (Wire.encode a), decode := Wire.decode, absent := none }

def withDefault {ρ α : Type} [Wire α] (name : String) (get : ρ → α) (default : α) : Field ρ α :=
  { required name get with absent := some default }

def decodeOption {α : Type} [Wire α] : Decoder (Option α) := fun source node =>
  match node with
  | .null => pure none
  | node => some <$> Wire.decode source node

/-- Null and no member both mean no value. -/
def optional {ρ α : Type} [Wire α] (name : String) (get : ρ → Option α) : Field ρ (Option α) :=
  { name, get, encode := fun a => a.map Wire.encode, decode := decodeOption, absent := some none }

end Field

abbrev Members := List (Option String × Node)

/-- The value of the last member with the name. -/
def lookup (name : String) (members : Members) : Option Node :=
  (members.find? fun m => m.1 = some name).map (·.2)

/-- A record `ρ` from whose fields, read in order, an `α` is built. -/
structure Record (ρ α : Type) where
  names : List String
  write : ρ → List (String × Json)
  probe : Source → String → Node → Result Unit
  gather : Source → (String → Option Node) → Result α
  take : Source → String → Items → Result (α × Items)

namespace Record

/-- The record without fields. -/
def of {ρ α : Type} (value : α) : Record ρ α where
  names := []
  write _ := []
  probe _ _ _ := pure ()
  gather _ _ := pure value
  take _ _ items := pure (value, items)

/-- Adds a field. -/
def field {ρ α β : Type} (record : Record ρ (α → β)) (f : Field ρ α) : Record ρ β where
  names := record.names ++ [f.name]
  write r := record.write r ++ ((f.encode (f.get r)).map fun value => (f.name, value)).toList
  probe source name node :=
    if name = f.name then (fun _ => ()) <$> f.decode source node else record.probe source name node
  gather source members := do
    let build ← record.gather source members
    match members f.name with
    | some node => build <$> f.decode source node
    | none =>
      match f.absent with
      | some value => pure (build value)
      | none => throw (.missingField f.name)
  take source expected items := do
    let (build, items) ← record.take source expected items
    match ← items.next with
    | some (node, items) =>
      let value ← f.decode source node
      pure (build value, items)
    | none =>
      match f.absent with
      | some value => pure (build value, items)
      | none => throw (.invalidLength record.names.length expected)

/-- The first problem of the members in reading order, missing fields apart. Unknown members are
passed over. -/
def scan {ρ α : Type} (record : Record ρ α) (source : Source) (seen : List String) :
    Members → Result Unit
  | [] => pure ()
  | (none, _) :: _ => throw .malformed
  | (some key, node) :: rest =>
    if key ∈ record.names then
      if key ∈ seen then throw (.duplicateField key)
      else do
        record.probe source key node
        scan record source (key :: seen) rest
    else scan record source seen rest

/-- "1 element" or the plural. -/
def elements (n : Nat) : String := toString n ++ if n = 1 then " element" else " elements"

def decodeMembers {ρ α : Type} (record : Record ρ α) (source : Source) (members : Members)
    (closed : Bool) : Result α := do
  record.scan source [] members
  if closed then record.gather source (lookup · members) else throw .malformed

def decodeItems {ρ α : Type} (record : Record ρ α) (expected : String) (source : Source)
    (items : Items) : Result α := do
  let expected := expected ++ " with " ++ elements record.names.length
  let (value, items) ← record.take source expected items
  items.finish source
  pure value

/-- Reads a record from an object or from an array. -/
def decode {ρ α : Type} (record : Record ρ α) (expected : String) : Decoder α := fun source node =>
  match node with
  | .object members closed => do
    let inner ← source.enter
    record.decodeMembers inner members closed
  | .array items closed => do
    let inner ← source.enter
    record.decodeItems expected inner ⟨items, closed, 0⟩
  | .keyless _ => throw .malformed
  | node => throw (mismatch node expected)

def encode {ρ α : Type} (record : Record ρ α) (r : ρ) : Json := .object (record.write r)

end Record

end EndpointMonitor.Wire
