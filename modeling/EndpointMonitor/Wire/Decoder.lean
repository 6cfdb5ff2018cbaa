import EndpointMonitor.Wire.Error

/-!
Decoders: functions from what was read to a value or the first problem.
-/

namespace EndpointMonitor

open Json (Node)

namespace Wire

/-- Where a node comes from. A payload may nest `room` containers more. Buffered nodes have been
read in full before their decoder was known. Tables are the nodes of a configuration file. -/
inductive Source where
  | payload (room : Nat)
  | buffered
  | table
  deriving DecidableEq

abbrev Result := Except DecodeError

abbrev Decoder (α : Type) := Source → Node → Result α

end Wire

/-- Values that travel: how they are written, and how they are read. -/
class Wire (α : Type) where
  encode : α → Json
  decode : Wire.Decoder α

namespace Wire

/-- Goes into a container. -/
def Source.enter : Source → Result Source
  | .payload 0 => throw .malformed
  | .payload (room + 1) => pure (.payload room)
  | source => pure source

/-- The problem of a node that is not what was expected; a node that cannot be read is malformed
before it is anything else. -/
def mismatch (node : Node) (expected : String) : DecodeError :=
  match node with
  | .null => .invalidType .null expected
  | .bool b => .invalidType (.bool b) expected
  | .number (some n) => .invalidType (.ofNumber n) expected
  | .string (some s) => .invalidType (.string s) expected
  | .array _ _ => .invalidType .sequence expected
  | .object _ _ | .keyless _ => .invalidType .map expected
  | .number none | .string none | .broken => .malformed

/-- Reads a value in full for a decoder that is not known yet. -/
def buffer (source : Source) (node : Node) : Result Unit :=
  match source with
  | .payload room => if (node.json? room).isSome then pure () else throw .malformed
  | .buffered | .table => pure ()

/-- Natural numbers below `limit`. -/
def decodeNat (limit : Nat) (expected : String) : Decoder Nat := fun _ node =>
  match node with
  | .number (some (.integer i)) =>
    if 0 ≤ i ∧ i < limit then pure i.toNat else throw (.invalidValue (.integer i) expected)
  | node => throw (mismatch node expected)

def decodeNull (expected : String) : Decoder Unit := fun _ node =>
  match node with
  | .null => pure ()
  | node => throw (mismatch node expected)

instance : Wire UInt8 where
  encode n := .nat n.toNat
  decode source node := UInt8.ofNat <$> decodeNat UInt8.size "u8" source node

instance : Wire UInt32 where
  encode n := .nat n.toNat
  decode source node := UInt32.ofNat <$> decodeNat UInt32.size "u32" source node

instance : Wire UInt64 where
  encode n := .nat n.toNat
  decode source node := UInt64.ofNat <$> decodeNat UInt64.size "u64" source node

instance : Wire Bool where
  encode := .bool
  decode _ node :=
    match node with
    | .bool b => pure b
    | node => throw (mismatch node "a boolean")

instance : Wire String where
  encode := .string
  decode _ node :=
    match node with
    | .string (some s) => pure s
    | node => throw (mismatch node "a string")

/-- Free values have to be readable in full. -/
instance : Wire Document where
  encode d := d.value
  decode source node :=
    let room := match source with
      | .payload room => room
      | .buffered | .table => Document.maxDepth
    match Document.ofNode? room node with
    | some d => pure d
    | none => throw .malformed

/-- What is left of a sequence in the course of being decoded. -/
structure Items where
  rest : List Node
  closed : Bool
  taken : Nat

namespace Items

/-- The next item, if there is one; a sequence that breaks off is malformed there. -/
def next (items : Items) : Result (Option (Node × Items)) :=
  match items.rest with
  | node :: rest => pure (some (node, { items with rest, taken := items.taken + 1 }))
  | [] => if items.closed then pure none else throw .malformed

/-- A sequence that is longer than its decoder expects is malformed, or has the wrong length if it
was buffered; tables may go on. -/
def finish (items : Items) (source : Source) : Result Unit :=
  match source with
  | .payload _ => if items.rest.isEmpty && items.closed then pure () else throw .malformed
  | .buffered =>
    if items.rest.isEmpty then pure ()
    else
      let noun := if items.taken = 1 then " element in sequence" else " elements in sequence"
      throw (.invalidLength (items.taken + items.rest.length) (toString items.taken ++ noun))
  | .table => pure ()

end Items

/-- Opens a sequence. -/
def openSequence (expected : String) (source : Source) (node : Node) : Result (Source × Items) :=
  match node with
  | .array items closed => do
    let inner ← source.enter
    pure (inner, ⟨items, closed, 0⟩)
  | node => throw (mismatch node expected)

instance {α : Type} [Wire α] : Wire (List α) where
  encode xs := .array (xs.map encode)
  decode source node := do
    let (inner, items) ← openSequence "a sequence" source node
    let values ← items.rest.mapM (decode inner)
    if items.closed then pure values else throw .malformed

/-- Takes `count` items; `index` of them have been taken before. -/
def takeItems {α : Type} [Wire α] (expected : String) (source : Source) (index : Nat) :
    (count : Nat) → Items → Result ({ values : List α // values.length = count } × Items)
  | 0, items => pure (⟨[], rfl⟩, items)
  | count + 1, items => do
    match ← items.next with
    | none => throw (.invalidLength index expected)
    | some (node, items) =>
      let value ← decode source node
      let (values, items) ← takeItems expected source (index + 1) count items
      pure (⟨value :: values.1, by simp [values.2]⟩, items)

end Wire

end EndpointMonitor
