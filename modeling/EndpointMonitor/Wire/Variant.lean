import EndpointMonitor.Wire.Record

/-!
Enumerations. Plain ones are names; the others carry a value, which stands under the name of the
variant, beside it under a second key, or among the fields of one object.
-/

namespace EndpointMonitor.Wire

open Json (Node)

/-- The variants of an enumeration by name. -/
abbrev Variants (α : Type) := List (String × α)

namespace Variants

def find {α : Type} (variants : Variants α) (name : String) : Result α :=
  match variants.lookup name with
  | some value => pure value
  | none => throw (.unknownVariant name (variants.map (·.1)))

/-- The unit value of a plain variant that is written as an object. Where it was buffered, an empty
object stands for it too. -/
def decodeUnit : Decoder Unit := fun source node =>
  match source, node with
  | .buffered, .object [] _ => pure ()
  | source, node => decodeNull "unit" source node

/-- A variant as its name alone, or as the only key of an object. -/
def select {α : Type} (variants : Variants α) (source : Source) (node : Node) :
    Result (α × Option (Source × Node)) :=
  match source, node with
  | _, .string (some name) => do
    let value ← variants.find name
    pure (value, none)
  | .buffered, .object [(some name, content)] _ => do
    let value ← variants.find name
    pure (value, some (.buffered, content))
  | .buffered, .object _ _ => throw (.invalidValue .map "map with a single key")
  | .buffered, node => throw (mismatch node "string or map")
  | source, .object ((some name, content) :: _) _ => do
    let inner ← source.enter
    let value ← variants.find name
    pure (value, some (inner, content))
  | source, .keyless first => do
    let _ ← source.enter
    throw (mismatch first "variant identifier")
  | _, _ => throw .malformed

/-- After the value of a variant its object has to end. -/
def finish (source : Source) (node : Node) : Result Unit :=
  match source, node with
  | .payload _, .object members closed =>
    if members.length = 1 ∧ closed then pure () else throw .malformed
  | _, _ => pure ()

/-- A variant without a value. -/
def decodePlain {α : Type} (variants : Variants α) : Decoder α := fun source node => do
  let (value, content) ← variants.select source node
  match content with
  | none => pure value
  | some (inner, content) =>
    decodeUnit inner content
    finish source node
    pure value

/-- A variant with a value under its name. -/
def decodeKeyed {α : Type} (variants : Variants (Decoder α)) : Decoder α := fun source node => do
  let (decodeContent, content) ← variants.select source node
  match content with
  | none => throw (.invalidType .unitVariant "newtype variant")
  | some (inner, content) =>
    let value ← decodeContent inner content
    finish source node
    pure value

end Variants

/-- How the content of a variant is read when it has a key of its own. -/
structure Content (α : Type) where
  decode : Decoder α
  absent : Option α

namespace Content

def map {α β : Type} [Wire β] (f : β → α) : Content α :=
  { decode := fun source node => f <$> Wire.decode source node, absent := none }

/-- No content: null, or no member at all. -/
def unit {α : Type} (value : α) (expected : String) : Content α :=
  { decode := fun source node => (fun _ => value) <$> decodeNull expected source node
    absent := some value }

end Content

/-- An enumeration whose variants are named by the member `tag` and have their value in the member
`content`. -/
structure Adjacent (α : Type) where
  name : String
  tag : String
  content : String
  variants : Variants (Content α)

namespace Adjacent

def expected {α : Type} (e : Adjacent α) : String := "adjacently tagged enum " ++ e.name

/-- The next member that is the tag or the content. -/
def next {α : Type} (e : Adjacent α) (closed : Bool) :
    Members → Result (Option (Bool × Node × Members))
  | [] => if closed then pure none else throw .malformed
  | (none, _) :: _ => throw .malformed
  | (some key, node) :: rest =>
    if key = e.tag then pure (some (true, node, rest))
    else if key = e.content then pure (some (false, node, rest))
    else next e closed rest

/-- Neither tag nor content may come again. -/
def finish {α : Type} (e : Adjacent α) (closed : Bool) (members : Members) : Result Unit := do
  match ← e.next closed members with
  | some (isTag, _, _) => throw (.duplicateField (if isTag then e.tag else e.content))
  | none => pure ()

/-- The tag came first: the content is decoded as it is read. -/
def decodeTagged {α : Type} (e : Adjacent α) (source : Source) (closed : Bool) (tag : Node)
    (rest : Members) : Result α := do
  let variant ← e.variants.decodePlain source tag
  match ← e.next closed rest with
  | some (true, _, _) => throw (.duplicateField e.tag)
  | some (false, content, rest) =>
    let value ← variant.decode source content
    e.finish closed rest
    pure value
  | none =>
    match variant.absent with
    | some value => pure value
    | none => throw (.missingField e.content)

/-- The content came first: it is buffered until the tag is known. -/
def decodeBuffered {α : Type} (e : Adjacent α) (source : Source) (closed : Bool) (content : Node)
    (rest : Members) : Result α := do
  buffer source content
  match ← e.next closed rest with
  | some (true, tag, rest) =>
    let variant ← e.variants.decodePlain source tag
    let value ← variant.decode .buffered content
    e.finish closed rest
    pure value
  | some (false, _, _) => throw (.duplicateField e.content)
  | none => throw (.missingField e.tag)

def decodeMembers {α : Type} (e : Adjacent α) (source : Source) (members : Members)
    (closed : Bool) : Result α := do
  match ← e.next closed members with
  | some (true, tag, rest) => e.decodeTagged source closed tag rest
  | some (false, content, rest) => e.decodeBuffered source closed content rest
  | none => throw (.missingField e.tag)

def decodeItems {α : Type} (e : Adjacent α) (source : Source) (items : Items) : Result α := do
  match ← items.next with
  | none => throw (.invalidLength 0 e.expected)
  | some (tag, items) =>
    let variant ← e.variants.decodePlain source tag
    match ← items.next with
    | none => throw (.invalidLength 1 e.expected)
    | some (content, items) =>
      let value ← variant.decode source content
      items.finish source
      pure value

def decode {α : Type} (e : Adjacent α) : Decoder α := fun source node =>
  match node with
  | .object members closed => do
    let inner ← source.enter
    e.decodeMembers inner members closed
  | .array items closed => do
    let inner ← source.enter
    e.decodeItems inner ⟨items, closed, 0⟩
  | .keyless _ => throw .malformed
  | node => throw (mismatch node e.expected)

def encode {α : Type} (e : Adjacent α) (variant : String) (content : Option Json) : Json :=
  .object ((e.tag, .string variant) :: (content.map fun value => (e.content, value)).toList)

end Adjacent

/-- How the fields of a variant are read when its tag is one of the members. -/
structure Fields (α : Type) where
  members : Members → Result α
  items : Items → Result α

namespace Fields

/-- No fields: whatever members there are do not matter. -/
def none {α : Type} (value : α) : Fields α where
  members _ := pure value
  items items := do
    items.finish .buffered
    pure value

def ofRecord {ρ α : Type} (expected : String) (record : Record ρ ρ) (build : ρ → α) : Fields α where
  members ms := build <$> record.decodeMembers .buffered ms true
  items items := build <$> record.decodeItems expected .buffered items

end Fields

/-- An enumeration whose variants are named by the member `tag` among their own fields. -/
structure Internal (α : Type) where
  name : String
  tag : String
  variants : Variants (Fields α)

namespace Internal

def expected {α : Type} (e : Internal α) : String := "internally tagged enum " ++ e.name

def decodeTag {α : Type} (e : Internal α) (node : Node) : Result (Fields α) :=
  match node with
  | .string (some name) => e.variants.find name
  | node => throw (mismatch node "variant identifier")

/-- Reads all members, the tag as soon as it comes and the others in full. -/
def collect {α : Type} (e : Internal α) (source : Source) (closed : Bool)
    (found : Option (Fields α)) : Members → Result (Fields α × Members)
  | [] =>
    if closed then
      match found with
      | some variant => pure (variant, [])
      | none => throw (.missingField e.tag)
    else throw .malformed
  | (none, _) :: _ => throw .malformed
  | (some key, node) :: rest =>
    if key = e.tag then
      if found.isSome then throw (.duplicateField e.tag)
      else do
        let variant ← e.decodeTag node
        collect e source closed (some variant) rest
    else do
      buffer source node
      let (variant, members) ← collect e source closed found rest
      pure (variant, (some key, node) :: members)

def decodeMembers {α : Type} (e : Internal α) (source : Source) (members : Members)
    (closed : Bool) : Result α := do
  let (variant, members) ← e.collect source closed none members
  variant.members members

def decodeItems {α : Type} (e : Internal α) (source : Source) (items : Items) : Result α := do
  match ← items.next with
  | none => throw (.missingField e.tag)
  | some (tag, items) =>
    let variant ← e.decodeTag tag
    items.rest.forM (buffer source)
    if !items.closed then throw .malformed
    variant.items { items with taken := 0 }

def decode {α : Type} (e : Internal α) : Decoder α := fun source node =>
  match node with
  | .object members closed => do
    let inner ← source.enter
    e.decodeMembers inner members closed
  | .array items closed => do
    let inner ← source.enter
    e.decodeItems inner ⟨items, closed, 0⟩
  | .keyless _ => throw .malformed
  | node => throw (mismatch node e.expected)

end Internal

end EndpointMonitor.Wire
