import EndpointMonitor.Json.Lexer

/-!
What a JSON text says, as far as it can be read. A node keeps everything in front of the first
fault, so that a decoder can report what it meets first: a value of the wrong kind, or the fault.
-/

namespace EndpointMonitor.Json

/-- A JSON value as read. Containers that are not `closed` have a fault after their last part;
`keyless` is an object that opens with a value in the place of its first key. -/
inductive Node where
  | null
  | bool (value : Bool)
  | number (value : Option Number)
  | string (value : Option String)
  | array (items : List Node) (closed : Bool)
  | object (members : List (Option String × Node)) (closed : Bool)
  | keyless (first : Node)
  | broken
  deriving Inhabited

/-- A container whose end is still to come, with its parts in reverse. -/
inductive Frame where
  | array (items : List Node)
  | object (members : List (Option String × Node))
  | member (members : List (Option String × Node)) (key : Option String)

/-- What may come next in the innermost container. -/
inductive Turn where
  | value
  | firstItem
  | separator
  | firstKey
  | key
  | colon
  deriving DecidableEq

/-- A text in the course of being read. -/
inductive Builder where
  | reading (stack : List Frame) (turn : Turn)
  | complete (root : Node)
  | stopped (root : Node)

namespace Builder

def empty : Builder := .reading [] .value

/-- Ends the reading inside of the containers on the stack. -/
def unwind : List Frame → Option Node → Node
  | [], inner => inner.getD .broken
  | .array items :: rest, inner =>
    unwind rest (some (.array (inner.toList ++ items).reverse false))
  | .object members :: rest, _ => unwind rest (some (.object members.reverse false))
  | .member members key :: rest, inner =>
    unwind rest (some (.object ((key, inner.getD .broken) :: members).reverse false))

def stop (stack : List Frame) : Builder := .stopped (unwind stack none)

/-- Puts a finished value where it belongs. -/
def put (stack : List Frame) (value : Node) : Builder :=
  match stack with
  | [] => .complete value
  | .array items :: rest => .reading (.array (value :: items) :: rest) .separator
  | .member members key :: rest => .reading (.object ((key, value) :: members) :: rest) .separator
  | .object members :: rest => stop (.object members :: rest)

/-- The value that one token is by itself. -/
def leaf? : Token → Option Node
  | .null => some .null
  | .bool b => some (.bool b)
  | .number n => some (.number n)
  | .string s => some (.string s)
  | _ => none

def pushValue (stack : List Frame) (token : Token) : Builder :=
  match token with
  | .openArray => .reading (.array [] :: stack) .firstItem
  | .openObject => .reading (.object [] :: stack) .firstKey
  | token =>
    match leaf? token with
    | some node => put stack node
    | none => stop stack

/-- An object whose first key is missing ends the reading; the value in its place is kept. -/
def pushKeyless (rest : List Frame) (token : Token) : Builder :=
  let first := match token with
    | .openArray => some (.array [] false)
    | .openObject => some (.object [] false)
    | token => leaf? token
  match first with
  | some node => .stopped (unwind rest (some (.keyless node)))
  | none => stop (.object [] :: rest)

def push (builder : Builder) (token : Token) : Builder :=
  match builder with
  | .stopped root => .stopped root
  | .complete root => .stopped root
  | .reading stack turn =>
    match turn, stack, token with
    | .value, stack, token => pushValue stack token
    | .firstItem, .array [] :: rest, .closeArray => put rest (.array [] true)
    | .firstItem, stack, token => pushValue stack token
    | .separator, .array items :: rest, .comma => .reading (.array items :: rest) .value
    | .separator, .array items :: rest, .closeArray => put rest (.array items.reverse true)
    | .separator, .object members :: rest, .comma => .reading (.object members :: rest) .key
    | .separator, .object members :: rest, .closeObject => put rest (.object members.reverse true)
    | .separator, stack, _ => stop stack
    | .firstKey, .object _ :: rest, .closeObject => put rest (.object [] true)
    | .firstKey, .object members :: rest, .string key =>
      .reading (.member members key :: rest) .colon
    | .firstKey, .object _ :: rest, token => pushKeyless rest token
    | .firstKey, stack, _ => stop stack
    | .key, .object members :: rest, .string key => .reading (.member members key :: rest) .colon
    | .key, stack, _ => stop stack
    | .colon, stack, .colon => .reading stack .value
    | .colon, stack, _ => stop stack

end Builder

/-- A whole text as read; `clean` when nothing but blanks follows its value. -/
structure Reading where
  root : Node
  clean : Bool

/-- A reader between two bytes. -/
structure Reader where
  lexer : Lexer
  builder : Builder

namespace Reader

def init : Reader := ⟨.gap, .empty⟩

def pushAll (builder : Builder) (tokens : List Token) : Builder := tokens.foldl Builder.push builder

/-- After a fault the lexer rests; the builder ignores what follows. -/
def step (r : Reader) (b : UInt8) : Reader :=
  match r.builder with
  | .stopped root => ⟨.gap, .stopped root⟩
  | builder =>
    match r.lexer.step b with
    | some (tokens, lexer) => ⟨lexer, pushAll builder tokens⟩
    | none => ⟨.gap, builder.push .broken⟩

def finish (r : Reader) : Reading :=
  match pushAll r.builder r.lexer.finish with
  | .complete root => ⟨root, true⟩
  | .stopped root => ⟨root, false⟩
  | .reading stack _ => ⟨Builder.unwind stack none, false⟩

end Reader

/-- Reads a text from its first byte to its last. -/
def read (text : Bytes) : Reading := (text.foldl Reader.step .init).finish

end EndpointMonitor.Json
