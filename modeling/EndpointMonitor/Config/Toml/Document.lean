import EndpointMonitor.Config.Toml.Token
import EndpointMonitor.Config.Toml.Value

/-!
TOML documents.
-/

namespace EndpointMonitor.Toml

/-- Whether a text begins like a date or a time, and so cannot be a number. -/
def startsMoment : List Char → Bool
  | a :: b :: ':' :: _ => isDigit a && isDigit b
  | a :: b :: c :: d :: '-' :: _ => [a, b, c, d].all isDigit
  | _ => false

/-- Values that hold no others. -/
def leaf? (s : List Char) : Option (Value × List Char) :=
  match s with
  | 't' :: 'r' :: 'u' :: 'e' :: rest => some (.bool true, rest)
  | 'f' :: 'a' :: 'l' :: 's' :: 'e' :: rest => some (.bool false, rest)
  | '"' :: _ | '\'' :: _ =>
    (string? s).map fun (chars, rest) => (.string (String.ofList chars), rest)
  | s =>
    if startsMoment s then (moment? s).map fun (_, rest) => (.date, rest)
    else
      match float? s with
      | some (_, rest) => some (.float, rest)
      | none => (integer? s).map fun (n, rest) => (.integer n, rest)

mutual

/-- A value that nests at most `room` containers. -/
def value? (fuel room : Nat) (s : List Char) : Option (Value × List Char) :=
  match fuel with
  | 0 => none
  | fuel + 1 =>
    match s, room with
    | '[' :: rest, room + 1 => do
      let (items, rest) ← items? fuel room (skipFiller false rest)
      pure (.array items, rest)
    | '{' :: rest, room + 1 => do
      let (entries, rest) ← inlineEntries? fuel room (skipBlanks rest)
      pure (.table .inlined entries, rest)
    | '[' :: _, 0 | '{' :: _, 0 => none
    | s, _ => leaf? s

/-- The items of an array up to its end; a comma may follow the last. -/
def items? (fuel room : Nat) (s : List Char) : Option (List Value × List Char) :=
  match fuel with
  | 0 => none
  | fuel + 1 =>
    match s with
    | ']' :: rest => some ([], rest)
    | s => do
      let (item, rest) ← value? fuel room s
      match skipFiller false rest with
      | ',' :: rest =>
        let (items, rest) ← items? fuel room (skipFiller false rest)
        pure (item :: items, rest)
      | ']' :: rest => pure ([item], rest)
      | _ => none

/-- The entries of an inline table. -/
def inlineEntries? (fuel room : Nat) (s : List Char) : Option (Entries × List Char) :=
  match s with
  | '}' :: rest => some ([], rest)
  | s => moreEntries? fuel room [] s

/-- At least one more entry of an inline table; none follows a comma but another entry. -/
def moreEntries? (fuel room : Nat) (entries : Entries) (s : List Char) :
    Option (Entries × List Char) :=
  match fuel with
  | 0 => none
  | fuel + 1 => do
    let (path, rest) ← key? s
    let rest ← expect '=' rest
    let (value, rest) ← value? fuel room (skipBlanks rest)
    let entries ← entries.insertDotted path.dropLast (path.getLastD "") value
    match skipBlanks rest with
    | ',' :: rest => moreEntries? fuel room entries rest
    | '}' :: rest => pure (entries, rest)
    | _ => none

end

/-- One line of a document, or several where its value spans them. -/
def statement? (d : Draft) (s : List Char) : Option (Draft × List Char) :=
  match skipBlanks s with
  | '[' :: '[' :: rest => do
    let (path, rest) ← key? rest
    let rest ← expect ']' rest
    let rest ← expect ']' rest
    let rest ← lineEnd? rest
    let d ← d.openElement path
    pure (d, rest)
  | '[' :: rest => do
    let (path, rest) ← key? rest
    let rest ← expect ']' rest
    let rest ← lineEnd? rest
    let d ← d.openTable path
    pure (d, rest)
  | s =>
    match lineEnd? s with
    | some rest => some (d, rest)
    | none => do
      let (key, rest) ← key? s
      let rest ← expect '=' rest
      let (value, rest) ← value? rest.length (depthLimit - 1) (skipBlanks rest)
      let rest ← lineEnd? rest
      let d ← d.insert key value
      pure (d, rest)

/-- Reads statements to the end of the text. -/
def statements? (fuel : Nat) (d : Draft) (s : List Char) : Option Draft :=
  match fuel, s with
  | _, [] => some d
  | 0, _ => none
  | fuel + 1, s => do
    let (d, rest) ← statement? d s
    statements? fuel d rest

/-- A byte order mark in front of a document is no part of it. -/
def dropMark : List Char → List Char
  | '\ufeff' :: rest => rest
  | s => s

/-- The top table of a document. -/
def parse? (text : String) : Option Entries := do
  let s := dropMark text.toList
  let d ← statements? s.length .empty s
  d.close

end EndpointMonitor.Toml
