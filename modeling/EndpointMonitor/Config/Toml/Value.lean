import EndpointMonitor.Json.Node

/-!
Values of a TOML document, and the rules on which of its tables may be extended.
-/

namespace EndpointMonitor.Toml

/-- How a table came to be. A table may be extended by a header if only a longer header has named
it, and by a dotted key if no header has named it. -/
inductive Origin where
  | header
  | implied
  | dotted
  | inlined
  deriving DecidableEq

/-- A TOML value. Nothing reads numbers that are no integers, nor dates. -/
inductive Value where
  | string (value : String)
  | integer (value : Int64)
  | float
  | bool (value : Bool)
  | date
  | array (items : List Value)
  | table (origin : Origin) (entries : List (String × Value))
  | tables (elements : List (List (String × Value)))

abbrev Entries := List (String × Value)

namespace Entries

/-- Puts a value under a key, in the place of an earlier one. -/
def put (entries : Entries) (key : String) (value : Value) : Entries :=
  if entries.any (·.1 = key) then
    entries.map fun entry => if entry.1 = key then (key, value) else entry
  else entries ++ [(key, value)]

/-- Changes the last of several tables. -/
def changeLast (change : Entries → Option Entries) : List Entries → Option (List Entries)
  | [] => none
  | [last] => (change last).map ([·])
  | first :: rest => (changeLast change rest).map (first :: ·)

/-- Adds the value of a dotted key. Only tables that dotted keys have made take new keys; on the way
to them no table may have a header of its own. -/
def insertDotted (entries : Entries) (path : List String) (key : String) (value : Value) :
    Option Entries :=
  match path with
  | [] =>
    if entries.any (·.1 = key) then none else some (entries ++ [(key, value)])
  | first :: rest =>
    let mayHold (o : Origin) : Bool := !rest.isEmpty || o = .dotted
    match entries.lookup first with
    | none =>
      (insertDotted [] rest key value).map fun inner => entries.put first (.table .dotted inner)
    | some (.table o inner) =>
      if (o = .dotted || o = .implied) && mayHold o then
        (insertDotted inner rest key value).map fun inner => entries.put first (.table o inner)
      else none
    | some (.tables elements) =>
      if rest.isEmpty then none
      else
        (changeLast (fun inner => insertDotted inner rest key value) elements).map fun es =>
          entries.put first (.tables es)
    | some _ => none

/-- Changes the entries of the table that the path of a header leads to, making the tables on the
way that are not there yet. -/
def atPath (change : Entries → Option Entries) (entries : Entries) : List String → Option Entries
  | [] => change entries
  | first :: rest =>
    match entries.lookup first with
    | none => (atPath change [] rest).map fun inner => entries.put first (.table .implied inner)
    | some (.table .inlined _) => none
    | some (.table o inner) =>
      (atPath change inner rest).map fun inner => entries.put first (.table o inner)
    | some (.tables elements) =>
      (changeLast (fun inner => atPath change inner rest) elements).map fun es =>
        entries.put first (.tables es)
    | some _ => none

end Entries

/-- A document in the course of being read: the finished part, and the open section. The first
section has no header. -/
structure Draft where
  root : Entries
  path : List String
  repeated : Bool
  entries : Entries

namespace Draft

def empty : Draft := ⟨[], [], false, []⟩

/-- Files the open section under its header. -/
def close (d : Draft) : Option Entries :=
  match d.path.reverse with
  | [] => some d.entries
  | key :: parents =>
    d.root.atPath (fun siblings =>
      if d.repeated then
        match siblings.lookup key with
        | none => some (siblings.put key (.tables [d.entries]))
        | some (.tables elements) => some (siblings.put key (.tables (elements ++ [d.entries])))
        | some _ => none
      else some (siblings.put key (.table .header d.entries))) parents.reverse

/-- What a table header finds under its path: a table that may become its own, or nothing. -/
def found (root : Entries) : List String → Option (Option Value)
  | [] => some none
  | [key] => some (root.lookup key)
  | first :: rest =>
    match root.lookup first with
    | none => some none
    | some (.table .inlined _) => none
    | some (.table _ inner) => found inner rest
    | some (.tables elements) => found (elements.getLast?.getD []) rest
    | some _ => none

/-- Opens the section of a header `[path]`. -/
def openTable (d : Draft) (path : List String) : Option Draft := do
  let root ← d.close
  match ← found root path with
  | none => some ⟨root, path, false, []⟩
  | some (.table .implied inner) => some ⟨root, path, false, inner⟩
  | some _ => none

/-- Opens the section of a header `[[path]]`. -/
def openElement (d : Draft) (path : List String) : Option Draft := do
  let root ← d.close
  match ← found root path with
  | none => some ⟨root, path, true, []⟩
  | some (.tables _) => some ⟨root, path, true, []⟩
  | some _ => none

/-- Adds a key with its value to the open section. -/
def insert (d : Draft) (key : List String) (value : Value) : Option Draft :=
  match key.reverse with
  | [] => none
  | last :: parents =>
    (d.entries.insertDotted parents.reverse last value).map fun entries =>
      { d with entries }

end Draft

mutual

/-- A value in the form in which decoders take it. A date is a record of which no field is known. -/
def Value.node : Value → Json.Node
  | .string s => .string (some s)
  | .integer i => .number (some (.integer i.toInt))
  | .float => .number none
  | .bool b => .bool b
  | .date => .object [] true
  | .array items => .array (Value.nodes items) true
  | .table _ entries => .object (Value.members entries) true
  | .tables elements => .array (Value.records elements) true

def Value.nodes : List Value → List Json.Node
  | [] => []
  | item :: rest => item.node :: Value.nodes rest

def Value.members : List (String × Value) → List (Option String × Json.Node)
  | [] => []
  | (key, value) :: rest => (some key, value.node) :: Value.members rest

def Value.records : List (List (String × Value)) → List Json.Node
  | [] => []
  | element :: rest => .object (Value.members element) true :: Value.records rest

end

end EndpointMonitor.Toml
