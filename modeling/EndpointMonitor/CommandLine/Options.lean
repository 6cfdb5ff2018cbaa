/-!
The options of a command line: long names after two dashes, single letters after one dash and
joined at will, and values in the same word or in the next one.
-/

namespace EndpointMonitor.CommandLine

/-- An option and what it means. It occurs at most once unless it is repeatable. -/
structure OptionSpec (μ : Type) where
  meaning : μ
  long : String
  short : Option Char
  takesValue : Bool
  repeatable : Bool

/-- An option as it occurs, with its value if it takes one. -/
structure Occurrence (μ : Type) where
  spec : OptionSpec μ
  value : Option String

variable {μ : Type}

/-- Whether a word stands for options, so that it is nobody's value. A single dash does not. -/
def isOptionLike (word : String) : Bool :=
  match word.toList with
  | '-' :: _ :: _ => true
  | _ => false

/-- The value of an option from the words that follow it. -/
def nextValue (spec : OptionSpec μ) (rest : List String) : Option (Occurrence μ × List String) :=
  match rest with
  | word :: rest => if isOptionLike word then none else some (⟨spec, some word⟩, rest)
  | [] => none

/-- Letters that are joined after one dash. The first that takes a value takes the rest of the word,
or else the next word. Options before a letter that is none count all the same. -/
def readLetters (specs : List (OptionSpec μ)) (rest : List String) :
    List Char → List (Occurrence μ) × Option (List String)
  | [] => ([], some rest)
  | c :: letters =>
    match specs.find? (·.short = some c) with
    | none => ([], none)
    | some spec =>
      if spec.takesValue then
        match letters with
        | [] =>
          match nextValue spec rest with
          | some (occurrence, rest) => ([occurrence], some rest)
          | none => ([], none)
        | '=' :: value => ([⟨spec, some (String.ofList value)⟩], some rest)
        | value => ([⟨spec, some (String.ofList value)⟩], some rest)
      else
        let (occurrences, rest) := readLetters specs rest letters
        (⟨spec, none⟩ :: occurrences, rest)

/-- A long name, with a value after an equals sign or in the next word. -/
def readLong (specs : List (OptionSpec μ)) (rest : List String) (text : List Char) :
    List (Occurrence μ) × Option (List String) :=
  let name := String.ofList (text.takeWhile (· ≠ '='))
  match specs.find? (·.long = name), text.dropWhile (· ≠ '=') with
  | none, _ => ([], none)
  | some spec, '=' :: value =>
    if spec.takesValue then ([⟨spec, some (String.ofList value)⟩], some rest) else ([], none)
  | some spec, _ =>
    if spec.takesValue then
      match nextValue spec rest with
      | some (occurrence, rest) => ([occurrence], some rest)
      | none => ([], none)
    else ([⟨spec, none⟩], some rest)

/-- The options up to the first word that is none, and the words from there on. There is no rest if
something that looks like an option cannot be understood. -/
structure Scan (μ : Type) where
  occurrences : List (Occurrence μ)
  rest : Option (List String)

/-- Reads at most `n` words. Two dashes alone are no option, and none follow them. -/
def scanWords (specs : List (OptionSpec μ)) : Nat → List String → Scan μ
  | n + 1, word :: rest =>
    let read := match word.toList with
      | ['-', '-'] => none
      | '-' :: '-' :: text => some (readLong specs rest text)
      | '-' :: c :: letters => some (readLetters specs rest (c :: letters))
      | _ => none
    match read with
    | none => ⟨[], some (word :: rest)⟩
    | some (occurrences, none) => ⟨occurrences, none⟩
    | some (occurrences, some words) =>
      let later := scanWords specs n words
      ⟨occurrences ++ later.occurrences, later.rest⟩
  | _, words => ⟨[], some words⟩

def scan (specs : List (OptionSpec μ)) (words : List String) : Scan μ :=
  scanWords specs words.length words

end EndpointMonitor.CommandLine
