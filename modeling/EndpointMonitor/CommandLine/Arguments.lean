import EndpointMonitor.CommandLine.Options

/-!
What the arguments of the program ask for.
-/

namespace EndpointMonitor.CommandLine

inductive Command where
  | demo (events : UInt32) (interrupt : Bool)
  | showConfig
  deriving DecidableEq

/-- A command, and the configuration file to use instead of those that are looked for. -/
structure Request where
  config : Option String
  command : Command
  deriving DecidableEq

/-- What else arguments can come to. -/
inductive Stop where
  | version
  | help
  | misuse
  deriving DecidableEq

inductive Setting where
  | verbose
  | config
  | help
  | version
  | events
  | interrupt
  deriving DecidableEq

def configSpec : OptionSpec Setting := ⟨.config, "config", some 'c', true, false⟩

def helpSpec : OptionSpec Setting := ⟨.help, "help", some 'h', false, false⟩

/-- The options before the command. -/
def programSpecs : List (OptionSpec Setting) :=
  [⟨.verbose, "verbose", some 'v', false, true⟩, configSpec, helpSpec,
    ⟨.version, "version", some 'V', false, false⟩]

def demoSpecs : List (OptionSpec Setting) :=
  [⟨.events, "events", some 'e', true, false⟩, ⟨.interrupt, "interrupt", none, false, false⟩,
    configSpec, helpSpec]

def showConfigSpecs : List (OptionSpec Setting) := [configSpec, helpSpec]

/-- What the options so far have set. -/
structure Settings where
  seen : List Setting
  config : Option String
  events : UInt32
  interrupt : Bool

namespace Settings

def initial : Settings := ⟨[], none, 3, false⟩

/-- A number of 32 bits, perhaps with a sign. -/
def count? (text : String) : Option UInt32 :=
  let (sign, digits) := match text.toList with
    | '-' :: digits => (true, digits)
    | '+' :: digits => (false, digits)
    | digits => (false, digits)
  if digits.isEmpty || !digits.all Char.isDigit then none
  else
    let n := digits.foldl (fun n c => 10 * n + (c.toNat - '0'.toNat)) 0
    if n < UInt32.size && !(sign && n ≠ 0) then some n.toUInt32 else none

/-- Takes one more option into account. -/
def add (s : Settings) (o : Occurrence Setting) : Except Stop Settings :=
  let meaning := o.spec.meaning
  if s.seen.contains meaning && !o.spec.repeatable then .error .misuse
  else
    let s := { s with seen := meaning :: s.seen }
    match meaning, o.value with
    | .help, _ => .error .help
    | .version, _ => .error .version
    | .verbose, _ => .ok s
    | .interrupt, _ => .ok { s with interrupt := true }
    | .config, some path => if path = "" then .error .misuse else .ok { s with config := some path }
    | .events, some text =>
      match count? text with
      | some events => .ok { s with events }
      | none => .error .misuse
    | .config, none | .events, none => .error .misuse

end Settings

/-- Reads options; gives what they set and the words that follow. -/
def readOptions (specs : List (OptionSpec Setting)) (words : List String) :
    Except Stop (Settings × List String) := do
  let found := scan specs words
  let settings ← found.occurrences.foldlM Settings.add .initial
  match found.rest with
  | some rest => pure (settings, rest)
  | none => throw .misuse

/-- Reads the options of a command, which takes nothing else. -/
def readLast (specs : List (OptionSpec Setting)) (words : List String) : Except Stop Settings := do
  let (settings, rest) ← readOptions specs words
  if rest = [] ∨ rest = ["--"] then pure settings else throw .misuse

/-- Reads the arguments. A configuration file after the command goes before one ahead of it. -/
def parse (arguments : List String) : Except Stop Request := do
  let (settings, rest) ← readOptions programSpecs arguments
  match rest with
  | "demo" :: words =>
    let own ← readLast demoSpecs words
    pure ⟨own.config <|> settings.config, .demo own.events own.interrupt⟩
  | "show-config" :: words =>
    let own ← readLast showConfigSpecs words
    pure ⟨own.config <|> settings.config, .showConfig⟩
  | ["help"] | ["help", "demo"] | ["help", "show-config"] | ["help", "help"] => throw .help
  | _ => throw .misuse

end EndpointMonitor.CommandLine
