import EndpointMonitor.CommandLine.Arguments
import EndpointMonitor.Config.Loader
import EndpointMonitor.Scenario.Demo

/-!
The program as a function of its arguments and of the files that it finds.
-/

namespace EndpointMonitor.CommandLine

/-- What the program prints, on its two outputs, and its exit code. The lines of its log, which go
to the first output as well, are left out. -/
structure Result where
  lines : List String
  errors : List String
  exitCode : UInt32
  deriving DecidableEq

def version : String := "secmon-client 0.1.0"

/-- It only stands for the help, which the parser of the arguments words by itself. -/
def usage : List String := [
  "Usage: secmon-client [-v] [-c FILE] demo [-e N] [--interrupt]",
  "       secmon-client [-v] [-c FILE] show-config"]

/-- The lines of a text; the last one may lack its line break. -/
def splitLines : List Char → List (List Char)
  | [] => []
  | '\n' :: rest => [] :: splitLines rest
  | c :: rest =>
    match splitLines rest with
    | [] => [[c]]
    | line :: lines => (c :: line) :: lines

def linesOf (text : String) : List String := (splitLines text.toList).map String.ofList

/-- Lines as they stand on an output: every one ends with a line break. -/
def textOf (lines : List String) : String :=
  String.ofList (lines.flatMap fun line => line.toList ++ ['\n'])

def Result.printed (r : Result) : String := textOf r.lines

/-- The configuration in force: a file that cannot be used counts as none. -/
def configOf (loader : ConfigLoader) (files : Files) : ClientConfig :=
  match loader.load files with
  | .ok config => config
  | .error _ => .default

/-- The loader for a request. -/
def loaderFor (request : Request) (loader : ConfigLoader) : ConfigLoader :=
  match request.config with
  | some path => .ofPath path
  | none => loader

def showConfig (config : ClientConfig) : Result :=
  match config.toToml? with
  | some text => ⟨linesOf text, [], 0⟩
  | none => ⟨[], ["failed to render config: number out of range"], 1⟩

def demo (config : ClientConfig) (events : UInt32) (interrupt : Bool) : Result :=
  let run := Demo.run config events interrupt
  match run.failure with
  | none => ⟨run.lines.toList, [], 0⟩
  | some error => ⟨run.lines.toList, ["demo failed: " ++ error.message], 1⟩

/-- Runs the program. The loader is for when the arguments name no file. -/
def run (arguments : List String) (loader : ConfigLoader) (files : Files) : Result :=
  match parse arguments with
  | .error .version => ⟨[version], [], 0⟩
  | .error .help => ⟨usage, [], 0⟩
  | .error .misuse => ⟨[], usage, 2⟩
  | .ok request =>
    let config := configOf (loaderFor request loader) files
    match request.command with
    | .showConfig => showConfig config
    | .demo events interrupt => demo config events interrupt

end EndpointMonitor.CommandLine
