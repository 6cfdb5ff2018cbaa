import EndpointMonitor.CommandLine.Basic

/-!
The program: it looks at the environment, reads the files that may hold a configuration, and prints.
-/

open EndpointMonitor

/-- What stands under a path right now. -/
def lookAt (path : String) : IO FileState := do
  try
    let bytes ← IO.FS.readBinFile path
    return .content bytes.toList
  catch error =>
    match error with
    | .noFileOrDirectory _ _ _ => return .missing
    | _ => return .unreadable

/-- The user's directory for configurations. -/
def userConfigDir : IO (Option String) := do
  match (← IO.getEnv "XDG_CONFIG_HOME").filter (·.startsWith "/") with
  | some dir => return some dir
  | none => return (← IO.getEnv "HOME").map (· ++ "/.config")

def main (arguments : List String) : IO UInt32 := do
  let loader := ConfigLoader.ofEnvironment (← IO.getEnv "SECMON_CLIENT_CONFIG") (← userConfigDir)
  let paths := match CommandLine.parse arguments with
    | .ok request => (CommandLine.loaderFor request loader).searchPaths
    | .error _ => []
  let found ← paths.mapM fun path => return (path, ← lookAt path)
  let result := CommandLine.run arguments loader fun path => (found.lookup path).getD .missing
  result.errors.forM fun line => do (← IO.getStderr).putStrLn line
  result.lines.forM IO.println
  return result.exitCode
