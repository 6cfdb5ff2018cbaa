import EndpointMonitor.CommandLine.Log
import EndpointMonitor.Proofs.Config.Range
import EndpointMonitor.Proofs.Config.Search

/-!
Configurations and their files. What the program prints for a configuration is a file from which it
reads that configuration. The lines that it logs before are no part of such a file.
-/

namespace EndpointMonitor

namespace ClientConfig

/-- A configuration that a file can hold: its numbers are in range, and it is not rejected. -/
structure Storable (c : ClientConfig) : Prop where
  printable : c.Printable
  timeout : c.timeoutMs ≠ 0
  limit : c.codec.maxPayloadBytes ≠ 0

theorem storable_default : Storable .default where
  printable := ⟨by decide, by decide, by decide⟩
  timeout := by decide
  limit := by decide

end ClientConfig

namespace ConfigLoader

open ClientConfig

variable {loader : ConfigLoader} {files : Files} {c : ClientConfig} {path text : String}

/-- The loader returns nothing that would make every call fail. -/
theorem storable_of_load (read : loader.load files = .ok c) : c.Storable := by
  rw [load_eq] at read
  split at read
  · obtain rfl := Except.ok.inj read
    exact storable_default
  · obtain ⟨_, text, -, -, parsed, timeout, limit⟩ := loadFile_eq_ok_iff.1 read
    exact ⟨printable_of_ofToml parsed, timeout, limit⟩

theorem load_text (storable : c.Storable) (written : c.toToml? = some text)
    (found : loader.find? files = some path)
    (content : files path = .content (Bytes.ofText text)) : loader.load files = .ok c := by
  have parsed := storable.printable.ofToml written
  rw [load_of_find found, content]
  exact loadFile_of_denotes
    ⟨_, text, rfl, Bytes.text_ofText text, parsed, storable.timeout, storable.limit⟩

end ConfigLoader

namespace CommandLine

/-! ### Lines and their text -/

theorem splitLines_cons {c : Char} (inLine : c ≠ '\n') (rest : List Char) :
    splitLines (c :: rest) =
      match splitLines rest with
      | [] => [[c]]
      | line :: lines => (c :: line) :: lines :=
  splitLines.eq_3 c rest inLine

theorem splitLines_joined (chars : List Char) :
    (splitLines (chars ++ ['\n'])).flatMap (· ++ ['\n']) = chars ++ ['\n'] := by
  induction chars with
  | nil => rfl
  | cons c chars ih =>
    by_cases ends : c = '\n'
    · subst ends
      exact congrArg ('\n' :: ·) ih
    · rw [List.cons_append, splitLines_cons ends]
      cases lines : splitLines (chars ++ ['\n']) with
      | nil =>
        rw [lines] at ih
        exact absurd ih.symm (by simp)
      | cons line lines' =>
        rw [lines] at ih
        exact congrArg (c :: ·) ih

theorem printed_linesOf {text : String} (ends : text.toList.getLast? = some '\n')
    (errors : List String) (exitCode : UInt32) :
    Result.printed ⟨linesOf text, errors, exitCode⟩ = text := by
  obtain ⟨chars, split⟩ := List.getLast?_eq_some_iff.1 ends
  have joined := splitLines_joined chars
  rw [← split] at joined
  simp only [Result.printed, textOf, linesOf, List.flatMap_map, String.toList_ofList, joined,
    String.ofList_toList]

theorem textOf_append (lines others : List String) :
    textOf (lines ++ others) = textOf lines ++ textOf others := by
  simp only [textOf, List.flatMap_append, String.ofList_append]

end CommandLine

namespace ClientConfig

open Toml

/-- The text of a configuration ends its last line. -/
theorem document_ends (c : ClientConfig) : c.document.getLast? = some '\n' := by
  simp [document, numberLine, headerLine, List.getLast?_append, List.getLast?_cons]

end ClientConfig

namespace CommandLine

open ClientConfig ConfigLoader

variable {c : ClientConfig}

/-! ### Showing the configuration -/

/-- Whatever the files hold, the configuration in force could have been stored. -/
theorem storable_configOf (loader : ConfigLoader) (files : Files) :
    (configOf loader files).Storable := by
  unfold configOf
  split
  · next read => exact storable_of_load read
  · exact storable_default

theorem configOf_of_load {loader : ConfigLoader} {files : Files}
    (read : loader.load files = .ok c) : configOf loader files = c := by
  simp only [configOf, read]

theorem showConfig_text (printable : c.Printable) : ∃ text, c.toToml? = some text ∧
    showConfig c = ⟨linesOf text, [], 0⟩ ∧ (showConfig c).printed = text := by
  obtain ⟨text, written, chars⟩ := printable.text
  have shown : showConfig c = ⟨linesOf text, [], 0⟩ := by simp only [showConfig, written]
  have ends : text.toList.getLast? = some '\n' := by rw [chars, document_ends]
  refine ⟨text, written, shown, ?_⟩
  rw [shown, printed_linesOf ends]

theorem run_showConfig {arguments : List String} {given : Option String}
    (asked : parse arguments = .ok ⟨given, .showConfig⟩) (loader : ConfigLoader) (files : Files) :
    run arguments loader files =
      showConfig (configOf (loaderFor ⟨given, .showConfig⟩ loader) files) := by
  simp only [run, asked]

/-! ### The log -/

theorem two_le_rank (verbosity : Nat) : 2 ≤ (LogLevel.ofVerbosity verbosity).rank := by
  match verbosity with
  | 0 | 1 | 2 => decide
  | _ + 3 => exact (by decide : 2 ≤ LogLevel.trace.rank)

theorem four_le_rank {verbosity : Nat} :
    4 ≤ (LogLevel.ofVerbosity verbosity).rank ↔ 1 < verbosity := by
  match verbosity with
  | 0 | 1 | 2 => decide
  | n + 3 => exact iff_of_true (by decide : 4 ≤ LogLevel.trace.rank) (by omega)

/-- Without a filter from the environment, nothing is logged exactly if the configuration was found
without trouble and few details are asked for. -/
theorem showConfigLog_eq_nil {logging : Logging} (unfiltered : logging.filter = none)
    (arguments : List String) (loader : ConfigLoader) (files : Files) :
    showConfigLog logging arguments loader files = [] ↔
      verbosity arguments ≤ 1 ∧ ∃ c, loader.load files = .ok c := by
  have shows (r : LogRecord) (level : LogLevel) :
      logging.shows level r = decide (r.level.rank ≤ level.rank) := by
    simp only [Logging.shows, unfiltered]
  have debug : (loader.found files).level.rank = 4 := by
    unfold ConfigLoader.found
    split <;> rfl
  simp only [showConfigLog, Logging.lines, List.map_eq_nil_iff, List.filter_eq_nil_iff, shows,
    decide_eq_true_eq, ConfigLoader.log]
  cases read : loader.load files with
  | ok c =>
    simp only [List.mem_singleton, forall_eq, debug, four_le_rank, Nat.not_lt, Except.ok.injEq,
      exists_eq', and_true]
  | error error =>
    refine iff_of_false (fun silent => ?_) nofun
    exact silent (.unusable error) (List.mem_cons_of_mem _ List.mem_cons_self) (two_le_rank _)

theorem log_of_load {loader : ConfigLoader} {files : Files} {path : String}
    (found : loader.find? files = some path) (read : loader.load files = .ok c) :
    loader.log files = [.loading path] := by
  simp only [ConfigLoader.log, ConfigLoader.found, found, read]

theorem showConfigOutput_eq (logging : Logging) (arguments : List String) (loader : ConfigLoader)
    (files : Files) : showConfigOutput logging arguments loader files =
      textOf (showConfigLog logging arguments loader files) ++
        (showConfig (configOf loader files)).printed := textOf_append _ _

/-- A configuration whose numbers are in range and with which calls can succeed is what the loader
returns for a file with its text. The program shows the configuration in force whatever the files
hold, after the lines that it logs. If it finds a file with what it showed, it shows the same and
warns of nothing; so all that stands on the output is shown again, if nothing was logged. The loader
never returns a configuration with which no call can succeed. -/
theorem configurations_shown_again :
    (∀ c : ClientConfig, c.Printable → c.timeoutMs ≠ 0 → c.codec.maxPayloadBytes ≠ 0 →
      ∃ text, c.toToml? = some text ∧
        ∀ (loader : ConfigLoader) (files : Files) (path : String),
          loader.find? files = some path → files path = .content (Bytes.ofText text) →
            loader.load files = .ok c) ∧
    (∀ (logging : Logging) (arguments : List String) (given : Option String)
      (loader : ConfigLoader) (files : Files), parse arguments = .ok ⟨given, .showConfig⟩ →
        let source := loaderFor ⟨given, .showConfig⟩ loader
        let shown := run arguments loader files
        let log := showConfigLog logging arguments source files
        let output := showConfigOutput logging arguments source files
        shown.exitCode = 0 ∧ shown.errors = [] ∧
          (configOf source files).toToml? = some shown.printed ∧
          output = textOf log ++ shown.printed ∧
          (logging.filter = none →
            (log = [] ↔ verbosity arguments ≤ 1 ∧ ∃ c, source.load files = .ok c)) ∧
          ∀ (logging' : Logging) (again : List String) (named : Option String) (path : String)
            (other : ConfigLoader) (later : Files), parse again = .ok ⟨named, .showConfig⟩ →
            let source' := loaderFor ⟨named, .showConfig⟩ other
            source'.find? later = some path →
            (later path = .content (Bytes.ofText shown.printed) →
              run again other later = shown ∧ source'.log later = [.loading path]) ∧
            (log = [] → later path = .content (Bytes.ofText output) →
              showConfigOutput logging' again source' later =
                textOf (showConfigLog logging' again source' later) ++ output)) ∧
    (∀ (loader : ConfigLoader) (files : Files) (c : ClientConfig), loader.load files = .ok c →
      c.timeoutMs ≠ 0 ∧ c.codec.maxPayloadBytes ≠ 0) := by
  refine ⟨fun c printable timeout limit => ?_, fun logging arguments given loader files asked => ?_,
    fun loader files c read => ?_⟩
  · obtain ⟨text, written, -⟩ := printable.text
    have storable : c.Storable := ⟨printable, timeout, limit⟩
    exact ⟨text, written, fun loader files path => load_text storable written⟩
  · intro source shown log output
    have storable := storable_configOf source files
    have first : shown = showConfig (configOf source files) := run_showConfig asked loader files
    have whole : output = textOf log ++ shown.printed := by
      rw [first]
      exact showConfigOutput_eq ..
    obtain ⟨text, written, told, printed⟩ := showConfig_text storable.printable
    rw [← first] at told printed
    refine ⟨by rw [told], by rw [told], by rw [printed, written], whole,
      fun unfiltered => showConfigLog_eq_nil unfiltered arguments source files, ?_⟩
    intro logging' again named path other later askedAgain source' found
    have shownAgain (content : later path = .content (Bytes.ofText shown.printed)) :
        run again other later = shown ∧ source'.log later = [.loading path] := by
      rw [printed] at content
      have read := load_text storable written found content
      rw [run_showConfig askedAgain, configOf_of_load read, ← first]
      exact ⟨rfl, log_of_load found read⟩
    refine ⟨shownAgain, fun silent content => ?_⟩
    have same : output = shown.printed := by
      rw [whole, silent]
      exact String.empty_append
    rw [same] at content ⊢
    rw [showConfigOutput_eq, ← (shownAgain content).1, run_showConfig askedAgain]
  · have storable := storable_of_load read
    exact ⟨storable.timeout, storable.limit⟩

/-- The limit is the largest number that TOML has. What is shown goes to another file, and is shown
from there. -/
theorem largest_limit_shown_twice :
    let c : ClientConfig := ⟨7, 0, ⟨2⟩, ⟨9223372036854775807⟩⟩
    let logging : Logging := ⟨none, LogRecord.line "2024-05-17T09:00:00.000000Z"⟩
    ∃ text, c.toToml? = some text ∧
      let files : Files := fun path =>
        if path = "a.toml" then .content (Bytes.ofText text) else .missing
      let nowhere : ConfigLoader := ⟨[]⟩
      let first := ["--config", "a.toml", "show-config"]
      let shown := run first nowhere files
      let output := showConfigOutput logging first (.ofPath "a.toml") files
      let later : Files := fun path =>
        if path = "b.toml" then .content (Bytes.ofText output) else .missing
      (ConfigLoader.ofPath "a.toml").load files = .ok c ∧ shown.exitCode = 0 ∧ output = text ∧
        run ["show-config", "-c", "b.toml"] nowhere later = shown := by
  intro c logging
  obtain ⟨kept, shows, -⟩ := configurations_shown_again
  obtain ⟨text, written, loads⟩ :=
    kept c ⟨by decide, by decide, by decide⟩ (by decide) (by decide)
  refine ⟨text, written, ?_⟩
  intro files nowhere first shown output later
  have loaded : (ConfigLoader.ofPath "a.toml").load files = .ok c := loads _ files "a.toml" rfl rfl
  obtain ⟨success, -, inForce, whole, silent, again⟩ :=
    shows logging first (some "a.toml") nowhere files rfl
  have printed : shown.printed = text := by
    have same : (configOf (.ofPath "a.toml") files).toToml? = some text := by
      rw [configOf_of_load loaded, written]
    exact Option.some.inj (inForce.symm.trans same)
  have quiet : output = shown.printed := by
    refine whole.trans ?_
    rw [(silent rfl).2 ⟨by decide +kernel, c, loaded⟩]
    exact String.empty_append
  have content : later "b.toml" = .content (Bytes.ofText shown.printed) := by
    rw [← quiet]
    rfl
  refine ⟨loaded, success, quiet.trans printed, ?_⟩
  exact ((again logging ["show-config", "-c", "b.toml"] (some "b.toml") "b.toml" nowhere later rfl
    rfl).1 content).1

/-- A file that is no TOML counts as none, and there is a warning. -/
theorem configOf_of_parse {loader : ConfigLoader} {files : Files} {path text : String}
    (found : loader.find? files = some path)
    (content : files path = .content (Bytes.ofText text)) (malformed : Toml.parse? text = none) :
    configOf loader files = .default ∧
      loader.log files = [.loading path, .unusable (.parse path)] := by
  have denotes : ClientConfig.ofToml? text = none := by
    rw [ClientConfig.ofToml?, malformed]
    rfl
  have read : loader.load files = .error (.parse path) := by
    rw [load_of_find found, content]
    simp only [loadFile, Bytes.text_ofText, denotes]
  constructor
  · simp only [configOf, read]
  · simp only [ConfigLoader.log, ConfigLoader.found, found, read]

theorem toList_logged (time : String) (r : LogRecord) (lines : List String) (text : String) :
    ∃ rest, (textOf (r.line time :: lines) ++ text).toList = time.toList ++ rest := by
  simp only [textOf, LogRecord.line, List.flatMap_cons, String.toList_append, String.toList_ofList,
    List.append_assoc]
  exact ⟨_, rfl⟩

/-- What begins with the time is no TOML. -/
theorem parse_of_time {text : String} {rest : List Char} (begins : text.toList =
    ['2', '0', '2', '4', '-', '0', '5', '-', '1', '7', 'T', '0', '9', ':'] ++ rest) :
    Toml.parse? text = none := by
  simp only [Toml.parse?, begins]
  rfl

/-- With details in the log, all that stands on the output is no configuration: when it is shown,
the settings are lost. -/
theorem settings_lost_in_log :
    let c : ClientConfig := ⟨900, 3000, ⟨1⟩, ⟨4194304⟩⟩
    let text := "timeout_ms = 900\nreconnect_delay_ms = 3000\n\n[converter]\nversion = 1\n\n" ++
      "[codec]\nmax_payload_bytes = 4194304\n"
    let time := "2024-05-17T09:00:00.000000Z"
    let logging : Logging := ⟨none, LogRecord.line time⟩
    let arguments := ["-vv", "-c", "a.toml", "show-config"]
    let holding (text : String) : Files := fun path =>
      if path = "a.toml" then .content (Bytes.ofText text) else .missing
    let output := showConfigOutput logging arguments (.ofPath "a.toml") (holding text)
    run arguments ⟨[]⟩ (holding text) = showConfig c ∧
      run arguments ⟨[]⟩ (holding output) = showConfig .default ∧
      showConfig .default ≠ showConfig c ∧
      showConfigOutput logging arguments (.ofPath "a.toml") (holding output) ≠ output := by
  intro c text time logging arguments holding output
  have written : c.toToml? = some text := by decide +kernel
  have storable : c.Storable := ⟨⟨by decide, by decide, by decide⟩, by decide, by decide⟩
  have asked : parse arguments = .ok ⟨some "a.toml", .showConfig⟩ := rfl
  have found (text : String) :
      (ConfigLoader.ofPath "a.toml").find? (holding text) = some "a.toml" := rfl
  have read : (ConfigLoader.ofPath "a.toml").load (holding text) = .ok c :=
    load_text storable written (found text) rfl
  have printed : (showConfig c).printed = text := by
    obtain ⟨_, same, -, printed⟩ := showConfig_text storable.printable
    rw [printed]
    exact Option.some.inj (same.symm.trans written)
  have detailed : verbosity arguments = 2 := by decide +kernel
  have whole : output = textOf [LogRecord.line time (.loading "a.toml")] ++ text := by
    refine (showConfigOutput_eq ..).trans ?_
    rw [showConfigLog, log_of_load (found text) read, detailed, configOf_of_load read,
      printed]
    rfl
  have stamp : time.toList =
      ['2', '0', '2', '4', '-', '0', '5', '-', '1', '7', 'T', '0', '9', ':'] ++
        "00:00.000000Z".toList := by decide +kernel
  have malformed : Toml.parse? output = none := by
    obtain ⟨rest, begins⟩ := toList_logged time (.loading "a.toml") [] text
    rw [← whole, stamp, List.append_assoc] at begins
    exact parse_of_time begins
  obtain ⟨default, log⟩ := configOf_of_parse (found output) rfl malformed
  refine ⟨?_, ?_, by decide +kernel, fun same => ?_⟩
  · rw [run_showConfig asked]
    exact congrArg showConfig (configOf_of_load read)
  · rw [run_showConfig asked]
    exact congrArg showConfig default
  · have second : showConfigOutput logging arguments (.ofPath "a.toml") (holding output) =
        textOf [LogRecord.line time (.loading "a.toml")] ++
          (textOf [LogRecord.line time (.unusable (.parse "a.toml"))] ++
            (showConfig .default).printed) := by
      rw [showConfigOutput_eq, showConfigLog, log, detailed, default, ← String.append_assoc,
        ← textOf_append]
      rfl
    -- The log goes on where the first output has the settings.
    rw [second, whole, String.append_right_inj] at same
    obtain ⟨rest, begins⟩ := toList_logged time (.unusable (.parse "a.toml")) []
      (showConfig .default).printed
    rw [same, stamp] at begins
    have first : text.toList.head? = some 't' := by decide +kernel
    rw [begins] at first
    exact absurd (Option.some.inj first) (by decide : ('2' : Char) ≠ 't')

end CommandLine

end EndpointMonitor
