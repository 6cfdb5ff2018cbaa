import EndpointMonitor.Config.Loader
import EndpointMonitor.Proofs.Config.Text
import EndpointMonitor.Proofs.Json.Quoted

/-!
Which file a configuration comes from. The first file that exists decides, with what it holds or
with what is wrong with it; what stands under any other path makes no difference.
-/

namespace EndpointMonitor

open ClientConfig

/-! ### One file -/

namespace FileState

@[simp] theorem exists_eq_true {state : FileState} : state.exists = true ↔ state ≠ .missing := by
  cases state <;> simp [FileState.exists]

@[simp] theorem exists_missing : FileState.missing.exists = false := rfl

/-- The file holds the text of a configuration with which calls can succeed. -/
def Denotes (state : FileState) (c : ClientConfig) : Prop :=
  ∃ bytes text, state = .content bytes ∧ Bytes.text? bytes = some text ∧ ofToml? text = some c ∧
    c.timeoutMs ≠ 0 ∧ c.codec.maxPayloadBytes ≠ 0

/-- What is wrong with the file under a path. Of two zeros the timeout is reported. -/
inductive Faulty (path : String) : FileState → ConfigError → Prop where
  | unreadable : Faulty path .unreadable (.read path)
  | undecodable {bytes : Bytes} (undecoded : Bytes.text? bytes = none) :
    Faulty path (.content bytes) (.read path)
  | unparsable {bytes : Bytes} {text : String} (decoded : Bytes.text? bytes = some text)
      (unparsed : ofToml? text = none) :
    Faulty path (.content bytes) (.parse path)
  | noTime {bytes : Bytes} {text : String} {c : ClientConfig}
      (decoded : Bytes.text? bytes = some text) (parsed : ofToml? text = some c)
      (timeout : c.timeoutMs = 0) :
    Faulty path (.content bytes) (.invalid path "timeout_ms must be greater than zero")
  | noPayload {bytes : Bytes} {text : String} {c : ClientConfig}
      (decoded : Bytes.text? bytes = some text) (parsed : ofToml? text = some c)
      (timeout : c.timeoutMs ≠ 0) (limit : c.codec.maxPayloadBytes = 0) :
    Faulty path (.content bytes) (.invalid path "codec.max_payload_bytes must be greater than zero")

end FileState

namespace ConfigLoader

variable {loader : ConfigLoader} {files : Files} {c : ClientConfig} {path text : String}
  {state : FileState}

theorem loadFile_of_denotes (denotes : state.Denotes c) : loadFile path state = .ok c := by
  obtain ⟨bytes, text, rfl, decoded, parsed, timeout, limit⟩ := denotes
  simp only [loadFile, decoded, parsed, invalid?, if_neg timeout, if_neg limit]

theorem loadFile_of_faulty {error : ConfigError} (faulty : state.Faulty path error) :
    loadFile path state = .error error := by
  cases faulty with
  | unreadable => rfl
  | undecodable undecoded => simp only [loadFile, undecoded]
  | unparsable decoded unparsed => simp only [loadFile, decoded, unparsed]
  | noTime decoded parsed timeout => simp only [loadFile, decoded, parsed, invalid?, if_pos timeout]
  | noPayload decoded parsed timeout limit =>
    simp only [loadFile, decoded, parsed, invalid?, if_neg timeout, if_pos limit]

/-- A file that exists denotes a configuration, or something is wrong with it. -/
theorem denotes_or_faulty (path : String) (present : state ≠ .missing) :
    (∃ c, state.Denotes c) ∨ ∃ error, state.Faulty path error := by
  cases state with
  | missing => exact absurd rfl present
  | unreadable => exact .inr ⟨_, .unreadable⟩
  | content bytes =>
    cases decoded : Bytes.text? bytes with
    | none => exact .inr ⟨_, .undecodable decoded⟩
    | some text =>
      cases parsed : ofToml? text with
      | none => exact .inr ⟨_, .unparsable decoded parsed⟩
      | some c =>
        by_cases timeout : c.timeoutMs = 0
        · exact .inr ⟨_, .noTime decoded parsed timeout⟩
        by_cases limit : c.codec.maxPayloadBytes = 0
        · exact .inr ⟨_, .noPayload decoded parsed timeout limit⟩
        exact .inl ⟨c, bytes, text, rfl, decoded, parsed, timeout, limit⟩

theorem loadFile_eq_ok_iff : loadFile path state = .ok c ↔ state.Denotes c := by
  refine ⟨fun read => ?_, loadFile_of_denotes⟩
  have present : state ≠ .missing := by
    rintro rfl
    cases read
  rcases denotes_or_faulty path present with ⟨other, denotes⟩ | ⟨error, faulty⟩
  · rw [loadFile_of_denotes denotes] at read
    cases read
    exact denotes
  · rw [loadFile_of_faulty faulty] at read
    cases read

theorem loadFile_eq_error_iff {error : ConfigError} (present : state ≠ .missing) :
    loadFile path state = .error error ↔ state.Faulty path error := by
  refine ⟨fun failed => ?_, loadFile_of_faulty⟩
  rcases denotes_or_faulty path present with ⟨c, denotes⟩ | ⟨other, faulty⟩
  · rw [loadFile_of_denotes denotes] at failed
    cases failed
  · rw [loadFile_of_faulty faulty] at failed
    cases failed
    exact faulty

/-! ### The search -/

/-- Loading stops at the file that looking for one finds. -/
theorem load_eq (loader : ConfigLoader) (files : Files) :
    loader.load files =
      match loader.find? files with
      | none => .ok .default
      | some path => loadFile path (files path) := by
  obtain ⟨paths⟩ := loader
  simp only [load, find?]
  induction paths with
  | nil => rfl
  | cons path others ih =>
    cases present : (files path).exists with
    | true => simp only [loadFirst, present, if_true, List.find?_cons]
    | false => simp only [loadFirst, present, Bool.false_eq_true, if_false, List.find?_cons, ih]

theorem load_of_find (found : loader.find? files = some path) :
    loader.load files = loadFile path (files path) := by
  rw [load_eq, found]

theorem load_of_none (nothing : loader.find? files = none) : loader.load files = .ok .default := by
  rw [load_eq, nothing]

theorem find_eq_none_iff :
    loader.find? files = none ↔ ∀ path ∈ loader.searchPaths, files path = .missing := by
  simp [find?, List.find?_eq_none]

theorem present_of_find (found : loader.find? files = some path) : files path ≠ .missing := by
  have present := List.find?_some found
  exact FileState.exists_eq_true.1 present

/-- The file that is to be used: the one that the environment names, or else the one in the current
directory, or else that of the user. -/
inductive Located (override configDir : Option String) (files : Files) : String → Prop where
  | named {path : String} (given : override = some path) (nonempty : path ≠ "")
      (present : files path ≠ .missing) :
    Located override configDir files path
  | atHand (unnamed : ∀ path, override = some path → path ≠ "" → files path = .missing)
      (present : files localPath ≠ .missing) :
    Located override configDir files localPath
  | ofUser {dir : String}
      (unnamed : ∀ path, override = some path → path ≠ "" → files path = .missing)
      (notAtHand : files localPath = .missing) (known : configDir = some dir)
      (present : files (userPath dir) ≠ .missing) :
    Located override configDir files (userPath dir)

section
variable {override configDir : Option String}

theorem searchPaths_named {given : String} (nonempty : given ≠ "") :
    (ofEnvironment (some given) configDir).searchPaths =
      given :: (ofEnvironment none configDir).searchPaths := by
  simp [ofEnvironment, Option.filter_some, nonempty]

/-- Behind an override that names no file come the two usual places. -/
theorem find_unnamed (unnamed : ∀ path, override = some path → path ≠ "" → files path = .missing) :
    (ofEnvironment override configDir).find? files =
      (ofEnvironment none configDir).find? files := by
  cases override with
  | none => rfl
  | some path =>
    by_cases empty : path = ""
    · subst empty
      rfl
    · have absent := unnamed path rfl empty
      simp [find?, searchPaths_named empty, absent]

theorem find_named {given : String} (nonempty : given ≠ "") (present : files given ≠ .missing) :
    (ofEnvironment (some given) configDir).find? files = some given := by
  simp [find?, searchPaths_named nonempty, present]

theorem find_atHand (present : files localPath ≠ .missing) :
    (ofEnvironment none configDir).find? files = some localPath := by
  simp [ofEnvironment, find?, present]

theorem find_ofUser (absent : files localPath = .missing) :
    (ofEnvironment none configDir).find? files =
      (configDir.map userPath).filter fun path => (files path).exists := by
  cases configDir with
  | none => simp [ofEnvironment, find?, absent]
  | some dir =>
    cases present : (files (userPath dir)).exists <;>
      simp [ofEnvironment, find?, absent, present, Option.filter_some]

theorem find_of_located (located : Located override configDir files path) :
    (ofEnvironment override configDir).find? files = some path := by
  cases located with
  | named given nonempty present =>
    subst given
    exact find_named nonempty present
  | atHand unnamed present => rw [find_unnamed unnamed, find_atHand present]
  | ofUser unnamed notAtHand known present =>
    rw [find_unnamed unnamed, find_ofUser notAtHand, known]
    simp [present]

theorem located_of_find (found : (ofEnvironment override configDir).find? files = some path) :
    Located override configDir files path := by
  by_cases unnamed : ∀ path, override = some path → path ≠ "" → files path = .missing
  · rw [find_unnamed unnamed] at found
    by_cases atHand : files localPath = .missing
    · rw [find_ofUser atHand, Option.filter_eq_some_iff] at found
      obtain ⟨usual, present⟩ := found
      obtain ⟨dir, known, rfl⟩ := Option.map_eq_some_iff.1 usual
      exact .ofUser unnamed atHand known (FileState.exists_eq_true.1 present)
    · rw [find_atHand atHand] at found
      obtain rfl := Option.some.inj found
      exact .atHand unnamed atHand
  · simp only [Classical.not_forall] at unnamed
    obtain ⟨given, names, nonempty, present⟩ := unnamed
    subst names
    rw [find_named nonempty present] at found
    obtain rfl := Option.some.inj found
    exact .named rfl nonempty present

end

/-- Looking for a configuration and loading one agree on the file: the one that the environment
names if it exists, else the one at hand, else that of the user. What is loaded is what this file
denotes, and what is reported is what is wrong with it; other files have no part in it. The defaults
are loaded if no file exists, or if the file denotes them. -/
theorem first_file_decides (override configDir : Option String) (files : Files) :
    let loader := ofEnvironment override configDir
    (∀ path, loader.find? files = some path ↔ Located override configDir files path) ∧
    (∀ path, Located override configDir files path →
      (∀ c, loader.load files = .ok c ↔ (files path).Denotes c) ∧
      (∀ error, loader.load files = .error error ↔ (files path).Faulty path error) ∧
      ∀ other : Files, Located override configDir other path → other path = files path →
        loader.load other = loader.load files) ∧
    (loader.load files = .ok .default ↔ (∀ path ∈ loader.searchPaths, files path = .missing) ∨
      ∃ path, Located override configDir files path ∧ (files path).Denotes .default) := by
  intro loader
  have found {path : String} (located : Located override configDir files path) :=
    load_of_find (find_of_located located)
  refine ⟨fun path => ⟨located_of_find, find_of_located⟩, fun path located => ⟨fun c => ?_,
    fun error => ?_, fun other elsewhere same => ?_⟩, ?_⟩
  · rw [found located]
    exact loadFile_eq_ok_iff
  · rw [found located]
    exact loadFile_eq_error_iff (present_of_find (find_of_located located))
  · rw [found located, load_of_find (find_of_located elsewhere), same]
  · cases search : loader.find? files with
    | none =>
      have absent := find_eq_none_iff.1 search
      exact ⟨fun _ => .inl absent, fun _ => load_of_none search⟩
    | some path =>
      have located := located_of_find search
      rw [found located, loadFile_eq_ok_iff]
      refine ⟨fun denotes => .inr ⟨path, located, denotes⟩, ?_⟩
      rintro (absent | ⟨other, elsewhere, denotes⟩)
      · rw [find_eq_none_iff.2 absent] at search
        cases search
      · have same := (find_of_located elsewhere).symm.trans search
        obtain rfl := Option.some.inj same
        exact denotes

/-- The file that the environment names would make every call fail. That is reported, although the
file at hand is in order. -/
theorem named_file_reported :
    let c : ClientConfig := ⟨0, 3000, .default, .default⟩
    ∃ text, c.toToml? = some text ∧
      let files : Files := fun path =>
        if path = "a.toml" then .content (Bytes.ofText text) else .content []
      let loader := ofEnvironment (some "a.toml") (some "/etc")
      loader.find? files = some "a.toml" ∧
        loader.load files = .error (.invalid "a.toml" "timeout_ms must be greater than zero") := by
  intro c
  have printable : c.Printable := ⟨by decide, by decide, by decide⟩
  obtain ⟨text, written, -⟩ := printable.text
  refine ⟨text, written, ?_⟩
  intro files loader
  have located : Located (some "a.toml") (some "/etc") files "a.toml" :=
    .named rfl (by decide) (by simp [files])
  have faulty : (files "a.toml").Faulty "a.toml"
      (.invalid "a.toml" "timeout_ms must be greater than zero") :=
    .noTime (Bytes.text_ofText text) (printable.ofToml written) rfl
  obtain ⟨finds, loads, -⟩ := first_file_decides (some "a.toml") (some "/etc") files
  obtain ⟨-, reports, -⟩ := loads "a.toml" located
  exact ⟨(finds "a.toml").2 located, (reports _).2 faulty⟩

end ConfigLoader

end EndpointMonitor
