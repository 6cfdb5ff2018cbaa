import EndpointMonitor.Proofs.Config.RoundTrip
import EndpointMonitor.Proofs.Scenario.Script

/-!
What the program prints when it is asked for a demonstration.
-/

namespace EndpointMonitor.CommandLine

/-! ### The arguments -/

namespace Settings

/-- A number that has been printed is read. -/
theorem count_toString (n : UInt32) : count? (toString n.toNat) = some n := by
  have whole := wholePart_digitsOf n.toNat
  have value : (digitsOf n.toNat).foldl (fun n c => 10 * n + (c.toNat - '0'.toNat)) 0 = n.toNat :=
    value_digitsOf n.toNat
  obtain ⟨c, cs, digits, digit⟩ := whole.exists_digit
  have text : (toString n.toNat).toList = c :: cs := digits
  have minus : c ≠ '-' := by
    rintro rfl
    cases digit
  have plus : c ≠ '+' := by
    rintro rfl
    cases digit
  have all : (c :: cs).all Char.isDigit = true := List.all_eq_true.2 (digits ▸ whole.digits)
  rw [digits] at value
  have small : n.toNat < UInt32.size := n.toNat_lt
  have back : n.toNat.toUInt32 = n := UInt32.ofNat_toNat
  unfold count?
  rw [text]
  split
  next sign found read =>
    have unsigned : (sign, found) = (false, c :: cs) := by
      split at read
      · next same => exact absurd (List.cons.inj same).1 minus
      · next same => exact absurd (List.cons.inj same).1 plus
      · exact read.symm
    obtain ⟨rfl, rfl⟩ := Prod.mk.inj unsigned
    simp only [List.isEmpty_cons, all, Bool.not_true, Bool.or_self, Bool.false_eq_true, if_false,
      value, small, decide_true, Bool.false_and, Bool.not_false, Bool.and_self, if_true, back]

end Settings

/-- A number that has been printed is no option. -/
theorem isOptionLike_toString (n : Nat) : isOptionLike (toString n) = false := by
  obtain ⟨c, cs, digits, digit⟩ := (wholePart_digitsOf n).exists_digit
  have text : (toString n).toList = c :: cs := digits
  unfold isOptionLike
  rw [text]
  split
  · next same =>
    obtain ⟨rfl, -⟩ := List.cons.inj same
    cases digit
  · rfl

/-- The option that tells how many events there are. -/
def eventsSpec : OptionSpec Setting := ⟨.events, "events", some 'e', true, false⟩

theorem scan_events (n : Nat) :
    scan demoSpecs ["--events", toString n] = ⟨[⟨eventsSpec, some (toString n)⟩], some []⟩ := by
  have value : nextValue eventsSpec [toString n] = some (⟨eventsSpec, some (toString n)⟩, []) := by
    simp only [nextValue, isOptionLike_toString, Bool.false_eq_true, if_false]
  have long : readLong demoSpecs [toString n] ['e', 'v', 'e', 'n', 't', 's'] =
      ([⟨eventsSpec, some (toString n)⟩], some []) := by
    have named : demoSpecs.find? (fun spec => spec.long = "events") = some eventsSpec := by rfl
    have name : String.ofList (['e', 'v', 'e', 'n', 't', 's'].takeWhile (· ≠ '=')) = "events" := by
      decide
    have unassigned : ['e', 'v', 'e', 'n', 't', 's'].dropWhile (· ≠ '=') = [] := by decide
    simp only [readLong, name, named, unassigned]
    have takes : eventsSpec.takesValue = true := rfl
    simp only [takes, if_true, value]
  have word : "--events".toList = ['-', '-', 'e', 'v', 'e', 'n', 't', 's'] := by decide
  simp only [scan, List.length_cons, List.length_nil, scanWords, word, long, List.append_nil]

/-- The arguments ask for a demonstration with so many events. -/
theorem parse_demo (n : UInt32) :
    parse ["demo", "--events", toString n.toNat] = .ok ⟨none, .demo n false⟩ := by
  have words : scan programSpecs ["demo", "--events", toString n.toNat] =
    ⟨[], some ["demo", "--events", toString n.toNat]⟩ := by rfl
  have outer : readOptions programSpecs ["demo", "--events", toString n.toNat] =
      .ok (.initial, ["demo", "--events", toString n.toNat]) := by
    simp only [readOptions, words]
    rfl
  have adds : Settings.initial.add ⟨eventsSpec, some (toString n.toNat)⟩ =
      .ok ⟨[.events], none, n, false⟩ := by
    have once : Settings.initial.seen.contains eventsSpec.meaning = false := rfl
    simp only [Settings.add, once, Bool.false_and, Bool.false_eq_true, if_false]
    rw [show eventsSpec.meaning = .events from rfl]
    simp only [Settings.count_toString]
    rfl
  have inner : readLast demoSpecs ["--events", toString n.toNat] =
      .ok ⟨[.events], none, n, false⟩ := by
    simp only [readLast, readOptions, scan_events, List.foldlM_cons, adds]
    rfl
  simp only [parse, outer, bind, Except.bind, inner]
  rfl

/-! ### The demonstration -/

theorem run_demo {arguments : List String} {given : Option String} {events : UInt32}
    (asked : parse arguments = .ok ⟨given, .demo events false⟩) (loader : ConfigLoader)
    (files : Files) :
    run arguments loader files =
      demo (configOf (loaderFor ⟨given, .demo events false⟩ loader) files) events false := by
  simp only [run, asked]

/-- A demonstration that is not interrupted ends well, whatever configuration it finds, as long as
the service can be told what to mute. It prints that it is connected, the tools whose messages are
small enough, in their order and nothing between them, then of the two requests those that are small
enough, and then what the custom message got back. No line is printed twice. -/
theorem demonstration_prints (n : Nat) (few : n ≤ 4294966296) :
    parse ["demo", "--events", toString n] = .ok ⟨none, .demo n.toUInt32 false⟩ ∧
    ∀ (arguments : List String) (given : Option String),
      parse arguments = .ok ⟨given, .demo n.toUInt32 false⟩ →
      ∀ (loader : ConfigLoader) (files : Files),
        let config := configOf (loaderFor ⟨given, .demo n.toUInt32 false⟩ loader) files
        (Wire.encode Demo.mutedRule).write.length ≤ Codec.limit config.codec →
          run arguments loader files = ⟨Demo.transcript config.codec n, [], 0⟩ ∧
            (Demo.transcript config.codec n).Nodup := by
  have number : n.toUInt32.toNat = n := by
    rw [Nat.toUInt32_eq, UInt32.toNat_ofNat']
    exact Nat.mod_eq_of_lt (Nat.lt_of_le_of_lt few (by decide))
  refine ⟨?_, fun arguments given asked loader files => ?_⟩
  · have asks := parse_demo n.toUInt32
    rwa [number] at asks
  · intro config admits
    have timed : config.timeoutMs ≠ 0 := (storable_configOf _ files).timeout
    have limited : n.toUInt32.toNat ≤ 4294966296 := number.symm ▸ few
    obtain ⟨lines, fine⟩ := Demo.run_eq limited admits timed
    rw [number] at lines
    refine ⟨?_, Demo.nodup_transcript _ _⟩
    rw [run_demo asked, demo, fine, lines]

/-- The limit leaves room for the messages of the first ten tools. -/
theorem eleventh_tool_unheard :
    let c : ClientConfig := ⟨5000, 3000, .default, ⟨198⟩⟩
    ∃ text, c.toToml? = some text ∧
      let files : Files := fun path =>
        if path = "a.toml" then .content (Bytes.ofText text) else .missing
      run ["-c", "a.toml", "demo", "-e", "11"] ⟨[]⟩ files = ⟨[
        "state  connected",
        "notify event#9 pid=1000 /usr/bin/tool0",
        "notify event#9 pid=1001 /usr/bin/tool1",
        "notify event#9 pid=1002 /usr/bin/tool2",
        "notify event#9 pid=1003 /usr/bin/tool3",
        "notify event#9 pid=1004 /usr/bin/tool4",
        "notify event#9 pid=1005 /usr/bin/tool5",
        "notify event#9 pid=1006 /usr/bin/tool6",
        "notify event#9 pid=1007 /usr/bin/tool7",
        "notify event#9 pid=1008 /usr/bin/tool8",
        "notify event#9 pid=1009 /usr/bin/tool9",
        "auth   event#0 /usr/bin/true -> Auth(true)",
        "auth   event#0 /tmp/payload -> Auth(false)",
        "custom ping",
        "state  Connection invalidated"], [], 0⟩ := by
  intro c
  have storable : c.Storable := ⟨⟨by decide, by decide, by decide⟩, by decide, by decide⟩
  obtain ⟨text, written, -⟩ := storable.printable.text
  refine ⟨text, written, ?_⟩
  intro files
  have found : (ConfigLoader.ofPath "a.toml").find? files = some "a.toml" := rfl
  have loaded : configOf (ConfigLoader.ofPath "a.toml") files = c :=
    configOf_of_load (ConfigLoader.load_text storable written found rfl)
  obtain ⟨-, prints⟩ := demonstration_prints 11 (by decide)
  have printed := prints ["-c", "a.toml", "demo", "-e", "11"] (some "a.toml") rfl ⟨[]⟩ files
  have same : loaderFor ⟨some "a.toml", .demo (11 : Nat).toUInt32 false⟩ ⟨[]⟩ =
    ConfigLoader.ofPath "a.toml" := rfl
  simp only [same, loaded] at printed
  rw [(printed (by decide)).1]
  decide +kernel

end EndpointMonitor.CommandLine
