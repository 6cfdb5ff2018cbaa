import EndpointMonitor.Proofs.Mute.ProcessName
import EndpointMonitor.Proofs.Scenario.Start
import EndpointMonitor.Proofs.Text.Digits

/-!
The whole demonstration: its messages, and the lines that it prints from beginning to end.
-/

namespace EndpointMonitor.Demo

variable {codec : Codec} {action : ActionKind} {eventType : EventType} {process : ProcessDescriptor}

/-! ### Messages -/

/-- A message without details arrives as it was sent. -/
theorem decode_ofAction {payload : Bytes}
    (encoded : codec.encode (EventMessage.ofAction action eventType process) = .ok payload) :
    codec.decode payload = .ok (EventMessage.ofAction action eventType process) := by
  have integers : (EventMessage.ofAction action eventType process).event.value.Numbers
      (·.isWord = true) := trivial
  have shallow : (EventMessage.ofAction action eventType process).event.value.depth ≤ 126 :=
    Nat.zero_le _
  exact (Codec.roundTrips_of_faithful (Codec.faithful_message integers shallow) (by decide)
    codec).decodes payload encoded

theorem mutes_ofAction : mutes.mutes (.ofAction action eventType process) =
    ((EventSet.empty.union (.ofList [.notifyExec])).contains eventType &&
      decide ("backupd" = process.name)) := by
  have byProcess : mutes.mutesProcess (.ofAction action eventType process) =
      (((EventSet.empty.union (.ofList [.notifyExec])).contains eventType &&
        decide ("backupd" = process.name) || false) != false) := rfl
  have byPath : mutes.mutesPath (.ofAction action eventType process) = false := rfl
  have byTarget : mutes.mutesTarget (.ofAction action eventType process) = false := rfl
  simp only [Mutes.mutes, byProcess, byPath, byTarget, Bool.or_false, Bool.bne_false]

/-- Of the programs that are run only the muted one goes unnoticed. -/
theorem passes_notify :
    passes mutes (.notify .notifyExec process) = decide (process.name ≠ "backupd") := by
  have subscribed : watched.contains .notifyExec = true := by decide
  have muted : (EventSet.empty.union (.ofList [.notifyExec])).contains .notifyExec = true := by
    decide
  show (watched.contains .notifyExec && !mutes.mutes (.ofAction .notify .notifyExec process)) = _
  rw [mutes_ofAction, subscribed, muted, Bool.true_and, Bool.true_and, ← decide_not]
  simp only [ne_eq, eq_comm]

theorem passes_auth : passes mutes (.auth .authExec process) = true := by
  have subscribed : watched.contains .authExec = true := by decide
  have unmuted : (EventSet.empty.union (.ofList [.notifyExec])).contains .authExec = false := by
    decide
  show (watched.contains .authExec && !mutes.mutes (.ofAction .auth .authExec process)) = _
  rw [mutes_ofAction, subscribed, unmuted, Bool.true_and, Bool.false_and]
  rfl

/-- The name of a process is what follows the last slash of its path. -/
theorem name_ofPath {pid : UInt32} {path : String} (dir base : List Char)
    (splits : path.toList = dir ++ '/' :: base) (plain : '/' ∉ base) :
    (ProcessDescriptor.ofPath pid path).name = String.ofList base := by
  have directory : IsDirectory (String.ofList dir ++ "/") := .inr ⟨_, rfl⟩
  have parts : path = String.ofList dir ++ "/" ++ String.ofList base := by
    apply String.toList_inj.1
    simp [splits]
  exact ProcessDescriptor.name_eq_of_directory directory parts (by rwa [String.toList_ofList])

/-! ### The tools -/

def toolMessage (i : Nat) : EventMessage :=
  .notify .notifyExec (.ofPath (firstPid + i.toUInt32) ("/usr/bin/tool" ++ toString i))

/-- The line for a tool. -/
def toolLine (i : Nat) : String :=
  "notify event#9 pid=" ++ toString (1000 + i) ++ " /usr/bin/tool" ++ toString i

theorem name_tool (i : Nat) :
    (toolMessage i).process.name = String.ofList ("tool".toList ++ digitsOf i) := by
  refine name_ofPath "/usr/bin".toList _ ?_ ?_
  · rw [String.toList_append]
    rfl
  · rw [List.mem_append]
    rintro (literal | digit)
    · exact absurd literal (by decide)
    · cases (wholePart_digitsOf i).digits _ digit

/-- A tool is neither muted nor asked about. -/
theorem name_tool_ne (i : Nat) (c : Char) (name : List Char) (other : c ≠ 't') :
    (toolMessage i).process.name ≠ String.ofList (c :: name) := by
  rw [name_tool]
  intro same
  have first := List.cons.inj (String.ofList_injective same)
  exact other first.1.symm

theorem handlerLine_tool {i : Nat} (few : i < 4294966296) :
    handlerLine? (.invoked (.notify (toolMessage i))) = some (toolLine i) := by
  have pid : (toolMessage i).process.pid.toNat = 1000 + i := by
    show (firstPid + i.toUInt32).toNat = 1000 + i
    have first : firstPid.toNat = 1000 := rfl
    have small : i % 2 ^ 32 = i := Nat.mod_eq_of_lt (Nat.lt_trans few (by decide))
    rw [UInt32.toNat_add, Nat.toUInt32_eq, UInt32.toNat_ofNat', first, small]
    exact Nat.mod_eq_of_lt (by omega)
  have kind : "notify " ++ (toolMessage i).eventType.text ++ " pid=" = "notify event#9 pid=" := by
    show "notify " ++ EventType.notifyExec.text ++ " pid=" = _
    decide
  have path : (toolMessage i).process.path = "/usr/bin/tool" ++ toString i := rfl
  have joint : " " ++ ("/usr/bin/tool" ++ toString i) = " /usr/bin/tool" ++ toString i := by
    rw [← String.append_assoc]
    rfl
  rw [handlerLine?, pid, kind, path, String.append_assoc, joint, ← String.append_assoc]
  rfl

/-- A tool gets its line if its message is small enough. -/
theorem linesFor_tool {i : Nat} (few : i < 4294966296) :
    linesFor codec mutes (toolMessage i) (.notify (toolMessage i)) =
      if fits codec (toolMessage i) then [toolLine i] else [] := by
  have passed : passes mutes (toolMessage i) = true := by
    show passes mutes (.notify .notifyExec _) = true
    rw [passes_notify]
    exact decide_eq_true (name_tool_ne i 'b' "ackupd".toList (by decide))
  rw [linesFor, passed, handlerLine_tool few, Bool.true_and]
  rfl

theorem flatMap_tools {n : Nat} (few : n ≤ 4294966296) :
    ((List.range n).map toolMessage).flatMap (fun m => linesFor codec mutes m (.notify m)) =
      ((List.range n).filter fun i => fits codec (toolMessage i)).map toolLine := by
  induction n with
  | zero => rfl
  | succ n ih =>
    have last : [n].flatMap (fun i => linesFor codec mutes (toolMessage i)
        (.notify (toolMessage i))) =
        ([n].filter fun i => fits codec (toolMessage i)).map toolLine := by
      rw [List.flatMap_singleton, linesFor_tool few, List.filter_singleton]
      cases fits codec (toolMessage n) <;> rfl
    rw [List.flatMap_map] at ih ⊢
    rw [List.range_succ, List.flatMap_append, List.filter_append, List.map_append,
      ih (Nat.le_of_succ_le few), last]

/-! ### The other messages -/

def backupdMessage : EventMessage := .notify .notifyExec (.ofPath 77 "/usr/libexec/backupd")

def authMessage (path : String) : EventMessage := .auth .authExec (.ofPath 4242 path)

theorem name_backupd : backupdMessage.process.name = "backupd" :=
  name_ofPath "/usr/libexec".toList "backupd".toList (by decide) (by decide)

theorem name_true : (authMessage "/usr/bin/true").process.name = "true" :=
  name_ofPath "/usr/bin".toList "true".toList (by decide) (by decide)

theorem name_payload : (authMessage "/tmp/payload").process.name = "payload" :=
  name_ofPath "/tmp".toList "payload".toList (by decide) (by decide)

/-- The muted process gets no line. -/
theorem linesFor_backupd : linesFor codec mutes backupdMessage (.notify backupdMessage) = [] := by
  have passed : passes mutes backupdMessage = false := by
    show passes mutes (.notify .notifyExec _) = false
    rw [passes_notify]
    exact decide_eq_false fun other => other name_backupd
  rw [linesFor, passed]
  rfl

theorem linesFor_auth (path : String) :
    linesFor codec mutes (authMessage path) (.auth (authMessage path)) =
      if fits codec (authMessage path) then
        (handlerLine? (.invoked (.auth (authMessage path)))).toList
      else [] := by
  have passed : passes mutes (authMessage path) = true := passes_auth
  rw [linesFor, passed, Bool.true_and]

theorem handlerLine_true : handlerLine? (.invoked (.auth (authMessage "/usr/bin/true"))) =
    some "auth   event#0 /usr/bin/true -> Auth(true)" := by
  decide

theorem handlerLine_payload : handlerLine? (.invoked (.auth (authMessage "/tmp/payload"))) =
    some "auth   event#0 /tmp/payload -> Auth(false)" := by
  decide

/-! ### From beginning to end -/

/-- All that a demonstration prints that is not interrupted. -/
def transcript (codec : Codec) (events : Nat) : List String :=
  ["state  connected"]
    ++ ((List.range events).filter fun i => fits codec (toolMessage i)).map toolLine
    ++ (if fits codec (authMessage "/usr/bin/true") then
        ["auth   event#0 /usr/bin/true -> Auth(true)"] else [])
    ++ (if fits codec (authMessage "/tmp/payload") then
        ["auth   event#0 /tmp/payload -> Auth(false)"] else [])
    ++ ["custom ping", "state  Connection invalidated"]

theorem toList_toolLine (i : Nat) : (toolLine i).toList =
    "notify event#9 pid=".toList ++
      (digitsOf (1000 + i) ++ ' ' :: ("/usr/bin/tool".toList ++ digitsOf i)) := by
  have blank : " /usr/bin/tool".toList = ' ' :: "/usr/bin/tool".toList := by decide
  unfold toolLine
  rw [String.toList_append, String.toList_append, String.toList_append, List.append_assoc,
    List.append_assoc]
  exact congrArg (fun tail => "notify event#9 pid=".toList ++
    (digitsOf (1000 + i) ++ (tail ++ digitsOf i))) blank

/-- The process id tells the tools apart. -/
theorem toolLine_injective : Function.Injective toolLine := by
  intro i j same
  have texts := congrArg String.toList same
  rw [toList_toolLine, toList_toolLine] at texts
  have digits : ∀ k rest, (digitsOf k ++ ' ' :: rest).takeWhile Char.isDigit = digitsOf k :=
    fun k rest => by
      rw [List.takeWhile_append_of_pos (wholePart_digitsOf k).digits]
      exact List.append_nil _
  have pids := congrArg (List.takeWhile Char.isDigit) (List.append_cancel_left texts)
  rw [digits, digits] at pids
  have values := congrArg (Nat.ofDigitChars 10 · 0) pids
  simp only [value_digitsOf] at values
  omega

/-- No line is printed twice. -/
theorem nodup_transcript (codec : Codec) (events : Nat) : (transcript codec events).Nodup := by
  have tools : (((List.range events).filter fun i => fits codec (toolMessage i)).map
      toolLine).Nodup := (List.nodup_range.filter _).map toolLine_injective
  have starts : ∀ line ∈ ((List.range events).filter fun i => fits codec (toolMessage i)).map
      toolLine, line.toList.head? = some 'n' := by
    intro line member
    obtain ⟨i, -, rfl⟩ := List.mem_map.1 member
    rw [toList_toolLine]
    rfl
  have others : ∀ allowed denied : Bool,
      let rest := ["state  connected"]
        ++ (if allowed then ["auth   event#0 /usr/bin/true -> Auth(true)"] else [])
        ++ (if denied then ["auth   event#0 /tmp/payload -> Auth(false)"] else [])
        ++ ["custom ping", "state  Connection invalidated"]
      rest.Nodup ∧ ∀ line ∈ rest, line.toList.head? ≠ some 'n' := by decide
  obtain ⟨once, apart⟩ := others (fits codec (authMessage "/usr/bin/true"))
    (fits codec (authMessage "/tmp/payload"))
  unfold transcript
  generalize ((List.range events).filter fun i => fits codec (toolMessage i)).map toolLine = lines
    at tools starts
  simp only [List.append_assoc] at once apart ⊢
  refine (List.perm_append_comm_assoc _ lines _).nodup_iff.2 (List.nodup_append.2
    ⟨tools, once, fun line tool other member same => ?_⟩)
  exact apart other member (same ▸ starts line tool)

theorem script_eq (config : ClientConfig) (events : UInt32) :
    script config events false = prepare
      ++ ((List.range events.toNat).map toolMessage).map .emitNotify
      ++ [.emitNotify backupdMessage, .emitAuth (authMessage "/usr/bin/true"),
        .emitAuth (authMessage "/tmp/payload"), .sendCustom (Bytes.ofText "ping"),
        .invalidate] := by
  rw [List.map_map]
  simp only [script, authorizations, List.map_cons, List.map_nil, Bool.false_eq_true, if_false,
    List.append_nil, List.append_assoc]
  rfl

variable {config : ClientConfig} {events : UInt32}

/-- The demonstration prints its transcript, and no error ends it. -/
theorem run_eq (few : events.toNat ≤ 4294966296)
    (admits : (Wire.encode mutedRule).write.length ≤ Codec.limit config.codec)
    (timed : config.timeoutMs ≠ 0) :
    (run config events false).lines.toList = transcript config.codec events.toNat ∧
      (run config events false).failure = none := by
  have ordinary : ∀ m ∈ (List.range events.toNat).map toolMessage, m.process.name ≠ "mdworker" := by
    intro m member
    obtain ⟨i, -, rfl⟩ := List.mem_map.1 member
    exact name_tool_ne i 'm' "dworker".toList (by decide)
  have arrives : ∀ m ∈ (List.range events.toNat).map toolMessage, ∀ payload,
      Codec.encode config.codec m = .ok payload → Codec.decode config.codec payload = .ok m := by
    intro m member payload encoded
    obtain ⟨i, -, rfl⟩ := List.mem_map.1 member
    exact decode_ofAction encoded
  obtain ⟨prepared, uncached⟩ := stands_prepared admits timed
  obtain ⟨tools, kept⟩ := prepared.emitAll ordinary arrives
  obtain ⟨backupd, still⟩ := tools.emitNotify (m := backupdMessage) (by rw [name_backupd]; decide)
    fun _ => decode_ofAction
  have empty := still.trans (kept.trans uncached)
  obtain ⟨allowed, others⟩ := backupd.emitAuth (m := authMessage "/usr/bin/true")
    (by rw [name_true]; decide) (fun _ => decode_ofAction) (by rw [empty]; rfl)
  have unknown := others (Exchange.resolutionKey (authMessage "/tmp/payload")) (by decide)
    (by rw [empty]; rfl)
  obtain ⟨denied, -⟩ := allowed.emitAuth (m := authMessage "/tmp/payload")
    (by rw [name_payload]; decide) (fun _ => decode_ofAction) unknown
  obtain ⟨lines, fine⟩ := (denied.sendCustom (Bytes.ofText "ping")).invalidate
  have answer : "custom " ++ (some "ping").getD "" = "custom ping" := by decide
  rw [flatMap_tools few, linesFor_backupd, linesFor_auth, linesFor_auth, handlerLine_true,
    handlerLine_payload, Bytes.text_ofText, answer, List.append_nil, List.append_assoc _ [_] [_]]
    at lines
  have runs : run config events false = (script config events false).foldl Run.act (start config) :=
    rfl
  rw [runs, script_eq, List.foldl_append, List.foldl_append]
  exact ⟨lines, fine⟩

end EndpointMonitor.Demo
