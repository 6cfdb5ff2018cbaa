import EndpointMonitor.Json.Node
import EndpointMonitor.Proofs.Json.Numeral

/-!
What is read for the text of a value: a node for each part of it, in the same order.
-/

namespace EndpointMonitor.Json

/-! ### Readers -/

namespace Reader

/-- What a reader makes of the rest of a text. -/
def readOn (r : Reader) (text : Bytes) : Reading := (text.foldl step r).finish

theorem readOn_cons (r : Reader) (b : UInt8) (rest : Bytes) :
    r.readOn (b :: rest) = (r.step b).readOn rest := rfl

variable {lexer next : Lexer} {stack : List Frame} {turn : Turn}

/-- Bytes that complete no token leave the builder alone. -/
theorem readOn_of_pass {bs : Bytes} (h : lexer.pass bs = some next) (rest : Bytes) :
    readOn ⟨lexer, .reading stack turn⟩ (bs ++ rest) = readOn ⟨next, .reading stack turn⟩ rest := by
  induction bs generalizing lexer with
  | nil =>
    obtain rfl := Option.some.inj h
    rfl
  | cons b bs ih =>
    rw [Lexer.pass] at h
    split at h
    · next first taken =>
      have stepped : step ⟨lexer, .reading stack turn⟩ b = ⟨first, .reading stack turn⟩ := by
        simp only [step, taken, pushAll, List.foldl_nil]
      rw [List.cons_append, readOn_cons, stepped]
      exact ih h
    · cases h

theorem readOn_of_token {b : UInt8} {token : Token} (h : lexer.step b = some ([token], next))
    (rest : Bytes) :
    readOn ⟨lexer, .reading stack turn⟩ (b :: rest) =
      readOn ⟨next, (Builder.reading stack turn).push token⟩ rest := by
  have stepped : step ⟨lexer, .reading stack turn⟩ b =
      ⟨next, (Builder.reading stack turn).push token⟩ := by
    simp only [step, h, pushAll, List.foldl_cons, List.foldl_nil]
  rw [readOn_cons, stepped]

/-- The bytes that can follow a value: a comma, or the end of a container. -/
def endsValue (b : UInt8) : Bool := b = 0x2c || b = 0x5d || b = 0x7d

/-- What can follow a value. -/
def Ends : Bytes → Prop
  | [] => True
  | b :: _ => endsValue b = true

theorem step_gap_push {b : UInt8} {token : Token} (h : Lexer.step .gap b = some ([token], .gap))
    (builder : Builder) : step ⟨.gap, builder⟩ b = ⟨.gap, builder.push token⟩ := by
  cases builder with
  | stopped root => rfl
  | complete root | reading stack turn =>
    simp only [step, h, pushAll, List.foldl_cons, List.foldl_nil]

theorem step_numeral_end {phase : Numeral.Phase} (final : phase.final = true) (x : Numeral)
    {b : UInt8} (h : endsValue b = true) : ∃ token,
    Lexer.step .gap b = some ([token], .gap) ∧
      Lexer.step (.numeral phase x) b = some ([.number x.number?, token], .gap) := by
  simp only [endsValue, Bool.or_eq_true, decide_eq_true_eq] at h
  have ended : x.step phase b = .ended := by
    rcases h with (rfl | rfl) | rfl <;> cases phase <;> first | rfl | cases final
  rcases h with (rfl | rfl) | rfl
  · exact ⟨.comma, rfl, by simp only [Lexer.step, ended]; rfl⟩
  · exact ⟨.closeArray, rfl, by simp only [Lexer.step, ended]; rfl⟩
  · exact ⟨.closeObject, rfl, by simp only [Lexer.step, ended]; rfl⟩

/-- A numeral ends where the text ends or goes on with something else. -/
theorem readOn_numeral {phase : Numeral.Phase} (final : phase.final = true) (x : Numeral)
    {rest : Bytes} (ends : Ends rest) :
    readOn ⟨.numeral phase x, .reading stack turn⟩ rest =
      readOn ⟨.gap, (Builder.reading stack turn).push (.number x.number?)⟩ rest := by
  cases rest with
  | nil => simp only [readOn, List.foldl_nil, finish, Lexer.finish, final, if_true, pushAll,
      List.foldl_cons]
  | cons b rest =>
    obtain ⟨token, alone, after⟩ := step_numeral_end final x ends
    have stepped : step ⟨.numeral phase x, .reading stack turn⟩ b =
        ⟨.gap, ((Builder.reading stack turn).push (.number x.number?)).push token⟩ := by
      simp only [step, after, pushAll, List.foldl_cons, List.foldl_nil]
    rw [readOn_cons, readOn_cons, stepped, step_gap_push alone]

end Reader

/-! ### Builders -/

/-- Where a value may stand. -/
def Turn.takesValue : Turn → Bool
  | .value | .firstItem => true
  | _ => false

theorem Turn.takesValue_value : Turn.value.takesValue = true := rfl

theorem Turn.takesValue_firstItem : Turn.firstItem.takesValue = true := rfl

/-- Where a key may stand. -/
def Turn.takesKey : Turn → Bool
  | .firstKey | .key => true
  | _ => false

theorem Turn.takesKey_firstKey : Turn.firstKey.takesKey = true := rfl

theorem Turn.takesKey_key : Turn.key.takesKey = true := rfl

namespace Builder

variable {stack : List Frame} {turn : Turn}

theorem push_leaf (opens : turn.takesValue = true) {token : Token} {node : Node}
    (h : leaf? token = some node) : (reading stack turn).push token = put stack node := by
  cases turn <;> cases opens <;> cases token <;> simp_all [push, pushValue, leaf?]

theorem push_openArray (opens : turn.takesValue = true) :
    (reading stack turn).push .openArray = reading (.array [] :: stack) .firstItem := by
  cases turn <;> cases opens <;> simp only [push, pushValue]

theorem push_openObject (opens : turn.takesValue = true) :
    (reading stack turn).push .openObject = reading (.object [] :: stack) .firstKey := by
  cases turn <;> cases opens <;> simp only [push, pushValue]

theorem push_key {earlier : List (Option String × Node)} (opens : turn.takesKey = true)
    (key : String) :
    (reading (.object earlier :: stack) turn).push (.string (some key)) =
      reading (.member earlier (some key) :: stack) .colon := by
  cases turn <;> cases opens <;> rfl

end Builder

/-! ### Values -/

mutual

/-- The node that is read for the text of a value. -/
def toNode : Json → Node
  | .null => .null
  | .bool b => .bool b
  | .number n => .number n.reread
  | .string s => .string (some s)
  | .array items => .array (toNodes items) true
  | .object members => .object (toMembers members) true

def toNodes : List Json → List Node
  | [] => []
  | item :: rest => toNode item :: toNodes rest

def toMembers : List (String × Json) → List (Option String × Node)
  | [] => []
  | (key, value) :: rest => (some key, toNode value) :: toMembers rest

end

mutual

/-- All numbers of a value have a property. -/
def Numbers (P : Number → Prop) : Json → Prop
  | .number n => P n
  | .array items => NumbersOfItems P items
  | .object members => NumbersOfMembers P members
  | _ => True

def NumbersOfItems (P : Number → Prop) : List Json → Prop
  | [] => True
  | item :: rest => Numbers P item ∧ NumbersOfItems P rest

def NumbersOfMembers (P : Number → Prop) : List (String × Json) → Prop
  | [] => True
  | (_, value) :: rest => Numbers P value ∧ NumbersOfMembers P rest

end

mutual

theorem Numbers.imp {P Q : Number → Prop} (h : ∀ n, P n → Q n) {v : Json} (all : v.Numbers P) :
    v.Numbers Q := by
  match v, all with
  | .number n, all => exact h n all
  | .array items, all => exact NumbersOfItems.imp h all
  | .object members, all => exact NumbersOfMembers.imp h all
  | .null, _ | .bool _, _ | .string _, _ => trivial

theorem NumbersOfItems.imp {P Q : Number → Prop} (h : ∀ n, P n → Q n) {items : List Json}
    (all : NumbersOfItems P items) : NumbersOfItems Q items := by
  match items, all with
  | [], _ => trivial
  | item :: rest, ⟨first, others⟩ => exact ⟨Numbers.imp h first, NumbersOfItems.imp h others⟩

theorem NumbersOfMembers.imp {P Q : Number → Prop} (h : ∀ n, P n → Q n)
    {members : List (String × Json)} (all : NumbersOfMembers P members) :
    NumbersOfMembers Q members := by
  match members, all with
  | [], _ => trivial
  | (_, value) :: rest, ⟨first, others⟩ =>
    exact ⟨Numbers.imp h first, NumbersOfMembers.imp h others⟩

end

namespace Reader

variable {stack : List Frame} {turn : Turn}

/-- A word is one token, which is a value by itself. -/
theorem readOn_leaf (opens : turn.takesValue = true) (front : Bytes) (last : UInt8) (token : Token)
    {lexer : Lexer} {node : Node} (passes : Lexer.pass .gap front = some lexer)
    (ready : lexer.step last = some ([token], .gap)) (leaf : Builder.leaf? token = some node)
    (rest : Bytes) :
    readOn ⟨.gap, .reading stack turn⟩ (front ++ last :: rest) =
      readOn ⟨.gap, .put stack node⟩ rest := by
  rw [readOn_of_pass passes, readOn_of_token ready, Builder.push_leaf opens leaf]

theorem readOn_string {text : String} {rest : Bytes} :
    readOn ⟨.gap, .reading stack turn⟩ (writeString text ++ rest) =
      readOn ⟨.gap, (Builder.reading stack turn).push (.string (some text))⟩ rest := by
  obtain ⟨pieces, passes, whole⟩ := exists_quoted text
  have closes : Lexer.step (.quoted pieces) 0x22 = some ([.string (some text)], .gap) := by
    simp only [Lexer.step, if_true, whole]
  rw [writeString, ← List.cons_append, List.append_assoc, readOn_of_pass passes,
    List.singleton_append, readOn_of_token closes]

theorem readOn_number {n : Number} (h : n.Readable) {rest : Bytes} (ends : Ends rest) :
    readOn ⟨.gap, .reading stack turn⟩ (writeNumber n ++ rest) =
      readOn ⟨.gap, (Builder.reading stack turn).push (.number n.reread)⟩ rest := by
  obtain ⟨m, phase, x, final, passes, value⟩ := h
  have same : n.reread = x.number? := by simp only [Number.reread, passes]
  rw [readOn_of_pass passes, readOn_numeral final x ends, same]

mutual

/-- The text of a value is read as its node, whatever follows. -/
theorem readOn_write (v : Json) (h : v.Numbers Number.Readable) {stack : List Frame} {turn : Turn}
    (opens : turn.takesValue = true) {rest : Bytes} (ends : Ends rest) :
    readOn ⟨.gap, .reading stack turn⟩ (v.write ++ rest) =
      readOn ⟨.gap, .put stack v.toNode⟩ rest := by
  cases v with
  | null => exact readOn_leaf opens [0x6e, 0x75, 0x6c] 0x6c .null rfl rfl rfl rest
  | bool b =>
    cases b with
    | true => exact readOn_leaf opens [0x74, 0x72, 0x75] 0x65 (.bool true) rfl rfl rfl rest
    | false => exact readOn_leaf opens [0x66, 0x61, 0x6c, 0x73] 0x65 (.bool false) rfl rfl rfl rest
  | number n =>
    rw [write, readOn_number h ends, Builder.push_leaf opens rfl]
    rfl
  | string s =>
    rw [write, readOn_string, Builder.push_leaf opens rfl]
    rfl
  | array items =>
    have opening : Lexer.step .gap 0x5b = some ([.openArray], .gap) := rfl
    have closing : Lexer.step .gap 0x5d = some ([.closeArray], .gap) := rfl
    rw [write, List.cons_append, List.append_assoc, List.singleton_append,
      readOn_of_token opening, Builder.push_openArray opens]
    cases items with
    | nil =>
      rw [writeItems, List.nil_append, readOn_of_token closing]
      rfl
    | cons item items =>
      exact readOn_items (item :: items) nofun h stack Turn.takesValue_firstItem [] rest
  | object members =>
    have opening : Lexer.step .gap 0x7b = some ([.openObject], .gap) := rfl
    have closing : Lexer.step .gap 0x7d = some ([.closeObject], .gap) := rfl
    rw [write, List.cons_append, List.append_assoc, List.singleton_append,
      readOn_of_token opening, Builder.push_openObject opens]
    cases members with
    | nil =>
      rw [writeMembers, List.nil_append, readOn_of_token closing]
      rfl
    | cons member members =>
      exact readOn_members (member :: members) nofun h stack Turn.takesKey_firstKey [] rest

theorem readOn_items (items : List Json) (nonempty : items ≠ [])
    (h : NumbersOfItems Number.Readable items) (stack : List Frame) {turn : Turn}
    (opens : turn.takesValue = true) (done : List Node) (rest : Bytes) :
    readOn ⟨.gap, .reading (.array done :: stack) turn⟩ (writeItems items ++ 0x5d :: rest) =
      readOn ⟨.gap, .put stack (.array (done.reverse ++ toNodes items) true)⟩ rest := by
  have closing : Lexer.step .gap 0x5d = some ([.closeArray], .gap) := rfl
  have comma : Lexer.step .gap 0x2c = some ([.comma], .gap) := rfl
  match items, nonempty, h with
  | [item], _, ⟨first, _⟩ =>
    have ends : Ends (0x5d :: rest) := rfl
    rw [writeItems, readOn_write item first opens ends, Builder.put, readOn_of_token closing]
    simp [Builder.push, toNodes]
  | item :: next :: items, _, ⟨first, others⟩ =>
    have ends : Ends (0x2c :: (writeItems (next :: items) ++ 0x5d :: rest)) := rfl
    rw [writeItems, List.append_assoc, List.cons_append, readOn_write item first opens ends,
      Builder.put, readOn_of_token comma]
    have read := readOn_items (next :: items) nofun others stack Turn.takesValue_value
      (item.toNode :: done) rest
    simp only [toNodes, List.reverse_cons, List.append_assoc, List.singleton_append] at read ⊢
    exact read

theorem readOn_members (members : List (String × Json)) (nonempty : members ≠ [])
    (h : NumbersOfMembers Number.Readable members) (stack : List Frame) {turn : Turn}
    (opens : turn.takesKey = true) (done : List (Option String × Node)) (rest : Bytes) :
    readOn ⟨.gap, .reading (.object done :: stack) turn⟩ (writeMembers members ++ 0x7d :: rest) =
      readOn ⟨.gap, .put stack (.object (done.reverse ++ toMembers members) true)⟩ rest := by
  have closing : Lexer.step .gap 0x7d = some ([.closeObject], .gap) := rfl
  have comma : Lexer.step .gap 0x2c = some ([.comma], .gap) := rfl
  have colon : Lexer.step .gap 0x3a = some ([.colon], .gap) := rfl
  match members, nonempty, h with
  | [(key, value)], _, ⟨first, _⟩ =>
    have ends : Ends (0x7d :: rest) := rfl
    rw [writeMembers, List.append_assoc, List.cons_append, readOn_string, Builder.push_key opens,
      readOn_of_token colon, Builder.push, readOn_write value first Turn.takesValue_value ends,
      Builder.put, readOn_of_token closing]
    simp [Builder.push, toMembers]
  | (key, value) :: next :: members, _, ⟨first, others⟩ =>
    have ends : Ends (0x2c :: (writeMembers (next :: members) ++ 0x7d :: rest)) := rfl
    rw [writeMembers, List.append_assoc, List.cons_append, List.append_assoc, List.cons_append,
      readOn_string, Builder.push_key opens, readOn_of_token colon, Builder.push,
      readOn_write value first Turn.takesValue_value ends, Builder.put, readOn_of_token comma]
    have read := readOn_members (next :: members) nofun others stack Turn.takesKey_key
      ((some key, value.toNode) :: done) rest
    simp only [toMembers, List.reverse_cons, List.append_assoc, List.singleton_append] at read ⊢
    exact read

end

end Reader

/-- A text that was written is read back in full, with a node for each part. -/
theorem read_write {v : Json} (h : v.Numbers Number.Readable) :
    read v.write = ⟨v.toNode, true⟩ := by
  have nothing : Reader.Ends [] := trivial
  have whole : Reader.readOn ⟨.gap, .reading [] .value⟩ (v.write ++ []) =
      Reader.readOn ⟨.gap, .put [] v.toNode⟩ [] :=
    Reader.readOn_write v h Turn.takesValue_value nothing
  rw [List.append_nil] at whole
  exact whole

end EndpointMonitor.Json
