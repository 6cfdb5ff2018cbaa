import EndpointMonitor.Proofs.Json.Tokens

/-!
Objects as texts. What is read for a member does not depend on the members around it, so an object
can be cut into the texts of its members, and these can be put together in another order.
-/

namespace EndpointMonitor.Json

/-! ### Containers on a stack -/

namespace Builder

/-- What becomes of the containers on top of a stack, whatever is below them: some stay open, or
the last of them is complete, or the reading stops. -/
inductive Above (result : List Frame → Builder) : Prop
  | inside (stack : List Frame) (turn : Turn) (nonempty : stack ≠ [])
      (same : ∀ base, result base = .reading (stack ++ base) turn)
  | complete (node : Node) (same : ∀ base, result base = .put base node)
  | stops (same : ∀ base, ∃ root, result base = .stopped root)

theorem above_stop (stack : List Frame) : Above fun base => stop (stack ++ base) :=
  .stops fun _ => ⟨_, rfl⟩

theorem above_put (stack : List Frame) (node : Node) :
    Above fun base => put (stack ++ base) node := by
  rcases stack with _ | ⟨frame, rest⟩
  · exact .complete node fun _ => rfl
  · cases frame with
    | array items =>
      exact .inside (.array (node :: items) :: rest) .separator (by simp) fun _ => rfl
    | object members => exact .stops fun _ => ⟨_, rfl⟩
    | member members key =>
      exact .inside (.object ((key, node) :: members) :: rest) .separator (by simp) fun _ => rfl

theorem above_pushValue (stack : List Frame) (token : Token) :
    Above fun base => pushValue (stack ++ base) token := by
  cases token with
  | openArray => exact .inside (.array [] :: stack) .firstItem (by simp) fun _ => rfl
  | openObject => exact .inside (.object [] :: stack) .firstKey (by simp) fun _ => rfl
  | null | bool _ | number _ | string _ => exact above_put stack _
  | closeArray | closeObject | comma | colon | broken => exact above_stop stack

theorem push_firstItem {token : Token} (h : token ≠ .closeArray) (stack : List Frame) :
    (reading stack .firstItem).push token = pushValue stack token := by
  rcases stack with _ | ⟨⟨_ | _⟩ | _ | _, rest⟩ <;> cases token <;> first | rfl | exact absurd rfl h

theorem above_push {stack : List Frame} (nonempty : stack ≠ []) (turn : Turn) (token : Token) :
    Above fun base => (reading (stack ++ base) turn).push token := by
  obtain ⟨frame, rest, rfl⟩ := List.exists_cons_of_ne_nil nonempty
  cases turn with
  | value => exact above_pushValue (frame :: rest) token
  | firstItem =>
    -- Only an array that is still empty tells this turn from that of any other value.
    by_cases closes : token = .closeArray
    · subst closes
      rcases frame with ⟨_ | _⟩ | _ | _
      case array.nil => exact above_put rest _
      all_goals exact above_pushValue (_ :: rest) .closeArray
    · have value : (fun base => (reading (frame :: rest ++ base) .firstItem).push token) =
          fun base => pushValue (frame :: rest ++ base) token :=
        funext fun base => push_firstItem closes (frame :: rest ++ base)
      rw [value]
      exact above_pushValue (frame :: rest) token
  | separator =>
    cases frame with
    | array items =>
      cases token with
      | comma => exact .inside (.array items :: rest) .value (by simp) fun _ => rfl
      | closeArray => exact above_put rest _
      | _ => exact above_stop (.array items :: rest)
    | object members =>
      cases token with
      | comma => exact .inside (.object members :: rest) .key (by simp) fun _ => rfl
      | closeObject => exact above_put rest _
      | _ => exact above_stop (.object members :: rest)
    | member members key => exact above_stop (.member members key :: rest)
  | firstKey =>
    cases frame with
    | array items => exact above_stop (.array items :: rest)
    | object members =>
      cases token with
      | string key => exact .inside (.member members key :: rest) .colon (by simp) fun _ => rfl
      | closeObject => exact above_put rest _
      | _ => exact .stops fun _ => ⟨_, rfl⟩
    | member members key => exact above_stop (.member members key :: rest)
  | key =>
    cases frame with
    | object members =>
      cases token with
      | string key => exact .inside (.member members key :: rest) .colon (by simp) fun _ => rfl
      | _ => exact above_stop (.object members :: rest)
    | array items => exact above_stop (.array items :: rest)
    | member members key => exact above_stop (.member members key :: rest)
  | colon =>
    cases token with
    | colon => exact .inside (frame :: rest) .value (by simp) fun _ => rfl
    | _ => exact above_stop (frame :: rest)

end Builder

namespace Reader

open Builder (Above)

/-- What a container reads up to its end depends on nothing below it. -/
theorem exists_closing {stack base : List Frame} {turn : Turn} {tokens : List Token} {root : Node}
    (nonempty : stack ≠ []) (h : pushAll (.reading (stack ++ base) turn) tokens = .complete root) :
    ∃ inner rest node, tokens = inner ++ rest ∧
      ∀ other, pushAll (.reading (stack ++ other) turn) inner = .put other node := by
  induction tokens generalizing stack turn with
  | nil => cases h
  | cons token tokens ih =>
    rw [pushAll_cons] at h
    cases Builder.above_push nonempty turn token with
    | inside stack' turn' nonempty' same =>
      rw [same base] at h
      obtain ⟨inner, rest, node, rfl, closes⟩ := ih nonempty' h
      refine ⟨token :: inner, rest, node, rfl, fun other => ?_⟩
      rw [pushAll_cons, same other]
      exact closes other
    | complete node same => exact ⟨[token], tokens, node, rfl, same⟩
    | stops same =>
      obtain ⟨stopped, stops⟩ := same base
      rw [stops, pushAll_stopped] at h
      cases h

/-- Tokens that put a node where a value is expected. -/
def Spells (tokens : List Token) (node : Node) : Prop :=
  ∀ stack, pushAll (.reading stack .value) tokens = .put stack node

theorem exists_value {stack : List Frame} {tokens : List Token} {root : Node}
    (h : pushAll (.reading stack .value) tokens = .complete root) :
    ∃ value rest node, tokens = value ++ rest ∧ Spells value node := by
  cases tokens with
  | nil => cases h
  | cons token tokens =>
    have opened : ∀ frame turn, frame ≠ [] →
        (∀ other, (Builder.reading other .value).push token = .reading (frame ++ other) turn) →
        ∃ value rest node, token :: tokens = value ++ rest ∧ Spells value node := by
      intro frame turn nonempty opens
      rw [pushAll_cons, opens stack] at h
      obtain ⟨inner, rest, node, rfl, closes⟩ := exists_closing nonempty h
      refine ⟨token :: inner, rest, node, rfl, fun other => ?_⟩
      rw [pushAll_cons, opens other]
      exact closes other
    cases token with
    | openArray => exact opened [.array []] .firstItem (by simp) fun _ => rfl
    | openObject => exact opened [.object []] .firstKey (by simp) fun _ => rfl
    | null | bool _ | number _ | string _ => exact ⟨[_], tokens, _, rfl, fun _ => rfl⟩
    | closeArray | closeObject | comma | colon | broken =>
      rw [pushAll_cons] at h
      have stopped : pushAll (.stopped (Builder.unwind stack none)) tokens = .complete root := h
      rw [pushAll_stopped] at stopped
      cases stopped

theorem pushAll_ne_complete {builder : Builder} {token : Token} {root : Node}
    (h : builder.push token = .stopped root) (rest : List Token) (value : Node) :
    pushAll builder (token :: rest) ≠ .complete value := by
  intro done
  rw [pushAll_cons, h, pushAll_stopped] at done
  cases done

theorem eq_of_complete {first root : Node} {tokens : List Token}
    (h : pushAll (.complete first) tokens = .complete root) : tokens = [] ∧ first = root := by
  cases tokens with
  | nil =>
    obtain rfl := Builder.complete.inj h
    exact ⟨rfl, rfl⟩
  | cons token rest => exact absurd h (pushAll_ne_complete rfl rest root)

/-! ### Members -/

/-- A member by its tokens. -/
structure Entry where
  key : Option String
  node : Node
  value : List Token
  spells : Spells value node

namespace Entry

def tokens (e : Entry) : List Token := .string e.key :: .colon :: e.value

def read (e : Entry) : Option String × Node := (e.key, e.node)

/-- The tokens between the braces of an object. -/
def all (entries : List Entry) : List Token := [.comma].intercalate (entries.map tokens)

theorem all_cons_cons (e next : Entry) (entries : List Entry) :
    all (e :: next :: entries) = e.tokens ++ .comma :: all (next :: entries) := by
  simp [all, List.intercalate]

theorem all_singleton (e : Entry) : all [e] = e.tokens := by
  simp [all, List.intercalate]

end Entry

variable {turn : Turn} {done : List (Option String × Node)}

theorem pushAll_entry (opens : turn.takesKey = true) (e : Entry) :
    pushAll (.reading [.object done] turn) e.tokens =
      .reading [.object (e.read :: done)] .separator := by
  have key : (Builder.reading [.object done] turn).push (.string e.key) =
      .reading [.member done e.key] .colon := by
    cases turn <;> cases opens <;> rfl
  have colon : (Builder.reading [.member done e.key] .colon).push .colon =
      .reading [.member done e.key] .value := rfl
  rw [Entry.tokens, pushAll_cons, key, pushAll_cons, colon, e.spells]
  rfl

theorem pushAll_entries (opens : turn.takesKey = true) {entries : List Entry}
    (nonempty : entries ≠ []) :
    pushAll (.reading [.object done] turn) (Entry.all entries ++ [.closeObject]) =
      .complete (.object (done.reverse ++ entries.map Entry.read) true) := by
  induction entries generalizing turn done with
  | nil => exact absurd rfl nonempty
  | cons e entries ih =>
    cases entries with
    | nil =>
      rw [Entry.all_singleton, pushAll_append, pushAll_entry opens]
      simp [pushAll, Builder.push, Builder.put]
    | cons next entries =>
      have comma : (Builder.reading [.object (e.read :: done)] .separator).push .comma =
          .reading [.object (e.read :: done)] .key := rfl
      have others : pushAll (.reading [.object (e.read :: done)] .key)
          (Entry.all (next :: entries) ++ [.closeObject]) = _ := ih rfl (by simp)
      rw [Entry.all_cons_cons, List.append_assoc, List.cons_append, pushAll_append,
        pushAll_entry opens, pushAll_cons, comma, others]
      simp

/-- Where a key may stand, an object that is read to its end ends at once or has another member. -/
theorem entry_or_end (opens : turn.takesKey = true) {tokens : List Token} {root : Node}
    (h : pushAll (.reading [.object done] turn) tokens = .complete root) :
    (turn = .firstKey ∧ tokens = [.closeObject] ∧ root = .object [] true) ∨
      ∃ (e : Entry) (rest : List Token), tokens = e.tokens ++ rest ∧
        pushAll (.reading [.object (e.read :: done)] .separator) rest = .complete root := by
  cases tokens with
  | nil => cases h
  | cons token rest =>
    cases token with
    | string key =>
      have pushed : (Builder.reading [.object done] turn).push (.string key) =
          .reading [.member done key] .colon := by
        cases turn <;> cases opens <;> rfl
      rw [pushAll_cons, pushed] at h
      cases rest with
      | nil => cases h
      | cons token rest =>
        by_cases colon : token = .colon
        · subst colon
          have opened : pushAll (.reading [.member done key] .value) rest = .complete root := h
          obtain ⟨value, rest, node, rfl, spells⟩ := exists_value opened
          rw [pushAll_append, spells] at opened
          exact .inr ⟨⟨key, node, value, spells⟩, rest, rfl, opened⟩
        · have stops : (Builder.reading [.member done key] .colon).push token =
              Builder.stop [.member done key] := by
            cases token <;> first | rfl | exact absurd rfl colon
          exact absurd h (pushAll_ne_complete stops rest root)
    | closeObject =>
      cases turn with
      | firstKey =>
        obtain ⟨rfl, rfl⟩ := eq_of_complete h
        exact .inl ⟨rfl, rfl, rfl⟩
      | key => exact absurd h (pushAll_ne_complete rfl rest root)
      | value | firstItem | separator | colon => cases opens
    | openArray | openObject | closeArray | comma | colon | null | bool _ | number _ | broken =>
      cases turn <;> cases opens <;> exact absurd h (pushAll_ne_complete rfl rest root)

/-- After a member the object ends or goes on. -/
theorem end_or_comma {tokens : List Token} {root : Node}
    (h : pushAll (.reading [.object done] .separator) tokens = .complete root) :
    (tokens = [.closeObject] ∧ root = .object done.reverse true) ∨
      ∃ rest, tokens = .comma :: rest ∧
        pushAll (.reading [.object done] .key) rest = .complete root := by
  cases tokens with
  | nil => cases h
  | cons token rest =>
    cases token with
    | closeObject =>
      obtain ⟨rfl, rfl⟩ := eq_of_complete h
      exact .inl ⟨rfl, rfl⟩
    | comma => exact .inr ⟨rest, rfl, h⟩
    | openArray | openObject | closeArray | colon | null | bool _ | number _ | string _ | broken =>
      exact absurd h (pushAll_ne_complete rfl rest root)

theorem exists_entries (opens : turn.takesKey = true) {tokens : List Token} {root : Node}
    (h : pushAll (.reading [.object done] turn) tokens = .complete root) :
    (turn = .firstKey ∧ tokens = [.closeObject] ∧ root = .object [] true) ∨
      ∃ entries, entries ≠ [] ∧ tokens = Entry.all entries ++ [.closeObject] ∧
        root = .object (done.reverse ++ entries.map Entry.read) true := by
  -- A member takes two tokens and more, so what follows it is shorter.
  induction length : tokens.length using Nat.strongRecOn generalizing tokens turn done with
  | ind n ih =>
    rcases entry_or_end opens h with ends | ⟨e, rest, rfl, read⟩
    · exact .inl ends
    · right
      rcases end_or_comma read with ⟨rfl, rfl⟩ | ⟨more, rfl, others⟩
      · exact ⟨[e], by simp, by rw [Entry.all_singleton], by simp⟩
      · have shorter : more.length < n := by
          rw [← length, List.length_append, List.length_cons]
          omega
        rcases ih more.length shorter rfl others rfl with ⟨atKey, -⟩ | ⟨entries, nonempty, rfl, rfl⟩
        · cases atKey
        · obtain ⟨next, entries, rfl⟩ := List.exists_cons_of_ne_nil nonempty
          refine ⟨e :: next :: entries, by simp, ?_, by simp⟩
          rw [Entry.all_cons_cons, List.append_assoc, List.cons_append]

/-! ### Whole objects -/

/-- The outermost container is an array. -/
def InArray : Builder → Prop
  | .reading stack _ => ∃ outer items, stack = outer ++ [.array items]
  | .complete root => ∃ items, root = .array items true
  | .stopped _ => True

theorem InArray.push_outermost (items : List Node) (turn : Turn) (token : Token) :
    InArray ((Builder.reading [.array items] turn).push token) := by
  have value : InArray (Builder.pushValue [.array items] token) := by
    cases token with
    | openArray => exact ⟨[.array []], items, rfl⟩
    | openObject => exact ⟨[.object []], items, rfl⟩
    | null | bool _ | number _ | string _ => exact ⟨[], _ :: items, rfl⟩
    | closeArray | closeObject | comma | colon | broken => trivial
  cases turn with
  | value => exact value
  | firstItem =>
    cases items with
    | nil =>
      by_cases closes : token = .closeArray
      · subst closes
        exact ⟨[], rfl⟩
      · rw [Builder.push_firstItem closes]
        exact value
    | cons item items => exact value
  | separator =>
    cases token with
    | comma => exact ⟨[], items, rfl⟩
    | closeArray => exact ⟨items.reverse, rfl⟩
    | _ => trivial
  | firstKey | key => trivial
  | colon =>
    cases token with
    | colon => exact ⟨[], items, rfl⟩
    | _ => trivial

theorem InArray.push {builder : Builder} (h : InArray builder) (token : Token) :
    InArray (builder.push token) := by
  cases builder with
  | stopped root | complete root => trivial
  | reading stack turn =>
    obtain ⟨outer, items, rfl⟩ := h
    -- As long as something is open inside of it, the array itself is not touched.
    by_cases inner : outer = []
    · subst inner
      exact InArray.push_outermost items turn token
    · cases Builder.above_push inner turn token with
      | inside stack turn' _ same =>
        rw [same]
        exact ⟨stack, items, rfl⟩
      | complete node same =>
        rw [same]
        exact ⟨[], node :: items, rfl⟩
      | stops same =>
        obtain ⟨root, stops⟩ := same [.array items]
        rw [stops]
        trivial

theorem InArray.pushAll {builder : Builder} (h : InArray builder) (tokens : List Token) :
    InArray (pushAll builder tokens) := by
  induction tokens generalizing builder with
  | nil => exact h
  | cons token tokens ih => exact ih (h.push token)

/-- The tokens of an object begin with its brace. -/
theorem exists_of_object {tokens : List Token} {members : List (Option String × Node)}
    (h : pushAll .empty tokens = .complete (.object members true)) :
    ∃ rest, tokens = .openObject :: rest ∧
      pushAll (.reading [.object []] .firstKey) rest = .complete (.object members true) := by
  cases tokens with
  | nil => cases h
  | cons token rest =>
    cases token with
    | openObject => exact ⟨rest, rfl, h⟩
    | openArray =>
      have outermost : InArray (Builder.empty.push .openArray) := ⟨[], [], rfl⟩
      have closed := outermost.pushAll rest
      rw [← pushAll_cons, h] at closed
      obtain ⟨items, same⟩ := closed
      cases same
    | null | bool _ | number _ | string _ =>
      obtain ⟨-, same⟩ := eq_of_complete h
      cases same
    | closeArray | closeObject | comma | colon | broken =>
      exact absurd h (pushAll_ne_complete rfl rest _)

end Reader

open Reader (Entry)

/-- The text of a member, with the blanks around it: all there is in an object by itself. -/
structure Member where
  text : Bytes
  key : Option String
  node : Node
  reads : read (0x7b :: (text ++ [0x7d])) = ⟨.object [(key, node)] true, true⟩

theorem Lexer.tokens_brace (rest : Bytes) :
    Lexer.gap.tokens (0x7b :: rest) = .openObject :: Lexer.gap.tokens rest := rfl

theorem Reader.Entry.plain (e : Entry) : Token.broken ∉ e.tokens := by
  have value : Token.broken ∉ e.value := Reader.plain_of_complete (e.spells [])
  simp [Entry.tokens, value]

/-- What stands in front of the last brace, if only blanks follow it. -/
theorem eq_of_brace {text before after : Bytes} (h : text ++ [0x7d] = before ++ 0x7d :: after)
    (blanks : ∀ b ∈ after, blank b = true) : text = before := by
  rcases List.eq_nil_or_concat after with rfl | ⟨init, last, rfl⟩
  · exact (List.append_inj' h rfl).1
  · have ends : text ++ [0x7d] = (before ++ 0x7d :: init) ++ [last] := by
      rw [h]
      simp
    obtain ⟨-, same⟩ := List.append_inj' ends rfl
    obtain rfl : 0x7d = last := by simpa using same
    exact absurd (blanks 0x7d (by simp)) (by decide)

namespace Member

def read (m : Member) : Option String × Node := (m.key, m.node)

theorem exists_entry (m : Member) :
    ∃ e : Entry, Lexer.gap.tokens m.text = e.tokens ∧ e.read = m.read := by
  have whole := read_clean.1 m.reads
  rw [Lexer.tokens_brace] at whole
  have opens : Turn.firstKey.takesKey = true := rfl
  rcases Reader.exists_entries opens whole with ⟨-, -, nothing⟩ | ⟨entries, -, cut, same⟩
  · cases nothing
  · have closes : Token.closeObject.byte? = some 0x7d := rfl
    obtain ⟨before, after, split, inner, outer⟩ :=
      Lexer.exists_of_tokens Lexer.proper_gap closes cut
    obtain rfl := eq_of_brace split (Lexer.blank_of_tokens outer).2
    simp only [List.reverse_nil, List.nil_append, Node.object.injEq, and_true] at same
    obtain ⟨e, rfl, read⟩ := List.map_eq_singleton_iff.1 same.symm
    rw [Reader.Entry.all_singleton] at inner
    exact ⟨e, inner, read⟩

theorem reads_of_tokens {text : Bytes} {e : Entry} (h : Lexer.gap.tokens text = e.tokens) :
    Json.read (0x7b :: (text ++ [0x7d])) = ⟨.object [(e.key, e.node)] true, true⟩ := by
  have whole : Token.broken ∉ Lexer.gap.tokens text := by
    rw [h]
    exact e.plain
  have closed := Lexer.tokens_append whole (show Token.closeObject.byte? = some 0x7d from rfl) []
  rw [h] at closed
  have built : Reader.pushAll (.reading [.object []] .firstKey) (Entry.all [e] ++ [.closeObject]) =
      _ := Reader.pushAll_entries rfl (List.cons_ne_nil e [])
  rw [read_clean, Lexer.tokens_brace, closed]
  rw [Reader.Entry.all_singleton] at built
  exact built

/-- The texts of members with commas between them. -/
def join (members : List Member) : Bytes := [0x2c].intercalate (members.map text)

theorem join_cons_cons (m next : Member) (members : List Member) :
    join (m :: next :: members) = m.text ++ 0x2c :: join (next :: members) := by
  simp [join, List.intercalate]

theorem join_singleton (m : Member) : join [m] = m.text := by
  simp [join, List.intercalate]

/-- Members in a row are read one by one. -/
theorem exists_entries {members : List Member} (nonempty : members ≠ []) :
    ∃ entries : List Entry, entries ≠ [] ∧ entries.map Entry.read = members.map read ∧
      ∀ rest, Lexer.gap.tokens (join members ++ 0x7d :: rest) =
        Entry.all entries ++ .closeObject :: Lexer.gap.tokens rest := by
  induction members with
  | nil => exact absurd rfl nonempty
  | cons m members ih =>
    obtain ⟨e, tokens, same⟩ := m.exists_entry
    have whole : Token.broken ∉ Lexer.gap.tokens m.text := by
      rw [tokens]
      exact e.plain
    cases members with
    | nil =>
      refine ⟨[e], by simp, by simp [same], fun rest => ?_⟩
      rw [join_singleton, Reader.Entry.all_singleton, ← tokens]
      exact Lexer.tokens_append whole rfl rest
    | cons next members =>
      obtain ⟨entries, filled, others, read⟩ := ih (by simp)
      obtain ⟨first, entries, rfl⟩ := List.exists_cons_of_ne_nil filled
      refine ⟨e :: first :: entries, by simp, by rw [List.map_cons, same, others]; rfl, ?_⟩
      intro rest
      have comma := Lexer.tokens_append whole (show Token.comma.byte? = some 0x2c from rfl)
        (join (next :: members) ++ 0x7d :: rest)
      rw [join_cons_cons, List.append_assoc, List.cons_append, comma, read, tokens,
        Reader.Entry.all_cons_cons, List.append_assoc, List.cons_append]

/-- A text whose tokens are those of members can be cut into them. -/
theorem exists_members {entries : List Entry} (nonempty : entries ≠ []) {text : Bytes}
    (h : Lexer.gap.tokens text = Entry.all entries) :
    ∃ members : List Member, text = join members ∧ members.map read = entries.map Entry.read := by
  induction entries generalizing text with
  | nil => exact absurd rfl nonempty
  | cons e entries ih =>
    cases entries with
    | nil =>
      rw [Reader.Entry.all_singleton] at h
      let m : Member := ⟨text, e.key, e.node, reads_of_tokens h⟩
      exact ⟨[m], (join_singleton m).symm, rfl⟩
    | cons next entries =>
      rw [Reader.Entry.all_cons_cons] at h
      obtain ⟨before, after, rfl, inner, outer⟩ :=
        Lexer.exists_of_tokens Lexer.proper_gap (show Token.comma.byte? = some 0x2c from rfl) h
      obtain ⟨members, rfl, others⟩ := ih (by simp) outer
      have filled : members ≠ [] := by
        rintro rfl
        cases others
      obtain ⟨second, members, rfl⟩ := List.exists_cons_of_ne_nil filled
      refine ⟨⟨before, e.key, e.node, reads_of_tokens inner⟩ :: second :: members, ?_, ?_⟩
      · rw [join_cons_cons]
      · rw [List.map_cons, others]
        rfl

end Member

/-- The text of an object: blanks around it, and its members with commas between them. -/
structure ObjectText where
  before : Bytes
  inside : Bytes
  members : List Member
  after : Bytes
  blanks_before : ∀ b ∈ before, blank b = true
  blanks_inside : ∀ b ∈ inside, blank b = true
  blanks_after : ∀ b ∈ after, blank b = true

namespace ObjectText

def bytes (t : ObjectText) : Bytes :=
  t.before ++ 0x7b :: (t.inside ++ (Member.join t.members ++ 0x7d :: t.after))

/-- The members that are read. -/
def read (t : ObjectText) : List (Option String × Node) := t.members.map Member.read

theorem read_bytes (t : ObjectText) : Json.read t.bytes = ⟨.object t.read true, true⟩ := by
  have nothing : Lexer.gap.tokens t.after = [] := by
    rw [← List.append_nil t.after, Lexer.tokens_blank t.blanks_after]
    rfl
  rw [read_clean, bytes, Lexer.tokens_blank t.blanks_before, Lexer.tokens_brace,
    Lexer.tokens_blank t.blanks_inside]
  have opens : Turn.firstKey.takesKey = true := rfl
  by_cases empty : t.members = []
  · have closes : Lexer.gap.tokens (Member.join t.members ++ 0x7d :: t.after) =
        .closeObject :: Lexer.gap.tokens t.after := by
      rw [empty]
      rfl
    rw [closes, nothing, read, empty]
    rfl
  · obtain ⟨entries, filled, same, tokens⟩ := Member.exists_entries empty
    have built : Reader.pushAll (.reading [.object []] .firstKey)
        (Entry.all entries ++ [.closeObject]) = _ := Reader.pushAll_entries opens filled
    rw [tokens, nothing, read, ← same]
    exact built

theorem exists_of_read {text : Bytes} {members : List (Option String × Node)}
    (h : Json.read text = ⟨.object members true, true⟩) :
    ∃ t : ObjectText, t.bytes = text ∧ t.read = members := by
  obtain ⟨rest, tokens, object⟩ := Reader.exists_of_object (read_clean.1 h)
  have braces : Token.openObject.byte? = some 0x7b ∧ Token.closeObject.byte? = some 0x7d :=
    ⟨rfl, rfl⟩
  obtain ⟨before, inner, rfl, beforeBlank, read⟩ := Lexer.exists_of_first braces.1 tokens
  have opens : Turn.firstKey.takesKey = true := rfl
  rcases Reader.exists_entries opens object with ⟨-, rfl, same⟩ | ⟨entries, filled, rfl, same⟩
  · obtain ⟨inside, after, rfl, insideBlank, behind⟩ := Lexer.exists_of_first braces.2 read
    have afterBlank := (Lexer.blank_of_tokens behind).2
    exact ⟨⟨before, inside, [], after, beforeBlank, insideBlank, afterBlank⟩, rfl,
      (Node.object.inj same).1.symm⟩
  · obtain ⟨text, after, rfl, within, behind⟩ :=
      Lexer.exists_of_tokens Lexer.proper_gap braces.2 read
    have afterBlank := (Lexer.blank_of_tokens behind).2
    obtain ⟨members, rfl, others⟩ := Member.exists_members filled within
    exact ⟨⟨before, [], members, after, beforeBlank, by simp, afterBlank⟩, rfl,
      others.trans (Node.object.inj same).1.symm⟩

/-- The same text with its members in another order. -/
def reorder (t : ObjectText) (members : List Member) : ObjectText := { t with members }

/-- There is a comma less than there are members. -/
theorem length_join {members : List Member} (nonempty : members ≠ []) :
    (Member.join members).length + 1 =
      (members.flatMap Member.text).length + members.length := by
  induction members with
  | nil => exact absurd rfl nonempty
  | cons m members ih =>
    rw [List.flatMap_cons, List.length_append, List.length_cons]
    cases members with
    | nil =>
      rw [Member.join_singleton]
      rfl
    | cons next members =>
      have others := ih (List.cons_ne_nil next members)
      rw [Member.join_cons_cons, List.length_append, List.length_cons]
      omega

theorem length_reorder {t : ObjectText} {members : List Member} (perm : t.members.Perm members) :
    (t.reorder members).bytes.length = t.bytes.length := by
  have same : (Member.join members).length = (Member.join t.members).length := by
    by_cases empty : t.members = []
    · rw [empty] at perm ⊢
      rw [List.nil_perm.1 perm]
    · have filled : members ≠ [] := fun none => empty (List.perm_nil.1 (none ▸ perm))
      have texts := (perm.flatMap_right Member.text).length_eq
      have left := length_join empty
      have right := length_join filled
      have count := perm.length_eq
      omega
  simp [bytes, reorder, same]

end ObjectText

end EndpointMonitor.Json
