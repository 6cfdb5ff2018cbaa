import EndpointMonitor.Proofs.Json.Reading

/-!
The tokens of a text, all at once. A text can be cut at every bracket, comma and colon between its
tokens, and texts that are whole can be joined by them.
-/

namespace EndpointMonitor.Json

/-- The byte of a bracket, a comma or a colon. -/
def Token.byte? : Token → Option UInt8
  | .openArray => some 0x5b
  | .closeArray => some 0x5d
  | .openObject => some 0x7b
  | .closeObject => some 0x7d
  | .comma => some 0x2c
  | .colon => some 0x3a
  | _ => none

/-- The bytes that may stand between tokens. -/
def blank (b : UInt8) : Bool := b = 0x20 || b = 0x09 || b = 0x0a || b = 0x0d

namespace Lexer

/-- The tokens of a text, up to the byte with which it cannot go on. -/
def tokens : Lexer → Bytes → List Token
  | lexer, [] => lexer.finish
  | lexer, b :: rest =>
    match lexer.step b with
    | some (first, next) => first ++ next.tokens rest
    | none => [.broken]

/-- Words are values. -/
def Proper : Lexer → Prop
  | .word _ _ token => token.byte? = none
  | _ => True

theorem proper_gap : Proper .gap := trivial

variable {lexer next : Lexer} {b : UInt8} {token : Token} {first : List Token}

theorem tokens_cons (h : lexer.step b = some (first, next)) (rest : Bytes) :
    lexer.tokens (b :: rest) = first ++ next.tokens rest := by
  simp only [tokens, h]

theorem finish_plain (lexer : Lexer) : ∀ token ∈ lexer.finish, token.byte? = none := by
  intro token among
  cases lexer with
  | gap => cases among
  | numeral phase x =>
    simp only [finish] at among
    split at among <;> obtain rfl := List.mem_singleton.1 among <;> rfl
  | word _ _ _ | quoted _ | escape _ | hex _ _ _ =>
    obtain rfl := List.mem_singleton.1 among
    rfl

/-- Where a text may end, it may go on with a bracket, a comma or a colon. -/
theorem step_byte (whole : Token.broken ∉ lexer.finish) (h : token.byte? = some b) :
    lexer.step b = some (lexer.finish ++ [token], .gap) := by
  cases lexer with
  | gap => cases token <;> cases h <;> rfl
  | numeral phase x =>
    have final : phase.final = true := by
      cases final : phase.final with
      | true => rfl
      | false => simp [finish, final] at whole
    have ended : x.step phase b = .ended := by
      cases token <;> cases h <;> cases phase <;> first | rfl | cases final
    have start : Lexer.start b = some ([token], .gap) := by
      cases token <;> cases h <;> rfl
    simp only [step, ended, start, finish, final, if_true, Option.map_some, List.singleton_append]
  | word _ _ _ | quoted _ | escape _ | hex _ _ _ => exact absurd (List.mem_singleton.2 rfl) whole

/-- What a byte between two tokens can be: a part of a value, or a token by itself. -/
theorem start_cases (h : start b = some (first, next)) :
    next.Proper ∧ (first = [] ∨ ∃ token : Token, first = [token] ∧ token.byte? = some b ∧
      next = .gap) := by
  unfold start at h
  split at h
  case h_16 =>
    split at h
    · cases h
      exact ⟨trivial, .inl rfl⟩
    · cases h
  all_goals
    cases h
    first
      | exact ⟨trivial, .inl rfl⟩
      | exact ⟨rfl, .inl rfl⟩
      | exact ⟨trivial, .inr ⟨_, rfl, rfl, rfl⟩⟩

theorem final_of_ended {phase : Numeral.Phase} {x : Numeral} (h : x.step phase b = .ended) :
    phase.final = true := by
  unfold Numeral.step at h
  split at h <;> first | rfl | cases h | (split at h <;> first | cases h | (split at h <;> cases h))

theorem finish_of_ended {phase : Numeral.Phase} {x : Numeral} (h : x.step phase b = .ended) :
    finish (.numeral phase x) = [.number x.number?] := by
  simp only [finish, final_of_ended h, if_true]

/-- What a byte does to the tokens of a text: it completes none but values, or it is a token by
itself where the text may end. -/
inductive Cuts (lexer : Lexer) (b : UInt8) (first : List Token) (next : Lexer) : Prop
  | values (plain : ∀ token ∈ first, token.byte? = none)
  | token (token : Token) (mark : token.byte? = some b) (ends : first = lexer.finish ++ [token])
      (gap : next = .gap)

theorem step_cases (proper : lexer.Proper) (h : lexer.step b = some (first, next)) :
    next.Proper ∧ Cuts lexer b first next := by
  cases lexer with
  | gap =>
    obtain ⟨keeps, rfl | ⟨token, rfl, mark, gap⟩⟩ := start_cases h
    · exact ⟨keeps, .values (by simp)⟩
    · exact ⟨keeps, .token token mark rfl gap⟩
  | word byte rest token =>
    cases rest <;> simp only [step] at h <;> split at h <;> cases h
    · exact ⟨trivial, .values fun _ among => List.mem_singleton.1 among ▸ proper⟩
    · exact ⟨proper, .values (by simp)⟩
  | numeral phase x =>
    simp only [step] at h
    split at h
    · cases h
      exact ⟨trivial, .values (by simp)⟩
    · next ended =>
      obtain ⟨⟨more, after⟩, started, same⟩ := Option.map_eq_some_iff.1 h
      cases same
      obtain ⟨keeps, rfl | ⟨token, rfl, mark, gap⟩⟩ := start_cases started
      · exact ⟨keeps, .values (by simp [Token.byte?])⟩
      · exact ⟨keeps, .token token mark (by rw [finish_of_ended ended]; rfl) gap⟩
    · cases h
  | quoted pieces =>
    simp only [step] at h
    repeat' split at h
    all_goals cases h
    all_goals exact ⟨trivial, .values (by simp [Token.byte?])⟩
  | escape pieces =>
    simp only [step] at h
    split at h
    · cases h
      exact ⟨trivial, .values (by simp)⟩
    · obtain ⟨c, -, same⟩ := Option.map_eq_some_iff.1 h
      cases same
      exact ⟨trivial, .values (by simp)⟩
  | hex pieces code left =>
    obtain ⟨d, -, same⟩ := Option.map_eq_some_iff.1 h
    split at same <;> cases same <;> exact ⟨trivial, .values (by simp)⟩

/-! ### Joining and cutting -/

/-- Two texts with a bracket, a comma or a colon between them have the tokens of both. -/
theorem tokens_append {text : Bytes} (whole : Token.broken ∉ lexer.tokens text)
    (h : token.byte? = some b) (rest : Bytes) :
    lexer.tokens (text ++ b :: rest) = lexer.tokens text ++ token :: Lexer.gap.tokens rest := by
  induction text generalizing lexer with
  | nil =>
    have stepped := step_byte whole h
    rw [List.nil_append, tokens_cons stepped, List.append_assoc]
    rfl
  | cons c text ih =>
    cases stepped : lexer.step c with
    | none =>
      simp only [tokens, stepped] at whole
      exact absurd (List.mem_singleton.2 rfl) whole
    | some out =>
      obtain ⟨first, next⟩ := out
      rw [tokens_cons stepped] at whole ⊢
      have others : Token.broken ∉ next.tokens text := fun broken =>
        whole (List.mem_append_right first broken)
      rw [List.cons_append, tokens_cons stepped, ih others, List.append_assoc]

/-- An element of two lists in a row is one of the second list or one of the first. -/
theorem second_or_first {α : Type} {first rest front back : List α} {x : α}
    (h : first ++ rest = front ++ x :: back) :
    (∃ more, front = first ++ more ∧ rest = more ++ x :: back) ∨
      ∃ more, first = front ++ x :: more ∧ back = more ++ rest := by
  rcases List.append_eq_append_iff.1 h with ⟨more, split, tail⟩ | ⟨more, split, tail⟩
  · exact .inl ⟨more, split, tail⟩
  · cases more with
    | nil => exact .inl ⟨[], by simpa using split.symm, by simpa using tail.symm⟩
    | cons found more =>
      obtain ⟨same, others⟩ := List.cons.inj tail
      subst same
      exact .inr ⟨more, split, others⟩

/-- A bracket, a comma or a colon among the tokens of a byte is that byte, after all the others. -/
theorem Cuts.eq {c : UInt8} {front back : List Token} (cuts : Cuts lexer c first next)
    (h : token.byte? = some b) (split : first = front ++ token :: back) :
    front = lexer.finish ∧ back = [] ∧ c = b ∧ next = .gap := by
  cases cuts with
  | values plain =>
    have value := plain token (by simp [split])
    rw [value] at h
    cases h
  | token mark byte ends gap =>
    rcases List.eq_nil_or_concat back with rfl | ⟨init, last, rfl⟩
    · obtain ⟨rfl, same⟩ := List.append_inj' (split.symm.trans ends) rfl
      obtain rfl : token = mark := by simpa using same
      exact ⟨rfl, rfl, Option.some.inj (byte.symm.trans h), gap⟩
    · have ahead : (front ++ token :: init) ++ [last] = lexer.finish ++ [mark] := by
        simpa using split.symm.trans ends
      obtain ⟨unfinished, -⟩ := List.append_inj' ahead rfl
      have value := finish_plain lexer token (by simp [← unfinished])
      rw [value] at h
      cases h

/-- A text is cut where one of its tokens is a bracket, a comma or a colon. -/
theorem exists_of_tokens (proper : lexer.Proper) {text : Bytes} {front back : List Token}
    (h : token.byte? = some b) (cut : lexer.tokens text = front ++ token :: back) :
    ∃ before after, text = before ++ b :: after ∧ lexer.tokens before = front ∧
      Lexer.gap.tokens after = back := by
  induction text generalizing lexer front with
  | nil =>
    have ends : lexer.finish = front ++ token :: back := cut
    have value := finish_plain lexer token (by simp [ends])
    rw [value] at h
    cases h
  | cons c text ih =>
    cases stepped : lexer.step c with
    | none =>
      simp only [tokens, stepped] at cut
      have among : token ∈ [Token.broken] := by simp [cut]
      obtain rfl := List.mem_singleton.1 among
      cases h
    | some out =>
      obtain ⟨first, next⟩ := out
      rw [tokens_cons stepped] at cut
      obtain ⟨keeps, cuts⟩ := step_cases proper stepped
      rcases second_or_first cut with ⟨more, rfl, rest⟩ | ⟨more, split, rest⟩
      · obtain ⟨before, after, rfl, inner, outer⟩ := ih keeps rest
        refine ⟨c :: before, after, rfl, ?_, outer⟩
        rw [tokens_cons stepped, inner]
      · obtain ⟨rfl, rfl, rfl, rfl⟩ := cuts.eq h split
        exact ⟨[], text, rfl, rfl, rest.symm⟩

/-! ### Blanks -/

theorem start_blank (h : blank b = true) : start b = some ([], .gap) := by
  simp only [blank, Bool.or_eq_true, decide_eq_true_eq] at h
  rcases h with ((rfl | rfl) | rfl) | rfl <;> rfl

theorem tokens_blank {blanks : Bytes} (h : ∀ b ∈ blanks, blank b = true) (rest : Bytes) :
    Lexer.gap.tokens (blanks ++ rest) = Lexer.gap.tokens rest := by
  induction blanks with
  | nil => rfl
  | cons b blanks ih =>
    have stepped : Lexer.gap.step b = some ([], .gap) := start_blank (h b List.mem_cons_self)
    rw [List.cons_append, tokens_cons stepped, List.nil_append]
    exact ih fun c among => h c (List.mem_cons_of_mem b among)

/-- Only a blank takes a lexer from one gap to the next without a token. -/
theorem blank_of_step (h : lexer.step b = some ([], .gap)) : lexer = .gap ∧ blank b = true := by
  cases lexer with
  | gap =>
    refine ⟨rfl, ?_⟩
    simp only [step] at h
    unfold start at h
    split at h
    case h_16 => split at h <;> cases h
    all_goals first | rfl | cases h
  | word byte rest token =>
    cases rest <;> simp only [step] at h <;> split at h <;> cases h
  | numeral phase x =>
    simp only [step] at h
    split at h
    · cases h
    · obtain ⟨out, -, same⟩ := Option.map_eq_some_iff.1 h
      cases same
    · cases h
  | quoted pieces =>
    simp only [step] at h
    repeat' split at h
    all_goals cases h
  | escape pieces =>
    simp only [step] at h
    split at h
    · cases h
    · obtain ⟨c, -, same⟩ := Option.map_eq_some_iff.1 h
      cases same
  | hex pieces code left =>
    obtain ⟨d, -, same⟩ := Option.map_eq_some_iff.1 h
    split at same <;> cases same

theorem blank_of_tokens {text : Bytes} (h : lexer.tokens text = []) :
    lexer = .gap ∧ ∀ b ∈ text, blank b = true := by
  induction text generalizing lexer with
  | nil =>
    refine ⟨?_, by simp⟩
    cases lexer with
    | gap => rfl
    | numeral phase x =>
      simp only [tokens, finish] at h
      split at h <;> cases h
    | word _ _ _ | quoted _ | escape _ | hex _ _ _ => cases h
  | cons b text ih =>
    cases stepped : lexer.step b with
    | none =>
      simp only [tokens, stepped] at h
      cases h
    | some out =>
      obtain ⟨first, next⟩ := out
      rw [tokens_cons stepped] at h
      obtain ⟨rfl, others⟩ := List.append_eq_nil_iff.1 h
      obtain ⟨rfl, blanks⟩ := ih others
      obtain ⟨here, isBlank⟩ := blank_of_step stepped
      exact ⟨here, List.forall_mem_cons.2 ⟨isBlank, blanks⟩⟩

/-- In front of the first token there are only blanks. -/
theorem exists_of_first {text : Bytes} {back : List Token} (h : token.byte? = some b)
    (cut : Lexer.gap.tokens text = token :: back) :
    ∃ before after, text = before ++ b :: after ∧ (∀ c ∈ before, blank c = true) ∧
      Lexer.gap.tokens after = back := by
  have split : Lexer.gap.tokens text = [] ++ token :: back := cut
  obtain ⟨before, after, rfl, nothing, rest⟩ := exists_of_tokens proper_gap h split
  exact ⟨before, after, rfl, (blank_of_tokens nothing).2, rest⟩

end Lexer

/-! ### What is read -/

namespace Builder

theorem push_broken (builder : Builder) : ∃ root, builder.push .broken = .stopped root := by
  cases builder with
  | stopped root | complete root => exact ⟨root, rfl⟩
  | reading stack turn =>
    cases turn <;> rcases stack with _ | ⟨⟨_ | _⟩ | _ | _, rest⟩ <;> exact ⟨_, rfl⟩

end Builder

namespace Reader

theorem pushAll_append (builder : Builder) (front back : List Token) :
    pushAll builder (front ++ back) = pushAll (pushAll builder front) back :=
  List.foldl_append

theorem pushAll_cons (builder : Builder) (token : Token) (tokens : List Token) :
    pushAll builder (token :: tokens) = pushAll (builder.push token) tokens := rfl

theorem pushAll_stopped (root : Node) (tokens : List Token) :
    pushAll (.stopped root) tokens = .stopped root := by
  induction tokens with
  | nil => rfl
  | cons token tokens ih => exact ih

/-- A reading is clean exactly if the tokens of the text make up one value. -/
theorem readOn_clean {lexer : Lexer} {builder : Builder} {text : Bytes} {root : Node} :
    readOn ⟨lexer, builder⟩ text = ⟨root, true⟩ ↔
      pushAll builder (lexer.tokens text) = .complete root := by
  induction text generalizing lexer builder with
  | nil =>
    show finish ⟨lexer, builder⟩ = _ ↔ pushAll builder lexer.finish = _
    unfold finish
    split
    · next done => simp [done]
    · next stops => simp [stops]
    · next open_ => simp [open_]
  | cons b text ih =>
    obtain ⟨other, stops⟩ := builder.push_broken
    rw [readOn_cons]
    cases builder with
    | stopped first =>
      have stepped : step ⟨lexer, .stopped first⟩ b = ⟨.gap, .stopped first⟩ := rfl
      rw [stepped, ih, pushAll_stopped, pushAll_stopped]
    | complete _ | reading _ _ =>
      cases taken : lexer.step b with
      | some out =>
        obtain ⟨first, next⟩ := out
        simp only [step, taken, ih, Lexer.tokens, pushAll_append]
      | none =>
        simp only [step, taken, ih, Lexer.tokens, pushAll_cons, stops, pushAll_stopped]

theorem plain_of_complete {builder : Builder} {tokens : List Token} {root : Node}
    (h : pushAll builder tokens = .complete root) : Token.broken ∉ tokens := by
  intro broken
  obtain ⟨front, back, rfl⟩ := List.append_of_mem broken
  obtain ⟨other, stops⟩ := (pushAll builder front).push_broken
  have stays : pushAll builder (front ++ Token.broken :: back) = .stopped other := by
    rw [pushAll_append, pushAll_cons, stops, pushAll_stopped]
  rw [stays] at h
  cases h

end Reader

/-- A text is read clean exactly if its tokens make up one value. -/
theorem read_clean {text : Bytes} {root : Node} :
    read text = ⟨root, true⟩ ↔
      Reader.pushAll .empty (Lexer.gap.tokens text) = .complete root :=
  Reader.readOn_clean

end EndpointMonitor.Json
