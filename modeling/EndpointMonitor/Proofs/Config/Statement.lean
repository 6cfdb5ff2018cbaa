import EndpointMonitor.Config.Toml.Document
import EndpointMonitor.Proofs.Text.Digits

/-!
Lines of a TOML document that are written in the simplest way: a bare key with a whole number, a
header of one bare key, and nothing.
-/

namespace EndpointMonitor.Toml

/-! ### Whole numbers -/

theorem isDigit_of_digit {c : Char} (digit : c.isDigit = true) : isDigit c = true := by
  have bounds := digit_bounds digit
  simp only [isDigit, Char.le_def, UInt32.le_iff_toNat_le, Bool.and_eq_true, decide_eq_true_eq]
  exact bounds

theorem hexDigit_of_digit {c : Char} (digit : c.isDigit = true) :
    hexDigit? c = some (EndpointMonitor.digitValue c) := by
  have inside : '0' ≤ c ∧ c ≤ '9' := by
    have known := isDigit_of_digit digit
    simpa only [isDigit, Bool.and_eq_true, decide_eq_true_eq] using known
  rw [hexDigit?, if_pos inside]
  rfl

theorem foldl_digits {chars : List Char} (digits : AllDigits chars) (n : Nat) :
    chars.foldl (fun n c => n * 10 + (hexDigit? c).getD 0) n = Nat.ofDigitChars 10 chars n := by
  induction chars generalizing n with
  | nil => rfl
  | cons c chars ih =>
    rw [List.foldl_cons, ih digits.tail, ofDigitChars_cons, hexDigit_of_digit digits.head,
      Option.getD_some]

theorem numeral_of_digits {chars : List Char} (digits : AllDigits chars) :
    numeral 10 chars = Nat.ofDigitChars 10 chars 0 := foldl_digits digits 0

theorem ne_of_digit {c d : Char} (digit : c.isDigit = true) (other : d.isDigit = false) :
    c ≠ d := by
  rintro rfl
  rw [digit] at other
  cases other

/-- Digits are read up to the end of their line. -/
theorem moreDigits_line {chars : List Char} (digits : AllDigits chars) (rest : List Char) :
    moreDigits isDigit (chars ++ '\n' :: rest) = (chars, '\n' :: rest) := by
  induction chars with
  | nil =>
    rw [List.nil_append, moreDigits]
    · rfl
    · exact fun _ _ same => absurd same (by decide)
  | cons c chars ih =>
    have underscore : c ≠ '_' := ne_of_digit digits.head rfl
    have others := ih digits.tail
    rw [List.cons_append, moreDigits, isDigit_of_digit digits.head, if_pos rfl, others]
    exact fun _ _ same => absurd same underscore

theorem wholeDigits_line {chars : List Char} (whole : WholePart chars) (rest : List Char) :
    wholeDigits? (chars ++ '\n' :: rest) = some (chars, '\n' :: rest) := by
  obtain ⟨digits, rfl | ⟨c, cs, rfl, first⟩⟩ := whole
  · rfl
  · have others := moreDigits_line digits.tail rest
    rw [List.cons_append, wholeDigits?, digits?, isDigit_of_digit digits.head, if_pos rfl, others]
    exact fun _ same => first (List.cons.inj same).1

/-- What is neither a digit nor a line end stands on a later line. -/
theorem lineEnd_mem {chars before rest tail : List Char} {c : Char} (digits : AllDigits chars)
    (same : chars ++ '\n' :: rest = before ++ c :: tail) (other : c.isDigit = false)
    (inLine : c ≠ '\n') : '\n' ∈ before := by
  rcases List.append_eq_append_iff.1 same with ⟨more, rfl, split⟩ | ⟨more, rfl, split⟩
  · cases more with
    | nil => exact absurd (List.cons.inj split).1.symm inLine
    | cons d more =>
      obtain ⟨rfl, -⟩ := List.cons.inj split
      exact List.mem_append_right _ List.mem_cons_self
  · cases more with
    | nil => exact absurd (List.cons.inj split).1 inLine
    | cons d more =>
      obtain ⟨rfl, -⟩ := List.cons.inj split
      have digit := digits c (List.mem_append_right _ List.mem_cons_self)
      rw [other] at digit
      cases digit

theorem all_isDigit_of_lineEnd {chars : List Char} (ends : '\n' ∈ chars) :
    chars.all isDigit = false := by
  rw [List.all_eq_false]
  exact ⟨'\n', ends, by decide⟩

/-- A line of digits is no date and no time. -/
theorem startsMoment_line {chars : List Char} (digits : AllDigits chars) (rest : List Char) :
    startsMoment (chars ++ '\n' :: rest) = false := by
  unfold startsMoment
  split
  · next a b tail same =>
    have ends := lineEnd_mem digits (show _ = [a, b] ++ ':' :: tail from same) rfl (by decide)
    have stops := all_isDigit_of_lineEnd ends
    simpa only [List.all_cons, List.all_nil, Bool.and_true] using stops
  · next a b c d tail _ same =>
    have ends := lineEnd_mem digits (show _ = [a, b, c, d] ++ '-' :: tail from same) rfl
      (by decide)
    exact all_isDigit_of_lineEnd ends
  · rfl

theorem sign_of_digit {c : Char} (digit : c.isDigit = true) (rest : List Char) :
    sign (c :: rest) = (false, c :: rest) := by
  have plus : c ≠ '+' := ne_of_digit digit rfl
  have minus : c ≠ '-' := ne_of_digit digit rfl
  unfold sign
  split
  · next same => exact absurd (List.cons.inj same).1 plus
  · next same => exact absurd (List.cons.inj same).1 minus
  · rfl

/-- A line of digits has no fraction and no exponent. -/
theorem float_line {chars : List Char} (whole : WholePart chars) (rest : List Char) :
    float? (chars ++ '\n' :: rest) = none := by
  obtain ⟨c, cs, rfl, digit⟩ := whole.exists_digit
  have read := wholeDigits_line whole rest
  have infinite : c ≠ 'i' := ne_of_digit digit rfl
  have undefined : c ≠ 'n' := ne_of_digit digit rfl
  rw [List.cons_append] at read ⊢
  unfold float?
  rw [sign_of_digit digit]
  dsimp only
  split
  · next same => exact absurd (List.cons.inj same).1 infinite
  · next same => exact absurd (List.cons.inj same).1 undefined
  · rw [read]
    rfl

theorem integer_line {chars : List Char} (whole : WholePart chars) (rest : List Char)
    (fits : (Nat.ofDigitChars 10 chars 0 : Int) ≤ maxInteger) :
    integer? (chars ++ '\n' :: rest) =
      some (Int64.ofInt (Nat.ofDigitChars 10 chars 0), '\n' :: rest) := by
  have read := wholeDigits_line whole rest
  have value := numeral_of_digits whole.digits
  have inRange : checked (Nat.ofDigitChars 10 chars 0) =
      some (Int64.ofInt (Nat.ofDigitChars 10 chars 0)) := by
    have least : minInteger ≤ 0 := by decide
    exact if_pos ⟨Int.le_trans least (Int.natCast_nonneg _), fits⟩
  have plain : ∀ {c : Char} {tail : List Char}, c.isDigit = false → c ≠ '\n' →
      chars ++ '\n' :: rest ≠ '0' :: c :: tail := by
    intro c tail other inLine same
    have ends := lineEnd_mem whole.digits (show _ = ['0'] ++ c :: tail from same) other inLine
    exact absurd ends (by decide)
  unfold integer?
  split
  · next same => exact absurd same (plain rfl (by decide))
  · next same => exact absurd same (plain rfl (by decide))
  · next same => exact absurd same (plain rfl (by decide))
  · obtain ⟨c, cs, rfl, digit⟩ := whole.exists_digit
    rw [List.cons_append] at read ⊢
    rw [sign_of_digit digit]
    dsimp only
    rw [read]
    simp only [Option.bind_eq_bind, Option.bind_some, Bool.false_eq_true, if_false, value, inRange,
      Option.map_some]

/-! ### Lines -/

theorem digit_starts {chars rest tail : List Char} (whole : WholePart chars) {d : Char}
    (other : d.isDigit = false) : chars ++ rest ≠ d :: tail := by
  obtain ⟨c, cs, rfl, digit⟩ := whole.exists_digit
  exact fun same => ne_of_digit digit other (List.cons.inj same).1

/-- A line of digits is one of the values that hold no others, and an integer among them. -/
theorem leaf_line {chars : List Char} (whole : WholePart chars) (rest : List Char)
    (fits : (Nat.ofDigitChars 10 chars 0 : Int) ≤ maxInteger) :
    leaf? (chars ++ '\n' :: rest) =
      some (.integer (Int64.ofInt (Nat.ofDigitChars 10 chars 0)), '\n' :: rest) := by
  unfold leaf?
  split
  · next same => exact absurd same (digit_starts whole rfl)
  · next same => exact absurd same (digit_starts whole rfl)
  · next same => exact absurd same (digit_starts whole rfl)
  · next same => exact absurd same (digit_starts whole rfl)
  · rw [startsMoment_line whole.digits, float_line whole, integer_line whole rest fits]
    rfl

theorem value_line {n : Nat} (fits : (n : Int) ≤ maxInteger) (fuel room : Nat) (rest : List Char) :
    value? (fuel + 1) room (digitsOf n ++ '\n' :: rest) =
      some (.integer (Int64.ofInt n), '\n' :: rest) := by
  have whole := wholePart_digitsOf n
  have read := leaf_line whole rest (by rwa [value_digitsOf])
  rw [value_digitsOf] at read
  unfold value?
  split
  · next same => exact absurd same (digit_starts whole rfl)
  · next same => exact absurd same (digit_starts whole rfl)
  · next same => exact absurd same (digit_starts whole rfl)
  · next same => exact absurd same (digit_starts whole rfl)
  · exact read

/-- A bare key. -/
structure BareKey (key : List Char) : Prop where
  nonempty : key ≠ []
  plain : ∀ c ∈ key, isBareKey c = true

theorem bareKey_of_all {key : List Char} (nonempty : key ≠ [])
    (plain : key.all isBareKey = true) : BareKey key := ⟨nonempty, List.all_eq_true.1 plain⟩

theorem BareKey.starts {key : List Char} (bare : BareKey key) {c : Char} {rest tail : List Char}
    (other : isBareKey c = false) : key ++ rest ≠ c :: tail := by
  obtain ⟨k, ks, rfl⟩ := List.exists_cons_of_ne_nil bare.nonempty
  rintro same
  obtain ⟨rfl, -⟩ := List.cons.inj same
  have known := bare.plain k List.mem_cons_self
  rw [other] at known
  cases known

theorem BareKey.skipBlanks {key : List Char} (bare : BareKey key) (rest : List Char) :
    skipBlanks (key ++ rest) = key ++ rest := by
  obtain ⟨k, ks, rfl⟩ := List.exists_cons_of_ne_nil bare.nonempty
  have known := bare.plain k List.mem_cons_self
  have visible : isBlank k = false := by
    cases blank : isBlank k with
    | false => rfl
    | true =>
      simp only [isBlank, Bool.or_eq_true, decide_eq_true_eq] at blank
      rcases blank with rfl | rfl <;> cases known
  rw [Toml.skipBlanks, List.cons_append, List.dropWhile_cons_of_neg (by simp [visible])]

theorem BareKey.simpleKey {key : List Char} (bare : BareKey key) {c : Char} (rest : List Char)
    (ends : isBareKey c = false) :
    simpleKey (key ++ c :: rest) = some (String.ofList key, c :: rest) := by
  have taken : (key ++ c :: rest).takeWhile isBareKey = key := by
    rw [List.takeWhile_append_of_pos bare.plain, List.takeWhile_cons_of_neg (by simp [ends]),
      List.append_nil]
  have left : (key ++ c :: rest).dropWhile isBareKey = c :: rest := by
    rw [List.dropWhile_append_of_pos bare.plain, List.dropWhile_cons_of_neg (by simp [ends])]
  unfold Toml.simpleKey
  split
  · next same => exact absurd same (bare.starts rfl)
  · next same => exact absurd same (bare.starts rfl)
  · rw [taken, left]
    exact if_neg (by simp [bare.nonempty])

/-- A bare key by itself, up to something that is no part of a key. -/
theorem BareKey.read {key : List Char} (bare : BareKey key) {c : Char} {rest left : List Char}
    (ends : isBareKey c = false) (blanks : Toml.skipBlanks (c :: rest) = left)
    (last : ∀ tail, left ≠ '.' :: tail) :
    key? (key ++ c :: rest) = some ([String.ofList key], left) := by
  have length : (key ++ c :: rest).length = (key.length + rest.length) + 1 := by
    rw [List.length_append, List.length_cons]
    omega
  unfold key?
  rw [length, keyParts, bare.skipBlanks, bare.simpleKey rest ends]
  simp only [Option.bind_eq_bind, Option.bind_some, blanks]
  rfl

/-- A line does not end where a key begins. -/
theorem BareKey.lineEnd {key : List Char} (bare : BareKey key) (rest : List Char) :
    lineEnd? (key ++ rest) = none := by
  have uncommented : skipComment (key ++ rest) = key ++ rest := by
    unfold skipComment
    split
    · next same => exact absurd same (bare.starts rfl)
    · rfl
  unfold lineEnd?
  rw [bare.skipBlanks, uncommented]
  split
  · next same => exact absurd (List.append_eq_nil_iff.1 same).1 bare.nonempty
  · next same => exact absurd same (bare.starts rfl)
  · next same => exact absurd same (bare.starts rfl)
  · rfl

/-- A blank in front of digits is skipped. -/
theorem skipBlanks_line {chars : List Char} (whole : WholePart chars) (rest : List Char) :
    Toml.skipBlanks (' ' :: (chars ++ '\n' :: rest)) = chars ++ '\n' :: rest := by
  obtain ⟨c, cs, rfl, digit⟩ := whole.exists_digit
  have space : c ≠ ' ' := ne_of_digit digit rfl
  have tab : c ≠ '\t' := ne_of_digit digit rfl
  rw [Toml.skipBlanks, List.dropWhile_cons_of_pos (by decide), List.cons_append,
    List.dropWhile_cons_of_neg (by simp [isBlank, space, tab])]

/-- A line with a number under a key, and what follows it. -/
def numberLine (key : String) (n : Nat) (rest : List Char) : List Char :=
  key.toList ++ ' ' :: '=' :: ' ' :: (digitsOf n ++ '\n' :: rest)

/-- The header of a table, and what follows it. -/
def headerLine (key : String) (rest : List Char) : List Char :=
  '[' :: (key.toList ++ ']' :: '\n' :: rest)

theorem statement_number (key : String) (bare : BareKey key.toList) {n : Nat}
    (fits : (n : Int) ≤ maxInteger) (d : Draft) (rest : List Char) :
    statement? d (numberLine key n rest) =
      (d.insert [key] (.integer (Int64.ofInt n))).map (·, rest) := by
  obtain ⟨number, line⟩ : ∃ number, digitsOf n ++ '\n' :: rest = number := ⟨_, rfl⟩
  have value := value_line fits number.length (depthLimit - 1) rest
  have digits := skipBlanks_line (wholePart_digitsOf n) rest
  rw [numberLine]
  rw [line] at value digits ⊢
  have read : key? (key.toList ++ ' ' :: '=' :: ' ' :: number) =
      some ([String.ofList key.toList], '=' :: ' ' :: number) :=
    bare.read rfl rfl (by simp)
  have assigned : expect '=' ('=' :: ' ' :: number) = some (' ' :: number) := rfl
  have ends : lineEnd? ('\n' :: rest) = some rest := rfl
  rw [String.ofList_toList] at read
  unfold statement?
  rw [bare.skipBlanks]
  split
  · next same => exact absurd same (bare.starts rfl)
  · next same => exact absurd same (bare.starts rfl)
  · simp only [bare.lineEnd, read, Option.bind_eq_bind, Option.bind_some, assigned,
      List.length_cons, digits, value, ends]
    cases d.insert [key] (.integer (Int64.ofInt n)) <;> rfl

theorem statement_header (key : String) (bare : BareKey key.toList) (d : Draft)
    (rest : List Char) :
    statement? d (headerLine key rest) = (d.openTable [key]).map (·, rest) := by
  have read : key? (key.toList ++ ']' :: '\n' :: rest) =
      some ([String.ofList key.toList], ']' :: '\n' :: rest) :=
    bare.read rfl rfl (by simp)
  have shown : Toml.skipBlanks (headerLine key rest) = headerLine key rest := rfl
  rw [String.ofList_toList] at read
  unfold statement?
  rw [shown, headerLine]
  split
  · next same => exact absurd (List.cons.inj same).2 (bare.starts rfl)
  · next same =>
    obtain rfl := (List.cons.inj same).2
    rw [read]
    have closed : expect ']' (']' :: '\n' :: rest) = some ('\n' :: rest) := rfl
    have ends : lineEnd? ('\n' :: rest) = some rest := rfl
    simp only [Option.bind_eq_bind, Option.bind_some, closed, ends]
    cases d.openTable [key] <;> rfl
  · next other => exact absurd rfl (other _)

theorem statement_blank (d : Draft) (rest : List Char) :
    statement? d ('\n' :: rest) = some (d, rest) := rfl

/-- A document is read one statement after the other. -/
theorem statements_step {fuel : Nat} {d next : Draft} {s rest : List Char}
    (reads : statement? d s = some (next, rest)) (more : s ≠ []) :
    statements? (fuel + 1) d s = statements? fuel next rest := by
  rw [statements?, reads]
  · rfl
  · exact more

theorem statements_end (fuel : Nat) (d : Draft) : statements? fuel d [] = some d := by
  cases fuel <;> rfl

end EndpointMonitor.Toml
