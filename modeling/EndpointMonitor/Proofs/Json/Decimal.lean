import EndpointMonitor.Proofs.Binary64.Shortest
import EndpointMonitor.Proofs.Json.Numeral

/-!
The texts of doubles are numerals, and none of them is too large to be read.
-/

namespace EndpointMonitor.Json

/-! ### Steps behind the point -/

namespace Numeral

theorem step_fraction {phase : Phase} (stands : phase = .point ∨ phase = .fraction) {c : Char}
    (h : c.isDigit = true) (x : Numeral) :
    x.step phase (asciiByte c) = .next .fraction (x.pushFraction (digitValue c)) := by
  rcases stands with rfl | rfl <;> rw [step.eq_def, digit_asciiByte h]

theorem step_exponent {phase : Phase} (stands : phase = .markSign ∨ phase = .exponent) {c : Char}
    (h : c.isDigit = true) (x : Numeral) :
    x.step phase (asciiByte c) = .next .exponent (x.pushExponent (digitValue c)) := by
  rcases stands with rfl | rfl <;> rw [step.eq_def, digit_asciiByte h]

theorem pushFraction_of_le {x : Numeral} {d : Nat} (keeps : x.dropping = false)
    (fits : x.significand * 10 + d ≤ wordMax) : x.pushFraction d =
      { x with significand := x.significand * 10 + d, scale := x.scale - 1 } := by
  simp [pushFraction, keeps, fits]

theorem pushFraction_of_gt {x : Numeral} {d : Nat}
    (full : x.dropping = true ∨ wordMax < x.significand * 10 + d) :
    x.pushFraction d = { x with dropping := true } := by
  rcases full with drops | large
  · simp [pushFraction, drops]
  · have not_ : ¬ x.significand * 10 + d ≤ wordMax := Nat.not_le.2 large
    simp [pushFraction, not_]

/-- Digits behind the point are taken from the first on, until one does not fit. -/
structure Takes (x : Numeral) (chars : List Char) (y : Numeral) : Prop where
  word : y.significand ≤ wordMax
  split : ∃ kept dropped : Nat, kept + dropped = chars.length ∧ y.scale = x.scale - kept ∧
    y.significand * Nat.pow 10 dropped ≤ Nat.ofDigitChars 10 chars x.significand
  rest : y = { x with
    significand := y.significand
    scale := y.scale
    dropping := y.dropping }

/-- A first digit that fits counts in the scale. -/
theorem Takes.cons {x y : Numeral} {c : Char} {chars : List Char}
    (h : Takes { x with
      significand := x.significand * 10 + digitValue c
      scale := x.scale - 1 } chars y) :
    x.Takes (c :: chars) y ∧ y.scale < x.scale := by
  obtain ⟨word, ⟨kept, dropped, all, scale, bound⟩, rest⟩ := h
  have shift : y.scale = x.scale - (kept + 1 : Nat) := by
    rw [scale]
    show x.scale - 1 - kept = x.scale - (kept + 1 : Nat)
    omega
  refine ⟨⟨word, ⟨kept + 1, dropped, ?_, shift, ?_⟩, ?_⟩, ?_⟩
  · rw [List.length_cons, ← all]
    omega
  · rw [ofDigitChars_cons]
    exact bound
  · rw [rest]
  · omega

end Numeral

namespace Lexer

theorem pass_dropping {chars : List Char} (digits : AllDigits chars) {x : Numeral}
    (drops : x.dropping = true) :
    pass (.numeral .fraction x) (chars.map asciiByte) = some (.numeral .fraction x) := by
  induction chars with
  | nil => rfl
  | cons c chars ih =>
    have same : { x with dropping := true } = x := by rw [← drops]
    have taken := Numeral.step_fraction (.inr rfl) digits.head x
    rw [Numeral.pushFraction_of_gt (.inl drops), same] at taken
    rw [List.map_cons, pass_cons (step_numeral taken)]
    exact ih digits.tail

theorem pass_fraction {chars : List Char} (digits : AllDigits chars) {x : Numeral}
    (word : x.significand ≤ Numeral.wordMax) :
    ∃ y, pass (.numeral .fraction x) (chars.map asciiByte) = some (.numeral .fraction y) ∧
      x.Takes chars y := by
  induction chars generalizing x with
  | nil => exact ⟨x, rfl, word, ⟨0, 0, rfl, (Int.sub_zero _).symm, by simp⟩, rfl⟩
  | cons c chars ih =>
    have taken := Numeral.step_fraction (.inr rfl) digits.head x
    by_cases fits : x.dropping = false ∧ x.significand * 10 + digitValue c ≤ Numeral.wordMax
    · rw [Numeral.pushFraction_of_le fits.1 fits.2] at taken
      obtain ⟨y, passes, takes⟩ := ih digits.tail
        (x := { x with significand := x.significand * 10 + digitValue c, scale := x.scale - 1 })
        fits.2
      refine ⟨y, ?_, takes.cons.1⟩
      rw [List.map_cons, pass_cons (step_numeral taken), passes]
    · have full : x.dropping = true ∨ Numeral.wordMax < x.significand * 10 + digitValue c := by
        by_cases drops : x.dropping = true
        · exact .inl drops
        · exact .inr (Nat.not_le.1 fun le => fits ⟨Bool.eq_false_iff.2 drops, le⟩)
      rw [Numeral.pushFraction_of_gt full] at taken
      refine ⟨{ x with dropping := true }, ?_, word,
        ⟨0, chars.length + 1, Nat.zero_add _, (Int.sub_zero _).symm, ?_⟩, rfl⟩
      · rw [List.map_cons, pass_cons (step_numeral taken)]
        exact pass_dropping digits.tail rfl
      · rw [Nat.ofDigitChars_eq_ofDigitChars_zero, List.length_cons, Nat.mul_comm]
        exact Nat.le_add_right _ _

/-- The first digit behind the point counts in the scale. -/
theorem pass_point {c : Char} {chars : List Char} (digits : AllDigits (c :: chars))
    {x : Numeral} (keeps : x.dropping = false) (room : x.significand * 10 + 9 ≤ Numeral.wordMax) :
    ∃ y, pass (.numeral .point x) ((c :: chars).map asciiByte) = some (.numeral .fraction y) ∧
      x.Takes (c :: chars) y ∧ y.scale < x.scale := by
  have small := digitValue_le digits.head
  have fits : x.significand * 10 + digitValue c ≤ Numeral.wordMax := by omega
  have taken := Numeral.step_fraction (.inl rfl) digits.head x
  rw [Numeral.pushFraction_of_le keeps fits] at taken
  obtain ⟨y, passes, takes⟩ := pass_fraction digits.tail
    (x := { x with significand := x.significand * 10 + digitValue c, scale := x.scale - 1 }) fits
  refine ⟨y, ?_, takes.cons⟩
  rw [List.map_cons, pass_cons (step_numeral taken), passes]

theorem pass_exponent {chars : List Char} (digits : AllDigits chars) (x : Numeral) :
    pass (.numeral .exponent x) (chars.map asciiByte) =
      some (.numeral .exponent { x with exponent := Nat.ofDigitChars 10 chars x.exponent }) := by
  induction chars generalizing x with
  | nil => rfl
  | cons c chars ih =>
    have taken := Numeral.step_exponent (.inr rfl) digits.head x
    rw [List.map_cons, pass_cons (step_numeral taken),
      ih digits.tail, ofDigitChars_cons]
    rfl

end Lexer

/-! ### Numerals in two notations -/

theorem Numeral.isSome_scale {significand : Nat} {exponent : Int} (h : ∀ m : Nat, exponent = m →
      (Binary64.mulPow10 (Binary64.ofNat significand) m).isSome = true) :
    (Binary64.scale? significand exponent).isSome = true := by
  unfold Binary64.scale?
  split
  · next nonneg => exact h exponent.toNat (by omega)
  · rfl

/-- A numeral that is no integer denotes a number unless it is too large. -/
theorem Numeral.isSome_number {x : Numeral} (h : x.integral = false)
    (fits : (Binary64.scale? x.significand
      (if x.exponentNegative then x.scale - x.exponent else x.scale + x.exponent)).isSome = true) :
    x.number?.isSome = true := by
  simp only [number?, h, Bool.false_and, Bool.false_eq_true, if_false, float?, Option.isSome_map]
  exact fits

/-- A text of one byte per character. -/
def Ascii (chars : List Char) : Prop := ∀ c ∈ chars, c.toNat < 0x80

theorem Ascii.of_digits {chars : List Char} (digits : AllDigits chars) : Ascii chars :=
  fun c hc => by
    have bounds := digit_bounds (digits c hc)
    omega

theorem Ascii.cons {c : Char} {cs : List Char} (h : c.toNat < 0x80) (h' : Ascii cs) :
    Ascii (c :: cs) := List.forall_mem_cons.2 ⟨h, h'⟩

theorem Ascii.append {cs ds : List Char} (h : Ascii cs) (h' : Ascii ds) : Ascii (cs ++ ds) :=
  List.forall_mem_append.2 ⟨h, h'⟩

/-- Unsigned numerals that denote a number, with or without a sign in front of them. -/
structure Denotes (chars : List Char) : Prop where
  ascii : Ascii chars
  first : ∃ c cs, chars = c :: cs ∧ c.isDigit = true
  pass : ∀ negative : Bool, ∃ phase x, phase.final = true ∧
    Lexer.pass (.numeral .sign { negative }) (chars.map asciiByte) = some (.numeral phase x) ∧
    x.number?.isSome = true

/-- Positional notation with at most sixteen digits in front of the point. -/
theorem denotes_positional {whole fraction : List Char} (front : WholePart whole)
    (short : whole.length ≤ 16) (digits : AllDigits fraction) (some_ : fraction ≠ []) :
    Denotes (whole ++ '.' :: fraction) := by
  have small : Nat.ofDigitChars 10 whole 0 < 10 ^ 16 := by
    have bound := ofDigitChars_lt front.digits 0
    have length : Nat.pow 10 whole.length ≤ 10 ^ 16 := Nat.pow_le_pow_right (by decide) short
    omega
  have word : Nat.ofDigitChars 10 whole 0 ≤ Numeral.wordMax :=
    Nat.le_trans (Nat.le_of_lt small) (by decide)
  refine ⟨?_, ?_, fun negative => ?_⟩
  · exact (Ascii.of_digits front.digits).append (.cons (by decide) (.of_digits digits))
  · obtain ⟨digits, rfl | ⟨c, cs, rfl, -⟩⟩ := front
    · exact ⟨'0', _, rfl, rfl⟩
    · exact ⟨c, _, rfl, digits.head⟩
  · obtain ⟨phase, stands, passes⟩ := Lexer.pass_wholePart front (x := { negative }) rfl rfl word
    obtain ⟨c, cs, rfl⟩ := List.exists_cons_of_ne_nil some_
    obtain ⟨y, passes', takes, scale⟩ := Lexer.pass_point digits (x :=
      { negative, significand := Nat.ofDigitChars 10 whole 0, integral := false }) rfl
      (Nat.le_trans (show _ ≤ 10 ^ 17 by simp only; omega) (by decide))
    have opens : Lexer.step (.numeral phase
        { negative, significand := Nat.ofDigitChars 10 whole 0 }) (asciiByte '.') =
        some ([], .numeral .point
          { negative, significand := Nat.ofDigitChars 10 whole 0, integral := false }) := by
      rcases stands with rfl | rfl <;> rfl
    refine ⟨.fraction, y, rfl, ?_, Numeral.isSome_number (by rw [takes.rest]) ?_⟩
    · rw [List.map_append, Lexer.pass_append passes, List.map_cons, Lexer.pass_cons opens, passes']
    · have shift : y.exponentNegative = false ∧ y.exponent = 0 := by
        rw [takes.rest]
        exact ⟨rfl, rfl⟩
      rw [shift.1, shift.2]
      refine Numeral.isSome_scale fun m value => ?_
      have below : y.scale < 0 := scale
      simp only [Bool.false_eq_true, if_false] at value
      omega

namespace Lexer

/-- A digit that is not zero, and behind a point those that follow it. -/
theorem pass_leading {c : Char} {cs point : List Char} (digits : AllDigits (c :: cs))
    (first : c ≠ '0') (follows : cs = [] ∧ point = [] ∨ cs ≠ [] ∧ point = '.' :: cs)
    (negative : Bool) : ∃ phase x, (phase = .whole ∨ phase = .fraction) ∧
      pass (.numeral .sign { negative }) ((c :: point).map asciiByte) =
        some (.numeral phase x) ∧
      Numeral.Takes { negative, significand := digitValue c, integral := cs.isEmpty } cs x := by
  have digit : c.isDigit = true := digits.head
  have small := digitValue_le digit
  have word : digitValue c ≤ Numeral.wordMax := Nat.le_trans small (by decide)
  have taken := Numeral.step_sign digit first { negative }
  rw [Numeral.pushWhole_of_le rfl (by rw [Nat.zero_mul, Nat.zero_add]; exact word),
    Nat.zero_mul, Nat.zero_add] at taken
  rcases follows with ⟨rfl, rfl⟩ | ⟨some_, rfl⟩
  · refine ⟨.whole, _, .inl rfl, pass_cons (step_numeral taken) [], word, ⟨0, 0, rfl, rfl, ?_⟩, rfl⟩
    exact Nat.le_of_eq (Nat.mul_one _)
  · obtain ⟨d, ds, rfl⟩ := List.exists_cons_of_ne_nil some_
    have opens : step (.numeral .whole { negative, significand := digitValue c }) (asciiByte '.') =
        some ([], .numeral .point { negative, significand := digitValue c, integral := false }) :=
      rfl
    obtain ⟨x, passes, takes, -⟩ := pass_point digits.tail
      (x := { negative, significand := digitValue c, integral := false }) rfl
      (Nat.le_trans (show _ ≤ 99 by simp only; omega) (by decide))
    refine ⟨.fraction, x, .inr rfl, ?_, takes⟩
    rw [List.map_cons, List.map_cons, pass_cons (step_numeral taken), pass_cons opens, passes]

/-- An exponent with its sign. -/
theorem pass_mark {phase : Numeral.Phase} (stands : phase = .whole ∨ phase = .fraction)
    {x : Numeral} (up : x.exponentNegative = false) (new : x.exponent = 0) (down : Bool) (n : Nat) :
    pass (.numeral phase x)
        (('e' :: (if down then '-' else '+') :: Nat.toDigits 10 n).map asciiByte) =
      some (.numeral .exponent
        { x with integral := false, exponentNegative := down, exponent := n }) := by
  obtain ⟨negative, significand, scale, dropping, integral, exponentNegative, exponent⟩ := x
  obtain rfl : exponentNegative = false := up
  obtain rfl : exponent = 0 := new
  let x : Numeral := { negative, significand, scale, dropping, integral := false }
  have marks : step (.numeral phase { x with integral := integral }) (asciiByte 'e') =
      some ([], .numeral .mark x) := by
    rcases stands with rfl | rfl <;> rfl
  have signs : step (.numeral .mark x) (asciiByte (if down then '-' else '+')) =
      some ([], .numeral .markSign { x with exponentNegative := down }) := by
    cases down <;> rfl
  have value := Nat.ofDigitChars_ten_toDigits (n := n)
  have all := allDigits_toDigits n
  rw [List.map_cons, List.map_cons, pass_cons marks, pass_cons signs]
  cases digits : Nat.toDigits 10 n with
  | nil => exact absurd digits Nat.toDigits_ne_nil
  | cons c cs =>
    rw [digits] at all value
    have taken := Numeral.step_exponent (.inl rfl) all.head { x with exponentNegative := down }
    rw [List.map_cons, pass_cons (step_numeral taken), pass_exponent all.tail]
    rw [ofDigitChars_cons] at value
    simp only [Numeral.pushExponent, x, value]

end Lexer

/-- Scientific notation, unless it is too large. -/
theorem denotes_scientific {x : Binary64.Digits} (written : x.Written) {c : Char}
    {cs point : List Char} (same : x.digits = c :: cs)
    (follows : cs = [] ∧ point = [] ∨ cs ≠ [] ∧ point = '.' :: cs)
    (fits : ∀ significand exponent, x.Keeps significand exponent →
      (Binary64.mulPow10 (Binary64.ofNat significand) exponent).isSome = true) :
    Denotes ((c :: point) ++
      'e' :: (if x.exponent < 0 then '-' else '+') :: Nat.toDigits 10 x.exponent.natAbs) := by
  have digits : AllDigits (c :: cs) := same ▸ written.digits
  have first : c ≠ '0' := by
    obtain ⟨d, ds, same', first⟩ := written.first
    obtain ⟨rfl, -⟩ := List.cons.inj (same.symm.trans same')
    exact first
  refine ⟨?_, ⟨c, _, rfl, digits.head⟩, fun negative => ?_⟩
  · have pointed : Ascii point := by
      rcases follows with ⟨-, rfl⟩ | ⟨-, rfl⟩
      · nofun
      · exact .cons (by decide) (.of_digits digits.tail)
    have exponent := Ascii.of_digits (allDigits_toDigits x.exponent.natAbs)
    have leading := Ascii.cons (Ascii.of_digits digits c (.head cs)) pointed
    refine leading.append (.cons (by decide) (.cons ?_ exponent))
    split <;> decide
  · obtain ⟨phase, y, stands, passes, takes⟩ := Lexer.pass_leading digits first follows negative
    have fresh : y.exponentNegative = false ∧ y.exponent = 0 := by
      rw [takes.rest]
      exact ⟨rfl, rfl⟩
    have marks := Lexer.pass_mark stands fresh.1 fresh.2 (decide (x.exponent < 0)) x.exponent.natAbs
    simp only [decide_eq_true_eq] at marks
    refine ⟨.exponent, { y with
        integral := false
        exponentNegative := decide (x.exponent < 0)
        exponent := x.exponent.natAbs }, rfl, ?_, Numeral.isSome_number rfl ?_⟩
    · rw [List.map_append, Lexer.pass_append passes, marks]
    · -- Dropped digits make the numeral smaller, so its size is bounded all the same.
      refine Numeral.isSome_scale fun m value => fits _ m ⟨takes.word, ?_⟩
      obtain ⟨kept, dropped, all, scale, bound⟩ := takes.split
      have length : x.digits.length = cs.length + 1 := by rw [same, List.length_cons]
      have number : x.value = Nat.ofDigitChars 10 cs (digitValue c) := by
        rw [Binary64.Digits.value, same, ofDigitChars_cons, Nat.zero_mul, Nat.zero_add]
      refine ⟨dropped, ?_, ?_⟩
      · rw [number]
        exact bound
      · simp only [decide_eq_true_eq] at value scale
        rw [Binary64.Digits.scale, length]
        split at value <;> omega

/-! ### Texts of doubles -/

theorem wholePart_zero : WholePart ['0'] := ⟨allDigits_zeros 1, .inl rfl⟩

open Binary64 in
theorem denotes_text {x : Digits} (written : x.Written)
    (fits : ∀ significand exponent, x.Keeps significand exponent →
      (mulPow10 (ofNat significand) exponent).isSome = true) : Denotes x.text := by
  obtain ⟨c, cs, same, first⟩ := written.first
  have digits : AllDigits (c :: cs) := same ▸ written.digits
  unfold Digits.text
  simp only [same]
  split
  · cases cs with
    | nil => exact denotes_scientific written same (.inl ⟨rfl, rfl⟩) fits
    | cons d ds => exact denotes_scientific written same (.inr ⟨nofun, rfl⟩) fits
  · next inside =>
    split
    · exact denotes_positional wholePart_zero (by decide)
        ((allDigits_zeros _).append digits) (by simp)
    · split
      · next long =>
        refine denotes_positional ⟨digits.append (allDigits_zeros _), .inr ⟨c, _, rfl, first⟩⟩
          ?_ (allDigits_zeros 1) nofun
        simp only [zeros, List.length_append, List.length_replicate]
        simp only [List.length_cons] at long ⊢
        omega
      · next short =>
        have some_ : (c :: cs).drop (x.exponent.toNat + 1) ≠ [] := by
          rw [Ne, List.drop_eq_nil_iff]
          omega
        refine denotes_positional ⟨digits.of_subset (List.take_subset _ _),
          .inr ⟨c, _, rfl, first⟩⟩ ?_ (digits.of_subset (List.drop_subset _ _)) some_
        rw [List.length_take]
        omega

theorem denotes_zero : Denotes ['0', '.', '0'] :=
  denotes_positional wholePart_zero (by decide) (allDigits_zeros 1) nofun

open Binary64 in
theorem denotes_shortest {units : Nat} (positive : 0 < units)
    (double : representable units = true) : Denotes (shortest units).text := by
  rcases shortest_cases positive with none_ | ⟨written, atMost⟩
  · have text : Digits.text ⟨['0'], 0⟩ = ['0', '.', '0'] := by decide
    rw [none_, text]
    exact denotes_zero
  · exact denotes_text written fun _ _ => isSome_of_keeps double atMost

theorem flatMap_utf8EncodeChar {chars : List Char} (ascii : Ascii chars) :
    chars.flatMap String.utf8EncodeChar = chars.map asciiByte := by
  induction chars with
  | nil => rfl
  | cons c chars ih =>
    have size : c.utf8Size = 1 := Char.utf8Size_eq_one_iff.2
      (UInt32.le_iff_toNat_le.2 (Nat.le_of_lt_succ (ascii c List.mem_cons_self)))
    have byte : String.utf8EncodeChar c = [asciiByte c] := String.utf8EncodeChar_eq_singleton size
    rw [List.flatMap_cons, List.map_cons, byte, ih fun d hd => ascii d (List.mem_cons_of_mem c hd)]
    rfl

/-- A numeral is read as some number behind its sign, if it has one. -/
theorem Denotes.readsAs {chars : List Char} (h : Denotes chars) (negative : Bool) :
    ∃ phase x, phase.final = true ∧
      Lexer.pass .gap (Bytes.ofText (String.ofList ((if negative then ['-'] else []) ++ chars))) =
        some (.numeral phase x) ∧ x.number?.isSome = true := by
  obtain ⟨phase, x, final, passes, some_⟩ := h.pass negative
  refine ⟨phase, x, final, ?_, some_⟩
  rw [Bytes.ofText, String.toList_ofList, List.flatMap_append, flatMap_utf8EncodeChar h.ascii,
    ← passes]
  cases negative with
  | true => rfl
  | false =>
    obtain ⟨c, cs, rfl, digit⟩ := h.first
    exact Lexer.pass_gap digit _

end EndpointMonitor.Json

namespace EndpointMonitor.Number

/-- The numbers that there are: integers of 64 bits, and finite doubles. -/
def isNative : Number → Bool
  | .integer i => (integer i).isWord
  | .float x => Binary64.representable x.units

theorem readable_float {x : Binary64} (double : Binary64.representable x.units = true) :
    (float x).Readable := by
  have denotes : Json.Denotes (if x.units = 0 then ['0', '.', '0'] else
      (Binary64.shortest x.units).text) := by
    split
    · exact Json.denotes_zero
    · next some_ => exact Json.denotes_shortest (Nat.pos_of_ne_zero some_) double
  obtain ⟨phase, y, final, passes, some_⟩ := denotes.readsAs x.negative
  obtain ⟨m, value⟩ := Option.isSome_iff_exists.1 some_
  exact ⟨m, phase, y, final, passes, value⟩

/-- Every number is read back as some number, if not always as the same double. -/
theorem readable_of_isNative {n : Number} (h : n.isNative = true) : n.Readable := by
  cases n with
  | integer i => exact (exact_integer h).readable
  | float x => exact readable_float h

end EndpointMonitor.Number
