import EndpointMonitor.Proofs.Json.Quoted
import EndpointMonitor.Proofs.Text.Digits

/-!
Numerals. Digits are taken in as long as their number fits 64 bits, and an integer of 64 bits is
read as it was written.
-/

namespace EndpointMonitor.Json

/-! ### Digits -/

/-- The byte of an ASCII character. -/
def asciiByte (c : Char) : UInt8 := c.toNat.toUInt8

theorem writeNat_eq (n : Nat) : writeNat n = (Nat.toDigits 10 n).map asciiByte := rfl

theorem asciiByte_toNat {c : Char} (h : c.isDigit = true) : (asciiByte c).toNat = c.toNat := by
  have bounds := digit_bounds h
  simp only [asciiByte, Nat.toUInt8_eq, UInt8.toNat_ofNat']
  omega

theorem digit_asciiByte {c : Char} (h : c.isDigit = true) :
    Numeral.digit? (asciiByte c) = some (digitValue c) := by
  have bounds := digit_bounds h
  have value := asciiByte_toNat h
  have inside : (0x30 : UInt8) ≤ asciiByte c ∧ asciiByte c ≤ 0x39 := by
    rw [UInt8.le_iff_toNat_le, UInt8.le_iff_toNat_le, value]
    exact bounds
  rw [Numeral.digit?, if_pos inside, value]
  rfl

/-! ### Steps -/

/-- A reader of numerals takes a byte. -/
theorem Lexer.step_numeral {phase next : Numeral.Phase} {x y : Numeral} {b : UInt8}
    (h : x.step phase b = .next next y) :
    Lexer.step (.numeral phase x) b = some ([], .numeral next y) := by
  simp only [step, h]

/-- A token that starts with a digit is a numeral. -/
theorem Lexer.step_gap {c : Char} (h : c.isDigit = true) :
    Lexer.step .gap (asciiByte c) = Lexer.step (.numeral .sign {}) (asciiByte c) := by
  have value := asciiByte_toNat h
  have bounds := digit_bounds h
  have apart : ∀ b : UInt8, b.toNat < 48 ∨ 57 < b.toNat → asciiByte c ≠ b := by
    rintro b outside rfl
    omega
  have taken : ∃ phase y, Numeral.step .sign {} (asciiByte c) = .next phase y := by
    rw [Numeral.step.eq_def, digit_asciiByte h]
    cases digitValue c with
    | zero => exact ⟨_, _, rfl⟩
    | succ d => exact ⟨_, _, rfl⟩
  obtain ⟨phase, y, taken⟩ := taken
  rw [step_numeral taken]
  simp only [step]
  unfold start
  split
  all_goals first
    | (next same => exact absurd same (apart _ (by decide)))
    | rw [taken]

theorem Lexer.pass_gap {c : Char} (h : c.isDigit = true) (bs : Bytes) :
    Lexer.pass .gap (asciiByte c :: bs) = Lexer.pass (.numeral .sign {}) (asciiByte c :: bs) := by
  simp only [pass, step_gap h]

namespace Numeral

theorem step_sign_zero (x : Numeral) : x.step .sign (asciiByte '0') = .next .zero x := rfl

theorem step_sign {c : Char} (h : c.isDigit = true) (first : c ≠ '0') (x : Numeral) :
    x.step .sign (asciiByte c) = .next .whole (x.pushWhole (digitValue c)) := by
  have positive : digitValue c ≠ 0 := fun zero => first ((digitValue_eq_zero h).1 zero)
  rw [step.eq_def, digit_asciiByte h]
  cases hd : digitValue c with
  | zero => exact absurd hd positive
  | succ d => rfl

theorem step_whole {c : Char} (h : c.isDigit = true) (x : Numeral) :
    x.step .whole (asciiByte c) = .next .whole (x.pushWhole (digitValue c)) := by
  rw [step.eq_def, digit_asciiByte h]

theorem pushWhole_of_le {x : Numeral} {d : Nat} (keeps : x.dropping = false)
    (fits : x.significand * 10 + d ≤ wordMax) :
    x.pushWhole d = { x with significand := x.significand * 10 + d } := by
  simp [pushWhole, keeps, fits]

end Numeral

/-! ### Runs of digits -/

theorem Lexer.pass_whole {chars : List Char} (digits : AllDigits chars) {x : Numeral}
    (keeps : x.dropping = false)
    (fits : Nat.ofDigitChars 10 chars x.significand ≤ Numeral.wordMax) :
    pass (.numeral .whole x) (chars.map asciiByte) =
      some (.numeral .whole { x with
        significand := Nat.ofDigitChars 10 chars x.significand }) := by
  induction chars generalizing x with
  | nil => rfl
  | cons c chars ih =>
    rw [ofDigitChars_cons] at fits
    have first : x.significand * 10 + digitValue c ≤ Numeral.wordMax :=
      Nat.le_trans (le_ofDigitChars chars _) fits
    have taken := Numeral.step_whole digits.head x
    rw [Numeral.pushWhole_of_le keeps first] at taken
    rw [List.map_cons, pass_cons (step_numeral taken)]
    have others := ih digits.tail
      (x := { x with significand := x.significand * 10 + digitValue c }) keeps fits
    rw [others, ofDigitChars_cons]

/-- Behind the sign. -/
theorem Lexer.pass_wholePart {chars : List Char} (whole : WholePart chars) {x : Numeral}
    (keeps : x.dropping = false) (new : x.significand = 0)
    (fits : Nat.ofDigitChars 10 chars 0 ≤ Numeral.wordMax) :
    ∃ phase, (phase = .zero ∨ phase = .whole) ∧
      pass (.numeral .sign x) (chars.map asciiByte) =
        some (.numeral phase { x with significand := Nat.ofDigitChars 10 chars 0 }) := by
  obtain ⟨digits, rfl | ⟨c, cs, rfl, first⟩⟩ := whole
  · have value : Nat.ofDigitChars 10 ['0'] 0 = 0 := rfl
    refine ⟨.zero, .inl rfl, ?_⟩
    rw [List.map_cons, pass_cons (step_numeral (Numeral.step_sign_zero x)), value, ← new]
    rfl
  · rw [ofDigitChars_cons, ← new] at fits ⊢
    have head : x.significand * 10 + digitValue c ≤ Numeral.wordMax :=
      Nat.le_trans (le_ofDigitChars cs _) fits
    have taken := Numeral.step_sign digits.head first x
    rw [Numeral.pushWhole_of_le keeps head] at taken
    have others := pass_whole digits.tail
      (x := { x with significand := x.significand * 10 + digitValue c }) keeps fits
    refine ⟨.whole, .inr rfl, ?_⟩
    rw [List.map_cons, pass_cons (step_numeral taken), others]

/-- The digits of a number behind its sign. -/
theorem Lexer.pass_writeNat {n : Nat} (fits : n ≤ Numeral.wordMax) {x : Numeral}
    (keeps : x.dropping = false) (new : x.significand = 0) :
    ∃ phase, phase.final = true ∧ pass (.numeral .sign x) (writeNat n) =
      some (.numeral phase { x with significand := n }) := by
  have value := Nat.ofDigitChars_ten_toDigits (n := n)
  rw [← value] at fits
  obtain ⟨phase, final, passes⟩ := pass_wholePart (wholePart_toDigits n) keeps new fits
  rw [value] at passes
  exact ⟨phase, by rcases final with rfl | rfl <;> rfl, passes⟩

theorem Lexer.pass_gap_writeNat (n : Nat) :
    pass .gap (writeNat n) = pass (.numeral .sign {}) (writeNat n) := by
  have all := allDigits_toDigits n
  rw [writeNat_eq]
  cases digits : Nat.toDigits 10 n with
  | nil => exact absurd digits Nat.toDigits_ne_nil
  | cons c cs =>
    rw [digits] at all
    exact pass_gap all.head _

end Json

/-! ### Numbers -/

namespace Number

/-- What is read for the text of a number. -/
def reread (n : Number) : Option Number :=
  match Json.Lexer.pass .gap (Json.writeNumber n) with
  | some (.numeral _ x) => x.number?
  | _ => none

/-- The text of `n` is one numeral, and that is read as `m`. -/
def ReadsAs (n m : Number) : Prop :=
  ∃ phase x, phase.final = true ∧
    Json.Lexer.pass .gap (Json.writeNumber n) = some (.numeral phase x) ∧ x.number? = some m

theorem ReadsAs.reread {n m : Number} (h : n.ReadsAs m) : n.reread = some m := by
  obtain ⟨phase, x, -, passes, value⟩ := h
  simp only [Number.reread, passes, value]

/-- The number is read as some number. -/
def Readable (n : Number) : Prop := ∃ m, n.ReadsAs m

/-- The number is read as it was written. -/
def Exact (n : Number) : Prop := n.ReadsAs n

theorem Exact.readable {n : Number} (h : n.Exact) : n.Readable := ⟨n, h⟩

/-- Integers of 64 bits, signed or unsigned. -/
def isWord : Number → Bool
  | .integer i => Int64.minValue.toInt ≤ i && i < UInt64.size
  | .float _ => false

open Json

theorem exact_integer {i : Int} (h : (integer i).isWord = true) : (integer i).Exact := by
  simp only [isWord, Bool.and_eq_true, decide_eq_true_eq] at h
  obtain ⟨least, most⟩ := h
  cases i with
  | ofNat n =>
    have fits : n ≤ Numeral.wordMax := by
      have below : n < UInt64.size := Int.ofNat_lt.1 most
      exact Nat.le_sub_one_of_lt below
    obtain ⟨phase, final, passes⟩ := Lexer.pass_writeNat fits (x := {}) rfl rfl
    exact ⟨phase, _, final, (Lexer.pass_gap_writeNat n).trans passes, rfl⟩
  | negSucc n =>
    have bound : n + 1 ≤ 2 ^ 63 := by
      have value : Int64.minValue.toInt = -2 ^ 63 := by decide
      rw [value] at least
      omega
    have fits : n + 1 ≤ Numeral.wordMax := Nat.le_trans bound (by decide)
    obtain ⟨phase, final, passes⟩ := Lexer.pass_writeNat fits
      (x := { negative := true }) rfl rfl
    have signed : Lexer.pass .gap (0x2d :: writeNat (n + 1)) =
        some (.numeral phase { negative := true, significand := n + 1 }) :=
      (Lexer.pass_cons rfl _).trans passes
    refine ⟨phase, _, final, signed, ?_⟩
    have inside : 0 < n + 1 ∧ Int64.minValue.toInt ≤ -((n + 1 : Nat) : Int) :=
      ⟨Nat.succ_pos n, least⟩
    simp only [Numeral.number?, Bool.not_false, Bool.and_self, Bool.not_true,
      Bool.false_eq_true, if_false, if_true, if_pos inside]
    rfl

theorem exact_of_isWord {n : Number} (h : n.isWord = true) : n.Exact := by
  cases n with
  | integer i => exact exact_integer h
  | float x => cases h

end Number

end EndpointMonitor
