/-!
Decimal digits as characters, and the numbers that they make up.
-/

namespace EndpointMonitor

/-- The value of a digit. -/
def digitValue (c : Char) : Nat := c.toNat - '0'.toNat

/-- A text that holds nothing but digits. -/
def AllDigits (chars : List Char) : Prop := ∀ c ∈ chars, c.isDigit = true

namespace AllDigits

variable {c : Char} {cs ds : List Char}

theorem head (h : AllDigits (c :: cs)) : c.isDigit = true := h c List.mem_cons_self

theorem tail (h : AllDigits (c :: cs)) : AllDigits cs := fun d hd => h d (List.mem_cons_of_mem c hd)

theorem append (h : AllDigits cs) (h' : AllDigits ds) : AllDigits (cs ++ ds) :=
  List.forall_mem_append.2 ⟨h, h'⟩

theorem of_subset (h : AllDigits cs) (sub : ds ⊆ cs) : AllDigits ds := fun c hc => h c (sub hc)

end AllDigits

theorem allDigits_toDigits (n : Nat) : AllDigits (Nat.toDigits 10 n) :=
  fun _ => Nat.isDigit_of_mem_toDigits (by decide) (by decide)

theorem allDigits_zeros (n : Nat) : AllDigits (List.replicate n '0') := fun c hc => by
  rw [List.eq_of_mem_replicate hc]
  rfl

theorem digit_bounds {c : Char} (h : c.isDigit = true) : 48 ≤ c.toNat ∧ c.toNat ≤ 57 :=
  Char.isDigit_iff_toNat.1 h

theorem digitValue_le {c : Char} (h : c.isDigit = true) : digitValue c ≤ 9 := by
  have bounds := digit_bounds h
  have least : '0'.toNat = 48 := rfl
  simp only [digitValue, least]
  omega

theorem digitValue_eq_zero {c : Char} (h : c.isDigit = true) : digitValue c = 0 ↔ c = '0' := by
  have bounds := digit_bounds h
  refine ⟨fun zero => Char.toNat_inj.1 ?_, fun same => same ▸ rfl⟩
  have least : '0'.toNat = 48 := rfl
  simp only [digitValue, least] at zero ⊢
  omega

/-- A positive number starts with another digit than zero. -/
theorem exists_toDigits {n : Nat} (h : 0 < n) :
    ∃ c cs, Nat.toDigits 10 n = c :: cs ∧ c ≠ '0' := by
  induction n using Nat.strongRecOn with
  | _ n ih =>
    by_cases small : n < 10
    · refine ⟨n.digitChar, [], Nat.toDigits_of_lt_base small, fun zero => ?_⟩
      have value := Nat.toNat_digitChar_sub_48_of_lt_ten small
      rw [zero] at value
      have none_ : n = 0 := value.symm
      omega
    · obtain ⟨c, cs, digits, first⟩ := ih (n / 10) (by omega) (by omega)
      refine ⟨c, cs ++ [(n % 10).digitChar], ?_, first⟩
      rw [Nat.toDigits_of_base_le (by decide) (Nat.not_lt.1 small), digits]
      rfl

/-- The digits of a whole number: a zero by itself, or digits of which the first is not zero. -/
structure WholePart (chars : List Char) : Prop where
  digits : AllDigits chars
  first : chars = ['0'] ∨ ∃ c cs, chars = c :: cs ∧ c ≠ '0'

theorem wholePart_toDigits (n : Nat) : WholePart (Nat.toDigits 10 n) where
  digits := allDigits_toDigits n
  first := by
    cases n with
    | zero => exact .inl (Nat.toDigits_zero 10)
    | succ n => exact .inr (exists_toDigits (Nat.succ_pos n))

theorem WholePart.exists_digit {chars : List Char} (whole : WholePart chars) :
    ∃ c cs, chars = c :: cs ∧ c.isDigit = true := by
  obtain ⟨digits, rfl | ⟨c, cs, rfl, -⟩⟩ := whole
  · exact ⟨'0', [], rfl, rfl⟩
  · exact ⟨c, cs, rfl, digits.head⟩

/-- The digits of a number, as they are printed. -/
def digitsOf (n : Nat) : List Char := (toString n).toList

theorem wholePart_digitsOf (n : Nat) : WholePart (digitsOf n) := by
  have digits : digitsOf n = Nat.toDigits 10 n := Nat.toList_repr
  rw [digits]
  exact wholePart_toDigits n

theorem value_digitsOf (n : Nat) : Nat.ofDigitChars 10 (digitsOf n) 0 = n := by
  have digits : digitsOf n = Nat.toDigits 10 n := Nat.toList_repr
  rw [digits]
  exact Nat.ofDigitChars_ten_toDigits

theorem le_ofDigitChars (chars : List Char) (n : Nat) : n ≤ Nat.ofDigitChars 10 chars n := by
  rw [Nat.ofDigitChars_eq_ofDigitChars_zero]
  have positive : 0 < 10 ^ chars.length := Nat.pow_pos (by decide)
  have grows := Nat.le_mul_of_pos_left n positive
  omega

theorem ofDigitChars_cons (c : Char) (chars : List Char) (n : Nat) :
    Nat.ofDigitChars 10 (c :: chars) n = Nat.ofDigitChars 10 chars (n * 10 + digitValue c) := by
  rw [Nat.ofDigitChars_cons, Nat.mul_comm]
  rfl

theorem ofDigitChars_lt {chars : List Char} (digits : AllDigits chars) (n : Nat) :
    Nat.ofDigitChars 10 chars n < (n + 1) * Nat.pow 10 chars.length := by
  induction chars generalizing n with
  | nil => exact Nat.le_of_eq (Nat.mul_one (n + 1)).symm
  | cons c chars ih =>
    have small : digitValue c ≤ 9 := digitValue_le digits.head
    have others := ih digits.tail (n * 10 + digitValue c)
    have shift : n * 10 + digitValue c + 1 ≤ (n + 1) * 10 := by omega
    have power : Nat.pow 10 (chars.length + 1) = 10 * Nat.pow 10 chars.length := Nat.pow_succ'
    rw [ofDigitChars_cons, List.length_cons, power]
    calc Nat.ofDigitChars 10 chars (n * 10 + digitValue c)
        < (n * 10 + digitValue c + 1) * Nat.pow 10 chars.length := others
      _ ≤ (n + 1) * 10 * Nat.pow 10 chars.length := Nat.mul_le_mul_right _ shift
      _ = (n + 1) * (10 * Nat.pow 10 chars.length) := Nat.mul_assoc _ _ _

end EndpointMonitor
