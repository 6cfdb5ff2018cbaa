import EndpointMonitor.Binary64

/-!
Rounding to doubles is monotone. Hence whether a decimal numeral is too large for a double is
settled by the largest significand for each power of ten.
-/

namespace EndpointMonitor.Binary64

/-! ### Rounding to integers -/

theorem div_le_roundDiv (num den : Nat) : num / den ≤ roundDiv num den := by
  simp only [roundDiv]
  split <;> omega

theorem roundDiv_le (num den : Nat) : roundDiv num den ≤ num / den + 1 := by
  simp only [roundDiv]
  split <;> omega

theorem roundDiv_mono {a b : Nat} (h : a ≤ b) (den : Nat) : roundDiv a den ≤ roundDiv b den := by
  have quotients : a / den ≤ b / den := Nat.div_le_div_right h
  rcases Nat.lt_or_ge (a / den) (b / den) with less | ge
  · exact Nat.le_trans (roundDiv_le a den) (Nat.le_trans less (div_le_roundDiv b den))
  · have same : a / den = b / den := Nat.le_antisymm quotients ge
    have wholeA := Nat.div_add_mod a den
    have wholeB := Nat.div_add_mod b den
    rw [same] at wholeA
    have rests : a % den ≤ b % den := by omega
    simp only [roundDiv, same]
    by_cases up : den < 2 * (a % den) ∨ 2 * (a % den) = den ∧ b / den % 2 = 1
    · have also : den < 2 * (b % den) ∨ 2 * (b % den) = den ∧ b / den % 2 = 1 := by omega
      exact Nat.le_of_eq (by rw [if_pos up, if_pos also])
    · rw [if_neg up]
      split <;> omega

/-! ### Rounding to doubles -/

theorem pow_pos (n : Nat) : 0 < Nat.pow 2 n := Nat.two_pow_pos n

theorem pow_add (b m n : Nat) : Nat.pow b (m + n) = Nat.pow b m * Nat.pow b n :=
  Nat.pow_add b m n

theorem pow_mono {m n : Nat} (h : m ≤ n) : Nat.pow 2 m ≤ Nat.pow 2 n :=
  Nat.pow_le_pow_right (by decide) h

theorem nearest_eq (num den : Nat) : nearest num den =
    roundDiv num (den * Nat.pow 2 (excess (num / den))) * Nat.pow 2 (excess (num / den)) := rfl

theorem lt_of_excess (q : Nat) : q < Nat.pow 2 (excess q + 53) := by
  have bits : q.log2 + 1 ≤ excess q + 53 := by unfold excess; omega
  exact Nat.lt_of_lt_of_le Nat.lt_log2_self (pow_mono bits)

theorem le_of_excess {q : Nat} (h : 0 < excess q) : Nat.pow 2 (excess q + 52) ≤ q := by
  have bits : q.log2 = excess q + 52 := by unfold excess at h ⊢; omega
  have some_ : q ≠ 0 := by rintro rfl; exact absurd h (by decide)
  rw [← bits]
  exact Nat.log2_self_le some_

theorem excess_mono {p q : Nat} (h : p ≤ q) : excess p ≤ excess q := by
  have bits : p.log2 ≤ q.log2 := by
    rcases Nat.eq_zero_or_pos p with rfl | positive
    · exact Nat.zero_le _
    · exact (Nat.le_log2 (by omega)).2 (Nat.le_trans (Nat.log2_self_le (by omega)) h)
  unfold excess
  omega

theorem roundDiv_step_le (num den : Nat) :
    roundDiv num (den * Nat.pow 2 (excess (num / den))) ≤ Nat.pow 2 53 := by
  have bound : num / den / Nat.pow 2 (excess (num / den)) < Nat.pow 2 53 := by
    rw [Nat.div_lt_iff_lt_mul (pow_pos _)]
    have below := lt_of_excess (num / den)
    rwa [pow_add, Nat.mul_comm] at below
  rw [Nat.div_div_eq_div_mul] at bound
  exact Nat.le_trans (roundDiv_le _ _) bound

theorem le_roundDiv_step {num den : Nat} (h : 0 < excess (num / den)) :
    Nat.pow 2 52 ≤ roundDiv num (den * Nat.pow 2 (excess (num / den))) := by
  have bound : Nat.pow 2 52 ≤ num / den / Nat.pow 2 (excess (num / den)) := by
    rw [Nat.le_div_iff_mul_le (pow_pos _)]
    have above := le_of_excess h
    rwa [pow_add, Nat.mul_comm] at above
  rw [Nat.div_div_eq_div_mul] at bound
  exact Nat.le_trans bound (div_le_roundDiv _ _)

/-- Of two fractions the larger is not rounded to less, whether the doubles around them are equally
far apart or not. -/
theorem nearest_mono {a b : Nat} (h : a ≤ b) (den : Nat) : nearest a den ≤ nearest b den := by
  have steps : excess (a / den) ≤ excess (b / den) := excess_mono (Nat.div_le_div_right h)
  rcases Nat.eq_or_lt_of_le steps with same | finer
  · rw [nearest_eq, nearest_eq, same]
    exact Nat.mul_le_mul_right _ (roundDiv_mono h _)
  · -- the power of two between the two scales separates them
    have positive : 0 < excess (b / den) := Nat.lt_of_le_of_lt (Nat.zero_le _) finer
    calc nearest a den
        ≤ Nat.pow 2 53 * Nat.pow 2 (excess (a / den)) :=
          Nat.mul_le_mul_right _ (roundDiv_step_le a den)
      _ = Nat.pow 2 52 * Nat.pow 2 (excess (a / den) + 1) := by
          rw [← pow_add, ← pow_add, Nat.add_comm _ 1, ← Nat.add_assoc]
      _ ≤ Nat.pow 2 52 * Nat.pow 2 (excess (b / den)) := Nat.mul_le_mul_left _ (pow_mono finer)
      _ ≤ nearest b den := Nat.mul_le_mul_right _ (le_roundDiv_step positive)

theorem ofNat_mono {m n : Nat} (h : m ≤ n) : ofNat m ≤ ofNat n :=
  nearest_mono (Nat.mul_le_mul_right _ h) 1

theorem mul_mono {a b c d : Nat} (h : a ≤ b) (h' : c ≤ d) : mul a c ≤ mul b d :=
  nearest_mono (Nat.mul_le_mul h h') one

theorem pow10_mono {j k : Nat} (h : j ≤ k) : pow10 j ≤ pow10 k :=
  ofNat_mono (Nat.pow_le_pow_right (by decide) h)

/-! ### Numerals that are not too large -/

theorem one_pos : 0 < one := by decide +kernel

/-- Half the distance of the largest doubles. -/
def halfStep : Nat := Nat.pow 2 2044

theorem overflow_eq : overflow = 18014398509481984 * halfStep := by decide +kernel

/-- The largest finite double. -/
def largest : Nat := overflow - 2 * halfStep

/-- The middle between the largest double and the one before it. -/
def safe : Nat := overflow - 3 * halfStep

/-- The largest significand that a reader keeps. -/
def significandMax : Nat := UInt64.size - 1

/-- The largest significand that stays below the safe bound with a power of ten. -/
def safeSignificand (k : Nat) : Nat := min significandMax (safe / (Nat.pow 10 k * one))

theorem mul_safeSignificand :
    ∀ k : Fin 21, mul (ofNat (safeSignificand (288 + k))) (pow10 (288 + k)) < overflow := by
  decide +kernel

theorem safe_lt {k : Nat} (large : 309 ≤ k) : safe < Nat.pow 10 k * one := by
  have grows : ∀ j ≤ k, safe < Nat.pow 10 j * one → safe < Nat.pow 10 k * one := fun j le above =>
    Nat.lt_of_lt_of_le above (Nat.mul_le_mul_right one (Nat.pow_le_pow_right (by decide) le))
  exact grows 309 large (by decide +kernel)

/-- No product of roundings of `significand` and a power of ten overflows below the safe bound. -/
theorem mul_lt_overflow {significand k : Nat} (word : significand ≤ significandMax)
    (bound : significand * Nat.pow 10 k * one ≤ safe) (small : k ≤ 308) :
    mul (ofNat significand) (pow10 k) < overflow := by
  rcases Nat.lt_or_ge k 288 with low | high
  · have top := mul_safeSignificand 0
    have all : significand ≤ safeSignificand 288 := by
      have wide : significandMax ≤ safeSignificand 288 := by decide +kernel
      exact Nat.le_trans word wide
    exact Nat.lt_of_le_of_lt (mul_mono (ofNat_mono all) (pow10_mono (Nat.le_of_lt low))) top
  · obtain ⟨i, rfl⟩ := Nat.exists_eq_add_of_le high
    have top := mul_safeSignificand ⟨i, by omega⟩
    have positive : 0 < Nat.pow 10 (288 + i) * one :=
      Nat.mul_pos (Nat.pow_pos (by decide)) one_pos
    have kept : significand ≤ safeSignificand (288 + i) := by
      refine Nat.le_min.2 ⟨word, ?_⟩
      rw [Nat.le_div_iff_mul_le positive, ← Nat.mul_assoc]
      exact bound
    exact Nat.lt_of_le_of_lt (mul_mono (ofNat_mono kept) (Nat.le_refl _)) top

theorem isSome_mulPow10 {a k : Nat} (h : a = 0 ∨ (k ≤ 308 ∧ mul a (pow10 k) < overflow)) :
    (mulPow10 a k).isSome = true := by
  unfold mulPow10
  split
  · rfl
  · next nonzero =>
    obtain ⟨small, fits⟩ := h.resolve_left nonzero
    rw [if_neg (Nat.not_lt.2 small)]
    simp only [if_pos fits, Option.isSome_some]

theorem ofNat_zero : ofNat 0 = 0 := by decide +kernel

/-- A numeral below the safe bound denotes a finite double. -/
theorem isSome_mulPow10_of_safe {significand k : Nat} (word : significand ≤ significandMax)
    (bound : significand * Nat.pow 10 k * one ≤ safe) :
    (mulPow10 (ofNat significand) k).isSome = true := by
  rcases Nat.eq_zero_or_pos significand with rfl | positive
  · exact isSome_mulPow10 (.inl ofNat_zero)
  · have small : k ≤ 308 := by
      refine Nat.le_of_not_lt fun large => ?_
      have power : Nat.pow 10 k ≤ significand * Nat.pow 10 k := Nat.le_mul_of_pos_left _ positive
      have above := Nat.le_trans (Nat.mul_le_mul_right one power) bound
      exact absurd above (Nat.not_le.2 (safe_lt large))
    exact isSome_mulPow10 (.inr ⟨small, mul_lt_overflow word bound small⟩)

end EndpointMonitor.Binary64
