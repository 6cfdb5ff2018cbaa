import EndpointMonitor.Binary64.Shortest
import EndpointMonitor.Proofs.Binary64.Rounding
import EndpointMonitor.Proofs.Text.Digits

/-!
The shortest text of a double stays within the reals that round to the double. Hence none is read
as too large a number.
-/

namespace EndpointMonitor.Binary64

/-! ### Intervals -/

theorem step_le {units : Nat} (h : 0 < units) : Nat.pow 2 (excess units) ≤ units := by
  rcases Nat.eq_zero_or_pos (excess units) with none_ | some_
  · rw [none_]
    exact h
  · have least := le_of_excess some_
    exact Nat.le_trans (pow_mono (Nat.le_add_right _ 52)) least

theorem low_pos {units : Nat} (h : 0 < units) : 0 < (interval units).low := by
  have step := step_le h
  simp only [interval]
  split <;> omega

/-- Whether a double has so many units. -/
def representable (units : Nat) : Bool :=
  units < overflow && units % Nat.pow 2 (excess units) = 0

theorem excess_le {units : Nat} (h : units < overflow) : excess units ≤ 2045 := by
  have top : excess (overflow - 1) = 2045 := by decide +kernel
  exact top ▸ excess_mono (Nat.le_sub_one_of_lt h)

/-- Beyond the safe bound there is one double only. -/
theorem high_le_of_representable {units : Nat} (h : representable units = true) :
    units = largest ∨ (interval units).high ≤ 4 * safe := by
  simp only [representable, Bool.and_eq_true, decide_eq_true_eq] at h
  obtain ⟨below, whole⟩ := h
  have parts := Nat.div_add_mod units (Nat.pow 2 (excess units))
  rw [whole, Nat.add_zero] at parts
  have kept : units / Nat.pow 2 (excess units) < 2 ^ 53 := by
    rw [Nat.div_lt_iff_lt_mul (pow_pos _)]
    have bound := lt_of_excess units
    rwa [pow_add, Nat.mul_comm] at bound
  have top := overflow_eq
  have high : (interval units).high = 4 * units + 2 * Nat.pow 2 (excess units) := rfl
  rw [high, safe, largest]
  generalize units / Nat.pow 2 (excess units) = significand at parts kept
  rcases Nat.lt_or_ge (excess units) 2045 with small | big
  · have grows : ∀ k, halfStep = Nat.pow 2 k → excess units ≤ k →
        Nat.pow 2 (excess units) ≤ halfStep := fun _ same le => same ▸ pow_mono le
    have step := grows 2044 (by decide +kernel) (Nat.le_of_lt_succ small)
    have bound := Nat.mul_le_mul_left (Nat.pow 2 (excess units)) (Nat.le_sub_one_of_lt kept)
    exact .inr (by omega)
  · have step : Nat.pow 2 (excess units) = 2 * halfStep := by
      rw [Nat.le_antisymm (excess_le below) big]
      decide +kernel
    rw [step] at parts ⊢
    rcases Nat.eq_or_lt_of_le (Nat.le_sub_one_of_lt kept) with last | before
    · rw [last] at parts
      exact .inl (by omega)
    · have bound := Nat.mul_le_mul_left (2 * halfStep) (Nat.le_sub_one_of_lt before)
      exact .inr (by omega)

/-! ### Grids -/

theorem Grid.within_of_pick {g : Grid} {units d : Nat} (h : g.pick units = some d) :
    g.within (interval units) d = true := by
  simp only [pick] at h
  split at h
  · cases h
  · next inside _ =>
    obtain rfl := Option.some.inj h
    exact inside
  · next _ inside =>
    obtain rfl := Option.some.inj h
    exact inside
  · next inside inside' =>
    split at h
    · obtain rfl := Option.some.inj h
      exact inside
    · obtain rfl := Option.some.inj h
      exact inside'

theorem Grid.bounds_of_within {g : Grid} {i : Interval} {d : Nat} (h : g.within i d = true) :
    i.low * g.den ≤ d * g.num ∧ d * g.num ≤ i.high * g.den := by
  simp only [within] at h
  split at h
  · exact of_decide_eq_true h
  · have strict := of_decide_eq_true h
    exact ⟨Nat.le_of_lt strict.1, Nat.le_of_lt strict.2⟩

theorem Grid.den_pos (k : Int) : 0 < (ofExponent k).den := by
  unfold ofExponent
  split
  · exact Nat.one_pos
  · exact Nat.pow_pos (by decide)

/-- A bound of a point, whichever way the power of ten of its grid is written as a fraction. -/
theorem Grid.le_of_exponent {k : Int} {d quarters : Nat}
    (h : d * (ofExponent k).num ≤ quarters * (ofExponent k).den) {a b : Nat}
    (shift : (a : Int) - b = k) :
    d * Nat.pow 10 a * (4 * one) ≤ quarters * Nat.pow 10 b := by
  subst shift
  unfold ofExponent at h
  split at h
  · next nonneg =>
    obtain ⟨n, rfl⟩ := Nat.exists_eq_add_of_le (show b ≤ a by omega)
    have power : ((b + n : Nat) - b : Int).toNat = n := by omega
    simp only [power, Nat.mul_one] at h
    rw [pow_add]
    calc d * (Nat.pow 10 b * Nat.pow 10 n) * (4 * one)
      _ = d * (Nat.pow 10 n * (4 * one)) * Nat.pow 10 b := by
          generalize 4 * one = unit
          ac_rfl
      _ ≤ quarters * Nat.pow 10 b := Nat.mul_le_mul_right _ h
  · next negative =>
    obtain ⟨n, rfl⟩ := Nat.exists_eq_add_of_le (show a ≤ b by omega)
    have power : (-((a : Int) - (a + n : Nat))).toNat = n := by omega
    simp only [power] at h
    rw [pow_add]
    calc d * Nat.pow 10 a * (4 * one) = d * (4 * one) * Nat.pow 10 a := by
          generalize 4 * one = unit
          ac_rfl
      _ ≤ quarters * Nat.pow 10 n * Nat.pow 10 a := Nat.mul_le_mul_right _ h
      _ = quarters * (Nat.pow 10 a * Nat.pow 10 n) := by ac_rfl

/-! ### Digits -/

/-- The number that the digits make up by themselves. -/
def Digits.value (x : Digits) : Nat := Nat.ofDigitChars 10 x.digits 0

/-- The exponent of the last digit. -/
def Digits.scale (x : Digits) : Int := x.exponent - (x.digits.length - 1 : Int)

/-- Digits as they are written: the first is not zero. -/
structure Digits.Written (x : Digits) : Prop where
  digits : AllDigits x.digits
  first : ∃ c cs, x.digits = c :: cs ∧ c ≠ '0'

/-- The decimal number is at most so many quarters of a unit. -/
def Digits.AtMost (x : Digits) (quarters : Nat) : Prop :=
  ∀ a b : Nat, (a : Int) - b = x.scale →
    x.value * Nat.pow 10 a * (4 * one) ≤ quarters * Nat.pow 10 b

/-- The digits of a point of a grid, without the zeros at their end. -/
def Digits.ofPoint (k : Int) (d : Nat) : Digits :=
  ⟨((Nat.toDigits 10 d).reverse.dropWhile (· = '0')).reverse,
    k + (((Nat.toDigits 10 d).length - 1 : Nat) : Int)⟩

/-- Zeros were all that was taken away. -/
theorem Digits.exists_zeros (k : Int) (d : Nat) :
    ∃ n, (ofPoint k d).digits ++ List.replicate n '0' = Nat.toDigits 10 d := by
  let isZero : Char → Bool := (· = '0')
  let cs := (Nat.toDigits 10 d).reverse
  have same : cs.takeWhile isZero ++ cs.dropWhile isZero = cs := List.takeWhile_append_dropWhile
  have all : ∀ c ∈ cs.takeWhile isZero, c = '0' := fun c hc =>
    of_decide_eq_true (List.all_eq_true.1 List.all_takeWhile c hc)
  have zeros_ := List.eq_replicate_iff.2 ⟨rfl, all⟩
  refine ⟨(cs.takeWhile isZero).length, ?_⟩
  show (cs.dropWhile isZero).reverse ++ _ = _
  rw [← List.reverse_replicate, ← zeros_, ← List.reverse_append, same, List.reverse_reverse]

theorem Digits.written_ofPoint (k : Int) {d : Nat} (h : 0 < d) : (ofPoint k d).Written := by
  obtain ⟨n, whole⟩ := exists_zeros k d
  obtain ⟨c, cs, digits, first⟩ := exists_toDigits h
  refine ⟨?_, ?_⟩
  · have all := allDigits_toDigits d
    rw [← whole] at all
    exact all.of_subset (List.subset_append_left _ _)
  · rw [digits] at whole
    cases kept : (ofPoint k d).digits with
    | nil =>
      rw [kept, List.nil_append] at whole
      have zero : c = '0' := List.eq_of_mem_replicate (whole ▸ List.mem_cons_self)
      exact absurd zero first
    | cons e es =>
      rw [kept, List.cons_append] at whole
      obtain ⟨rfl, -⟩ := List.cons.inj whole
      exact ⟨e, es, rfl, first⟩

theorem Digits.atMost_ofPoint {k : Int} {d quarters : Nat}
    (h : d * (Grid.ofExponent k).num ≤ quarters * (Grid.ofExponent k).den) :
    (ofPoint k d).AtMost quarters := by
  intro a b shift
  obtain ⟨n, whole⟩ := exists_zeros k d
  have value : (ofPoint k d).value * Nat.pow 10 n = d := by
    have read := congrArg (Nat.ofDigitChars 10 · 0) whole
    simp only [Nat.ofDigitChars_append, Nat.ofDigitChars_replicate_zero,
      Nat.ofDigitChars_ten_toDigits] at read
    rw [Nat.mul_comm]
    exact read
  have length : (ofPoint k d).digits.length + n = (Nat.toDigits 10 d).length := by
    have count := congrArg List.length whole
    rwa [List.length_append, List.length_replicate] at count
  have positive : 0 < (Nat.toDigits 10 d).length := Nat.length_toDigits_pos
  have shifted : (a : Int) - (b + n : Nat) = k := by
    simp only [scale] at shift
    simp only [ofPoint] at shift length
    omega
  have bound := Grid.le_of_exponent h shifted
  have powers : 0 < Nat.pow 10 n := Nat.pow_pos (by decide)
  refine Nat.le_of_mul_le_mul_right ?_ powers
  calc (ofPoint k d).value * Nat.pow 10 a * (4 * one) * Nat.pow 10 n
      = (ofPoint k d).value * Nat.pow 10 n * Nat.pow 10 a * (4 * one) := by
        generalize 4 * one = unit
        ac_rfl
    _ = d * Nat.pow 10 a * (4 * one) := by rw [value]
    _ ≤ quarters * Nat.pow 10 (b + n) := bound
    _ = quarters * Nat.pow 10 b * Nat.pow 10 n := by rw [pow_add, Nat.mul_assoc]

/-! ### Texts -/

/-- A search ends without a point, or with one that reads back as the number. -/
theorem search_cases (units : Nat) (top : Int) (count fuel : Nat) :
    search units top count fuel = ⟨['0'], 0⟩ ∨
      ∃ k d, (Grid.ofExponent k).pick units = some d ∧
        search units top count fuel = .ofPoint k d := by
  induction fuel generalizing count with
  | zero => exact .inl rfl
  | succ fuel ih =>
    simp only [search]
    split
    · next d picked => exact .inr ⟨_, d, picked, rfl⟩
    · exact ih (count + 1)

theorem shortest_cases {units : Nat} (h : 0 < units) :
    shortest units = ⟨['0'], 0⟩ ∨
      (shortest units).Written ∧ (shortest units).AtMost (interval units).high := by
  rcases search_cases units (leadingExponent units) 1 17 with none_ | ⟨k, d, picked, found⟩
  · exact .inl none_
  · obtain ⟨low, high⟩ := Grid.bounds_of_within (Grid.within_of_pick picked)
    have positive : 0 < d := by
      have above := Nat.mul_pos (low_pos h) (Grid.den_pos k)
      exact Nat.pos_of_mul_pos_right (Nat.lt_of_lt_of_le above low)
    rw [shortest, found]
    exact .inr ⟨Digits.written_ofPoint k positive, Digits.atMost_ofPoint high⟩

/-- The reader may keep some of the digits only, and counts those that it drops as zeros. -/
structure Digits.Keeps (x : Digits) (significand exponent : Nat) : Prop where
  word : significand ≤ significandMax
  rest : ∃ dropped : Nat, significand * Nat.pow 10 dropped ≤ x.value ∧
    (exponent : Int) - dropped = x.scale

theorem Digits.Keeps.le {x : Digits} {significand exponent quarters : Nat}
    (h : x.Keeps significand exponent) (atMost : x.AtMost quarters) :
    significand * Nat.pow 10 exponent * (4 * one) ≤ quarters := by
  obtain ⟨-, n, kept, shift⟩ := h
  have bound := atMost exponent n shift
  refine Nat.le_of_mul_le_mul_right ?_ (Nat.pow_pos (n := n) (show 0 < 10 by decide))
  calc significand * Nat.pow 10 exponent * (4 * one) * Nat.pow 10 n
      = significand * Nat.pow 10 n * Nat.pow 10 exponent * (4 * one) := by
        generalize 4 * one = unit
        ac_rfl
    _ ≤ x.value * Nat.pow 10 exponent * (4 * one) :=
        Nat.mul_le_mul_right _ (Nat.mul_le_mul_right _ kept)
    _ ≤ quarters * Nat.pow 10 n := bound

/-- What the largest double is written with. -/
def largestSignificand : Nat := 17976931348623157

/-- The exponent of the last digit of the largest double. -/
def largestScale : Nat := 292

theorem largest_value : (shortest largest).value = largestSignificand := by decide +kernel

theorem largest_scale : (shortest largest).scale = largestScale := by decide +kernel

/-- The digits of the largest double do not come back too large, nor do fewer of them. -/
theorem isSome_of_keeps_largest {significand exponent : Nat}
    (h : (shortest largest).Keeps significand exponent) :
    (mulPow10 (ofNat significand) exponent).isSome = true := by
  obtain ⟨word, n, kept, shift⟩ := h
  rw [largest_value] at kept
  rw [largest_scale] at shift
  cases n with
  | zero =>
    obtain rfl : exponent = largestScale := by omega
    replace kept : significand ≤ largestSignificand := Nat.mul_one significand ▸ kept
    have whole : mul (ofNat largestSignificand) (pow10 largestScale) < overflow := by decide +kernel
    have below := mul_mono (ofNat_mono kept) (Nat.le_refl (pow10 largestScale))
    exact isSome_mulPow10 (.inr ⟨by decide, Nat.lt_of_le_of_lt below whole⟩)
  | succ n =>
    obtain rfl : exponent = n + 1 + largestScale := by omega
    have shorter : significand * Nat.pow 10 (n + 1) ≤ 17976931348623150 := by
      have last : Nat.pow 10 (n + 1) = Nat.pow 10 n * 10 := rfl
      rw [last, ← Nat.mul_assoc] at kept ⊢
      unfold largestSignificand at kept
      omega
    have room : 17976931348623150 * Nat.pow 10 largestScale * one ≤ safe := by decide +kernel
    have shift : significand * Nat.pow 10 (n + 1 + largestScale) =
        significand * Nat.pow 10 (n + 1) * Nat.pow 10 largestScale := by
      rw [pow_add, ← Nat.mul_assoc]
    refine isSome_mulPow10_of_safe word ?_
    rw [shift]
    exact Nat.le_trans (Nat.mul_le_mul_right _ (Nat.mul_le_mul_right _ shorter)) room

/-- The shortest text of a double is never read as too large a number. -/
theorem isSome_of_keeps {units significand exponent : Nat} (double : representable units = true)
    (atMost : (shortest units).AtMost (interval units).high)
    (h : (shortest units).Keeps significand exponent) :
    (mulPow10 (ofNat significand) exponent).isSome = true := by
  rcases high_le_of_representable double with top | high
  · rw [top] at h
    exact isSome_of_keeps_largest h
  · refine isSome_mulPow10_of_safe h.word ?_
    have bound := Nat.le_trans (h.le atMost) high
    rw [Nat.mul_left_comm] at bound
    omega

end EndpointMonitor.Binary64
