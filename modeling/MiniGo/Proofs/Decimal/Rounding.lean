import Mathlib
import MiniGo.Decimal.Shortest

/-!
# Digits that read back

The float nearest to a ratio depends on the ratio only (`nearestBits_mul`), and the float that is read off
its own bits is itself again (`nearestBits_ratio`). So zeros at the end of a decimal can be traded for its
exponent (`nearestBitsOfDecimal_ten`), and the digits that `shortest` gives read back as the float that they
were found for (`nearestBitsOfDecimal_shortest`).
-/

namespace MiniGo.Decimal

variable {numerator denominator bits : Nat}

/-! ## Ratios -/

theorem scaledByTwo_mul (factor numerator denominator : Nat) (exponent : Int) :
    scaledByTwo (factor * numerator) (factor * denominator) exponent
      = (factor * (scaledByTwo numerator denominator exponent).1,
        factor * (scaledByTwo numerator denominator exponent).2) := by
  cases exponent with
  | ofNat exponent => simp [scaledByTwo, Nat.mul_assoc]
  | negSucc exponent => simp [scaledByTwo, Nat.mul_assoc]

theorem scaledByTwo_pos (positive : 0 < denominator) (exponent : Int) :
    0 < (scaledByTwo numerator denominator exponent).2 := by
  cases exponent with
  | ofNat exponent => exact Nat.mul_pos positive (Nat.pow_pos (by decide))
  | negSucc exponent => exact positive

theorem scaledByTwo_ratio (positive : 0 < denominator) (exponent : Int) :
    ((scaledByTwo numerator denominator exponent).1 : ℚ)
      = numerator / denominator / (2 : ℚ) ^ exponent * (scaledByTwo numerator denominator exponent).2 := by
  have some : (denominator : ℚ) ≠ 0 := by exact_mod_cast positive.ne'
  cases exponent with
  | ofNat exponent =>
      simp only [scaledByTwo, Int.ofNat_eq_natCast, zpow_natCast, Nat.pow_eq, Nat.cast_mul, Nat.cast_pow,
        Nat.cast_ofNat]
      field_simp
  | negSucc exponent =>
      simp only [scaledByTwo, zpow_negSucc, Nat.pow_eq, Nat.cast_mul, Nat.cast_pow, Nat.cast_ofNat]
      field_simp

theorem scaledByTwo_le (positive : 0 < denominator) (exponent : Int) :
    (scaledByTwo numerator denominator exponent).2 ≤ (scaledByTwo numerator denominator exponent).1 ↔
      (2 : ℚ) ^ exponent ≤ numerator / denominator := by
  have below : (0 : ℚ) < (scaledByTwo numerator denominator exponent).2 := by
    exact_mod_cast scaledByTwo_pos positive exponent
  have power : (0 : ℚ) < 2 ^ exponent := zpow_pos (by norm_num) _
  rw [← Nat.cast_le (α := ℚ), scaledByTwo_ratio positive, le_mul_iff_one_le_left below, one_le_div power]

/-! ## Exponents of two -/

theorem log2_bounds {n : Nat} (positive : 0 < n) :
    (2 : ℚ) ^ (Nat.log2 n : Int) ≤ n ∧ (n : ℚ) < 2 ^ ((Nat.log2 n : Int) + 1) := by
  constructor
  · rw [zpow_natCast]
    exact_mod_cast Nat.log2_self_le positive.ne'
  · rw [← Nat.cast_succ, zpow_natCast]
    exact_mod_cast Nat.lt_log2_self

/-- The binary exponent of a ratio is that of the greatest power of two below it. -/
theorem binaryExponent_spec (top : 0 < numerator) (positive : 0 < denominator) :
    (2 : ℚ) ^ binaryExponent numerator denominator ≤ numerator / denominator ∧
      (numerator / denominator : ℚ) < 2 ^ (binaryExponent numerator denominator + 1) := by
  have two : (2 : ℚ) ≠ 0 := by norm_num
  have below : (0 : ℚ) < denominator := by exact_mod_cast positive
  obtain ⟨leastTop, mostTop⟩ := log2_bounds top
  obtain ⟨leastBelow, mostBelow⟩ := log2_bounds positive
  unfold binaryExponent
  dsimp only
  -- The difference of the logarithms is the exponent or one more than it; which of them is tested.
  split
  · rename_i fits
    refine ⟨(scaledByTwo_le positive _).mp fits, ?_⟩
    rw [div_lt_iff₀ below]
    calc (numerator : ℚ) < 2 ^ ((Nat.log2 numerator : Int) + 1) := mostTop
      _ = 2 ^ ((Nat.log2 numerator : Int) - Nat.log2 denominator + 1) * 2 ^ (Nat.log2 denominator : Int) := by
          rw [← zpow_add₀ two]
          congr 1
          ring
      _ ≤ 2 ^ ((Nat.log2 numerator : Int) - Nat.log2 denominator + 1) * denominator := by gcongr
  · rename_i misses
    rw [scaledByTwo_le positive, not_le] at misses
    refine ⟨?_, by simpa using misses⟩
    rw [le_div_iff₀ below]
    calc (2 : ℚ) ^ ((Nat.log2 numerator : Int) - Nat.log2 denominator - 1) * denominator
        ≤ 2 ^ ((Nat.log2 numerator : Int) - Nat.log2 denominator - 1)
          * 2 ^ ((Nat.log2 denominator : Int) + 1) := by gcongr
      _ = 2 ^ (Nat.log2 numerator : Int) := by
          rw [← zpow_add₀ two]
          congr 1
          ring
      _ ≤ numerator := leastTop

theorem binaryExponent_eq (top : 0 < numerator) (positive : 0 < denominator) {exponent : Int}
    (least : (2 : ℚ) ^ exponent ≤ numerator / denominator)
    (most : (numerator / denominator : ℚ) < 2 ^ (exponent + 1)) :
    binaryExponent numerator denominator = exponent := by
  obtain ⟨least', most'⟩ := binaryExponent_spec top positive
  have one : (1 : ℚ) < 2 := by norm_num
  have lower := (zpow_lt_zpow_iff_right₀ one).mp (least.trans_lt most')
  have upper := (zpow_lt_zpow_iff_right₀ one).mp (least'.trans_lt most)
  omega

/-! ## Rounding -/

theorem roundedQuotient_mul {factor : Nat} (positive : 0 < factor) (numerator denominator : Nat) :
    roundedQuotient (factor * numerator) (factor * denominator) = roundedQuotient numerator denominator := by
  have twice : 2 * (factor * (numerator % denominator)) = factor * (2 * (numerator % denominator)) := by ring
  unfold roundedQuotient
  simp only [Nat.mul_div_mul_left _ _ positive, Nat.mul_mod_mul_left, twice, Nat.mul_lt_mul_left positive,
    beq_iff_eq, Nat.mul_right_inj positive.ne', Bool.or_eq_true, Bool.and_eq_true, decide_eq_true_eq]

theorem roundedQuotient_exact (positive : 0 < denominator) (quotient : Nat) :
    roundedQuotient (quotient * denominator) denominator = quotient := by
  unfold roundedQuotient
  simp [Nat.mul_div_cancel _ positive, positive.ne]

/-- The nearest float depends on the ratio only. -/
theorem nearestBits_mul {factor : Nat} (some : 0 < factor) (positive : 0 < denominator) (numerator : Nat) :
    nearestBits (factor * numerator) (factor * denominator) = nearestBits numerator denominator := by
  by_cases zero : numerator = 0
  · simp [nearestBits, zero]
  have top := Nat.pos_of_ne_zero zero
  have exponent : binaryExponent (factor * numerator) (factor * denominator)
      = binaryExponent numerator denominator := by
    obtain ⟨least, most⟩ := binaryExponent_spec top positive
    have same : ((factor * numerator : Nat) / (factor * denominator : Nat) : ℚ) = numerator / denominator := by
      have : (factor : ℚ) ≠ 0 := by exact_mod_cast some.ne'
      push_cast
      exact mul_div_mul_left _ _ this
    exact binaryExponent_eq (Nat.mul_pos some top) (Nat.mul_pos some positive) (same ▸ least) (same ▸ most)
  unfold nearestBits
  rw [if_neg zero, if_neg (Nat.mul_pos some top).ne', exponent]
  simp only [scaledByTwo_mul, roundedQuotient_mul some]

/-- A ratio that is a mantissa of a float times a power of two is that float. -/
theorem nearestBits_exact (top : 0 < numerator) (positive : 0 < denominator) {mantissa : Nat} {exponent : Int}
    (least : leastExponent ≤ exponent) (small : mantissa < 2 * hiddenBit)
    (normal : exponent = leastExponent ∨ hiddenBit ≤ mantissa)
    (same : (numerator / denominator : ℚ) = mantissa * 2 ^ exponent) :
    nearestBits numerator denominator
      = min ((exponent - leastExponent).toNat * hiddenBit + mantissa) infinityBits := by
  have two : (2 : ℚ) ≠ 0 := by norm_num
  have one : (1 : ℚ) < 2 := by norm_num
  have power : (0 : ℚ) < 2 ^ exponent := zpow_pos (by norm_num) _
  obtain ⟨lower, upper⟩ := binaryExponent_spec top positive
  rw [same] at lower upper
  have most : binaryExponent numerator denominator < 53 + exponent := by
    refine (zpow_lt_zpow_iff_right₀ one).mp (lower.trans_lt ?_)
    rw [zpow_add₀ two]
    gcongr
    have : (mantissa : ℚ) < (2 * hiddenBit : Nat) := by exact_mod_cast small
    refine this.trans_le ?_
    norm_num [hiddenBit]
  -- The exponent of the float is the one that is chosen, and at that exponent nothing is rounded away.
  have chosen : max leastExponent (binaryExponent numerator denominator - 52) = exponent := by
    rcases normal with rfl | large
    · omega
    · have : 52 + exponent < binaryExponent numerator denominator + 1 := by
        refine (zpow_lt_zpow_iff_right₀ one).mp (lt_of_le_of_lt ?_ upper)
        rw [zpow_add₀ two]
        gcongr
        have : ((hiddenBit : Nat) : ℚ) ≤ mantissa := by exact_mod_cast large
        refine le_trans ?_ this
        norm_num [hiddenBit]
      omega
  have whole : (scaledByTwo numerator denominator exponent).1
      = mantissa * (scaledByTwo numerator denominator exponent).2 := by
    have scaled := @scaledByTwo_ratio numerator denominator positive exponent
    rw [same, mul_div_cancel_right₀ _ power.ne'] at scaled
    exact_mod_cast scaled
  unfold nearestBits
  rw [if_neg top.ne', chosen]
  dsimp only
  rw [whole, roundedQuotient_exact (scaledByTwo_pos positive exponent)]

/-! ## Floats as ratios -/

/-- What the bits of a finite positive float stand for. -/
theorem unpack_spec (finite : bits < infinityBits) :
    leastExponent ≤ (unpack bits).2 ∧ (unpack bits).1 < 2 * hiddenBit ∧
      ((unpack bits).2 = leastExponent ∨ hiddenBit ≤ (unpack bits).1) ∧
      ((unpack bits).2 - leastExponent).toNat * hiddenBit + (unpack bits).1 = bits ∧
      (unpack bits).2 ≤ 971 := by
  have rest := Nat.mod_lt bits (show 0 < hiddenBit by decide)
  have whole := Nat.div_add_mod bits hiddenBit
  have below : bits / hiddenBit < 2047 := by
    rw [Nat.div_lt_iff_lt_mul (by decide)]
    exact finite
  unfold unpack
  dsimp only
  generalize bits / hiddenBit = field at *
  generalize bits % hiddenBit = fraction at *
  split
  · rename_i zero
    subst zero
    exact ⟨le_rfl, by omega, Or.inl rfl, by simpa using whole, by simp [leastExponent]⟩
  · refine ⟨by omega, by omega, Or.inr (by omega), ?_, by simp only [leastExponent]; omega⟩
    have shift : (leastExponent + (field : Int) - 1 - leastExponent).toNat = field - 1 := by omega
    dsimp only
    rw [shift, Nat.sub_mul, Nat.mul_comm field]
    have : hiddenBit ≤ hiddenBit * field := Nat.le_mul_of_pos_right _ (by omega)
    omega

theorem ratio_pos (bits : Nat) : 0 < (ratio bits).2 := by
  unfold ratio
  split
  · exact Nat.one_pos
  · exact Nat.pow_pos (by decide)

theorem unpack_pos (positive : 0 < bits) : 0 < (unpack bits).1 := by
  unfold unpack
  dsimp only
  split
  · rename_i zero
    have whole := Nat.div_add_mod bits hiddenBit
    rw [zero] at whole
    dsimp only
    omega
  · exact Nat.add_pos_right _ (by decide)

theorem ratio_eq (bits : Nat) :
    ((ratio bits).1 / (ratio bits).2 : ℚ) = (unpack bits).1 * 2 ^ (unpack bits).2 := by
  unfold ratio
  rcases unpack bits with ⟨mantissa, exponent | exponent⟩
  · simp
  · simp [zpow_negSucc, div_eq_mul_inv]

theorem ratio_top_pos (positive : 0 < bits) : 0 < (ratio bits).1 := by
  have some := unpack_pos positive
  unfold ratio
  generalize unpack bits = parts at some
  rcases parts with ⟨mantissa, exponent | exponent⟩
  · exact Nat.mul_pos some (Nat.pow_pos (by decide))
  · exact some

theorem nearestBits_ratio (positive : 0 < bits) (finite : bits < infinityBits) :
    nearestBits (ratio bits).1 (ratio bits).2 = bits := by
  obtain ⟨least, small, normal, whole, _⟩ := unpack_spec finite
  rw [nearestBits_exact (ratio_top_pos positive) (ratio_pos bits) least small normal (ratio_eq bits), whole]
  exact Nat.min_eq_left finite.le

/-! ## Decimals -/

theorem digitCount_le {n count : Nat} (some : 0 < count) : digitCount n ≤ count ↔ n < 10 ^ count :=
  Nat.length_toDigits_le_iff (by decide) some

theorem digitCount_pos (n : Nat) : 0 < digitCount n := Nat.length_toDigits_pos

theorem digitCount_ten {n : Nat} (positive : 0 < n) : digitCount (10 * n) = digitCount n + 1 := by
  have large : 10 ≤ 10 * n := Nat.le_mul_of_pos_right _ positive
  rw [digitCount, Nat.toDigits_of_base_le (by decide) large, List.length_append,
    Nat.mul_div_cancel_left _ (by decide)]
  rfl

/-- A zero at the end of the digits can be traded for the exponent. -/
theorem nearestBitsOfDecimal_ten (digits : Nat) (exponent : Int) :
    nearestBitsOfDecimal (10 * digits) exponent = nearestBitsOfDecimal digits (exponent + 1) := by
  by_cases zero : digits = 0
  · simp [nearestBitsOfDecimal, zero]
  have positive := Nat.pos_of_ne_zero zero
  have leading : exponent + ((digitCount digits + 1 : Nat) : Int) = exponent + 1 + digitCount digits := by
    push_cast
    ring
  unfold nearestBitsOfDecimal
  rw [if_neg zero, if_neg (Nat.mul_pos (by decide) positive).ne', digitCount_ten positive, leading]
  dsimp only
  congr 2
  -- The factor moves into the numerator, or is cancelled from the denominator.
  rcases exponent with power | (_ | power)
  · have : Int.ofNat power + 1 = Int.ofNat (power + 1) := rfl
    rw [this]
    dsimp only
    rw [Nat.pow_eq, Nat.pow_eq, Nat.pow_succ]
    congr 1
    ring
  · have : Int.negSucc 0 + 1 = Int.ofNat 0 := rfl
    rw [this]
    have scaled := @nearestBits_mul 1 10 (by decide) (by decide) digits
    simpa using scaled
  · have : Int.negSucc (power + 1) + 1 = Int.negSucc power := rfl
    rw [this]
    dsimp only
    have scaled := @nearestBits_mul (Nat.pow 10 (power + 1)) 10 (by decide) (Nat.pow_pos (by decide)) digits
    rw [← scaled, Nat.pow_eq, Nat.pow_eq, Nat.pow_succ _ (power + 1), Nat.mul_comm 10 (10 ^ _)]

theorem nearestBitsOfDecimal_zeros (digits count : Nat) (exponent : Int) :
    nearestBitsOfDecimal (digits * 10 ^ count) exponent = nearestBitsOfDecimal digits (exponent + count) := by
  induction count generalizing exponent with
  | zero => simp
  | succ count ih =>
      have shift : exponent + ((count + 1 : Nat) : Int) = exponent + 1 + count := by
        push_cast
        ring
      rw [Nat.pow_succ, ← Nat.mul_assoc, Nat.mul_comm _ 10, nearestBitsOfDecimal_ten, ih, shift]

theorem nearestBitsOfDecimal_whole {digits power : Nat} (positive : 0 < digits)
    (most : digitCount digits + power ≤ 310) :
    nearestBitsOfDecimal digits (.ofNat power) = nearestBits (digits * Nat.pow 10 power) 1 := by
  have some : (Int.ofNat power : Int) = power := rfl
  unfold nearestBitsOfDecimal
  rw [if_neg positive.ne']
  dsimp only
  rw [if_neg (by omega), if_neg (by omega)]

/-- A decimal with a point that is neither too large nor too small is rounded as a ratio. -/
theorem nearestBitsOfDecimal_fraction {digits power : Nat} (positive : 0 < digits)
    (most : digitCount digits ≤ 311 + power) (least : power ≤ digitCount digits + 329) :
    nearestBitsOfDecimal digits (.negSucc power) = nearestBits digits (Nat.pow 10 (power + 1)) := by
  unfold nearestBitsOfDecimal
  rw [if_neg positive.ne']
  dsimp only
  rw [if_neg (by omega), if_neg (by omega)]

theorem two_pow_le (count : Nat) : 2 ^ (93 * count) ≤ 10 ^ (28 * count) := by
  rw [Nat.pow_mul, Nat.pow_mul]
  exact Nat.pow_le_pow_left (by norm_num) count

theorem digitCount_whole {mantissa power : Nat} (small : mantissa < 2 * hiddenBit) (most : power ≤ 971) :
    digitCount (mantissa * Nat.pow 2 power) ≤ 309 := by
  refine (digitCount_le (by decide)).mpr ?_
  have double : 2 * hiddenBit = 2 ^ 53 := by norm_num [hiddenBit]
  calc mantissa * Nat.pow 2 power < 2 ^ 53 * 2 ^ 971 := by
        rw [← double]
        exact Nat.mul_lt_mul_of_lt_of_le small (Nat.pow_le_pow_right (by decide) most) (Nat.pow_pos (by decide))
    _ = 2 ^ (93 * 11) * 2 := by rw [← Nat.pow_add, ← Nat.pow_succ]
    _ ≤ 10 ^ (28 * 11) * 2 := Nat.mul_le_mul_right _ (two_pow_le 11)
    _ < 10 ^ (28 * 11 + 1) := by
        have some : 0 < 10 ^ (28 * 11) := Nat.pow_pos (by decide)
        rw [Nat.pow_succ]
        omega

theorem digitCount_fraction_le {mantissa : Nat} (small : mantissa < 2 * hiddenBit) (power : Nat) :
    digitCount (mantissa * Nat.pow 5 power) ≤ 16 + power := by
  refine (digitCount_le (by omega)).mpr ?_
  calc mantissa * Nat.pow 5 power < 10 ^ 16 * 10 ^ power := by
        refine Nat.mul_lt_mul_of_lt_of_le (small.trans_le ?_) (Nat.pow_le_pow_left (by decide) power)
          (Nat.pow_pos (by decide))
        norm_num [hiddenBit]
    _ = 10 ^ (16 + power) := (Nat.pow_add ..).symm

/-- The digits of a float that is no whole number are many enough. -/
theorem le_digitCount_fraction {mantissa power : Nat} (some : 0 < mantissa) (most : power ≤ 1074) :
    power ≤ digitCount (mantissa * Nat.pow 5 power) + 330 := by
  by_contra less
  have below := (digitCount_le (digitCount_pos _)).mp (le_refl (digitCount (mantissa * Nat.pow 5 power)))
  have shorter : 10 ^ digitCount (mantissa * Nat.pow 5 power) ≤ 10 ^ (power - 330) :=
    Nat.pow_le_pow_right (by decide) (by omega)
  have halves : 2 ^ power ≤ 10 ^ 330 := by
    calc 2 ^ power ≤ 2 ^ (93 * 11 + 51) := Nat.pow_le_pow_right (by decide) (by omega)
      _ = 2 ^ (93 * 11) * 2 ^ 51 := by rw [Nat.pow_add]
      _ ≤ 10 ^ (28 * 11) * 10 ^ 22 := Nat.mul_le_mul (two_pow_le 11) (by norm_num)
      _ = 10 ^ 330 := (Nat.pow_add ..).symm
  have large : 10 ^ power ≤ mantissa * Nat.pow 5 power * 10 ^ 330 := by
    calc 10 ^ power = 5 ^ power * 2 ^ power := by rw [← Nat.mul_pow]
      _ ≤ mantissa * Nat.pow 5 power * 10 ^ 330 := Nat.mul_le_mul (Nat.le_mul_of_pos_left _ some) halves
  have whole : 10 ^ (power - 330) * 10 ^ 330 = 10 ^ power := by
    rw [← Nat.pow_add]
    congr 1
    omega
  have strict := Nat.mul_lt_mul_of_pos_right (below.trans_le shorter) (Nat.pow_pos (n := 330) (show 0 < 10 by decide))
  rw [whole] at strict
  exact absurd large (Nat.not_le.mpr strict)

/-- The exact value of a finite positive float reads back as this float. -/
theorem nearestBitsOfDecimal_exact (positive : 0 < bits) (finite : bits < infinityBits) :
    nearestBitsOfDecimal (exact bits).digits (exact bits).exponent = bits := by
  have some := unpack_pos positive
  have reads := nearestBits_ratio positive finite
  obtain ⟨least, small, _, _, most⟩ := unpack_spec finite
  unfold exact
  unfold ratio at reads
  generalize unpack bits = parts at *
  obtain ⟨mantissa, power | power⟩ := parts
  · dsimp only at *
    have count := @digitCount_whole _ power small (by simpa using most)
    have digits : 0 < mantissa * Nat.pow 2 power := Nat.mul_pos some (Nat.pow_pos (by decide))
    have whole := @nearestBitsOfDecimal_whole _ 0 digits (by omega)
    change nearestBitsOfDecimal _ (Int.ofNat 0) = nearestBits (_ * 1) 1 at whole
    rw [Nat.mul_one, reads] at whole
    exact whole
  · dsimp only at *
    have bound : power + 1 ≤ 1074 := by simp only [leastExponent] at least; omega
    have five : 0 < Nat.pow 5 (power + 1) := Nat.pow_pos (by decide)
    have many := digitCount_fraction_le small (power + 1)
    have few := le_digitCount_fraction some bound
    have fraction := @nearestBitsOfDecimal_fraction _ power (Nat.mul_pos some five) (by omega) (by omega)
    have scaled := @nearestBits_mul (Nat.pow 2 (power + 1)) _ five (Nat.pow_pos (by decide)) mantissa
    have ten : Nat.pow 5 (power + 1) * Nat.pow 2 (power + 1) = Nat.pow 10 (power + 1) :=
      (Nat.mul_pow 5 2 (power + 1)).symm
    rw [reads, ten, Nat.mul_comm _ mantissa, ← fraction] at scaled
    exact scaled

theorem nearestBitsOfDecimal_trim (fuel : Nat) (decimal : Digits) :
    nearestBitsOfDecimal (decimal.trim fuel).digits (decimal.trim fuel).exponent
      = nearestBitsOfDecimal decimal.digits decimal.exponent := by
  induction fuel generalizing decimal with
  | zero => rfl
  | succ fuel ih =>
      unfold Digits.trim
      split
      · rename_i zeros
        rw [ih, ← nearestBitsOfDecimal_ten, Nat.mul_div_cancel' (Nat.dvd_of_mod_eq_zero zeros.2)]
      · rfl

theorem nearestBitsOfDecimal_shortest (tie : Tie) (positive : 0 < bits) (finite : bits < infinityBits) :
    nearestBitsOfDecimal (shortest tie bits).digits (shortest tie bits).exponent = bits := by
  unfold shortest
  dsimp only
  rw [nearestBitsOfDecimal_trim]
  generalize choice : (List.range 17).findSome? _ = found
  cases found with
  | none => exact nearestBitsOfDecimal_exact positive finite
  | some decimal =>
      obtain ⟨count, _, chosen⟩ := List.exists_of_findSome?_eq_some choice
      exact beq_iff_eq.mp (readsBack_of_onGrid chosen)

end MiniGo.Decimal
