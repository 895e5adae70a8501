import Mathlib
import MiniGo.Value.Operators

/-!
# Operators on integers

The operators on integers of 64 bits, against the whole numbers that the integers stand for. A sum, a difference
and a product are reduced modulo two to the 64; a quotient is cut off toward zero; a shift multiplies or
divides by a power of two, whatever the count. `IntegerLaws` collects what holds of two integers, and
`integer_operators` says that it holds of any two.
-/

namespace MiniGo.Value

variable {a b : Int64}

/-- An operation succeeds with an integer that has a property. -/
def Gives (outcome : Except RuntimeError Value) (holds : Int64 → Prop) : Prop :=
  ∃ result : Int64, outcome = .ok (int result) ∧ holds result

/-- What the operators do with two integers. -/
structure IntegerLaws (a b : Int64) (location : Location) : Prop where
  add : Gives (binary .add (int a) (int b) location) fun sum => sum.toInt = (a.toInt + b.toInt).bmod (2 ^ 64)
  subtract : Gives (binary .subtract (int a) (int b) location) fun difference =>
    difference.toInt = (a.toInt - b.toInt).bmod (2 ^ 64)
  multiply : Gives (binary .multiply (int a) (int b) location) fun product =>
    product.toInt = (a.toInt * b.toInt).bmod (2 ^ 64)
  divide : if b = 0 then binary .divide (int a) (int b) location = .error (.divisionByZero location)
    else Gives (binary .divide (int a) (int b) location) fun quotient =>
      quotient.toInt = (a.toInt.tdiv b.toInt).bmod (2 ^ 64)
  /-- The remainder is smaller than the divisor and has the sign of the dividend. -/
  remainder : if b = 0 then binary .remainder (int a) (int b) location = .error (.divisionByZero location)
    else Gives (binary .remainder (int a) (int b) location) fun rest =>
      rest.toInt = a.toInt.tmod b.toInt ∧ rest.toInt.natAbs < b.toInt.natAbs ∧ 0 ≤ a.toInt * rest.toInt
  /-- Quotient and remainder make up the dividend again. -/
  rejoined : (do
      let quotient ← binary .divide (int a) (int b) location
      let rest ← binary .remainder (int a) (int b) location
      let product ← binary .multiply quotient (int b) location
      binary .add product rest location) = if b = 0 then .error (.divisionByZero location) else .ok (int a)
  shiftLeft : if b < 0 then binary .shiftLeft (int a) (int b) location = .error (.negativeShift location)
    else Gives (binary .shiftLeft (int a) (int b) location) fun shifted =>
      shifted.toInt = (a.toInt * 2 ^ b.toInt.toNat).bmod (2 ^ 64)
  shiftRight : if b < 0 then binary .shiftRight (int a) (int b) location = .error (.negativeShift location)
    else Gives (binary .shiftRight (int a) (int b) location) fun shifted =>
      shifted.toInt = a.toInt.fdiv (2 ^ b.toInt.toNat)
  bitClear : Gives (binary .bitClear (int a) (int b) location) fun cleared =>
    ∀ position, cleared.toBitVec.getLsbD position
      = (a.toBitVec.getLsbD position && !b.toBitVec.getLsbD position)
  /-- One of the three outcomes is true, and the other comparisons join two of them. -/
  compare : ∃ less equal greater : Bool,
    binary .less (int a) (int b) location = .ok (bool less) ∧
    binary .equal (int a) (int b) location = .ok (bool equal) ∧
    binary .greater (int a) (int b) location = .ok (bool greater) ∧
    binary .lessEqual (int a) (int b) location = .ok (bool (less || equal)) ∧
    binary .greaterEqual (int a) (int b) location = .ok (bool (greater || equal)) ∧
    (less = true ↔ a.toInt < b.toInt) ∧ (equal = true ↔ a.toInt = b.toInt) ∧
    less.toNat + equal.toNat + greater.toNat = 1

/-! ## Division -/

theorem toInt_ne_zero (divisor : b ≠ 0) : b.toInt ≠ 0 :=
  fun zero => divisor (Int64.toInt_inj.mp zero)

theorem natAbs_tmod_lt (divisor : b ≠ 0) : (a.toInt.tmod b.toInt).natAbs < b.toInt.natAbs := by
  rw [Int.natAbs_tmod]
  exact Nat.mod_lt _ (Int.natAbs_pos.mpr (toInt_ne_zero divisor))

theorem mul_tmod_nonneg (n m : Int) : 0 ≤ n * n.tmod m := by
  rcases Int.le_total 0 n with positive | negative
  · exact Int.mul_nonneg positive (Int.tmod_nonneg m positive)
  · have opposite := Int.tmod_nonneg m (Int.neg_nonneg_of_nonpos negative)
    rw [Int.neg_tmod] at opposite
    exact Int.mul_nonneg_of_nonpos_of_nonpos negative (Int.neg_nonneg.mp opposite)

/-- The reduction of the quotient and that of the product do not get in the way of each other. -/
theorem div_mul_add_mod (a b : Int64) : a / b * b + a % b = a := by
  refine Int64.toInt_inj.mp ?_
  rw [Int64.toInt_add, Int64.toInt_mul, Int64.toInt_div, Int64.toInt_mod]
  have whole : a.toInt.tdiv b.toInt * b.toInt + a.toInt.tmod b.toInt = a.toInt := Int.tdiv_mul_add_tmod _ _
  have reduced : a.toInt.bmod (2 ^ 64) = a.toInt := Int64.toInt_bmod a
  simp only [Int.bmod_mul_bmod, Int.bmod_add_bmod, whole, reduced]

/-! ## Shifts -/

theorem toInt_nonneg (count : ¬ b < 0) : 0 ≤ b.toInt :=
  Int.not_lt.mp fun negative => count (Int64.lt_iff_toInt_lt.mpr negative)

theorem toNat_smod_count (count : ¬ b < 0) (short : ¬ 64 ≤ b) :
    (b.toBitVec.smod 64).toNat = b.toInt.toNat := by
  have low := toInt_nonneg count
  have high : b.toInt < 64 := Int.not_le.mp fun long => short (Int64.le_iff_toInt_le.mpr long)
  have signed : (b.toBitVec.smod 64).toInt = b.toInt := by
    rw [BitVec.toInt_smod]
    exact Int.fmod_eq_of_lt low high
  have small := (b.toBitVec.smod 64).toInt_eq_toNat_cond
  rw [signed] at small
  split at small <;> omega

theorem toInt_shiftLeft (count : ¬ b < 0) (short : ¬ 64 ≤ b) :
    (a <<< b).toInt = (a.toInt * 2 ^ b.toInt.toNat).bmod (2 ^ 64) := by
  have bits : (a <<< b).toInt = (a.toBitVec <<< (b.toBitVec.smod 64)).toInt := rfl
  rw [bits, BitVec.shiftLeft_eq', BitVec.toInt_shiftLeft, toNat_smod_count count short, Nat.shiftLeft_eq]
  have same : a.toInt = (a.toBitVec.toNat : Int).bmod (2 ^ 64) := BitVec.toInt_eq_toNat_bmod _
  rw [same, Int.bmod_mul_bmod]
  push_cast
  rfl

theorem toInt_shiftRight (count : ¬ b < 0) (short : ¬ 64 ≤ b) :
    (a >>> b).toInt = a.toInt.fdiv (2 ^ b.toInt.toNat) := by
  have bits : (a >>> b).toInt = (a.toBitVec.sshiftRight' (b.toBitVec.smod 64)).toInt := rfl
  rw [bits, BitVec.toInt_sshiftRight', toNat_smod_count count short, Int.shiftRight_eq_div_pow,
    Int.fdiv_eq_ediv_of_nonneg _ (by positivity)]
  push_cast
  rfl

theorem mul_pow_bmod_of_le {count : Nat} (n : Int) (long : 64 ≤ count) : (n * 2 ^ count).bmod (2 ^ 64) = 0 := by
  obtain ⟨more, rfl⟩ := Nat.exists_eq_add_of_le long
  rw [pow_add, Int.mul_left_comm]
  exact Int.mul_bmod_right _ _

theorem fdiv_pow_of_le {count : Nat} (a : Int64) (long : 64 ≤ count) :
    a.toInt.fdiv (2 ^ count) = if a < 0 then -1 else 0 := by
  have power : (2 ^ 63 : Int) ≤ 2 ^ count := pow_le_pow_right₀ (by norm_num) (Nat.le_of_succ_le long)
  have above := a.toInt_lt
  have below := a.le_toInt
  rw [Int.fdiv_eq_ediv_of_nonneg _ (by positivity)]
  split
  · rename_i negative
    have negative : a.toInt < 0 := Int64.lt_iff_toInt_lt.mp negative
    exact Int.ediv_eq_neg_one_of_neg_of_le negative (by omega)
  · rename_i positive
    exact Int.ediv_eq_zero_of_lt (toInt_nonneg positive) (by omega)

theorem long_count (count : ¬ b < 0) (long : 64 ≤ b) : 64 ≤ b.toInt.toNat := by
  have low := toInt_nonneg count
  have high : (64 : Int64).toInt ≤ b.toInt := Int64.le_iff_toInt_le.mp long
  have value : (64 : Int64).toInt = 64 := rfl
  omega

theorem shiftLeft_gives (location : Location) (count : ¬ b < 0) :
    Gives (binary .shiftLeft (int a) (int b) location) fun shifted =>
      shifted.toInt = (a.toInt * 2 ^ b.toInt.toNat).bmod (2 ^ 64) := by
  simp only [binary, intOp, if_neg count]
  by_cases long : 64 ≤ b
  · rw [if_pos long]
    exact ⟨0, rfl, (mul_pow_bmod_of_le _ (long_count count long)).symm⟩
  · rw [if_neg long]
    exact ⟨a <<< b, rfl, toInt_shiftLeft count long⟩

theorem shiftRight_gives (location : Location) (count : ¬ b < 0) :
    Gives (binary .shiftRight (int a) (int b) location) fun shifted =>
      shifted.toInt = a.toInt.fdiv (2 ^ b.toInt.toNat) := by
  simp only [binary, intOp, if_neg count]
  by_cases long : 64 ≤ b
  · rw [if_pos long]
    refine ⟨_, rfl, ?_⟩
    rw [fdiv_pow_of_le a (long_count count long)]
    split <;> rfl
  · rw [if_neg long]
    exact ⟨a >>> b, rfl, toInt_shiftRight count long⟩

/-! ## Bits and comparisons -/

theorem getLsbD_clear (a b : Int64) (position : Nat) :
    (a &&& ~~~b).toBitVec.getLsbD position = (a.toBitVec.getLsbD position && !b.toBitVec.getLsbD position) := by
  rw [Int64.toBitVec_and, Int64.toBitVec_not, BitVec.getLsbD_and, BitVec.getLsbD_not]
  by_cases inside : position < 64
  · simp [inside]
  · simp [inside, BitVec.getLsbD_of_ge _ _ (Nat.le_of_not_lt inside)]

/-- Of two integers the first one is less, they are equal, or the first one is greater. -/
theorem intOrder_cases (a b : Int64) :
    (intOrder a b = .lt ∧ a.toInt < b.toInt) ∨ (intOrder a b = .eq ∧ a = b) ∨
      (intOrder a b = .gt ∧ b.toInt < a.toInt) := by
  unfold intOrder
  split
  · rename_i less
    exact Or.inl ⟨rfl, Int64.lt_iff_toInt_lt.mp less⟩
  · rename_i notLess
    split
    · rename_i equal
      exact Or.inr (Or.inl ⟨rfl, equal⟩)
    · rename_i different
      have apart : a.toInt ≠ b.toInt := fun same => different (Int64.toInt_inj.mp same)
      have notLess : ¬ a.toInt < b.toInt := fun less => notLess (Int64.lt_iff_toInt_lt.mpr less)
      exact Or.inr (Or.inr ⟨rfl, by omega⟩)

/-- Any two integers obey the laws of the operators. -/
theorem integer_operators (a b : Int64) (location : Location) : IntegerLaws a b location where
  add := ⟨a + b, rfl, Int64.toInt_add a b⟩
  subtract := ⟨a - b, rfl, Int64.toInt_sub a b⟩
  multiply := ⟨a * b, rfl, Int64.toInt_mul a b⟩
  divide := by
    split
    · rename_i zero
      exact if_pos zero
    · rename_i divisor
      exact ⟨a / b, if_neg divisor, Int64.toInt_div a b⟩
  remainder := by
    split
    · rename_i zero
      exact if_pos zero
    · rename_i divisor
      refine ⟨a % b, if_neg divisor, Int64.toInt_mod a b, ?_, ?_⟩
      · rw [Int64.toInt_mod]
        exact natAbs_tmod_lt divisor
      · rw [Int64.toInt_mod]
        exact mul_tmod_nonneg _ _
  rejoined := by
    by_cases divisor : b = 0
    · simp [binary, intOp, divisor, bind, Except.bind]
    · simp [binary, intOp, divisor, bind, Except.bind, div_mul_add_mod]
  shiftLeft := by
    split
    · rename_i negative
      exact if_pos negative
    · rename_i count
      exact shiftLeft_gives location count
  shiftRight := by
    split
    · rename_i negative
      exact if_pos negative
    · rename_i count
      exact shiftRight_gives location count
  bitClear := ⟨a &&& ~~~b, rfl, getLsbD_clear a b⟩
  compare := by
    refine ⟨intOrder a b == .lt, a == b, intOrder a b == .gt, rfl, rfl, rfl, ?_⟩
    rcases intOrder_cases a b with ⟨order, less⟩ | ⟨order, rfl⟩ | ⟨order, greater⟩
    · have apart : a ≠ b := fun same => (same ▸ less).ne rfl
      simp [binary, intOp, compared, order, apart, less, less.ne]
    · simp [binary, intOp, compared, order]
    · have apart : a ≠ b := fun same => (same ▸ greater).ne rfl
      simp [binary, intOp, compared, order, apart, greater.le, greater.ne']

/-- The quotient of the smallest integer and -1 is out of range and comes back as the smallest integer. -/
example (location : Location) :
    binary .divide (int (-9223372036854775808)) (int (-1)) location = .ok (int (-9223372036854775808)) := rfl

end MiniGo.Value
