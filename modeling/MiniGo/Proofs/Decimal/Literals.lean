import Mathlib
import MiniGo.Decimal.Layout
import MiniGo.Proofs.Decimal.Rounding
import MiniGo.Token.Lexer

/-!
# Number literals

The text of a number is read as the parts that it was put together from (`scanNumber_lexeme`), and the
written form of a float in a source text is such a text, whose float is the one that was written
(`literal_spec`).
-/

namespace MiniGo.Lexer

/-! ## Digits -/

/-- Nothing but decimal digits. -/
def AllDigits (text : List Char) : Prop := ∀ c ∈ text, CharClass.isDigit c = true

theorem span_append {test : Char → Bool} {text rest : List Char} (all : ∀ c ∈ text, test c = true)
    (stops : ∀ c ∈ rest.head?, test c = false) : (text ++ rest).span test = (text, rest) := by
  rw [List.span_eq_takeWhile_dropWhile, List.takeWhile_append_of_pos all, List.dropWhile_append_of_pos all]
  cases rest with
  | nil => simp
  | cons c rest => simp [stops c rfl]

theorem allDigits_toDigits (n : Nat) : AllDigits (Nat.toDigits 10 n) :=
  fun _ member => Nat.isDigit_of_mem_toDigits (by decide) (by decide) member

theorem allDigits_zeros (count : Nat) : AllDigits (List.replicate count '0') := by
  intro c member
  rw [(List.mem_replicate.mp member).2]
  rfl

theorem AllDigits.append {first second : List Char} (all : AllDigits first) (others : AllDigits second) :
    AllDigits (first ++ second) := List.forall_mem_append.mpr ⟨all, others⟩

theorem digitsValue_eq (digits : List Char) : digitsValue digits = Nat.ofDigitChars 10 digits 0 := rfl

theorem digitsValue_toDigits (n : Nat) : digitsValue (Nat.toDigits 10 n) = n := Nat.ofDigitChars_ten_toDigits

theorem digitsValue_append_zeros (digits : List Char) (count : Nat) :
    digitsValue (digits ++ List.replicate count '0') = digitsValue digits * 10 ^ count := by
  rw [digitsValue_eq, Nat.ofDigitChars_append, Nat.ofDigitChars_replicate_zero, Nat.mul_comm, digitsValue_eq]

theorem digitsValue_zeros_append (count : Nat) (digits : List Char) :
    digitsValue (List.replicate count '0' ++ digits) = digitsValue digits := by
  rw [digitsValue_eq, Nat.ofDigitChars_append, Nat.ofDigitChars_replicate_zero, Nat.mul_zero, digitsValue_eq]

/-! ## Texts of numbers -/

/-- The parts of a number that begins with a digit. -/
structure NumberText.Formed (number : NumberText) : Prop where
  begins : number.whole ≠ []
  whole : AllDigits number.whole
  fraction : ∀ digits, number.fraction? = some digits → AllDigits digits
  exponent : ∀ mark sign digits, number.exponent? = some (mark, sign, digits) →
    (mark = 'e' ∨ mark = 'E') ∧ (∀ c, sign = some c → c = '+' ∨ c = '-') ∧ digits ≠ [] ∧ AllDigits digits

/-- A number in front of this text ends there. -/
def EndsNumber (rest : List Char) : Prop :=
  ∀ c ∈ rest.head?, CharClass.isDigit c = false ∧ c ≠ '.' ∧ c ≠ 'e' ∧ c ≠ 'E'

theorem EndsNumber.digits {rest : List Char} (ends : EndsNumber rest) :
    ∀ c ∈ rest.head?, CharClass.isDigit c = false := fun c member => (ends c member).1

theorem scanExponent_none {rest : List Char} (ends : EndsNumber rest) : scanExponent rest = (none, rest) := by
  cases rest with
  | nil => rfl
  | cons c rest =>
      obtain ⟨_, _, lower, upper⟩ := ends c rfl
      unfold scanExponent
      simp [lower, upper]

theorem scanExponent_some {mark : Char} {sign : Option Char} {digits rest : List Char}
    (marks : mark = 'e' ∨ mark = 'E') (signs : ∀ c, sign = some c → c = '+' ∨ c = '-') (some : digits ≠ [])
    (all : AllDigits digits) (ends : EndsNumber rest) :
    scanExponent (mark :: (sign.toList ++ digits) ++ rest) = (.some (mark, sign, digits), rest) := by
  have read := span_append all ends.digits
  have full : digits.isEmpty = false := by simpa using some
  cases sign with
  | some c =>
      simp only [scanExponent, Option.toList_some, List.cons_append, List.nil_append, if_pos marks,
        if_pos (signs c rfl), read, full, Bool.false_eq_true, if_false]
  | none =>
      obtain ⟨first, others, rfl⟩ := List.exists_cons_of_ne_nil some
      have digit := all first List.mem_cons_self
      have plain : ¬ (first = '+' ∨ first = '-') := by
        rintro (rfl | rfl) <;> exact absurd digit (by decide)
      simp only [List.cons_append] at read
      simp only [scanExponent, Option.toList_none, List.cons_append, List.nil_append, if_pos marks,
        if_neg plain, read, List.isEmpty_cons, Bool.false_eq_true, if_false]

/-- A number is read back from its text. -/
theorem scanNumber_lexeme {number : NumberText} {rest : List Char} (formed : number.Formed)
    (ends : EndsNumber rest) : scanNumber (number.lexeme ++ rest) = (number, rest) := by
  obtain ⟨whole, fraction?, exponent?⟩ := number
  obtain ⟨_, wholes, fractions, exponents⟩ := formed
  dsimp only at wholes fractions exponents
  -- What stands behind the digits is read in the same way with and without an exponent.
  obtain ⟨tail, lexed, read, stops⟩ : ∃ tail,
      (⟨whole, fraction?, exponent?⟩ : NumberText).lexeme ++ rest
        = whole ++ ((fraction?.elim [] ('.' :: ·)) ++ tail) ∧
      scanExponent tail = (exponent?, rest) ∧
      ∀ c ∈ tail.head?, CharClass.isDigit c = false ∧ c ≠ '.' := by
    cases exponent? with
    | none =>
        refine ⟨rest, ?_, scanExponent_none ends, fun c member => ⟨(ends c member).1, (ends c member).2.1⟩⟩
        cases fraction? <;> simp [NumberText.lexeme]
    | some parts =>
        obtain ⟨mark, sign, digits⟩ := parts
        obtain ⟨marks, signs, some, all⟩ := exponents mark sign digits rfl
        refine ⟨mark :: (sign.toList ++ digits) ++ rest, ?_, scanExponent_some marks signs some all ends, ?_⟩
        · cases fraction? <;> simp [NumberText.lexeme]
        · rintro c ⟨⟩
          rcases marks with rfl | rfl <;> exact ⟨rfl, by decide⟩
  rw [lexed]
  unfold scanNumber
  cases fraction? with
  | none =>
      rw [Option.elim_none, List.nil_append, span_append wholes fun c member => (stops c member).1]
      cases tail with
      | nil => simp [read]
      | cons c tail =>
          obtain ⟨_, point⟩ := stops c rfl
          simp [read, point]
  | some digits =>
      rw [Option.elim_some, span_append wholes (by rintro c ⟨⟩; rfl)]
      simp only [List.cons_append]
      rw [span_append (fractions digits rfl) fun c member => (stops c member).1]
      simp [read]

/-! ## Integers -/

def integerText (magnitude : Nat) : NumberText := ⟨Nat.toDigits 10 magnitude, none, none⟩

theorem integerText_formed (magnitude : Nat) : (integerText magnitude).Formed where
  begins := List.ne_nil_of_length_pos Nat.length_toDigits_pos
  whole := allDigits_toDigits magnitude
  fraction _ same := by cases same
  exponent _ _ _ same := by cases same

theorem integerText_word {magnitude : Nat} (small : magnitude < UInt64.size) :
    (integerText magnitude).word? = some (.integer magnitude) := by
  simp [integerText, NumberText.word?, digitsValue_toDigits, small]

end MiniGo.Lexer

namespace MiniGo.Decimal

open Lexer

/-! ## Floats and their bits -/

theorem nearestBits_le (numerator denominator : Nat) : nearestBits numerator denominator ≤ infinityBits := by
  unfold nearestBits
  split
  · exact Nat.zero_le _
  · exact Nat.min_le_right ..

theorem nearestBitsOfDecimal_le (mantissa : Nat) (exponent : Int) :
    nearestBitsOfDecimal mantissa exponent ≤ infinityBits := by
  unfold nearestBitsOfDecimal
  split
  · exact Nat.zero_le _
  dsimp only
  split
  · exact le_rfl
  split
  · exact Nat.zero_le _
  · split <;> exact nearestBits_le ..

theorem toBits_ofBits {bits : UInt64} (number : bits.toNat ≤ infinityBits) :
    (Float.ofBits bits).toBits = bits := by
  have kept : @Float.Model.UnpackedFloat.isNaNBits .binary64 bits.toBitVec = false := by
    rw [Float.Model.UnpackedFloat.isNaNBits, decide_eq_false_iff_not,
      Float.Model.UnpackedFloat.unpackExponent_def, Float.Model.UnpackedFloat.unpackMantissa_def]
    rintro ⟨exponent, mantissa⟩
    have field := congrArg BitVec.toNat exponent
    refine mantissa (BitVec.eq_of_toNat_eq ?_)
    simp only [BitVec.extractLsb'_toNat, UInt64.toNat_toBitVec, Nat.shiftRight_eq_div_pow] at field ⊢
    simp at field ⊢
    unfold infinityBits at number
    omega
  have packed := @Float.Model.UnpackedFloat.pack_unpack .binary64 bits.toBitVec
  rw [kept] at packed
  exact UInt64.toBitVec_inj.mp packed

theorem toBits_toFloat (mantissa : Nat) (exponent : Int) :
    (toFloat mantissa exponent).toBits.toNat = nearestBitsOfDecimal mantissa exponent := by
  have most := nearestBitsOfDecimal_le mantissa exponent
  have whole : (UInt64.ofNat (nearestBitsOfDecimal mantissa exponent)).toNat
      = nearestBitsOfDecimal mantissa exponent := UInt64.toNat_ofNat_of_lt' (most.trans_lt (by decide))
  rw [toFloat, toBits_ofBits (by rw [whole]; exact most), whole]

theorem toFloat_eq {value : Float} {mantissa : Nat} {exponent : Int}
    (same : nearestBitsOfDecimal mantissa exponent = value.toBits.toNat) : toFloat mantissa exponent = value := by
  rw [toFloat, same, UInt64.ofNat_toNat, Float.ofBits_toBits]

/-! ## Written forms of floats -/

/-- A text of a number that stands for the float with these bits. -/
structure Denotes (bits : Nat) (number : NumberText) : Prop where
  formed : number.Formed
  word : ∃ mantissa exponent, number.word? = some (.float (toFloat mantissa exponent)) ∧
    nearestBitsOfDecimal mantissa exponent = bits

theorem fraction_denotes {whole fraction : List Char} (begins : whole ≠ []) (wholes : AllDigits whole)
    (fractions : AllDigits fraction) :
    Denotes (nearestBitsOfDecimal (digitsValue (whole ++ fraction)) (-(fraction.length : Int)))
      ⟨whole, some fraction, none⟩ where
  formed := ⟨begins, wholes, by rintro _ ⟨⟩; exact fractions, by rintro _ _ _ ⟨⟩⟩
  word := ⟨_, _, rfl, by rw [Option.getD_some, Int.zero_sub]⟩

/-- The mark of an exponent of ten, its sign if it is negative, and its digits. -/
def exponentText (leading : Int) : Char × Option Char × List Char :=
  ('e', if leading < 0 then some '-' else none, Nat.toDigits 10 leading.natAbs)

theorem exponent_denotes {whole : List Char} {fraction? : Option (List Char)} (begins : whole ≠ [])
    (wholes : AllDigits whole) (fractions : ∀ digits, fraction? = some digits → AllDigits digits) (leading : Int) :
    Denotes (nearestBitsOfDecimal (digitsValue (whole ++ fraction?.getD []))
        (leading - (fraction?.getD []).length))
      ⟨whole, fraction?, some (exponentText leading)⟩ where
  formed := by
    refine ⟨begins, wholes, fractions, ?_⟩
    rintro mark sign digits ⟨⟩
    refine ⟨Or.inl rfl, fun c same => Or.inr ?_, List.ne_nil_of_length_pos Nat.length_toDigits_pos,
      allDigits_toDigits _⟩
    split at same <;> cases same
    rfl
  word := by
    have size := digitsValue_toDigits leading.natAbs
    refine ⟨_, leading - (fraction?.getD []).length, ?_, rfl⟩
    rw [exponentText]
    by_cases negative : leading < 0
    · have signed : -(digitsValue (Nat.toDigits 10 leading.natAbs) : Int) = leading := by
        rw [size, Int.ofNat_natAbs_of_nonpos negative.le, Int.neg_neg]
      rw [if_pos negative]
      cases fraction? <;> exact congrArg (fun exponent => some (Word.float (toFloat _ (exponent - _)))) signed
    · have signed : (digitsValue (Nat.toDigits 10 leading.natAbs) : Int) = leading := by
        rw [size, Int.natAbs_of_nonneg (Int.not_lt.mp negative)]
      rw [if_neg negative]
      cases fraction? <;> exact congrArg (fun exponent => some (Word.float (toFloat _ (exponent - _)))) signed

variable {bits : Nat} {decimal : Digits}

theorem positional_denotes (reads : nearestBitsOfDecimal decimal.digits decimal.exponent = bits) {leading : Int}
    (placed : leading = decimal.exponent + (decimalText decimal.digits).length - 1) :
    ∃ number, Denotes bits number ∧ number.lexeme = positional true (decimalText decimal.digits) leading := by
  have digits := allDigits_toDigits decimal.digits
  have value := digitsValue_toDigits decimal.digits
  have full : Nat.toDigits 10 decimal.digits ≠ [] := List.ne_nil_of_length_pos Nat.length_toDigits_pos
  rw [← decimalText] at digits value full
  generalize decimalText decimal.digits = text at *
  rcases leading with places | below
  · by_cases short : text.length ≤ places + 1
    · -- A whole number: zeros stand in for the exponent.
      refine ⟨⟨text ++ List.replicate (places + 1 - text.length) '0', some ['0'], none⟩, ?_, ?_⟩
      · have denotes := fraction_denotes (List.append_ne_nil_of_left_ne_nil full _)
          (digits.append (allDigits_zeros (places + 1 - text.length))) (allDigits_zeros 1)
        have shift : -(1 : Int) + ((places + 1 - text.length + 1 : Nat) : Int) = decimal.exponent := by
          simp only [Int.ofNat_eq_natCast] at placed
          omega
        rw [digitsValue_append_zeros, digitsValue_append_zeros, value, Nat.mul_assoc, ← Nat.pow_add,
          List.length_replicate, Nat.cast_one, nearestBitsOfDecimal_zeros, shift, reads] at denotes
        exact denotes
      · simp [NumberText.lexeme, positional, List.take_of_length_le short, List.drop_of_length_le short]
    -- The point falls among the digits.
    · refine ⟨⟨text.take (places + 1), some (text.drop (places + 1)), none⟩, ?_, ?_⟩
      · have denotes := @fraction_denotes (text.take (places + 1)) (text.drop (places + 1))
          (by simpa using full) (fun c member => digits c (List.mem_of_mem_take member))
          (fun c member => digits c (List.mem_of_mem_drop member))
        have shift : -((text.length - (places + 1) : Nat) : Int) = decimal.exponent := by
          simp only [Int.ofNat_eq_natCast] at placed
          omega
        rw [List.take_append_drop, value, List.length_drop, shift, reads] at denotes
        exact denotes
      · have some : text.drop (places + 1) ≠ [] := by simpa using short
        simp [NumberText.lexeme, positional, some, Nat.min_eq_left (Nat.le_of_not_le short)]
  -- The point stands before the digits, with zeros in between.
  · refine ⟨⟨['0'], some (List.replicate below '0' ++ text), none⟩, ?_, ?_⟩
    · have denotes := @fraction_denotes (List.replicate 1 '0') _ (List.cons_ne_nil _ _) (allDigits_zeros 1) ((allDigits_zeros below).append digits)
      have shift : -((below + text.length : Nat) : Int) = decimal.exponent := by
        rw [Int.negSucc_eq] at placed
        omega
      rw [digitsValue_zeros_append, digitsValue_zeros_append, value, List.length_append, List.length_replicate,
        shift, reads] at denotes
      exact denotes
    · simp [NumberText.lexeme, positional]

theorem scientific_denotes (reads : nearestBitsOfDecimal decimal.digits decimal.exponent = bits) {leading : Int}
    (placed : leading = decimal.exponent + (decimalText decimal.digits).length - 1) :
    ∃ number, Denotes bits number ∧
      number.lexeme = scientific Layout.literal (decimalText decimal.digits) leading := by
  have digits := allDigits_toDigits decimal.digits
  have value := digitsValue_toDigits decimal.digits
  have full := Nat.length_toDigits_pos (b := 10) (n := decimal.digits)
  have width : padded Layout.literal.exponentWidth (decimalText leading.natAbs) = Nat.toDigits 10 leading.natAbs := by
    have positive := Nat.length_toDigits_pos (b := 10) (n := leading.natAbs)
    have enough : 1 - (Nat.toDigits 10 leading.natAbs).length = 0 := by omega
    simp [padded, Layout.literal, decimalText, enough]
  have sign : (if leading < 0 then ['-'] else if Layout.literal.plusSign then ['+'] else [])
      = (if leading < 0 then some '-' else none).toList := by
    split <;> rfl
  unfold scientific
  rw [width, sign]
  rw [← decimalText] at digits value full
  generalize decimalText decimal.digits = text at *
  -- A single digit is written without a point.
  match text, full with
  | [single], _ =>
      refine ⟨⟨[single], none, some (exponentText leading)⟩, ?_, ?_⟩
      · have denotes := @exponent_denotes _ none (List.cons_ne_nil _ _) digits (by rintro _ ⟨⟩) leading
        have shift : leading = decimal.exponent := by simp at placed; omega
        rw [Option.getD_none, List.append_nil, value, List.length_nil, Nat.cast_zero, Int.sub_zero, shift,
          reads] at denotes
        rw [shift]
        exact denotes
      · simp [NumberText.lexeme, exponentText]
  | first :: second :: rest, _ =>
      refine ⟨⟨[first], some (second :: rest), some (exponentText leading)⟩, ?_, ?_⟩
      · have denotes := @exponent_denotes [first] (some (second :: rest))
          (List.cons_ne_nil _ _) (List.forall_mem_singleton.mpr (digits first List.mem_cons_self))
          (by rintro _ ⟨⟩; exact fun c member => digits c (List.mem_cons_of_mem _ member)) leading
        have shift : leading - ((second :: rest).length : Int) = decimal.exponent := by
          simp only [List.length_cons] at placed ⊢
          omega
        rw [Option.getD_some, List.singleton_append, value, shift, reads] at denotes
        exact denotes
      · simp [NumberText.lexeme, exponentText]

theorem positive_denotes (finite : bits < infinityBits) :
    ∃ number, Denotes bits number ∧ number.lexeme = Layout.literal.positive bits := by
  unfold Layout.positive
  by_cases zero : bits = 0
  · subst zero
    exact ⟨⟨['0'], some ['0'], none⟩, fraction_denotes (List.cons_ne_nil _ _) (allDigits_zeros 1) (allDigits_zeros 1), rfl⟩
  have reads := nearestBitsOfDecimal_shortest Layout.literal.tie (Nat.pos_of_ne_zero zero) finite
  rw [if_neg zero]
  dsimp only
  split
  · exact positional_denotes reads rfl
  · exact scientific_denotes reads rfl

/-- The float is not infinite. -/
def IsFinite (value : Float) : Prop := value.toBits.toNat % signBit ≠ infinityBits

instance (value : Float) : Decidable (IsFinite value) := inferInstanceAs (Decidable (_ ≠ _))

/-- The written form of a finite float that a literal stands for is read as this float. -/
theorem literal_spec {value : Float} (decimal : ∃ digits exponent, value = toFloat digits exponent)
    (finite : IsFinite value) : ∃ number : NumberText, number.Formed ∧
      number.lexeme = (Layout.literal.render value).toList ∧ number.word? = some (.float value) := by
  obtain ⟨digits, exponent, rfl⟩ := decimal
  have bits := toBits_toFloat digits exponent
  have most := nearestBitsOfDecimal_le digits exponent
  unfold IsFinite at finite
  rw [← bits] at most
  generalize toFloat digits exponent = value at *
  have plain : value.toBits.toNat % signBit = value.toBits.toNat :=
    Nat.mod_eq_of_lt (most.trans_lt (by decide))
  rw [plain] at finite
  obtain ⟨number, ⟨formed, mantissa, power, word, reads⟩, lexeme⟩ :=
    positive_denotes (Nat.lt_of_le_of_ne most finite)
  refine ⟨number, formed, ?_, by rw [word, toFloat_eq reads]⟩
  have unsigned : ¬ signBit ≤ value.toBits.toNat := by
    have : infinityBits < signBit := by decide
    omega
  unfold Layout.render
  dsimp only
  rw [plain, if_neg (Nat.not_lt.mpr most), if_neg finite, if_neg (by simpa using unsigned), lexeme]
  simp

/-- The written form of an infinite float that a literal stands for. -/
theorem literal_infinite {value : Float} (decimal : ∃ digits exponent, value = toFloat digits exponent)
    (infinite : ¬ IsFinite value) : Layout.literal.render value = "inf" := by
  obtain ⟨digits, exponent, rfl⟩ := decimal
  have bits := toBits_toFloat digits exponent
  have most := nearestBitsOfDecimal_le digits exponent
  rw [← bits] at most
  rw [IsFinite, not_not] at infinite
  have unsigned : ¬ signBit ≤ (toFloat digits exponent).toBits.toNat := by
    have : infinityBits < signBit := by decide
    omega
  unfold Layout.render
  dsimp only
  rw [infinite, if_neg (lt_irrefl _), if_pos rfl, if_neg (by simpa using unsigned)]
  rfl

end MiniGo.Decimal
