import MiniGo.Proofs.Syntax.Spelling
import MiniGo.Proofs.Tokens.Quotes

/-!
# Looking ahead

To find the end of a word the lexer looks at what stands behind it, sometimes a few characters far. It never looks
past a blank: a word that ends in a text is read from the text with a blank behind it, whatever follows
(`scanWord_blank`).
-/

namespace MiniGo.Lexer

variable {α β γ : Type} {test : Char → Bool} {text front mid behind read left : List Char}

/-- A scanner that leaves what is behind its result, and does not look past a blank: a result that lies in a text
is found in the text with a blank behind it. -/
structure Steady (scan : List Char → α × List Char) : Prop where
  leaves : ∀ text, (scan text).2 <:+ text
  blank : ∀ {front mid behind value} more, scan (front ++ behind) = (value, mid ++ behind) →
    scan (front ++ ' ' :: more) = (value, mid ++ ' ' :: more)

namespace Steady

variable {first : List Char → α × List Char} {second : List Char → β × List Char}

theorem map (steady : Steady first) (view : α → γ) : Steady fun text => (view (first text).1, (first text).2) where
  leaves := steady.leaves
  blank {front mid behind value} more scanned := by
    obtain ⟨rfl, left⟩ := Prod.mk.inj scanned
    rw [steady.blank more (Prod.ext rfl left)]

theorem seq (steady : Steady first) (other : Steady second) (join : α → β → γ) :
    Steady fun text => (join (first text).1 (second (first text).2).1, (second (first text).2).2) where
  leaves text := (other.leaves _).trans (steady.leaves text)
  blank {front mid behind value} more scanned := by
    obtain ⟨rfl, left⟩ := Prod.mk.inj scanned
    obtain ⟨passed, same⟩ := other.leaves (first (front ++ behind)).2
    rw [left, ← List.append_assoc] at same
    have one := steady.blank more (Prod.ext rfl same.symm)
    have two : second (passed ++ mid ++ behind) = ((second (first (front ++ behind)).2).1, mid ++ behind) := by
      rw [same, ← left]
    rw [one]
    dsimp only
    rw [other.blank more two]

end Steady

/-! ## Numbers -/

theorem span_cases (spans : text.span test = (read, left)) :
    text = read ++ left ∧ (∀ c ∈ read, test c = true) ∧ ∀ c ∈ left.head?, test c = false := by
  rw [List.span_eq_takeWhile_dropWhile] at spans
  obtain ⟨rfl, rfl⟩ := Prod.mk.inj spans
  refine ⟨List.takeWhile_append_dropWhile.symm, fun c => List.mem_takeWhile_imp, fun c first => ?_⟩
  have stops := List.head?_dropWhile_not test text
  rw [first] at stops
  exact stops

theorem steady_span (stops : test ' ' = false) : Steady (List.span test) where
  leaves text := by
    rw [List.span_eq_takeWhile_dropWhile]
    exact List.dropWhile_suffix test
  blank {front mid behind value} more spans := by
    obtain ⟨split, all, ends⟩ := span_cases spans
    rw [← List.append_assoc] at split
    obtain rfl := List.append_cancel_right split
    rw [List.append_assoc]
    refine span_append all fun c first => ?_
    cases mid with
    | nil =>
        obtain rfl := Option.some.inj first
        exact stops
    | cons other mid => exact ends c first

theorem steady_digits : Steady (List.span CharClass.isDigit) := steady_span rfl

/-- Reads the digits behind a point, if one follows. -/
def scanFraction : List Char → Option (List Char) × List Char
  | '.' :: behind => (some (behind.span CharClass.isDigit).1, (behind.span CharClass.isDigit).2)
  | text => (none, text)

theorem scanFraction_none (other : ∀ behind, text ≠ '.' :: behind) : scanFraction text = (none, text) := by
  unfold scanFraction
  split
  · exact absurd rfl (other _)
  · rfl

theorem scanFraction_leaves (text : List Char) : (scanFraction text).2 <:+ text := by
  unfold scanFraction
  split
  · rename_i behind
    exact (steady_digits.leaves behind).trans (List.suffix_cons '.' behind)
  · exact List.suffix_refl text

theorem steady_fraction : Steady scanFraction where
  leaves := scanFraction_leaves
  blank {front mid behind value} more scanned := by
    cases front with
    | nil =>
        have short := (scanFraction_leaves behind).length_le
        by_cases point : ∃ text, behind = '.' :: text
        · obtain ⟨text, rfl⟩ := point
          have shorter := (steady_digits.leaves text).length_le
          have left := congrArg List.length (Prod.mk.inj scanned).2
          rw [List.length_append, List.length_cons] at left
          omega
        · rw [List.nil_append, scanFraction_none (not_exists.mp point)] at scanned
          obtain ⟨rfl, left⟩ := Prod.mk.inj scanned
          rw [List.self_eq_append_left.mp left]
          exact scanFraction_none nofun
    | cons c front =>
        by_cases point : c = '.'
        · subst point
          exact (steady_digits.map some).blank more scanned
        · have other (text : List Char) : ∀ behind, c :: text ≠ '.' :: behind := fun _ same =>
            point (List.cons.inj same).1
          rw [List.cons_append, scanFraction_none (other _)] at scanned
          obtain ⟨rfl, left⟩ := Prod.mk.inj scanned
          rw [← List.cons_append] at left
          rw [← List.append_cancel_right left, List.cons_append, scanFraction_none (other _)]

/-- Reads digits behind something that is read already, or leaves it where none follow. -/
def scanDigits (begun : List Char) (found : List Char → γ) (text : List Char) : Option γ × List Char :=
  if (text.span CharClass.isDigit).1.isEmpty then (none, begun ++ text)
  else (some (found (text.span CharClass.isDigit).1), (text.span CharClass.isDigit).2)

theorem scanDigits_blank {begun : List Char} {found : List Char → γ} {value : Option γ} (more : List Char)
    (scanned : scanDigits begun found (front ++ behind) = (value, mid ++ behind)) :
    scanDigits begun found (front ++ ' ' :: more) = (value, mid ++ ' ' :: more) := by
  unfold scanDigits at scanned ⊢
  cases spans : (front ++ behind).span CharClass.isDigit with
  | mk digits left =>
      rw [spans] at scanned
      cases digits with
      | nil =>
          obtain ⟨rfl, _, _⟩ := span_cases spans
          obtain ⟨rfl, same⟩ := Prod.mk.inj scanned
          rw [← List.append_assoc] at same
          rw [steady_digits.blank more spans, ← List.append_cancel_right same, List.append_assoc]
          rfl
      | cons digit digits =>
          obtain ⟨rfl, rfl⟩ := Prod.mk.inj scanned
          rw [steady_digits.blank more spans]
          rfl

theorem scanExponent_signed {mark sign : Char} (marks : mark = 'e' ∨ mark = 'E') (signs : sign = '+' ∨ sign = '-')
    (text : List Char) :
    scanExponent (mark :: sign :: text) = scanDigits [mark, sign] (fun digits => (mark, some sign, digits)) text := by
  unfold scanExponent scanDigits
  dsimp only
  rw [if_pos marks, if_pos signs]
  rfl

theorem scanExponent_plain {mark c : Char} (marks : mark = 'e' ∨ mark = 'E') (signs : ¬ (c = '+' ∨ c = '-'))
    (text : List Char) :
    scanExponent (mark :: c :: text) = scanDigits [mark] (fun digits => (mark, none, digits)) (c :: text) := by
  unfold scanExponent scanDigits
  dsimp only
  rw [if_pos marks, if_neg signs]
  rfl

theorem scanExponent_other {c : Char} (other : ¬ (c = 'e' ∨ c = 'E')) (text : List Char) :
    scanExponent (c :: text) = (none, c :: text) := by
  unfold scanExponent
  dsimp only
  rw [if_neg other]

theorem exponent_digits {mark : Char} {sign : Option Char} {digits : List Char}
    (scanned : (scanExponent text).1 = some (mark, sign, digits)) : digits ≠ [] := by
  unfold scanExponent at scanned
  grind

theorem steady_exponent : Steady scanExponent where
  leaves text := ⟨_, scanExponent_append text⟩
  blank {front mid behind value} more scanned := by
    have whole := scanExponent_append (front ++ behind)
    rw [scanned, ← List.append_assoc] at whole
    have same := List.append_cancel_right whole
    match front with
    | [] =>
        obtain ⟨none, rfl⟩ := List.append_eq_nil_iff.mp same
        obtain rfl : value = .none := by
          cases value with
          | none => rfl
          | some found => cases none
        exact scanExponent_other (by decide) more
    | mark :: front =>
        by_cases marks : mark = 'e' ∨ mark = 'E'
        · cases front with
          | nil =>
              -- The digits of an exponent would stand behind the text.
              obtain rfl : value = .none := by
                cases value with
                | none => rfl
                | some found =>
                    have digits := exponent_digits (congrArg Prod.fst scanned)
                    have lengths := congrArg List.length same
                    simp [exponentChars, digits] at lengths
              obtain rfl : mid = [mark] := same
              have alone : scanDigits [mark] (fun digits => (mark, (none : Option Char), digits)) ([] ++ [])
                  = (none, [mark] ++ []) := rfl
              exact (scanExponent_plain marks (by decide) more).trans (scanDigits_blank more alone)
          | cons sign front =>
              rw [List.cons_append, List.cons_append] at scanned ⊢
              by_cases signs : sign = '+' ∨ sign = '-'
              · rw [scanExponent_signed marks signs] at scanned ⊢
                exact scanDigits_blank more scanned
              · rw [scanExponent_plain marks signs, ← List.cons_append] at scanned ⊢
                exact scanDigits_blank more scanned
        · rw [List.cons_append, scanExponent_other marks] at scanned
          obtain ⟨rfl, _⟩ := Prod.mk.inj scanned
          obtain rfl : mid = mark :: front := same
          rw [List.cons_append, scanExponent_other marks]

theorem scanNumber_eq (text : List Char) :
    scanNumber text = (⟨(text.span CharClass.isDigit).1, (scanFraction (text.span CharClass.isDigit).2).1,
      (scanExponent (scanFraction (text.span CharClass.isDigit).2).2).1⟩,
      (scanExponent (scanFraction (text.span CharClass.isDigit).2).2).2) := by
  unfold scanNumber
  generalize text.span CharClass.isDigit = both
  obtain ⟨whole, rest⟩ := both
  dsimp only
  split
  · rfl
  · rename_i other
    rw [scanFraction_none other]

theorem steady_number : Steady scanNumber := by
  have steady := (steady_digits.seq steady_fraction Prod.mk).seq steady_exponent fun parts exponent? =>
    (⟨parts.1, parts.2, exponent?⟩ : NumberText)
  rwa [← funext scanNumber_eq] at steady

/-! ## Marks and operators -/

theorem prefix_of_blank {spelling more : List Char} (noBlank : ' ' ∉ spelling) (found : spelling <+: front ++ ' ' :: more) :
    spelling <+: front := by
  rcases List.prefix_or_prefix_of_prefix found (List.prefix_append front _) with short | ⟨tail, rfl⟩
  · exact short
  · rw [List.prefix_append_right_inj] at found
    cases tail with
    | nil => rw [List.append_nil]
    | cons c tail =>
        obtain ⟨rfl, _⟩ := List.cons_prefix_cons.mp found
        exact absurd (List.mem_append_right front List.mem_cons_self) noBlank

/-- A mark or an operator that lies in a text is the longest one with a blank behind the text too. -/
theorem scanFixed_blank {word : Word} {lexeme : List Char} (more : List Char)
    (scanned : scanFixed (front ++ behind) = some (word, lexeme, mid ++ behind)) :
    scanFixed (front ++ ' ' :: more) = some (word, lexeme, mid ++ ' ' :: more) := by
  have noBlank : ∀ entry ∈ Word.fixed, ' ' ∉ entry.1.toList := by simp [Word.fixed]
  obtain ⟨whole, _⟩ := scanFixed_append scanned
  dsimp only at whole
  rw [← List.append_assoc] at whole
  obtain rfl := List.append_cancel_right whole
  unfold scanFixed at scanned ⊢
  generalize Word.fixed = table at noBlank scanned
  induction table with
  | nil => cases scanned
  | cons entry table ih =>
      obtain ⟨here, others⟩ := List.forall_mem_cons.mp noBlank
      rw [List.findSome?_cons] at scanned ⊢
      dsimp only at scanned ⊢
      by_cases found : entry.1.toList <+: lexeme ++ mid ++ behind
      · rw [if_pos (List.isPrefixOf_iff_prefix.mpr found)] at scanned
        have same := Option.some.inj scanned
        obtain rfl : entry.1.toList = lexeme := congrArg (·.2.1) same
        obtain rfl : entry.2 = word := congrArg (·.1) same
        rw [List.append_assoc, if_pos (List.isPrefixOf_iff_prefix.mpr (List.prefix_append _ _)), List.drop_left]
      · have missing : ¬ entry.1.toList <+: lexeme ++ mid ++ ' ' :: more := fun longer =>
          found ((prefix_of_blank here longer).trans (List.prefix_append _ _))
        rw [if_neg (List.isPrefixOf_iff_prefix.not.mpr found)] at scanned
        rw [if_neg (List.isPrefixOf_iff_prefix.not.mpr missing)]
        exact ih others scanned

/-! ## Words -/

/-- A number begins here: with a digit, or with a point in front of one. -/
def opensNumber (first : Char) (behind : List Char) : Bool :=
  CharClass.isDigit first || (first == '.' && behind.head?.any CharClass.isDigit)

/-- What is read in front of a text that begins like a literal, a name, a mark or an operator. -/
inductive ReadsWord (first : Char) (behind : List Char) : Word × List Char × List Char → Prop where
  | string {value lexeme rest : List Char} : first = '"' → scanString [] ['"'] behind = some (value, lexeme, rest) →
      ReadsWord first behind (.string (String.ofList value), lexeme, rest)
  | name {name rest : List Char} : first ≠ '"' → CharClass.startsName first = true →
      (first :: behind).span CharClass.continuesName = (name, rest) →
      ReadsWord first behind (nameWord (String.ofList name), name, rest)
  | number {number : NumberText} {word : Word} {rest : List Char} : first ≠ '"' → CharClass.startsName first = false →
      opensNumber first behind = true → scanNumber (first :: behind) = (number, rest) → number.word? = some word →
      ReadsWord first behind (word, number.lexeme, rest)
  | fixed {found : Word × List Char × List Char} : first ≠ '"' → CharClass.startsName first = false →
      opensNumber first behind = false → scanFixed (first :: behind) = some found → ReadsWord first behind found

theorem scanWord_iff {location : Location} {first : Char} {behind : List Char} {found : Word × List Char × List Char} :
    scanWord location (first :: behind) = .ok found ↔ ReadsWord first behind found := by
  unfold scanWord
  dsimp only
  constructor
  · intro scanned
    split at scanned
    · rename_i quote
      split at scanned
      · rename_i read
        cases scanned
        exact .string quote read
      · cases scanned
    split at scanned
    · rename_i quote starts
      cases scanned
      exact .name quote starts rfl
    split at scanned
    · rename_i quote starts number
      split at scanned
      · rename_i word
        cases scanned
        exact .number quote (Bool.eq_false_iff.mpr starts) number rfl word
      · cases scanned
    · rename_i quote starts number
      split at scanned
      · rename_i read
        cases scanned
        exact .fixed quote (Bool.eq_false_iff.mpr starts) (Bool.eq_false_iff.mpr number) read
      · cases scanned
  · intro reads
    cases reads with
    | string quote read => rw [if_pos quote, read]
    | name quote starts read => rw [if_neg quote, if_pos starts, read]
    | number quote starts number read word =>
        unfold opensNumber at number
        rw [if_neg quote, if_neg (Bool.eq_false_iff.mp starts), if_pos number, read]
        dsimp only
        rw [word]
    | fixed quote starts number read =>
        unfold opensNumber at number
        rw [if_neg quote, if_neg (Bool.eq_false_iff.mp starts), if_neg (Bool.eq_false_iff.mp number), read]

theorem opensNumber_append {first : Char} (ahead : front ≠ []) :
    opensNumber first (front ++ behind) = opensNumber first (front ++ ' ' :: text) := by
  unfold opensNumber
  rw [List.head?_append_of_ne_nil front ahead, List.head?_append_of_ne_nil front ahead]

theorem lexeme_point (digit : behind.head?.any CharClass.isDigit = true) :
    1 < (scanNumber ('.' :: behind)).1.lexeme.length := by
  cases behind with
  | nil => cases digit
  | cons c behind =>
      have isDigit : CharClass.isDigit c = true := digit
      have point : ('.' :: c :: behind).span CharClass.isDigit = ([], '.' :: c :: behind) := rfl
      have fraction : scanFraction ('.' :: c :: behind)
          = (some ((c :: behind).span CharClass.isDigit).1, ((c :: behind).span CharClass.isDigit).2) := rfl
      rw [scanNumber_eq, point, fraction]
      simp [NumberText.lexeme, List.span_eq_takeWhile_dropWhile, isDigit]

theorem ReadsWord.blank {first : Char} {word : Word} {lexeme tail : List Char} (spelled : lexeme = first :: tail)
    (reads : ReadsWord first (tail ++ mid ++ behind) (word, lexeme, mid ++ behind)) (more : List Char) :
    ReadsWord first (tail ++ mid ++ ' ' :: more) (word, lexeme, mid ++ ' ' :: more) := by
  cases reads with
  | string quote read =>
      obtain ⟨body, found, flat, rfl, rfl⟩ := scanString_some read
      have split := found.split
      rw [List.append_assoc, ← List.singleton_append, ← List.append_assoc body] at split
      obtain rfl := List.append_cancel_right split
      have again : FirstBare '"' (body ++ ['"'] ++ mid ++ ' ' :: more) body (mid ++ ' ' :: more) :=
        ⟨by simp, found.bare, found.first⟩
      exact .string quote (scanString_of_firstBare again flat)
  | name quote starts read =>
      rw [← List.cons_append] at read
      exact .name quote starts ((steady_span rfl).blank more read)
  | @number number _ _ quote starts opens read word =>
      rw [← List.cons_append] at read
      refine .number quote starts ?_ (steady_number.blank more read) word
      cases whole : tail ++ mid with
      | cons c front =>
          rw [whole] at opens
          rwa [← opensNumber_append (List.cons_ne_nil c front)]
      -- With nothing behind it a point would open no number, so the first character is a digit.
      | nil =>
          rw [whole] at opens
          cases digit : CharClass.isDigit first with
          | true => rw [opensNumber, digit, Bool.true_or]
          | false =>
              rw [opensNumber, digit, Bool.false_or, Bool.and_eq_true, beq_iff_eq] at opens
              obtain ⟨rfl, follows⟩ := opens
              have long := lexeme_point follows
              obtain ⟨rfl, rfl⟩ := List.append_eq_nil_iff.mp whole
              rw [List.append_nil, List.singleton_append, List.nil_append] at read
              rw [List.nil_append, read, spelled] at long
              exact absurd long (by decide)
  | fixed quote starts opens read =>
      rw [← List.cons_append] at read
      refine .fixed quote starts ?_ (scanFixed_blank more read)
      cases whole : tail ++ mid with
      | cons c front =>
          rw [whole] at opens
          rwa [← opensNumber_append (List.cons_ne_nil c front)]
      | nil =>
          rw [opensNumber, Bool.or_eq_false_iff] at opens ⊢
          exact ⟨opens.1, Bool.and_false _⟩

theorem scanWord_blank {location : Location} {word : Word} {lexeme : List Char} (ahead : lexeme ≠ [])
    (read : scanWord location (lexeme ++ (mid ++ behind)) = .ok (word, lexeme, mid ++ behind)) (place : Location)
    (more : List Char) :
    scanWord place (lexeme ++ (mid ++ ' ' :: more)) = .ok (word, lexeme, mid ++ ' ' :: more) := by
  obtain ⟨first, tail, spelled⟩ := List.exists_cons_of_ne_nil ahead
  rw [spelled, List.cons_append, ← List.append_assoc, ← spelled] at read ⊢
  exact scanWord_iff.mpr ((scanWord_iff.mp read).blank spelled more)

theorem scanWord_anywhere {location : Location} {found : Word × List Char × List Char} (place : Location)
    (ahead : text ≠ []) (read : scanWord location text = .ok found) : scanWord place text = .ok found := by
  obtain ⟨first, tail, rfl⟩ := List.exists_cons_of_ne_nil ahead
  exact scanWord_iff.mpr (scanWord_iff.mp read)

end MiniGo.Lexer
