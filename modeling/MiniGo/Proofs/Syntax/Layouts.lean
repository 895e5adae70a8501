import MiniGo.Proofs.Syntax.Places
import MiniGo.Proofs.Syntax.Reading

/-!
# Layouts of trees

The words of a layout stand apart (`spaced_program`), so its text is read as its words. Two exceptions
of the grammar matter: an operand behind a unary operator begins with no operator, and an integer in front
of arguments is not the smallest one, whose sign would be the first word.
-/

namespace MiniGo.Syntax

open Piece Layout

/-! ## First words -/

/-- The first word of the layout of an expression. -/
def firstWord : Expr → Word
  | .integer value => if value < 0 then .operator .subtract else .integer value.toInt.natAbs
  | .float value => .float value
  | .string value => .string value
  | .identifier name _ => .identifier name
  | .qualified package _ _ => .identifier package
  | .binary left op _ _ => if weakerThan op.precedence left then .mark .leftParen else firstWord left
  | .unary op _ _ => unaryWord op
  | .call callee _ _ => if calleeNeedsParens callee then .mark .leftParen else firstWord callee
  | .function _ => .keyword .funcWord

theorem layout_expr (indent : Nat) : (found : Expr) →
    ∃ rest, Layout.expr indent found = .word (firstWord found) :: rest
  | .integer value => by
      unfold Layout.expr Layout.integer firstWord
      split <;> exact ⟨_, rfl⟩
  | .float _ | .string _ | .identifier _ _ | .qualified _ _ _ | .unary _ _ _ | .function _ => by
      unfold Layout.expr
      exact ⟨_, rfl⟩
  | .binary left op right _ => by
      obtain ⟨rest, same⟩ := layout_expr indent left
      unfold Layout.expr firstWord
      cases weakerThan op.precedence left with
      | true => exact ⟨_, rfl⟩
      | false =>
          rw [same]
          exact ⟨_, rfl⟩
  | .call callee args _ => by
      obtain ⟨rest, same⟩ := layout_expr indent callee
      unfold Layout.expr firstWord
      cases calleeNeedsParens callee with
      | true => exact ⟨_, rfl⟩
      | false =>
          rw [same]
          exact ⟨_, rfl⟩

/-- A word that an operand begins with: a literal, a name, a function or a parenthesis. -/
def startsOperand : Word → Bool
  | .integer _ | .float _ | .string _ | .identifier _ | .keyword .funcWord | .mark .leftParen => true
  | _ => false

/-- An operand of a unary operator that needs no parentheses: it is no operation and has no sign. -/
def isOperand (found : Expr) : Bool := !unaryNeedsParens found

theorem isOperand_callee {callee : Expr} {args : List Expr} {location : Location} (formed : Formed.expr callee)
    (callable : Callable (.call callee args location)) (plain : calleeNeedsParens callee = false) :
    isOperand callee = true := by
  cases callee with
  | integer value =>
      rcases formed with positive | smallest
      · simpa [isOperand, unaryNeedsParens] using positive
      · exact absurd smallest callable
  | binary _ _ _ _ | unary _ _ _ => cases plain
  | _ => rfl

theorem startsOperand_firstWord : (found : Expr) → Formed.expr found → Everywhere.expr Callable found →
    isOperand found = true → startsOperand (firstWord found) = true
  | .integer value, _, _, operand => by
      have plain : ¬ value < 0 := by simpa [isOperand, unaryNeedsParens] using operand
      rw [firstWord, if_neg plain]
      rfl
  | .float _, _, _, _ | .string _, _, _, _ | .identifier _ _, _, _, _ | .qualified _ _ _, _, _, _
  | .function _, _, _, _ => by
      unfold firstWord
      rfl
  | .binary .., _, _, operand | .unary .., _, _, operand => by cases operand
  | .call callee args location, formed, callable, _ => by
      cases needed : calleeNeedsParens callee with
      | true =>
          rw [firstWord, needed]
          rfl
      | false =>
          rw [firstWord, needed]
          refine startsOperand_firstWord callee formed.1 callable.2.1 (isOperand_callee formed.1 callable.1 needed)

/-! ## Words that stand apart -/

/-- The characters that may stand behind an expression, a type or a statement. -/
def stopChars : List Char := [' ', '\n', '(', ')', ',', ';', ':']

/-- A layout that ends what stands in front of it. -/
def Stops (pieces : List Piece) : Prop := ∀ c ∈ (chars pieces).head?, c ∈ stopChars

theorem apart_of_stops {rest : List Piece} (stops : Stops rest) (word : Word) : Apart (chars rest) word := by
  have letters : ∀ c ∈ stopChars, CharClass.continuesName c = false ∧ c ≠ '.' := by
    have all : (stopChars.all fun c => !CharClass.continuesName c && c != '.') = true := by rfl
    simpa using List.all_eq_true.mp all
  have digits : ∀ c ∈ stopChars, CharClass.isDigit c = false := by
    have all : (stopChars.all fun c => !CharClass.isDigit c) = true := by rfl
    simpa using List.all_eq_true.mp all
  have others : ∀ c ∈ stopChars, c ∉ joints := by
    have all : (stopChars.all fun c => !joints.contains c) = true := by rfl
    simpa using List.all_eq_true.mp all
  cases word with
  | keyword _ | identifier _ => exact fun c member => (letters c (stops c member)).1
  | integer _ | float _ => exact fun c member => letters c (stops c member)
  | string _ => exact trivial
  | mark sign =>
      cases sign with
      | dot => exact fun c member => digits c (stops c member)
      | _ => exact Or.inr fun c member => others c (stops c member)
  | semicolon _ | operator _ | compound _ | endOfInput => exact Or.inr fun c member => others c (stops c member)

/-- A layout whose words stand apart in front of everything that ends it. -/
def Fits (pieces : List Piece) : Prop := ∀ rest, Spaced rest → Stops rest → Spaced (pieces ++ rest)

theorem stops_blank (rest : List Piece) : Stops (blank :: rest) := by
  rintro c ⟨⟩
  decide

theorem stops_newLine (indent : Nat) (rest : List Piece) : Stops (newLine indent :: rest) := by
  rintro c ⟨⟩
  decide

theorem stops_semicolon (rest : List Piece) : Stops (word (.semicolon false) :: rest) := by
  rintro c ⟨⟩
  decide

def isStop : Mark → Bool
  | .leftParen | .rightParen | .comma | .colon => true
  | _ => false

theorem stops_sign {mark : Mark} (stop : isStop mark = true) (rest : List Piece) : Stops (sign mark :: rest) := by
  cases mark <;> first | exact absurd stop Bool.false_ne_true | (rintro c ⟨⟩; decide)

namespace Fits

variable {pieces more : List Piece}

theorem nil : Fits [] := fun _ spaced _ => spaced

theorem ofWord {found : Word} (spelled : Spelled found) : Fits [word found] :=
  fun _ spaced stops => ⟨spelled, apart_of_stops stops found, spaced⟩

theorem blank_cons (fits : Fits pieces) : Fits (blank :: pieces) := fits

theorem newLine_cons {indent : Nat} (fits : Fits pieces) : Fits (newLine indent :: pieces) := fits

theorem append (fits : Fits pieces) (others : Fits more) (stops : ∀ rest, Stops rest → Stops (more ++ rest)) :
    Fits (pieces ++ more) := by
  intro rest spaced ends
  rw [List.append_assoc]
  exact fits _ (others rest spaced ends) (stops rest ends)

theorem append_blank (fits : Fits pieces) (others : Fits more) : Fits (pieces ++ blank :: more) :=
  fits.append others.blank_cons fun _ _ => stops_blank _

theorem append_newLine {indent : Nat} (fits : Fits pieces) (others : Fits more) :
    Fits (pieces ++ newLine indent :: more) :=
  fits.append others.newLine_cons fun _ _ => stops_newLine _ _

theorem word_blank {found : Word} (spelled : Spelled found) (fits : Fits pieces) :
    Fits (word found :: blank :: pieces) := (ofWord spelled).append_blank fits

theorem key_blank {keyword : Keyword} (fits : Fits pieces) : Fits (key keyword :: blank :: pieces) :=
  word_blank trivial fits

theorem sign_cons {mark : Mark} (closed : isClosed (.mark mark) = true) (plain : mark ≠ .dot) (fits : Fits pieces) :
    Fits (sign mark :: pieces) := by
  intro rest spaced stops
  refine ⟨trivial, ?_, fits rest spaced stops⟩
  cases mark <;> first | exact absurd rfl plain | exact Or.inl closed

theorem semicolon_cons (fits : Fits pieces) : Fits (word (.semicolon false) :: pieces) :=
  fun rest spaced stops => ⟨rfl, Or.inl rfl, fits rest spaced stops⟩

theorem name_of {found : String} (named : IsName found) : Fits [name found] := ofWord named

theorem inParens (fits : Fits pieces) : Fits (Piece.inParens pieces) :=
  sign_cons rfl (by decide) (fits.append (sign_cons rfl (by decide) nil) fun _ _ => stops_sign rfl _)

theorem inParensIf {needed : Bool} (fits : Fits pieces) : Fits (Piece.inParensIf needed pieces) := by
  cases needed
  · exact fits
  · exact fits.inParens

theorem commaSeparated {layouts : List (List Piece)} (all : ∀ pieces ∈ layouts, Fits pieces) :
    Fits (Piece.commaSeparated layouts) := by
  induction layouts with
  | nil => exact nil
  | cons pieces layouts ih =>
      obtain ⟨first, others⟩ := List.forall_mem_cons.mp all
      cases layouts with
      | nil => exact first
      | cons second layouts =>
          exact first.append (sign_cons rfl (by decide) (ih others).blank_cons) fun _ _ => stops_sign rfl _

theorem braces {indent : Nat} (fits : Fits pieces) : Fits (Layout.braces indent pieces) :=
  sign_cons rfl (by decide) (fits.append_newLine (sign_cons rfl (by decide) nil))

end Fits

/-! ## Types and signatures -/

theorem fits_results {layouts : List (List Piece)} (all : ∀ pieces ∈ layouts, Fits pieces) :
    Fits (Layout.results layouts) := by
  match layouts with
  | [] => exact .nil
  | [pieces] => exact (all pieces List.mem_cons_self).blank_cons
  | _ :: _ :: _ => exact (Fits.commaSeparated all).inParens.blank_cons

theorem stops_results (layouts : List (List Piece)) (rest : List Piece) (stops : Stops rest) :
    Stops (Layout.results layouts ++ rest) := by
  match layouts with
  | [] => exact stops
  | [_] => exact stops_blank _
  | _ :: _ :: _ => exact stops_blank _

theorem isName_builtin : IsName "int" ∧ IsName "float64" ∧ IsName "string" ∧ IsName "bool" := by
  refine ⟨⟨⟨'i', ['n', 't'], rfl, rfl, ?_⟩, by decide⟩, ⟨⟨'f', ['l', 'o', 'a', 't', '6', '4'], rfl, rfl, ?_⟩, by decide⟩,
    ⟨⟨'s', ['t', 'r', 'i', 'n', 'g'], rfl, rfl, ?_⟩, by decide⟩, ⟨⟨'b', ['o', 'o', 'l'], rfl, rfl, ?_⟩, by decide⟩⟩
  all_goals exact List.all_eq_true.mp rfl

theorem Fits.key_parens {keyword : Keyword} {pieces more : List Piece} (fits : Fits (Piece.inParens pieces ++ more)) :
    Fits (key keyword :: (Piece.inParens pieces ++ more)) :=
  Fits.append (@Fits.ofWord (.keyword keyword) trivial) fits fun _ _ => stops_sign rfl _

mutual

theorem fits_type : (found : Ty) → Formed.type found → Fits (Layout.type found)
  | .int, _ => .name_of isName_builtin.1
  | .float, _ => .name_of isName_builtin.2.1
  | .string, _ => .name_of isName_builtin.2.2.1
  | .bool, _ => .name_of isName_builtin.2.2.2
  | .named _, formed => .name_of formed.1
  | .func ⟨params, found⟩, formed => by
      have inner := (Fits.commaSeparated (fits_types params formed.1)).inParens
      have last := inner.append (fits_results (fits_types found formed.2)) (stops_results _)
      unfold Layout.type Layout.funcType
      exact last.key_parens

theorem fits_types : (found : List Ty) → Formed.types found → ∀ pieces ∈ Layout.types found, Fits pieces
  | [], _ => fun _ member => absurd member List.not_mem_nil
  | first :: rest, formed => List.forall_mem_cons.mpr ⟨fits_type first formed.1, fits_types rest formed.2⟩

end

theorem fits_named {found : String} {declared : Ty} (named : IsName found) (formed : Formed.type declared) :
    Fits (Layout.named found declared) := .word_blank named (fits_type declared formed)

theorem fits_signature {found : Signature} (formed : Formed.signature found) : Fits (Layout.signature found) := by
  obtain ⟨params, types, names, _⟩ := formed
  have listed : ∀ pieces ∈ found.params.map (fun param => Layout.named param.name param.type), Fits pieces := by
    intro pieces member
    obtain ⟨param, inside, rfl⟩ := List.mem_map.mp member
    exact fits_named (params param inside).1 (params param inside).2
  refine (Fits.commaSeparated listed).inParens.append ?_ ?_
  · split
    · exact fits_results (fits_types _ types)
    · refine ((Fits.commaSeparated fun pieces member => ?_).inParens).blank_cons
      rw [← List.map_uncurry_zip_eq_zipWith] at member
      obtain ⟨⟨name, declared⟩, inside, rfl⟩ := List.mem_map.mp member
      have both := List.of_mem_zip inside
      exact fits_named (names name both.1) (formed_types.mp types declared both.2)
  · intro rest stops
    split
    · exact stops_results _ rest stops
    · exact stops_blank _

/-! ## Expressions and statements -/

theorem not_joint {c : Char} (starts : CharClass.startsName c = true ∨ CharClass.isDigit c = true ∨ c = '"' ∨ c = '(') :
    c ∉ joints := by
  intro member
  have all : (joints.all fun c => !CharClass.startsName c && !CharClass.isDigit c && c != '"' && c != '(') = true := by
    rfl
  have none := List.all_eq_true.mp all c member
  rcases starts with same | same | rfl | rfl
  · simp [same] at none
  · simp [same] at none
  · cases none
  · cases none

/-- What an operand begins with goes on with no operator. -/
theorem not_joint_of_startsOperand {found : Word} (starts : startsOperand found = true) (spelled : Spelled found) :
    ∀ c ∈ found.spelling.head?, c ∉ joints := by
  -- Numbers are written from a digit on, whatever their form.
  have number : ∀ {text : Lexer.NumberText} {c : Char}, text.Formed → c ∈ text.lexeme.head? → c ∉ joints := by
    intro text c formed member
    obtain ⟨digit, digits, whole⟩ := List.exists_cons_of_ne_nil formed.begins
    rw [Lexer.NumberText.lexeme, whole] at member
    obtain rfl := Option.some.inj member
    exact not_joint (Or.inr (Or.inl (formed.whole _ (by rw [whole]; exact List.mem_cons_self))))
  intro c member
  cases found with
  | keyword keyword =>
      obtain rfl : keyword = .funcWord := by
        cases keyword <;> first | rfl | exact absurd starts Bool.false_ne_true
      obtain rfl := Option.some.inj member
      exact not_joint (Or.inl rfl)
  | identifier found =>
      obtain ⟨first, rest, same, begins, _⟩ := spelled.spelled
      rw [Word.spelling, same] at member
      obtain rfl := Option.some.inj member
      exact not_joint (Or.inl begins)
  | integer magnitude =>
      refine number (Lexer.integerText_formed magnitude) ?_
      simpa [Lexer.NumberText.lexeme, Lexer.integerText, Word.spelling] using member
  | float value =>
      by_cases finite : Decimal.IsFinite value
      · obtain ⟨text, formed, lexeme, _⟩ := Decimal.literal_spec spelled finite
        exact number formed (by rw [lexeme]; exact member)
      · rw [Word.spelling, Decimal.literal_infinite spelled finite] at member
        obtain rfl := Option.some.inj member
        exact not_joint (Or.inl rfl)
  | string text =>
      obtain rfl := Option.some.inj member
      exact not_joint (Or.inr (Or.inr (Or.inl rfl)))
  | mark sign =>
      obtain rfl : sign = .leftParen := by
        cases sign <;> first | rfl | exact absurd starts Bool.false_ne_true
      obtain rfl := Option.some.inj member
      exact not_joint (Or.inr (Or.inr (Or.inr rfl)))
  | semicolon _ | operator _ | compound _ | endOfInput => exact absurd starts Bool.false_ne_true

theorem head_of_startsOperand {found : Word} (starts : startsOperand found = true) (spelled : Spelled found)
    (pieces : List Piece) : ∀ c ∈ (chars (word found :: pieces)).head?, c ∉ joints := by
  intro c member
  rw [chars_cons, Piece.chars, List.head?_append_of_ne_nil _ (List.ne_nil_of_length_pos (spelling_pos spelled))]
    at member
  exact not_joint_of_startsOperand starts spelled c member

theorem Fits.spelled {found : Word} {pieces : List Piece} (fits : Fits (word found :: pieces)) : Spelled found :=
  (fits [] trivial nofun).1

theorem fits_unary {op : UnaryOp} {operand : Expr} {indent : Nat} (fits : Fits (Layout.expr indent operand))
    (formed : Formed.expr operand) (callable : Everywhere.expr Callable operand) :
    Fits (word (unaryWord op) :: inParensIf (unaryNeedsParens operand) (Layout.expr indent operand)) := by
  have plain : ∀ rest, ∀ c ∈ (chars (inParensIf (unaryNeedsParens operand) (Layout.expr indent operand)
      ++ rest)).head?, c ∉ joints := by
    intro rest
    cases needed : unaryNeedsParens operand with
    | true =>
        rintro c ⟨⟩
        exact not_joint (Or.inr (Or.inr (Or.inr rfl)))
    | false =>
        have starts := startsOperand_firstWord operand formed callable (by rw [isOperand, needed]; rfl)
        obtain ⟨more, same⟩ := layout_expr indent operand
        rw [same] at fits ⊢
        exact head_of_startsOperand starts fits.spelled _
  intro rest spaced stops
  refine ⟨?_, ?_, fits.inParensIf rest spaced stops⟩
  · cases op <;> exact trivial
  · cases op <;> exact Or.inr (plain rest)

theorem fits_integer {value : Int64} : Fits (Layout.integer value) := by
  have small : Spelled (.integer value.toInt.natAbs) := by
    have least := value.le_toInt
    have most := value.toInt_lt
    change value.toInt.natAbs < UInt64.size
    simp only [UInt64.size]
    omega
  unfold Layout.integer
  split
  · intro rest spaced stops
    exact ⟨trivial, Or.inr (head_of_startsOperand rfl small rest), Fits.ofWord small rest spaced stops⟩
  · exact .ofWord small

theorem fits_qualified {package found : String} (packageNamed : IsName package) (named : IsName found) :
    Fits [name package, sign .dot, name found] := by
  intro rest spaced stops
  refine ⟨packageNamed, ?_, trivial, ?_, Fits.name_of named rest spaced stops⟩
  · rintro c ⟨⟩
    rfl
  · obtain ⟨first, others, same, starts, _⟩ := named.spelled
    intro c member
    change c ∈ (found.toList ++ chars rest).head? at member
    rw [same] at member
    obtain rfl := Option.some.inj member
    by_contra digit
    rw [Bool.not_eq_false] at digit
    rw [startsName_of_isDigit digit] at starts
    cases starts

theorem fits_names {found : List String} (names : ∀ name ∈ found, IsName name) : Fits (Layout.names found) := by
  refine .commaSeparated fun pieces member => ?_
  obtain ⟨name, inside, rfl⟩ := List.mem_map.mp member
  exact .name_of (names name inside)

theorem fits_optionalType {found : Option Ty} (formed : Formed.optionalType found) :
    Fits (Layout.optionalType found) := by
  cases found with
  | none => exact .nil
  | some declared => exact (fits_type declared (formed declared rfl)).blank_cons

theorem stops_optionalType (found : Option Ty) (rest : List Piece) (stops : Stops rest) :
    Stops (Layout.optionalType found ++ rest) := by
  cases found with
  | none => exact stops
  | some declared => exact stops_blank _

theorem fits_initializer {values : List Piece} (fits : Fits values) : Fits (Layout.initializer values) := by
  unfold Layout.initializer
  split
  · exact .nil
  · exact (@Fits.word_blank _ (.mark .assign) trivial fits).blank_cons

theorem stops_initializer (values : List Piece) (rest : List Piece) (stops : Stops rest) :
    Stops (Layout.initializer values ++ rest) := by
  unfold Layout.initializer
  split
  · exact stops
  · exact stops_blank _

theorem fits_step {target : String} (named : IsName target) (up : Bool) :
    Fits [name target, sign (if up then .increment else .decrement)] := by
  intro rest spaced stops
  refine ⟨named, ?_, trivial, ?_, spaced⟩
  · cases up <;> (rintro c ⟨⟩; rfl)
  · cases up <;> exact apart_of_stops stops _

theorem fits_function {indent : Nat} {found : Signature} {body : List Piece} (signed : Formed.signature found)
    (fits : Fits body) : Fits (Layout.signature found ++ blank :: Layout.braces indent body) :=
  (fits_signature signed).append_blank fits.braces

theorem stops_signature (found : Signature) (rest : List Piece) : Stops (Layout.signature found ++ rest) := by
  rintro c ⟨⟩
  decide

theorem fits_assignment {targets : List String} {mark : Word} {values : List (List Piece)} (spelled : Spelled mark)
    (names : ∀ name ∈ targets, IsName name) (all : ∀ pieces ∈ values, Fits pieces) :
    Fits (Layout.names targets ++ blank :: word mark :: blank :: commaSeparated values) :=
  (fits_names names).append_blank (.word_blank spelled (.commaSeparated all))

theorem stops_elseBranch (indent : Nat) (found : ElseBranch) (rest : List Piece) (stops : Stops rest) :
    Stops (Layout.elseBranch indent found ++ rest) := by
  cases found with
  | absent => exact stops
  | block _ | chain _ => exact stops_blank _

theorem stops_switchTag (indent : Nat) (found : Option Expr) (rest : List Piece) (stops : Stops rest) :
    Stops (Layout.switchTag indent found ++ rest) := by
  cases found with
  | none => exact stops
  | some _ => exact stops_blank _

theorem stops_switchStart (indent : Nat) (found : Option Stmt) (rest : List Piece) (stops : Stops rest) :
    Stops (Layout.switchStart indent found ++ rest) := by
  cases found with
  | none => exact stops
  | some _ => exact stops_blank _

theorem stops_lines (indent : Nat) (found : List Stmt) (rest : List Piece) (stops : Stops rest) :
    Stops (Layout.lines indent found ++ rest) := by
  cases found with
  | nil => exact stops
  | cons _ _ => exact stops_newLine _ _

theorem stops_switchCases (indent : Nat) (found : List SwitchCase) (rest : List Piece) (stops : Stops rest) :
    Stops (Layout.switchCases indent found ++ rest) := by
  cases found with
  | nil => exact stops
  | cons _ _ => exact stops_newLine _ _

/-- A loop has no header, a condition, or a header with three parts. -/
theorem layout_loop (indent : Nat) (init : Option Stmt) (condition : Option Expr) (post : Option Stmt)
    (body : List Stmt) (location : Location) :
    (init = none ∧ condition = none ∧ post = none) ∨
    (∃ found, init = none ∧ condition = some found ∧ post = none) ∨
    Layout.stmt indent (.loop init condition post body location)
      = key .forWord :: blank :: (Layout.optionalStmt indent init ++ word (.semicolon false) :: blank
        :: (Layout.optionalExpr indent condition ++ word (.semicolon false) :: (Layout.loopPost indent post
        ++ blank :: Layout.braces indent (Layout.lines (indent + 1) body)))) := by
  cases init with
  | some first => exact Or.inr (Or.inr rfl)
  | none =>
      cases post with
      | some last => cases condition <;> exact Or.inr (Or.inr rfl)
      | none =>
          cases condition with
          | none => exact Or.inl ⟨rfl, rfl, rfl⟩
          | some found => exact Or.inr (Or.inl ⟨found, rfl, rfl, rfl⟩)

theorem fits_loop {indent : Nat} {init condition post body : List Piece} (first : Fits init)
    (tested : Fits condition) (last : Fits post) (inner : Fits body) :
    Fits (key .forWord :: blank :: (init ++ word (.semicolon false) :: blank :: (condition
      ++ word (.semicolon false) :: (post ++ blank :: Layout.braces indent body)))) := by
  have ended : Fits (word (.semicolon false) :: (post ++ blank :: Layout.braces indent body)) :=
    .semicolon_cons (last.append_blank inner.braces)
  have behind : Fits (word (.semicolon false) :: blank :: (condition
      ++ word (.semicolon false) :: (post ++ blank :: Layout.braces indent body))) :=
    .semicolon_cons (tested.append ended fun _ _ => stops_semicolon _).blank_cons
  exact .key_blank (first.append behind fun _ _ => stops_semicolon _)

mutual

theorem fits_expr (indent : Nat) : (found : Expr) → Formed.expr found → Everywhere.expr Callable found →
    Fits (Layout.expr indent found)
  | .integer value, _, _ => fits_integer
  | .float value, formed, _ => .ofWord formed
  | .string value, _, _ => .ofWord trivial
  | .identifier name _, formed, _ => .name_of formed
  | .qualified package name _, formed, _ => fits_qualified formed.1 formed.2
  | .binary left op right _, formed, callable =>
      (fits_expr indent left formed.1 callable.2.1).inParensIf.append_blank
        (@Fits.word_blank _ (.operator op) trivial (fits_expr indent right formed.2 callable.2.2).inParensIf)
  | .unary op operand _, formed, callable =>
      fits_unary (fits_expr indent operand formed callable.2) formed callable.2
  | .call callee args _, formed, callable =>
      (fits_expr indent callee formed.1 callable.2.1).inParensIf.append
        (Fits.commaSeparated (fits_exprs indent args formed.2 callable.2.2)).inParens fun _ _ => stops_sign rfl _
  | .function ⟨found, body, _⟩, formed, callable =>
      Fits.append (@Fits.ofWord (.keyword .funcWord) trivial)
        (fits_function formed.1 (fits_lines (indent + 1) body formed.2 callable.2)) fun rest _ => by
          rw [List.append_assoc]
          exact stops_signature found _

theorem fits_exprs (indent : Nat) : (found : List Expr) → Formed.exprs found → Everywhere.exprs Callable found →
    ∀ pieces ∈ Layout.exprs indent found, Fits pieces
  | [], _, _ => fun _ member => absurd member List.not_mem_nil
  | first :: rest, formed, callable => List.forall_mem_cons.mpr
      ⟨fits_expr indent first formed.1 callable.1, fits_exprs indent rest formed.2 callable.2⟩

theorem fits_optionalExpr (indent : Nat) : (found : Option Expr) → Formed.optionalExpr found →
    Everywhere.optionalExpr Callable found → Fits (Layout.optionalExpr indent found)
  | none, _, _ => .nil
  | some found, formed, callable => fits_expr indent found formed callable

theorem fits_valueDecl (indent : Nat) : (found : ValueDecl) → Formed.valueDecl found →
    Everywhere.valueDecl Callable found → Fits (Layout.valueDecl indent found)
  | ⟨isConst, names, type?, values, _⟩, formed, callable => by
      have listed := Fits.commaSeparated (fits_exprs indent values formed.2.2.1 callable)
      have typed := (fits_optionalType formed.2.1).append (fits_initializer listed) (stops_initializer _)
      have named := (fits_names formed.1.2).append typed fun rest stops => by
        rw [List.append_assoc]
        exact stops_optionalType _ _ (stops_initializer _ _ stops)
      rw [← List.append_assoc] at named
      unfold Layout.valueDecl
      cases isConst <;> exact .key_blank named

theorem fits_ifStmt (indent : Nat) : (found : IfStmt) → Formed.ifStmt found → Everywhere.ifStmt Callable found →
    Fits (Layout.ifStmt indent found)
  | ⟨init, condition, body, orElse, _⟩, formed, callable => by
      have last := (@Fits.braces _ indent (fits_lines (indent + 1) body formed.2.2.1 callable.2.2.1)).append
        (fits_elseBranch indent orElse formed.2.2.2 callable.2.2.2) (stops_elseBranch indent orElse)
      have tested := (fits_expr indent condition formed.2.1 callable.2.1).append_blank last
      unfold Layout.ifStmt
      refine .key_blank ?_
      rw [List.append_assoc]
      cases init with
      | none => exact tested
      | some first =>
          unfold Layout.headerStart
          rw [List.append_assoc]
          exact (fits_stmt indent first formed.1.1 callable.1).append (.semicolon_cons tested.blank_cons) fun _ _ =>
            stops_semicolon _

theorem fits_elseBranch (indent : Nat) : (found : ElseBranch) → Formed.elseBranch found →
    Everywhere.elseBranch Callable found → Fits (Layout.elseBranch indent found)
  | .absent, _, _ => .nil
  | .block body, formed, callable =>
      Fits.blank_cons (.key_blank (fits_lines (indent + 1) body formed callable).braces)
  | .chain next, formed, callable => Fits.blank_cons (.key_blank (fits_ifStmt indent next formed callable))

theorem fits_stmt (indent : Nat) : (found : Stmt) → Formed.stmt found → Everywhere.stmt Callable found →
    Fits (Layout.stmt indent found)
  | .declare decl, formed, callable => fits_valueDecl indent decl formed callable
  | .define names values _, formed, callable =>
      @fits_assignment _ (.mark .define) _ trivial formed.1.2 (fits_exprs indent values formed.2.2 callable)
  | .assign targets values _, formed, callable =>
      @fits_assignment _ (.mark .assign) _ trivial formed.1.2 (fits_exprs indent values formed.2.2 callable)
  | .compound target op value _, formed, callable =>
      (Fits.name_of formed.1).append_blank
        (@Fits.word_blank _ (.compound op) formed.2.1 (fits_expr indent value formed.2.2 callable))
  | .step target up _, formed, _ => fits_step formed up
  | .ifElse found, formed, callable => fits_ifStmt indent found formed callable
  | .loop init condition post body location, formed, callable => by
      have first := fits_header indent init formed.1 callable.1
      have tested := fits_optionalExpr indent condition formed.2.1 callable.2.1
      have last := fits_loopPost indent post formed.2.2.1 callable.2.2.1
      have inner := fits_lines (indent + 1) body formed.2.2.2.2 callable.2.2.2
      -- A loop is laid out without a header, with its condition alone, or with all three parts.
      rcases layout_loop indent init condition post body location with
        ⟨rfl, rfl, rfl⟩ | ⟨found, rfl, rfl, rfl⟩ | same
      · exact .key_blank inner.braces
      · exact .key_blank (Fits.append_blank tested inner.braces)
      · rw [same]
        exact fits_loop first tested last inner
  | .switch init tag found _, formed, callable => by
      have inner := @Fits.braces _ indent (fits_switchCases indent found formed.2.2.1 callable.2.2)
      have headed := (fits_switchTag indent tag formed.2.1 callable.2.1).append_blank inner
      have starts : ∀ rest, Stops (Layout.switchTag indent tag
          ++ blank :: Layout.braces indent (Layout.switchCases indent found) ++ rest) := fun rest => by
        rw [List.append_assoc]
        exact stops_switchTag indent tag _ (stops_blank _)
      have begun := (fits_switchStart indent init formed.1 callable.1).append headed fun rest _ => starts rest
      have whole := Fits.append (@Fits.ofWord (.keyword .switchWord) trivial) begun fun rest _ => by
        rw [List.append_assoc]
        exact stops_switchStart indent init _ (starts rest)
      unfold Layout.stmt
      rw [List.append_assoc]
      exact whole
  | .return [] _, _, _ => @Fits.ofWord (.keyword .returnWord) trivial
  | .return (first :: rest) _, formed, callable =>
      .key_blank (.commaSeparated (fits_exprs indent (first :: rest) formed callable))
  | .break _, _, _ => @Fits.ofWord (.keyword .breakWord) trivial
  | .continue _, _, _ => @Fits.ofWord (.keyword .continueWord) trivial
  | .block body, formed, callable => (fits_lines (indent + 1) body formed callable).braces
  | .expression found, formed, callable => fits_expr indent found formed callable

theorem fits_lines (indent : Nat) : (found : List Stmt) → Formed.stmts found → Everywhere.stmts Callable found →
    Fits (Layout.lines indent found)
  | [], _, _ => .nil
  | first :: rest, formed, callable =>
      Fits.newLine_cons ((fits_stmt indent first formed.1 callable.1).append
        (fits_lines indent rest formed.2.2 callable.2) (stops_lines indent rest))

theorem fits_header (indent : Nat) : (found : Option Stmt) → Formed.header found →
    Everywhere.optionalStmt Callable found → Fits (Layout.optionalStmt indent found)
  | none, _, _ => .nil
  | some first, formed, callable => fits_stmt indent first formed.1 callable

theorem fits_switchStart (indent : Nat) : (found : Option Stmt) → Formed.header found →
    Everywhere.optionalStmt Callable found → Fits (Layout.switchStart indent found)
  | none, _, _ => .nil
  | some first, formed, callable =>
      Fits.blank_cons ((fits_stmt indent first formed.1 callable).append (.semicolon_cons .nil) fun _ _ =>
        stops_semicolon _)

theorem fits_switchTag (indent : Nat) : (found : Option Expr) → Formed.optionalExpr found →
    Everywhere.optionalExpr Callable found → Fits (Layout.switchTag indent found)
  | none, _, _ => .nil
  | some tag, formed, callable => (fits_expr indent tag formed callable).blank_cons

theorem fits_loopPost (indent : Nat) : (found : Option Stmt) → Formed.header found →
    Everywhere.optionalStmt Callable found → Fits (Layout.loopPost indent found)
  | none, _, _ => .nil
  | some post, formed, callable => (fits_stmt indent post formed.1 callable).blank_cons

theorem fits_switchCases (indent : Nat) : (found : List SwitchCase) → Formed.cases found →
    Everywhere.cases Callable found → Fits (Layout.switchCases indent found)
  | [], _, _ => .nil
  | ⟨label, body, _⟩ :: others, formed, callable => by
      have behind := (fits_lines (indent + 1) body formed.2.1 callable.1.2).append
        (fits_switchCases indent others formed.2.2 callable.2) (stops_switchCases indent others)
      have marked := Fits.append (@Fits.ofWord (.mark .colon) trivial) behind fun rest stops => by
        rw [List.append_assoc]
        exact stops_lines _ body _ (stops_switchCases indent others _ stops)
      have labelled := (fits_caseLabel indent label formed.1 callable.1.1).append marked fun _ _ => stops_sign rfl _
      unfold Layout.switchCases Layout.switchCase
      rw [List.append_assoc, List.cons_append]
      exact labelled.newLine_cons

theorem fits_caseLabel (indent : Nat) : (found : CaseLabel) → Formed.caseLabel found →
    Everywhere.caseLabel Callable found → Fits (Layout.caseLabel indent found)
  | .values values, formed, callable => .key_blank (.commaSeparated (fits_exprs indent values formed.2 callable))
  | .otherwise, _, _ => @Fits.ofWord (.keyword .defaultWord) trivial

end

/-! ## Files -/

theorem fits_importSpec {found : Import} (formed : Formed.importSpec found) : Fits (Layout.importSpec found) := by
  unfold Layout.importSpec
  cases renamed : found.alias? with
  | none => exact @Fits.ofWord (.string found.path) trivial
  | some other => exact .word_blank (formed other renamed) (@Fits.ofWord (.string found.path) trivial)

theorem fits_importLines {specs : List Import} (formed : ∀ spec ∈ specs, Formed.importSpec spec)
    {more : List Piece} {indent : Nat} (behind : Fits (newLine indent :: more)) :
    Fits (specs.flatMap (fun found => newLine 1 :: Layout.importSpec found) ++ newLine indent :: more) := by
  induction specs with
  | nil => exact behind
  | cons spec specs ih =>
      obtain ⟨first, others⟩ := List.forall_mem_cons.mp formed
      rw [List.flatMap_cons, List.append_assoc, List.cons_append]
      refine Fits.newLine_cons ((fits_importSpec first).append (ih others) fun rest _ => ?_)
      cases specs <;> exact stops_newLine _ _

theorem fits_imports {found : List Import} (formed : ∀ spec ∈ found, Formed.importSpec spec) :
    Fits (Layout.imports found) := by
  match found with
  | [] => exact .nil
  | [single] =>
      exact Fits.newLine_cons (.key_blank ((fits_importSpec (formed single List.mem_cons_self)).append_newLine .nil))
  | first :: second :: more =>
      refine Fits.newLine_cons (.key_blank (.sign_cons rfl (by decide) (fits_importLines formed ?_)))
      exact Fits.newLine_cons (.sign_cons rfl (by decide) (Fits.newLine_cons .nil))

theorem fits_decl {found : Decl} (formed : Formed.decl found) (callable : Everywhere.decl Callable found) :
    Fits (Layout.decl found) := by
  cases found with
  | function name literal =>
      obtain ⟨found, body, location⟩ := literal
      exact .key_blank ((Fits.name_of formed.1).append
        (fits_function formed.2.1 (fits_lines 1 body formed.2.2 callable)) fun rest _ => by
          rw [List.append_assoc]
          exact stops_signature found _)
  | values decl => exact fits_valueDecl 0 decl formed callable

theorem fits_decls {found : List Decl} (formed : ∀ declared ∈ found, Formed.decl declared)
    (callable : ∀ declared ∈ found, Everywhere.decl Callable declared) :
    Fits (found.flatMap fun declared => newLine 0 :: (Layout.decl declared ++ [newLine 0])) := by
  induction found with
  | nil => exact .nil
  | cons first rest ih =>
      obtain ⟨formedFirst, formedRest⟩ := List.forall_mem_cons.mp formed
      obtain ⟨callableFirst, callableRest⟩ := List.forall_mem_cons.mp callable
      rw [List.flatMap_cons, List.cons_append, List.append_assoc, List.singleton_append]
      exact Fits.newLine_cons ((fits_decl formedFirst callableFirst).append_newLine (ih formedRest callableRest))

theorem spaced_program {found : Program} (formed : Formed.program found)
    (callable : Everywhere.program Callable found) : Spaced (Layout.program found) := by
  have behind := (fits_imports formed.2.1).append (fits_decls formed.2.2 callable) fun rest stops => by
    cases found.declarations with
    | nil => exact stops
    | cons _ _ => exact stops_newLine _ _
  have whole : Fits (Layout.program found) := .key_blank ((Fits.name_of formed.1).append_newLine behind)
  have spaced := whole [] trivial nofun
  rwa [List.append_nil] at spaced

end MiniGo.Syntax
