import MiniGo.Proofs.Syntax.Nesting
import MiniGo.Proofs.Syntax.Trees

/-!
# Printing and reading

The parser undoes the printer on every program that it gives (`parseText_print`), and printing what is read
from a printed text gives that text again (`print_settles`). The text of a tree does not depend on places, nor
on whether an infinite float stands in it or the name that it is spelled as (`text_expr`).
-/

namespace MiniGo.Syntax

open Piece Layout

/-! ## Programs without infinite floats -/

theorem settledFloat_finite {value : Float} (finite : Decimal.IsFinite value) : settledFloat value = .float value :=
  if_pos finite

mutual

theorem settled_expr : (found : Expr) → Everywhere.expr NotInfinite found →
    Unplaced.expr settledFloat found = Unplaced.expr .float found
  | .float _, finite => settledFloat_finite finite
  | .integer _, _ | .string _, _ | .identifier _ _, _ | .qualified _ _ _, _ => rfl
  | .binary left _ right _, finite => by
      unfold Unplaced.expr
      rw [settled_expr left finite.2.1, settled_expr right finite.2.2]
  | .unary _ operand _, finite => by
      unfold Unplaced.expr
      rw [settled_expr operand finite.2]
  | .call callee args _, finite => by
      unfold Unplaced.expr
      rw [settled_expr callee finite.2.1, settled_exprs args finite.2.2]
  | .function found, finite => by
      unfold Unplaced.expr
      rw [settled_function found finite.2]

theorem settled_exprs : (found : List Expr) → Everywhere.exprs NotInfinite found →
    Unplaced.exprs settledFloat found = Unplaced.exprs .float found
  | [], _ => rfl
  | first :: others, finite => by
      unfold Unplaced.exprs
      rw [settled_expr first finite.1, settled_exprs others finite.2]

theorem settled_optionalExpr : (found : Option Expr) → Everywhere.optionalExpr NotInfinite found →
    Unplaced.optionalExpr settledFloat found = Unplaced.optionalExpr .float found
  | none, _ => rfl
  | some found, finite => by
      unfold Unplaced.optionalExpr
      rw [settled_expr found finite]

theorem settled_function : (found : FunctionLiteral) → Everywhere.function NotInfinite found →
    Unplaced.function settledFloat found = Unplaced.function .float found
  | ⟨_, body, _⟩, finite => by
      unfold Unplaced.function
      rw [settled_stmts body finite]

theorem settled_valueDecl : (found : ValueDecl) → Everywhere.valueDecl NotInfinite found →
    Unplaced.valueDecl settledFloat found = Unplaced.valueDecl .float found
  | ⟨_, _, _, values, _⟩, finite => by
      unfold Unplaced.valueDecl
      rw [settled_exprs values finite]

theorem settled_ifStmt : (found : IfStmt) → Everywhere.ifStmt NotInfinite found →
    Unplaced.ifStmt settledFloat found = Unplaced.ifStmt .float found
  | ⟨init, condition, body, orElse, _⟩, finite => by
      unfold Unplaced.ifStmt
      rw [settled_optionalStmt init finite.1, settled_expr condition finite.2.1, settled_stmts body finite.2.2.1,
        settled_elseBranch orElse finite.2.2.2]

theorem settled_elseBranch : (found : ElseBranch) → Everywhere.elseBranch NotInfinite found →
    Unplaced.elseBranch settledFloat found = Unplaced.elseBranch .float found
  | .absent, _ => rfl
  | .block body, finite => by
      unfold Unplaced.elseBranch
      rw [settled_stmts body finite]
  | .chain next, finite => by
      unfold Unplaced.elseBranch
      rw [settled_ifStmt next finite]

theorem settled_caseLabel : (found : CaseLabel) → Everywhere.caseLabel NotInfinite found →
    Unplaced.caseLabel settledFloat found = Unplaced.caseLabel .float found
  | .values values, finite => by
      unfold Unplaced.caseLabel
      rw [settled_exprs values finite]
  | .otherwise, _ => rfl

theorem settled_cases : (found : List SwitchCase) → Everywhere.cases NotInfinite found →
    Unplaced.cases settledFloat found = Unplaced.cases .float found
  | [], _ => rfl
  | ⟨label, body, _⟩ :: others, finite => by
      unfold Unplaced.cases Unplaced.switchCase
      rw [settled_caseLabel label finite.1.1, settled_stmts body finite.1.2, settled_cases others finite.2]

theorem settled_stmt : (found : Stmt) → Everywhere.stmt NotInfinite found →
    Unplaced.stmt settledFloat found = Unplaced.stmt .float found
  | .declare decl, finite => by
      unfold Unplaced.stmt
      rw [settled_valueDecl decl finite]
  | .define _ values _, finite | .assign _ values _, finite | .return values _, finite => by
      unfold Unplaced.stmt
      rw [settled_exprs values finite]
  | .compound _ _ value _, finite => by
      unfold Unplaced.stmt
      rw [settled_expr value finite]
  | .step _ _ _, _ | .break _, _ | .continue _, _ => rfl
  | .ifElse found, finite => by
      unfold Unplaced.stmt
      rw [settled_ifStmt found finite]
  | .loop init condition post body _, finite => by
      unfold Unplaced.stmt
      rw [settled_optionalStmt init finite.1, settled_optionalExpr condition finite.2.1,
        settled_optionalStmt post finite.2.2.1, settled_stmts body finite.2.2.2]
  | .switch init tag found _, finite => by
      unfold Unplaced.stmt
      rw [settled_optionalStmt init finite.1, settled_optionalExpr tag finite.2.1, settled_cases found finite.2.2]
  | .block body, finite => by
      unfold Unplaced.stmt
      rw [settled_stmts body finite]
  | .expression found, finite => by
      unfold Unplaced.stmt
      rw [settled_expr found finite]

theorem settled_stmts : (found : List Stmt) → Everywhere.stmts NotInfinite found →
    Unplaced.stmts settledFloat found = Unplaced.stmts .float found
  | [], _ => rfl
  | first :: others, finite => by
      unfold Unplaced.stmts
      rw [settled_stmt first finite.1, settled_stmts others finite.2]

theorem settled_optionalStmt : (found : Option Stmt) → Everywhere.optionalStmt NotInfinite found →
    Unplaced.optionalStmt settledFloat found = Unplaced.optionalStmt .float found
  | none, _ => rfl
  | some found, finite => by
      unfold Unplaced.optionalStmt
      rw [settled_stmt found finite]

end

theorem settled_program {found : Program} (finite : Everywhere.program NotInfinite found) :
    settledProgram found = unplaced found := by
  have same : found.declarations.map (Unplaced.decl settledFloat) = found.declarations.map (Unplaced.decl .float) := by
    refine List.map_congr_left fun declared member => ?_
    have all := finite declared member
    cases declared with
    | function name literal => exact congrArg (Decl.function name) (settled_function literal all)
    | values decl => exact congrArg Decl.values (settled_valueDecl decl all)
  unfold settledProgram unplaced Unplaced.program
  rw [same]

/-- The parser undoes the printer: what it gave for some text is, once printed, read as the same program up to
places, unless the printed text is nested too deeply. An infinite float is spelled as a name, and the smallest
integer loses its sign in front of arguments, so neither may occur. -/
theorem parseText_print {source : String} {program : Program} (read : parseText source = .ok program)
    (finite : Everywhere.program NotInfinite program) (callable : Everywhere.program Callable program) :
    (∃ other, parseText program.render = .ok other ∧ unplaced other = unplaced program) ∨
      ∃ location, parseText program.render = .error (.parse (.invalid (.nesting Reader.nestingLimit) location)) := by
  rw [← settled_program finite]
  exact parseText_render (formed_parseText read) callable

namespace Sample

/-- Parentheses behind an operator of the same strength, and a sign in front of a sign. -/
def source : String :=
  "package main\n\nfunc f(a int, b int) int \x7b\n\tif c := a - (b - 1); c > 0 \x7b\n\t\treturn - -c * 2\n\t\x7d\n\treturn 0\n\x7d\n"

/-- What `source` is read as. -/
def program : Program := ⟨"main", [], [
  .function "f" ⟨⟨[⟨"a", .int⟩, ⟨"b", .int⟩], [.int], []⟩, [
    .ifElse ⟨
      some (.define ["c"] [.binary (.identifier "a" ⟨4, 10⟩) .subtract
        (.binary (.identifier "b" ⟨4, 15⟩) .subtract (.integer 1) ⟨4, 17⟩) ⟨4, 12⟩] ⟨4, 5⟩),
      .binary (.identifier "c" ⟨4, 23⟩) .greater (.integer 0) ⟨4, 25⟩,
      [.return [.binary (.unary .negate (.unary .negate (.identifier "c" ⟨5, 13⟩) ⟨5, 12⟩) ⟨5, 10⟩) .multiply
        (.integer 2) ⟨5, 15⟩] ⟨5, 3⟩],
      .absent, ⟨4, 2⟩⟩,
    .return [.integer 0] ⟨7, 2⟩], ⟨3, 1⟩⟩]⟩

theorem read : parseText source = .ok program := by
  unfold source program
  cbv

theorem finite : Everywhere.program NotInfinite program := by
  simp [program, Everywhere.program, Everywhere.decl, Everywhere.function, Everywhere.stmts, Everywhere.stmt,
    Everywhere.ifStmt, Everywhere.elseBranch, Everywhere.optionalStmt, Everywhere.exprs, Everywhere.expr, NotInfinite]

theorem callable : Everywhere.program Callable program := by
  simp [program, Everywhere.program, Everywhere.decl, Everywhere.function, Everywhere.stmts, Everywhere.stmt,
    Everywhere.ifStmt, Everywhere.elseBranch, Everywhere.optionalStmt, Everywhere.exprs, Everywhere.expr, Callable]

end Sample

/-- The hypotheses hold of a program with parentheses of both sorts. -/
theorem parseText_print_sample :
    parseText Sample.source = .ok Sample.program ∧ Everywhere.program NotInfinite Sample.program ∧
    Everywhere.program Callable Sample.program ∧
    ((∃ other, parseText Sample.program.render = .ok other ∧ unplaced other = unplaced Sample.program) ∨
      ∃ location, parseText Sample.program.render
        = .error (.parse (.invalid (.nesting Reader.nestingLimit) location))) :=
  ⟨Sample.read, Sample.finite, Sample.callable, parseText_print Sample.read Sample.finite Sample.callable⟩

/-! ## Text of trees without places -/

/-- What stands for float literals: each for itself, or for it a name that is spelled as it is. -/
structure Standing where
  read : Float → Expr
  spells : ∀ value, IsDecimal value → read value = .float value ∨
    ∃ name place, read value = .identifier name place ∧ name.toList = (Word.float value).spelling

def Standing.literal : Standing := ⟨.float, fun _ _ => Or.inl rfl⟩

/-- What the spellings of float literals are read as. -/
def Standing.settled : Standing where
  read := settledFloat
  spells value decimal := by
    by_cases finite : Decimal.IsFinite value
    · exact Or.inl (if_pos finite)
    · refine Or.inr ⟨infinityName, Location.nowhere, if_neg finite, ?_⟩
      rw [Word.spelling, Decimal.literal_infinite decimal finite]
      rfl

theorem chars_commaSeparated {layouts others : List (List Piece)} (same : layouts.map chars = others.map chars) :
    chars (commaSeparated layouts) = chars (commaSeparated others) := by
  induction layouts generalizing others with
  | nil =>
      cases others with
      | nil => rfl
      | cons _ _ => cases same
  | cons first layouts ih =>
      cases others with
      | nil => cases same
      | cons second others =>
          obtain ⟨head, tail⟩ := List.cons.inj same
          have rest := ih tail
          match layouts, others, tail with
          | [], [], _ => exact head
          | third :: layouts, fourth :: others, _ =>
              rw [commaSeparated_more, commaSeparated_more]
              simp only [chars_append, chars_cons, head, rest]

theorem chars_inParensIf {needed : Bool} {first second : List Piece} (same : chars first = chars second) :
    chars (inParensIf needed first) = chars (inParensIf needed second) := by
  cases needed with
  | false => exact same
  | true => simp [inParensIf, inParens, same]

theorem none_of_unplaced {literal : Float → Expr} {found : Option Stmt}
    (absent : Unplaced.optionalStmt literal found = none) : found = none := by
  cases found with
  | none => rfl
  | some _ => cases absent

theorem layout_parts {indent : Nat} {init : Option Stmt} {condition : Option Expr} {post : Option Stmt}
    {body : List Stmt} {location : Location} (parts : ¬ (init = none ∧ post = none)) :
    Layout.stmt indent (.loop init condition post body location)
      = key .forWord :: blank :: (Layout.optionalStmt indent init ++ word (.semicolon false) :: blank
        :: (Layout.optionalExpr indent condition ++ word (.semicolon false) :: (Layout.loopPost indent post
        ++ blank :: Layout.braces indent (Layout.lines (indent + 1) body)))) := by
  rcases layout_loop indent init condition post body location with ⟨none, _, nothing⟩ | ⟨_, none, _, nothing⟩ | same
  · exact absurd ⟨none, nothing⟩ parts
  · exact absurd ⟨none, nothing⟩ parts
  · exact same

section

variable (standing : Standing)

theorem shape_expr (found : Expr) (formed : Formed.expr found) :
    (∀ level, weakerThan level (Unplaced.expr standing.read found) = weakerThan level found) ∧
      unaryNeedsParens (Unplaced.expr standing.read found) = unaryNeedsParens found ∧
      calleeNeedsParens (Unplaced.expr standing.read found) = calleeNeedsParens found := by
  cases found with
  | float value =>
      unfold Unplaced.expr
      rcases standing.spells value formed with same | ⟨name, place, same, _⟩ <;> rw [same] <;> exact ⟨fun _ => rfl, rfl, rfl⟩
  | _ => exact ⟨fun _ => rfl, rfl, rfl⟩

mutual

theorem text_expr (indent : Nat) : (found : Expr) → Formed.expr found →
    chars (Layout.expr indent (Unplaced.expr standing.read found)) = chars (Layout.expr indent found)
  | .float value, formed => by
      unfold Unplaced.expr
      rcases standing.spells value formed with same | ⟨name, place, same, spelled⟩
      · rw [same]
      · rw [same]
        exact congrArg (· ++ []) spelled
  | .integer _, _ | .string _, _ | .identifier _ _, _ | .qualified _ _ _, _ => rfl
  | .binary left op right _, formed => by
      unfold Unplaced.expr Layout.expr
      rw [(shape_expr standing left formed.1).1, (shape_expr standing right formed.2).1]
      simp only [chars_append, chars_cons, chars_inParensIf (text_expr indent left formed.1),
        chars_inParensIf (text_expr indent right formed.2)]
  | .unary op operand _, formed => by
      unfold Unplaced.expr Layout.expr
      rw [(shape_expr standing operand formed).2.1]
      simp only [chars_cons, chars_inParensIf (text_expr indent operand formed)]
  | .call callee args _, formed => by
      unfold Unplaced.expr Layout.expr inParens
      rw [(shape_expr standing callee formed.1).2.2]
      simp only [chars_append, chars_cons, chars_inParensIf (text_expr indent callee formed.1),
        chars_commaSeparated (text_exprs indent args formed.2)]
  | .function found, formed => by
      unfold Unplaced.expr Layout.expr
      simp only [chars_cons, text_function indent found formed]

theorem text_exprs (indent : Nat) : (found : List Expr) → Formed.exprs found →
    (Layout.exprs indent (Unplaced.exprs standing.read found)).map chars = (Layout.exprs indent found).map chars
  | [], _ => rfl
  | first :: others, formed => by
      unfold Unplaced.exprs Layout.exprs
      rw [List.map_cons, List.map_cons, text_expr indent first formed.1, text_exprs indent others formed.2]

theorem text_optionalExpr (indent : Nat) : (found : Option Expr) → Formed.optionalExpr found →
    chars (Layout.optionalExpr indent (Unplaced.optionalExpr standing.read found)) = chars (Layout.optionalExpr indent found)
  | none, _ => rfl
  | some found, formed => text_expr indent found formed

theorem text_function (indent : Nat) : (found : FunctionLiteral) → Formed.function found →
    chars (Layout.function indent (Unplaced.function standing.read found)) = chars (Layout.function indent found)
  | ⟨signature, body, _⟩, formed => by
      unfold Unplaced.function Layout.function braces
      simp only [chars_append, chars_cons, text_lines (indent + 1) body formed.2]

theorem text_valueDecl (indent : Nat) : (found : ValueDecl) → Formed.valueDecl found →
    chars (Layout.valueDecl indent (Unplaced.valueDecl standing.read found)) = chars (Layout.valueDecl indent found)
  | ⟨_, _, _, values, _⟩, formed => by
      unfold Unplaced.valueDecl Layout.valueDecl
      have same := text_exprs indent values formed.2.2.1
      cases values with
      | nil => rfl
      | cons first others =>
          rcases layout_initializer indent (first :: others) with ⟨none, _⟩ | ⟨_, layout⟩
          · cases none
          rcases layout_initializer indent (Unplaced.exprs standing.read (first :: others)) with ⟨none, _⟩ | ⟨_, read⟩
          · cases none
          simp only [chars_append, chars_cons, layout, read, chars_commaSeparated same]

theorem text_ifStmt (indent : Nat) : (found : IfStmt) → Formed.ifStmt found →
    chars (Layout.ifStmt indent (Unplaced.ifStmt standing.read found)) = chars (Layout.ifStmt indent found)
  | ⟨init, condition, body, orElse, _⟩, formed => by
      unfold Unplaced.ifStmt Layout.ifStmt braces
      simp only [chars_append, chars_cons, text_headerStart indent init formed.1, text_expr indent condition formed.2.1,
        text_lines (indent + 1) body formed.2.2.1, text_elseBranch indent orElse formed.2.2.2]

theorem text_headerStart (indent : Nat) : (found : Option Stmt) → Formed.header found →
    chars (Layout.headerStart indent (Unplaced.optionalStmt standing.read found)) = chars (Layout.headerStart indent found)
  | none, _ => rfl
  | some found, formed => by
      unfold Unplaced.optionalStmt Layout.headerStart
      simp only [chars_append, text_stmt indent found formed.1]

theorem text_elseBranch (indent : Nat) : (found : ElseBranch) → Formed.elseBranch found →
    chars (Layout.elseBranch indent (Unplaced.elseBranch standing.read found)) = chars (Layout.elseBranch indent found)
  | .absent, _ => rfl
  | .block body, formed => by
      unfold Unplaced.elseBranch Layout.elseBranch braces
      simp only [chars_append, chars_cons, text_lines (indent + 1) body formed]
  | .chain next, formed => by
      unfold Unplaced.elseBranch Layout.elseBranch
      simp only [chars_cons, text_ifStmt indent next formed]

theorem text_stmt (indent : Nat) : (found : Stmt) → Formed.stmt found →
    chars (Layout.stmt indent (Unplaced.stmt standing.read found)) = chars (Layout.stmt indent found)
  | .declare decl, formed => text_valueDecl indent decl formed
  | .define _ values _, formed => by
      unfold Unplaced.stmt Layout.stmt
      simp only [chars_append, chars_cons, chars_commaSeparated (text_exprs indent values formed.2.2)]
  | .assign _ values _, formed => by
      unfold Unplaced.stmt Layout.stmt
      simp only [chars_append, chars_cons, chars_commaSeparated (text_exprs indent values formed.2.2)]
  | .compound _ _ value _, formed => by
      unfold Unplaced.stmt Layout.stmt
      simp only [chars_cons, text_expr indent value formed.2.2]
  | .step _ _ _, _ | .break _, _ | .continue _, _ => rfl
  | .ifElse found, formed => text_ifStmt indent found formed
  | .loop init condition post body _, formed => by
      have inner := text_lines (indent + 1) body formed.2.2.2.2
      have tested := text_optionalExpr indent condition formed.2.1
      have first := text_optionalStmt indent init formed.1
      have last := text_loopPost indent post formed.2.2.1
      unfold Unplaced.stmt
      -- Whether the parts of the header are written does not depend on how its numbers are.
      by_cases bare : init = none ∧ post = none
      · obtain ⟨rfl, rfl⟩ := bare
        cases condition with
        | none =>
            unfold Unplaced.optionalExpr Unplaced.optionalStmt Layout.stmt braces
            simp only [chars_append, chars_cons, inner]
        | some condition =>
            have one : chars (Layout.expr indent (Unplaced.expr standing.read condition))
                = chars (Layout.expr indent condition) := tested
            unfold Unplaced.optionalExpr Unplaced.optionalStmt Layout.stmt braces
            simp only [chars_append, chars_cons, one, inner]
      · have parts : ¬ (Unplaced.optionalStmt standing.read init = none ∧ Unplaced.optionalStmt standing.read post = none) :=
          fun both => bare ⟨none_of_unplaced both.1, none_of_unplaced both.2⟩
        rw [layout_parts bare, layout_parts parts]
        unfold braces
        simp only [chars_append, chars_cons, first, tested, last, inner]
  | .switch init tag found _, formed => by
      unfold Unplaced.stmt Layout.stmt
      simp only [chars_append, chars_cons, text_switchStart indent init formed.1, text_switchTag indent tag formed.2.1,
        text_switchCases indent found formed.2.2.1]
  | .return [] _, _ => rfl
  | .return (first :: others) _, formed => by
      have same := text_exprs indent (first :: others) formed
      exact congrArg ((Word.keyword .returnWord).spelling ++ ' ' :: ·) (chars_commaSeparated same)
  | .block body, formed => by
      unfold Unplaced.stmt Layout.stmt braces
      simp only [chars_append, chars_cons, text_lines (indent + 1) body formed]
  | .expression found, formed => text_expr indent found formed

theorem text_lines (indent : Nat) : (found : List Stmt) → Formed.stmts found →
    chars (Layout.lines indent (Unplaced.stmts standing.read found)) = chars (Layout.lines indent found)
  | [], _ => rfl
  | first :: others, formed => by
      unfold Unplaced.stmts Layout.lines
      simp only [chars_append, chars_cons, text_stmt indent first formed.1, text_lines indent others formed.2.2]

theorem text_optionalStmt (indent : Nat) : (found : Option Stmt) → Formed.header found →
    chars (Layout.optionalStmt indent (Unplaced.optionalStmt standing.read found)) = chars (Layout.optionalStmt indent found)
  | none, _ => rfl
  | some found, formed => text_stmt indent found formed.1

theorem text_loopPost (indent : Nat) : (found : Option Stmt) → Formed.header found →
    chars (Layout.loopPost indent (Unplaced.optionalStmt standing.read found)) = chars (Layout.loopPost indent found)
  | none, _ => rfl
  | some found, formed => by
      unfold Unplaced.optionalStmt Layout.loopPost
      simp only [chars_cons, text_stmt indent found formed.1]

theorem text_switchStart (indent : Nat) : (found : Option Stmt) → Formed.header found →
    chars (Layout.switchStart indent (Unplaced.optionalStmt standing.read found)) = chars (Layout.switchStart indent found)
  | none, _ => rfl
  | some found, formed => by
      unfold Unplaced.optionalStmt Layout.switchStart
      simp only [chars_append, chars_cons, text_stmt indent found formed.1]

theorem text_switchTag (indent : Nat) : (found : Option Expr) → Formed.optionalExpr found →
    chars (Layout.switchTag indent (Unplaced.optionalExpr standing.read found)) = chars (Layout.switchTag indent found)
  | none, _ => rfl
  | some found, formed => by
      unfold Unplaced.optionalExpr Layout.switchTag
      simp only [chars_cons, text_expr indent found formed]

theorem text_switchCases (indent : Nat) : (found : List SwitchCase) → Formed.cases found →
    chars (Layout.switchCases indent (Unplaced.cases standing.read found)) = chars (Layout.switchCases indent found)
  | [], _ => rfl
  | ⟨label, body, _⟩ :: others, formed => by
      unfold Unplaced.cases Unplaced.switchCase Layout.switchCases Layout.switchCase
      simp only [chars_append, chars_cons, text_caseLabel indent label formed.1, text_lines (indent + 1) body formed.2.1,
        text_switchCases indent others formed.2.2]

theorem text_caseLabel (indent : Nat) : (found : CaseLabel) → Formed.caseLabel found →
    chars (Layout.caseLabel indent (Unplaced.caseLabel standing.read found)) = chars (Layout.caseLabel indent found)
  | .values values, formed => by
      unfold Unplaced.caseLabel Layout.caseLabel
      simp only [chars_cons, chars_commaSeparated (text_exprs indent values formed.2)]
  | .otherwise, _ => rfl

end

theorem text_decl {found : Decl} (formed : Formed.decl found) :
    chars (Layout.decl (Unplaced.decl standing.read found)) = chars (Layout.decl found) := by
  cases found with
  | function name literal =>
      unfold Unplaced.decl Layout.decl
      simp only [chars_cons, text_function standing 0 literal formed.2]
  | values decl => exact text_valueDecl standing 0 decl formed

theorem text_imports (found : List Import) :
    Layout.imports (found.map Unplaced.importSpec) = Layout.imports found := by
  match found with
  | [] => rfl
  | [_] => rfl
  | first :: second :: more =>
      have all : ((first :: second :: more).map Unplaced.importSpec).flatMap
          (fun spec => newLine 1 :: Layout.importSpec spec)
            = (first :: second :: more).flatMap fun spec => newLine 1 :: Layout.importSpec spec := List.flatMap_map _ _ _
      exact congrArg (fun lines => newLine 0 :: key .importWord :: blank :: sign .leftParen
        :: (lines ++ [newLine 0, sign .rightParen, newLine 0])) all

theorem text_declLines {found : List Decl} (formed : ∀ declared ∈ found, Formed.decl declared) :
    chars (declLines (found.map (Unplaced.decl standing.read))) = chars (declLines found) := by
  induction found with
  | nil => rfl
  | cons first others ih =>
      obtain ⟨formedFirst, formedOthers⟩ := List.forall_mem_cons.mp formed
      rw [List.map_cons, declLines_cons, declLines_cons]
      simp only [chars_append, chars_cons, text_decl standing formedFirst, ih formedOthers]

/-- The text of a file does not depend on places, nor on what stands for its float literals. -/
theorem render_unplaced {found : Program} (formed : Formed.program found) :
    (Unplaced.program standing.read found).render = found.render := by
  have same : chars (Layout.program (Unplaced.program standing.read found)) = chars (Layout.program found) := by
    change chars (key .packageWord :: blank :: name found.package :: newLine 0
      :: (Layout.imports (found.imports.map Unplaced.importSpec)
        ++ declLines (found.declarations.map (Unplaced.decl standing.read)))) = chars (key .packageWord :: blank
      :: name found.package :: newLine 0 :: (Layout.imports found.imports ++ declLines found.declarations))
    simp only [chars_cons, chars_append, text_imports, text_declLines standing formed.2.2]
  exact congrArg String.ofList same

end

/-- Printing what is read from a printed text gives that text again, unless it is nested too deeply. -/
theorem print_settles {source : String} {program : Program} (read : parseText source = .ok program)
    (callable : Everywhere.program Callable program) :
    (∃ other, parseText program.render = .ok other ∧ other.render = program.render) ∨
      ∃ location, parseText program.render = .error (.parse (.invalid (.nesting Reader.nestingLimit) location)) := by
  have formed := formed_parseText read
  rcases parseText_render formed callable with ⟨other, again, same⟩ | deep
  · refine Or.inl ⟨other, again, ?_⟩
    calc other.render = (unplaced other).render := (render_unplaced .literal (formed_parseText again)).symm
      _ = (settledProgram program).render := by rw [same]
      _ = program.render := render_unplaced .settled formed
  · exact Or.inr deep

/-- The hypotheses hold of a program with parentheses of both sorts. -/
theorem print_settles_sample :
    parseText Sample.source = .ok Sample.program ∧ Everywhere.program Callable Sample.program ∧
    ((∃ other, parseText Sample.program.render = .ok other ∧ other.render = Sample.program.render) ∨
      ∃ location, parseText Sample.program.render
        = .error (.parse (.invalid (.nesting Reader.nestingLimit) location))) :=
  ⟨Sample.read, Sample.callable, print_settles Sample.read Sample.callable⟩

/-- A text is accepted whose printed form is not: six hundred negations in a row are printed with parentheses. -/
theorem print_refused :
    ∃ program, parseText ("package p\n\nvar x = " ++ String.ofList (List.replicate 600 '!') ++ "y\n") = .ok program ∧
      ∃ location, parseText program.render = .error (.parse (.invalid (.nesting Reader.nestingLimit) location)) := by
  obtain ⟨program, read, same⟩ := @parseText_negations 600 (by decide)
  rw [render_negationSigns] at read
  refine ⟨program, read, ?_⟩
  have text : program.render = (single (negations 600)).render := by
    rw [← same]
    exact (render_unplaced .literal (formed_parseText read)).symm
  rw [text]
  exact render_negations_refused (by decide)

end MiniGo.Syntax
