import MiniGo.Proofs.Syntax.Branches
import MiniGo.Proofs.Syntax.Progress

/-!
# Files read back

By recursion on the tree every expression and every statement is read back from its layout, and so is a file
with its imports. A printed text is therefore read as the program it was printed from, up to places, unless it
is nested too deeply (`parseText_render`).
-/

namespace MiniGo.Syntax

open Piece Layout

variable {pending : Bool} {rest : List Piece} {indent : Nat}

/-! ## Statements of a body -/

theorem SameExpr.isCall {found value : Expr} (same : SameExpr found value) (call : found.isCall = true) :
    value.isCall = true := by
  cases found with
  | call callee args location => cases value <;> first | rfl | cases same
  | _ => cases call

theorem stmt_simple {found : Stmt} (header : HeaderReads indent found)
    (called : ∀ expr, found = .expression expr → expr.isCall = true) : StmtReads indent found := by
  intro fuel depth pending rest ends
  cases fuel with
  | zero => exact .exhausted
  | succ fuel =>
      -- Behind a simple statement only the test for calls is left, and it passes.
      have read : ∀ next : Stmt → Reader Stmt,
          (∀ value, (∀ expr, value = .expression expr → expr.isCall = true) → next value = pure value) →
          Rereads (Reader.simple fuel depth >>= next) pending (Layout.stmt indent found ++ rest) (SameStmt found) true
            rest := by
        intro next gives
        refine (header.reads fuel depth pending rest (by rw [ends]; rfl)).bind fun value same => ?_
        rw [gives value]
        · exact .pure same
        · rintro read rfl
          cases found with
          | expression expr => exact SameExpr.isCall (Stmt.expression.inj same) (called expr rfl)
          | _ => cases same
      have begins := header.begins pending rest
      refine .peek fun token seen => ?_
      rw [seen]
      generalize ahead pending (Layout.stmt indent found ++ rest) = first at begins
      cases first with
      | keyword word =>
          cases word with
          | funcWord =>
              exact read _ fun value called => by cases value <;> first | rfl | exact if_pos (called _ rfl)
          | _ => cases begins
      | mark sign =>
          cases sign with
          | leftParen | bang =>
              exact read _ fun value called => by cases value <;> first | rfl | exact if_pos (called _ rfl)
          | _ => cases begins
      | _ => exact read _ fun value called => by cases value <;> first | rfl | exact if_pos (called _ rfl)

theorem stmt_declare {found : ValueDecl} (formed : Formed.valueDecl found)
    (reads : ∀ value ∈ found.values, Reads indent value) : StmtReads indent (.declare found) := by
  intro fuel depth pending rest ends
  obtain ⟨isConst, names, type?, values, location⟩ := found
  cases fuel with
  | zero => exact .exhausted
  | succ fuel =>
      refine .peek fun token seen => ?_
      rw [seen]
      cases isConst with
      | false =>
          refine (rereads_varDecl formed reads fuel depth ends).bind fun value same => .pure ?_
          exact congrArg Stmt.declare same
      | true =>
          refine (rereads_constDecl formed reads fuel depth ends).bind fun value same => .pure ?_
          exact congrArg Stmt.declare same

theorem stmt_if {found : IfStmt} (reads : IfReads indent found) : StmtReads indent (.ifElse found) := by
  intro fuel depth pending rest ends
  obtain ⟨init, condition, body, orElse, location⟩ := found
  cases fuel with
  | zero => exact .exhausted
  | succ fuel =>
      refine .peek fun token seen => ?_
      rw [seen]
      refine (reads fuel depth pending rest ends).bind fun value same => .pure ?_
      exact congrArg Stmt.ifElse same

theorem stmt_loop {init : Option Stmt} {condition : Option Expr} {post : Option Stmt} {body : List Stmt}
    {location : Location} (first : ∀ stmt, init = some stmt → HeaderReads indent stmt)
    (tested : ∀ test, condition = some test → Reads indent test)
    (last : ∀ stmt, post = some stmt → HeaderReads indent stmt)
    (silent : ∀ stmt, post = some stmt → isSilent stmt = true) (block : BlockReads indent body) :
    StmtReads indent (.loop init condition post body location) := by
  intro fuel depth pending rest ends
  cases fuel with
  | zero => exact .exhausted
  | succ fuel =>
      refine .peek fun token seen => ?_
      rw [seen]
      rcases layout_loop indent init condition post body location with ⟨rfl, rfl, rfl⟩ | ⟨test, rfl, rfl, rfl⟩ | same
      · exact loop_bare block fuel depth
      · exact loop_tested (tested test rfl) block fuel depth
      · rw [same]
        exact loop_parts first tested last silent block fuel depth

theorem stmt_switch {init : Option Stmt} {tag : Option Expr} {found : List SwitchCase} {location : Location}
    (first : ∀ stmt, init = some stmt → HeaderReads indent stmt)
    (tested : ∀ test, tag = some test → Reads indent test) (reads : ∀ first ∈ found, CaseReads indent first)
    (single : (found.filter SwitchCase.isDefault).length ≤ 1) :
    StmtReads indent (.switch init tag found location) := by
  intro fuel depth pending rest ends
  cases fuel with
  | zero => exact .exhausted
  | succ fuel =>
      refine .peek fun token seen => ?_
      rw [seen]
      exact rereads_switch first tested reads single fuel depth

theorem return_nothing {location : Location} : StmtReads indent (.return [] location) := by
  intro fuel depth pending rest ends
  cases fuel with
  | zero => exact .exhausted
  | succ fuel =>
      change Rereads _ pending (key .returnWord :: rest) _ true rest
      have behind : ahead (Word.keyword .returnWord).endsStatement rest = .semicolon true := ends
      refine .peek fun token seen => ?_
      rw [seen]
      refine .advance (ne_end rfl) fun _ _ => .peekWord ?_
      rw [behind]
      exact .pure rfl

theorem return_values {values : List Expr} {location : Location} (some : values ≠ [])
    (reads : ∀ value ∈ values, Reads indent value) : StmtReads indent (.return values location) := by
  intro fuel depth pending rest ends
  cases fuel with
  | zero => exact .exhausted
  | succ fuel =>
      have layout : Layout.stmt indent (.return values location)
          = key .returnWord :: blank :: commaSeparated (Layout.exprs indent values) := by
        cases values with
        | nil => exact absurd rfl some
        | cons _ _ => rfl
      rw [layout, List.cons_append, List.cons_append]
      refine .peek fun token seen => ?_
      rw [seen]
      refine .advance (ne_end rfl) fun _ _ => .blank (.peekWord ?_)
      have read : Rereads (do
          let values ← Reader.expressions fuel depth
          pure (Stmt.return values token.location)) (Word.keyword .returnWord).endsStatement
            (commaSeparated (Layout.exprs indent values) ++ rest) (SameStmt (.return values location)) true rest :=
        (rereads_expressions some reads fuel depth _ (by rw [ends]; rfl) (by rw [ends]; rfl)).bind fun _ all =>
          .pure (congrArg (Stmt.return · Location.nowhere) all)
      have begins := begins_exprs indent some (Word.keyword .returnWord).endsStatement rest
      generalize ahead (Word.keyword .returnWord).endsStatement (commaSeparated (Layout.exprs indent values) ++ rest) = first
        at begins
      cases first with
      | semicolon _ => cases begins
      | mark sign => cases sign <;> first | exact read | cases begins
      | _ => exact read

theorem stmt_break {location : Location} : StmtReads indent (.break location) := by
  intro fuel depth pending rest ends
  cases fuel with
  | zero => exact .exhausted
  | succ fuel =>
      refine .peek fun token seen => ?_
      rw [seen]
      exact .advance (ne_end rfl) fun _ _ => .pure rfl

theorem stmt_continue {location : Location} : StmtReads indent (.continue location) := by
  intro fuel depth pending rest ends
  cases fuel with
  | zero => exact .exhausted
  | succ fuel =>
      refine .peek fun token seen => ?_
      rw [seen]
      exact .advance (ne_end rfl) fun _ _ => .pure rfl

theorem stmt_block {body : List Stmt} (block : BlockReads indent body) : StmtReads indent (.block body) := by
  intro fuel depth pending rest ends
  cases fuel with
  | zero => exact .exhausted
  | succ fuel =>
      refine .peek fun token seen => ?_
      rw [seen]
      refine (block fuel depth pending rest).bind fun values same => .pure ?_
      exact congrArg Stmt.block same

/-! ## Trees -/

/-- A statement is read back in a body, where an expression has to be a call, and in a header. -/
structure StmtRereading (indent : Nat) (found : Stmt) : Prop where
  line : (∀ expr, found = .expression expr → expr.isCall = true) → StmtReads indent found
  header : isSimple found = true → HeaderReads indent found

theorem StmtRereading.of_header {found : Stmt} (header : HeaderReads indent found) : StmtRereading indent found :=
  ⟨stmt_simple header, fun _ => header⟩

theorem StmtRereading.of_line {found : Stmt} (line : StmtReads indent found) (other : isSimple found = false) :
    StmtRereading indent found :=
  ⟨fun _ => line, fun simple => absurd (simple.symm.trans other) (by decide)⟩

mutual

theorem rereads_expr (indent : Nat) : (found : Expr) → Formed.expr found → Everywhere.expr Callable found →
    Rereading indent found
  | .integer _, formed, _ => .integer formed
  | .float _, _, _ => .of_chain rfl chain_float
  | .string _, _, _ => .of_chain rfl chain_string
  | .identifier _ _, _, _ => .of_chain rfl chain_identifier
  | .qualified _ _ _, _, _ => .of_chain rfl chain_qualified
  | .binary left _ right _, formed, callable =>
      (rereads_expr indent left formed.1 callable.2.1).binary (rereads_expr indent right formed.2 callable.2.2)
  | .unary _ operand _, formed, callable => (rereads_expr indent operand formed callable.2).unary
  | .call callee args _, formed, callable =>
      .call (isOperand_callee formed.1 callable.1) (rereads_expr indent callee formed.1 callable.2.1)
        (rereads_arguments (rereads_exprs indent args formed.2 callable.2.2))
  | .function ⟨_, body, _⟩, formed, callable =>
      .function fun _ _ _ _ _ => rereads_functionRest formed.1 (rereads_block formed.2 (rereads_stmts (indent + 1) body formed.2 callable.2)) _ _ _ _

theorem rereads_exprs (indent : Nat) : (found : List Expr) → Formed.exprs found → Everywhere.exprs Callable found →
    ∀ value ∈ found, Reads indent value
  | [], _, _ => fun _ member => absurd member List.not_mem_nil
  | first :: others, formed, callable => List.forall_mem_cons.mpr
      ⟨(rereads_expr indent first formed.1 callable.1).reads, rereads_exprs indent others formed.2 callable.2⟩

theorem rereads_optionalExpr (indent : Nat) : (found : Option Expr) → Formed.optionalExpr found →
    Everywhere.optionalExpr Callable found → ∀ test, found = some test → Reads indent test
  | none, _, _ => fun _ same => absurd same nofun
  | some found, formed, callable => fun _ same =>
      Option.some.inj same ▸ (rereads_expr indent found formed callable).reads

theorem rereads_stmts (indent : Nat) : (found : List Stmt) → Formed.stmts found → Everywhere.stmts Callable found →
    ∀ stmt ∈ found, StmtReads indent stmt
  | [], _, _ => fun _ member => absurd member List.not_mem_nil
  | first :: others, formed, callable => List.forall_mem_cons.mpr
      ⟨(rereads_stmt indent first formed.1 callable.1).line formed.2.1,
        rereads_stmts indent others formed.2.2 callable.2⟩

theorem rereads_stmt (indent : Nat) : (found : Stmt) → Formed.stmt found → Everywhere.stmt Callable found →
    StmtRereading indent found
  | .declare ⟨_, _, _, values, _⟩, formed, callable =>
      .of_line (stmt_declare formed (rereads_exprs indent values formed.2.2.1 callable)) rfl
  | .define _ values _, formed, callable =>
      .of_header ⟨begins_simple rfl formed,
        simple_define formed.1.1 formed.2.1 (rereads_exprs indent values formed.2.2 callable)⟩
  | .assign _ values _, formed, callable =>
      .of_header ⟨begins_simple rfl formed,
        simple_assign formed.1.1 formed.2.1 (rereads_exprs indent values formed.2.2 callable)⟩
  | .compound _ _ value _, formed, callable =>
      .of_header ⟨begins_simple rfl formed, simple_compound (rereads_expr indent value formed.2.2 callable).reads⟩
  | .step _ _ _, formed, _ => .of_header ⟨begins_simple rfl formed, simple_step⟩
  | .ifElse found, formed, callable => .of_line (stmt_if (rereads_ifStmt indent found formed callable)) rfl
  | .loop init condition post body _, formed, callable =>
      .of_line (stmt_loop (rereads_header indent init formed.1 callable.1)
        (rereads_optionalExpr indent condition formed.2.1 callable.2.1)
        (rereads_header indent post formed.2.2.1 callable.2.2.1) formed.2.2.2.1
        (rereads_block formed.2.2.2.2 (rereads_stmts (indent + 1) body formed.2.2.2.2 callable.2.2.2))) rfl
  | .switch init tag found _, formed, callable =>
      .of_line (stmt_switch (rereads_header indent init formed.1 callable.1)
        (rereads_optionalExpr indent tag formed.2.1 callable.2.1)
        (rereads_switchCases indent found formed.2.2.1 callable.2.2) formed.2.2.2) rfl
  | .return [] _, _, _ => .of_line return_nothing rfl
  | .return (first :: others) _, formed, callable =>
      .of_line (return_values (List.cons_ne_nil _ _) (rereads_exprs indent (first :: others) formed callable)) rfl
  | .break _, _, _ => .of_line stmt_break rfl
  | .continue _, _, _ => .of_line stmt_continue rfl
  | .block body, formed, callable => .of_line (stmt_block (rereads_block formed (rereads_stmts (indent + 1) body formed callable))) rfl
  | .expression found, formed, callable =>
      .of_header (header_expression (rereads_expr indent found formed callable).reads)

theorem rereads_ifStmt (indent : Nat) : (found : IfStmt) → Formed.ifStmt found → Everywhere.ifStmt Callable found →
    IfReads indent found
  | ⟨init, condition, body, orElse, _⟩, formed, callable =>
      rereads_if (rereads_header indent init formed.1 callable.1)
        (rereads_expr indent condition formed.2.1 callable.2.1).reads
        (rereads_block formed.2.2.1 (rereads_stmts (indent + 1) body formed.2.2.1 callable.2.2.1))
        (rereads_elseBranch indent orElse formed.2.2.2 callable.2.2.2)

theorem rereads_elseBranch (indent : Nat) : (found : ElseBranch) → Formed.elseBranch found →
    Everywhere.elseBranch Callable found → ElseReads indent found
  | .absent, _, _ => else_absent
  | .block body, formed, callable => else_block (rereads_block formed (rereads_stmts (indent + 1) body formed callable))
  | .chain next, formed, callable => else_chain (rereads_ifStmt indent next formed callable)

theorem rereads_header (indent : Nat) : (found : Option Stmt) → Formed.header found →
    Everywhere.optionalStmt Callable found → ∀ first, found = some first → HeaderReads indent first
  | none, _, _ => fun _ same => absurd same nofun
  | some found, formed, callable => fun _ same =>
      Option.some.inj same ▸ (rereads_stmt indent found formed.1 callable).header formed.2

theorem rereads_switchCases (indent : Nat) : (found : List SwitchCase) → Formed.cases found →
    Everywhere.cases Callable found → ∀ first ∈ found, CaseReads indent first
  | [], _, _ => fun _ member => absurd member List.not_mem_nil
  | ⟨label, body, _⟩ :: others, formed, callable => List.forall_mem_cons.mpr
      ⟨⟨rereads_caseLabel indent label formed.1 callable.1.1, formed_stmts formed.2.1,
        rereads_stmts (indent + 1) body formed.2.1 callable.1.2⟩,
        rereads_switchCases indent others formed.2.2 callable.2⟩

theorem rereads_caseLabel (indent : Nat) : (found : CaseLabel) → Formed.caseLabel found →
    Everywhere.caseLabel Callable found →
    ∀ values, found = .values values → values ≠ [] ∧ ∀ value ∈ values, Reads indent value
  | .values values, formed, callable => fun _ same =>
      CaseLabel.values.inj same ▸ ⟨formed.1, rereads_exprs indent values formed.2 callable⟩
  | .otherwise, _, _ => fun _ same => absurd same nofun

end

/-! ## Imports -/

/-- What the texts of imports are read as, up to places. -/
def SameImports (found values : List Import) : Prop := values.map Unplaced.importSpec = found.map Unplaced.importSpec

theorem begins_importSpec (found : Import) (pending : Bool) (rest : List Piece) :
    isSemicolon (ahead pending (Layout.importSpec found ++ rest)) = false ∧
      isMark .rightParen (ahead pending (Layout.importSpec found ++ rest)) = false ∧
      isMark .leftParen (ahead pending (Layout.importSpec found ++ rest)) = false := by
  unfold Layout.importSpec
  cases found.alias? <;> exact ⟨rfl, rfl, rfl⟩

theorem rereads_importSpec {found : Import} :
    Rereads Reader.importSpec pending (Layout.importSpec found ++ rest)
      (fun value => Unplaced.importSpec value = Unplaced.importSpec found) true rest := by
  obtain ⟨alias?, path, location⟩ := found
  refine .peek fun here seen => ?_
  rw [seen]
  cases alias? with
  | none =>
      refine (Rereads.pure (show (fun other => other = none) none from rfl)).bind ?_
      rintro _ rfl
      exact .peekWord (.advance (ne_end rfl) fun _ _ => .pure rfl)
  | some other =>
      have read : Rereads (do
          let _ ← Reader.advance
          pure (some other)) pending (name other :: blank :: word (.string path) :: rest) (· = some other) true
            (word (.string path) :: rest) := .advance (ne_end rfl) fun _ _ => .blank (.pure rfl)
      refine read.bind ?_
      rintro _ rfl
      exact .peekWord (.advance (ne_end rfl) fun _ _ => .pure rfl)

theorem specs_break (found : List Import) :
    ∃ line next, found.flatMap (fun spec => newLine 1 :: Layout.importSpec spec) ++ newLine 0 :: sign .rightParen :: rest
      = newLine line :: next ∧ isSemicolon (ahead false next) = false := by
  cases found with
  | nil => exact ⟨0, _, rfl, rfl⟩
  | cons first others =>
      rw [List.flatMap_cons, List.cons_append, List.cons_append, List.append_assoc]
      exact ⟨1, _, rfl, (begins_importSpec first false _).1⟩

theorem rereads_importSpecs {found : List Import} (fuel : Nat) :
    Rereads (Reader.importSpecs fuel) false
      (found.flatMap (fun spec => newLine 1 :: Layout.importSpec spec) ++ newLine 0 :: sign .rightParen :: rest)
      (SameImports found) false (sign .rightParen :: rest) := by
  induction found generalizing fuel with
  | nil =>
      cases fuel with
      | zero => exact .exhausted
      | succ fuel => exact .atMark (.pure rfl)
  | cons first others ih =>
      cases fuel with
      | zero => exact .exhausted
      | succ fuel =>
          obtain ⟨line, next, whole, none⟩ : ∃ line next, others.flatMap (fun spec => newLine 1 :: Layout.importSpec spec)
              ++ newLine 0 :: sign .rightParen :: rest = newLine line :: next ∧ isSemicolon (ahead false next) = false :=
            specs_break others
          have more := ih fuel
          rw [whole] at more
          rw [List.flatMap_cons, List.cons_append, List.cons_append, List.append_assoc, whole]
          refine .noLine (.atMark ?_)
          rw [(begins_importSpec first false _).2.1]
          refine rereads_importSpec.bind fun value same => .atMark ?_
          refine Rereads.expectLine.bind fun _ _ => (Rereads.skipSemicolons none).bind fun _ _ => ?_
          refine more.bind fun values all => .pure ?_
          unfold SameImports
          rw [List.map_cons, List.map_cons, same, all]

theorem rereads_imports_end (other : isKeyword .importWord (ahead false rest) = false) (fuel : Nat) :
    Rereads (Reader.imports fuel) false rest (SameImports []) false rest := by
  cases fuel with
  | zero => exact .exhausted
  | succ fuel =>
      refine .atKeyword ?_
      rw [other]
      exact .pure rfl

theorem rereads_importLine {pieces : List Piece} {found : List Import} (fuel : Nat)
    (read : Rereads (Reader.importDecl fuel) false pieces (SameImports found) true (newLine 0 :: rest))
    (begins : ahead false pieces = .keyword .importWord)
    (other : isKeyword .importWord (ahead false rest) = false) (none : isSemicolon (ahead false rest) = false) :
    Rereads (Reader.imports (fuel + 1)) false pieces (SameImports found) false rest := by
  refine .atKeyword ?_
  rw [begins]
  refine read.bind fun values same => ?_
  refine Rereads.terminate.bind fun _ _ => (Rereads.skipSemicolons none).bind fun _ _ => ?_
  refine (rereads_imports_end other fuel).bind fun more nothing => .pure ?_
  unfold SameImports at same nothing ⊢
  rw [List.map_append, same, nothing, List.map_nil, List.append_nil]

theorem rereads_imports {found : List Import} (other : isKeyword .importWord (ahead false rest) = false)
    (none : isSemicolon (ahead false rest) = false) (fuel : Nat) :
    Rereads (Reader.imports fuel) false (Layout.imports found ++ rest) (SameImports found) false rest := by
  cases fuel with
  | zero => exact .exhausted
  | succ fuel =>
      match found with
      | [] => exact rereads_imports_end other (fuel + 1)
      -- A single import stands on one line, several stand in parentheses.
      | [single] =>
          unfold Layout.imports
          rw [List.cons_append, List.cons_append, List.cons_append, List.append_assoc]
          refine .noLine (rereads_importLine fuel ?_ rfl other none)
          refine .advance (ne_end rfl) fun _ _ => .blank (.atMark ?_)
          rw [(begins_importSpec single _ _).2.2]
          refine rereads_importSpec.bind fun value same => .pure ?_
          exact congrArg (fun spec => [spec]) same
      | first :: second :: more =>
          unfold Layout.imports
          rw [List.cons_append, List.cons_append, List.cons_append, List.cons_append, List.append_assoc]
          refine .noLine (rereads_importLine fuel ?_ rfl other none)
          obtain ⟨line, next, whole, plain⟩ : ∃ line next, (first :: second :: more).flatMap
              (fun spec => newLine 1 :: Layout.importSpec spec) ++ newLine 0 :: sign .rightParen :: newLine 0 :: rest
                = newLine line :: next ∧ isSemicolon (ahead false next) = false := specs_break _
          refine .advance (ne_end rfl) fun _ _ => .blank (.atMark (.advance (ne_end rfl) fun _ _ => ?_))
          refine (Rereads.skipSemicolons ?_).bind fun _ _ => ?_
          · exact (congrArg (fun pieces => isSemicolon (ahead false pieces)) whole).trans plain
          refine (rereads_importSpecs fuel).bind fun values all => ?_
          exact Rereads.expectMark.bind fun _ _ => .pure all

/-! ## Declarations -/

/-- What the texts of declarations are read as, up to places. -/
def SameDecls (found values : List Decl) : Prop :=
  values.map (Unplaced.decl .float) = found.map (Unplaced.decl settledFloat)

theorem rereads_decl {found : Decl} (formed : Formed.decl found) (callable : Everywhere.decl Callable found) (fuel : Nat)
    (ends : ahead true rest = .semicolon true) :
    Rereads (Reader.declaration fuel) false (Layout.decl found ++ rest)
      (fun value => Unplaced.decl .float value = Unplaced.decl settledFloat found) true rest := by
  refine .peek fun token seen => ?_
  rw [seen]
  cases found with
  | function found literal =>
      obtain ⟨signature, body, location⟩ := literal
      refine .advance (ne_end rfl) fun _ _ => .blank (Rereads.expectName.bind ?_)
      rintro _ rfl
      have block : BlockReads 0 body := rereads_block formed.2.2 (rereads_stmts 1 body formed.2.2 callable)
      refine (rereads_functionRest formed.2.1 block fuel 0 true rest).bind fun value same => .pure ?_
      exact congrArg (Decl.function _) same
  | values found =>
      obtain ⟨isConst, names, type?, values, location⟩ := found
      have formed : Formed.valueDecl ⟨isConst, names, type?, values, location⟩ := formed
      have reads := rereads_exprs 0 values formed.2.2.1 callable
      cases isConst with
      | false =>
          refine (rereads_varDecl formed reads fuel 0 ends).bind fun value same => .pure ?_
          exact congrArg Decl.values same
      | true =>
          refine (rereads_constDecl formed reads fuel 0 ends).bind fun value same => .pure ?_
          exact congrArg Decl.values same

theorem ahead_decl (found : Decl) (rest : List Piece) :
    ahead false (Layout.decl found ++ rest) = .keyword .funcWord ∨
      ahead false (Layout.decl found ++ rest) = .keyword .varWord ∨
      ahead false (Layout.decl found ++ rest) = .keyword .constWord := by
  cases found with
  | function _ _ => exact Or.inl rfl
  | values found =>
      obtain ⟨isConst, names, type?, values, location⟩ := found
      cases isConst with
      | false => exact Or.inr (Or.inl rfl)
      | true => exact Or.inr (Or.inr rfl)

def declLines (found : List Decl) : List Piece :=
  found.flatMap fun declared => newLine 0 :: (Layout.decl declared ++ [newLine 0])

theorem declLines_cons (first : Decl) (others : List Decl) :
    declLines (first :: others) = newLine 0 :: (Layout.decl first ++ newLine 0 :: declLines others) := by
  unfold declLines
  rw [List.flatMap_cons, List.cons_append, List.append_assoc, List.singleton_append]

theorem begins_declLines (found : List Decl) :
    isKeyword .importWord (ahead false (declLines found)) = false ∧ isSemicolon (ahead false (declLines found)) = false := by
  cases found with
  | nil => exact ⟨rfl, rfl⟩
  | cons first others =>
      rw [declLines_cons, ahead_noLine]
      rcases ahead_decl first (newLine 0 :: declLines others) with same | same | same <;> rw [same] <;> exact ⟨rfl, rfl⟩

theorem rereads_declarations {found : List Decl} (formed : ∀ declared ∈ found, Formed.decl declared)
    (callable : ∀ declared ∈ found, Everywhere.decl Callable declared) (fuel : Nat) :
    Rereads (Reader.declarations fuel) false (declLines found) (SameDecls found) false [] := by
  induction found generalizing fuel with
  | nil =>
      cases fuel with
      | zero => exact .exhausted
      | succ fuel => exact .peekWord (.pure rfl)
  | cons first others ih =>
      cases fuel with
      | zero => exact .exhausted
      | succ fuel =>
          obtain ⟨formedFirst, formedOthers⟩ := List.forall_mem_cons.mp formed
          obtain ⟨callableFirst, callableOthers⟩ := List.forall_mem_cons.mp callable
          have read : Rereads (do
              let first ← Reader.declaration fuel
              Reader.terminate
              Reader.skipSemicolons
              let rest ← Reader.declarations fuel
              pure (first :: rest)) false (Layout.decl first ++ newLine 0 :: declLines others)
                (SameDecls (first :: others)) false [] := by
            refine (rereads_decl formedFirst callableFirst fuel rfl).bind fun value same => ?_
            refine Rereads.terminate.bind fun _ _ => ?_
            refine (Rereads.skipSemicolons (begins_declLines others).2).bind fun _ _ => ?_
            refine (ih formedOthers callableOthers fuel).bind fun values all => .pure ?_
            unfold SameDecls
            rw [List.map_cons, List.map_cons, same, all]
          rw [declLines_cons]
          refine .noLine (.peekWord ?_)
          rcases ahead_decl first (newLine 0 :: declLines others) with same | same | same <;> rw [same] <;> exact read

/-! ## Files -/

theorem rereads_file {found : Program} (formed : Formed.program found) (callable : Everywhere.program Callable found)
    (fuel : Nat) :
    Rereads (Reader.file fuel) false (Layout.program found) (fun value => unplaced value = settledProgram found) false
      [] := by
  have begins := begins_declLines found.declarations
  have plain : isSemicolon (ahead false (Layout.imports found.imports ++ declLines found.declarations)) = false := by
    match found.imports with
    | [] => exact begins.2
    | [_] => rfl
    | _ :: _ :: _ => rfl
  refine (Rereads.skipSemicolons rfl).bind fun _ _ => Rereads.expectKeyword.bind fun _ _ => ?_
  refine .blank (Rereads.expectName.bind ?_)
  rintro _ rfl
  refine Rereads.terminate.bind fun _ _ => (Rereads.skipSemicolons plain).bind fun _ _ => ?_
  refine (rereads_imports begins.1 begins.2 fuel).bind fun imports same => ?_
  refine (rereads_declarations formed.2.2 callable fuel).bind fun declarations all => .pure ?_
  unfold unplaced settledProgram Unplaced.program
  rw [same, all]

theorem parseText_eq {source : String} {tokens : List Token} (lexed : tokenize source = .ok tokens) :
    parseText source = (parse tokens).mapError Error.parse := by
  unfold parseText
  rw [lexed]
  cases parsed : parse tokens <;> simp only [bind, Except.bind, parsed] <;> rfl

/-- The text of a layout is read as the layout is; it is nested too deeply only if it has as many tokens as there
may be levels. -/
theorem parseText_layout {pieces : List Piece} {post : Program → Prop} (spaced : Spaced pieces)
    (reads : ∀ fuel, Rereads (Reader.file fuel) false pieces post false []) :
    (∃ program, parseText (Piece.render pieces) = .ok program ∧ post program) ∨
      (Reader.nestingLimit ≤ (wordsFrom false pieces).length ∧
        ∃ location, parseText (Piece.render pieces) = .error (.parse (.invalid (.nesting Reader.nestingLimit) location))) := by
  obtain ⟨tokens, lexed, words⟩ := tokenize_render spaced
  rw [parseText_eq lexed]
  unfold parse Reader.run
  rcases reads (Reader.fuelFor tokens) tokens words with ⟨value, left, read, holds, _⟩ | ⟨stop, read, deep⟩
  · have ran : StateT.run (Reader.file (Reader.fuelFor tokens)) tokens = .ok (value, left) := read
    rw [ran]
    exact Or.inl ⟨value, rfl, holds⟩
  · have ran : StateT.run (Reader.file (Reader.fuelFor tokens)) tokens = .error stop := read
    have may := mayStop_file ran
    rw [ran, ← words, List.length_map]
    rcases deep with rfl | ⟨location, rfl⟩
    · exact may.elim
    · exact Or.inr ⟨Nat.le_of_lt_succ (may ⟨location, rfl⟩), location, rfl⟩

/-- A printed text is read as the program it was printed from, up to places; or it is nested too deeply. -/
theorem parseText_render {found : Program} (formed : Formed.program found)
    (callable : Everywhere.program Callable found) :
    (∃ other, parseText found.render = .ok other ∧ unplaced other = settledProgram found) ∨
      ∃ location, parseText found.render = .error (.parse (.invalid (.nesting Reader.nestingLimit) location)) :=
  (parseText_layout (spaced_program formed callable) (rereads_file formed callable)).imp_right And.right

end MiniGo.Syntax
