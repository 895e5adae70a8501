import MiniGo.Proofs.Syntax.Statements

/-!
# Conditional statements, loops and switches read back

Each is read from its layout, if its header and its bodies are. A loop without a header and one with a
condition have layouts of their own, and a switch is followed case by case.
-/

namespace MiniGo.Syntax

open Piece Layout

variable {pending : Bool} {rest : List Piece} {indent : Nat}

/-! ## Headers -/

/-- A statement is read from its layout in a header, and begins as an expression does. -/
structure HeaderReads (indent : Nat) (found : Stmt) : Prop where
  begins : ∀ pending rest, beginsExpr (ahead pending (Layout.stmt indent found ++ rest)) = true
  reads : SimpleReads indent found

theorem header_expression {found : Expr} (reads : Reads indent found) : HeaderReads indent (.expression found) where
  begins := begins_expr indent found
  reads := simple_expression reads

/-- What the text of a statement is read as, up to places, if there is one. -/
def SameInit (found value : Option Stmt) : Prop :=
  Unplaced.optionalStmt .float value = Unplaced.optionalStmt settledFloat found

/-- What the text of an expression is read as, up to places, if there is one. -/
def SameTest (found value : Option Expr) : Prop :=
  Unplaced.optionalExpr .float value = Unplaced.optionalExpr settledFloat found

theorem sameStmt_expression {found : Expr} {value : Stmt} (same : SameStmt (.expression found) value) :
    ∃ read, value = .expression read ∧ SameExpr found read := by
  cases value with
  | expression read => exact ⟨read, rfl, Stmt.expression.inj same⟩
  | _ => cases same

theorem rereads_conditionOf {found : Expr} {value : Stmt} {pieces : List Piece} (same : SameStmt (.expression found) value)
    (place : Location) :
    Rereads (Reader.conditionOf place value) pending pieces (SameExpr found) pending pieces := by
  obtain ⟨read, rfl, holds⟩ := sameStmt_expression same
  exact .pure holds

theorem isSemicolon_of_beginsExpr {found : Word} (begins : beginsExpr found = true) : isSemicolon found = false :=
  isSemicolon_of_beginsStmt (beginsStmt_of_beginsExpr begins)

theorem rereads_headerStart {found : Stmt} (header : HeaderReads indent found) (fuel depth : Nat)
    (ends : endsHeader (ahead true rest) = true) :
    Rereads (Reader.headerStart fuel depth) pending (Layout.stmt indent found ++ rest)
      (fun value => ∃ read, value = some read ∧ SameStmt found read) true rest := by
  cases fuel with
  | zero => exact .exhausted
  | succ fuel =>
      refine .atSemicolon ?_
      rw [isSemicolon_of_beginsExpr (header.begins pending rest)]
      exact (header.reads fuel depth pending rest ends).bind fun value same => .pure ⟨value, rfl, same⟩

theorem rereads_init {init : Option Stmt} (header : ∀ first, init = some first → HeaderReads indent first)
    (fuel depth : Nat) :
    Rereads (Reader.headerStart fuel depth) pending (Layout.optionalStmt indent init ++ word (.semicolon false) :: rest)
      (SameInit init) true (word (.semicolon false) :: rest) := by
  cases init with
  | none =>
      cases fuel with
      | zero => exact .exhausted
      | succ fuel => exact .atSemicolon (.pure rfl)
  | some first =>
      refine (rereads_headerStart (header first rfl) fuel depth rfl).weaken ?_
      rintro _ ⟨read, rfl, same⟩
      exact congrArg some same

theorem rereads_loopCondition {condition : Option Expr} (tested : ∀ test, condition = some test → Reads indent test)
    (fuel depth : Nat) :
    Rereads (Reader.loopCondition fuel depth) pending
      (Layout.optionalExpr indent condition ++ word (.semicolon false) :: rest) (SameTest condition) true
      (word (.semicolon false) :: rest) := by
  cases fuel with
  | zero => exact .exhausted
  | succ fuel =>
      refine .atSemicolon ?_
      cases condition with
      | none => exact .pure rfl
      | some test =>
          unfold Layout.optionalExpr
          rw [isSemicolon_of_beginsExpr (begins_expr indent test pending _)]
          refine (tested test rfl fuel depth pending _ rfl).bind fun value same => .pure ?_
          exact congrArg some same

theorem isSilent_of_same {found value : Stmt} (same : SameStmt found value) : isSilent value = isSilent found := by
  cases found <;> cases value <;> first | rfl | cases same

theorem rereads_loopPost {post : Option Stmt} (header : ∀ last, post = some last → HeaderReads indent last)
    (silent : ∀ last, post = some last → isSilent last = true) (fuel depth : Nat) :
    Rereads (Reader.loopPost fuel depth) false (Layout.loopPost indent post ++ blank :: sign .leftBrace :: rest)
      (SameInit post) true (sign .leftBrace :: rest) := by
  cases fuel with
  | zero => exact .exhausted
  | succ fuel =>
      refine .atMark ?_
      cases post with
      | none => exact .pure rfl
      | some last =>
          have begins := (header last rfl).begins false (blank :: sign .leftBrace :: rest)
          have other : isMark .leftBrace (ahead false (Layout.loopPost indent (some last) ++ blank :: sign .leftBrace :: rest))
              = false := isMark_of_beginsExpr begins rfl
          rw [other]
          refine .peek fun here _ => .blank ?_
          refine ((header last rfl).reads fuel depth false (blank :: sign .leftBrace :: rest) rfl).bind fun value same => ?_
          have quiet := (isSilent_of_same same).trans (silent last rfl)
          have holds : SameInit (some last) (some value) := congrArg some same
          cases value with
          | define _ _ _ => cases quiet
          | _ => exact .pure holds

/-! ## Conditional statements -/

/-- What the text of a conditional statement is read as, up to places. -/
def SameIf (found value : IfStmt) : Prop := Unplaced.ifStmt .float value = Unplaced.ifStmt settledFloat found

/-- What the text behind the body of a conditional statement is read as, up to places. -/
def SameElse (found value : ElseBranch) : Prop :=
  Unplaced.elseBranch .float value = Unplaced.elseBranch settledFloat found

/-- A conditional statement is read from its layout at the end of a line. -/
def IfReads (indent : Nat) (found : IfStmt) : Prop :=
  ∀ fuel depth pending rest, ahead true rest = .semicolon true →
    Rereads (Reader.conditional fuel depth) pending (Layout.ifStmt indent found ++ rest) (SameIf found) true rest

/-- What follows the body of a conditional statement is read from its layout at the end of a line. -/
def ElseReads (indent : Nat) (found : ElseBranch) : Prop :=
  ∀ fuel depth rest, ahead true rest = .semicolon true →
    Rereads (Reader.elseBranch fuel depth) true (Layout.elseBranch indent found ++ rest) (SameElse found) true rest

theorem else_absent : ElseReads indent .absent := by
  intro fuel depth rest ends
  cases fuel with
  | zero => exact .exhausted
  | succ fuel =>
      refine .atKeyword ?_
      have no : isKeyword .elseWord (ahead true (Layout.elseBranch indent .absent ++ rest)) = false :=
        (congrArg (isKeyword .elseWord) ends)
      rw [no]
      exact .pure rfl

theorem else_block {body : List Stmt} (block : BlockReads indent body) : ElseReads indent (.block body) := by
  intro fuel depth rest ends
  cases fuel with
  | zero => exact .exhausted
  | succ fuel =>
      refine .blank (.atKeyword (.advance (ne_end rfl) fun _ _ => .blank (.peekWord ?_)))
      refine (block fuel depth _ rest).bind fun values all => .pure ?_
      exact congrArg ElseBranch.block all

theorem else_chain {next : IfStmt} (reads : IfReads indent next) : ElseReads indent (.chain next) := by
  intro fuel depth rest ends
  obtain ⟨init, condition, body, orElse, location⟩ := next
  cases fuel with
  | zero => exact .exhausted
  | succ fuel =>
      refine .blank (.atKeyword (.advance (ne_end rfl) fun _ _ => .blank (.peekWord ?_)))
      refine (reads fuel depth _ rest ends).bind fun value same => .pure ?_
      exact congrArg ElseBranch.chain same

theorem rereads_condition {condition : Expr} {first : Stmt} (same : SameStmt (.expression condition) first)
    (fuel depth : Nat) (place : Location) (ends : ahead true rest = .mark .leftBrace) :
    Rereads (do
        if ← Reader.atWrittenSemicolon then do
          let _ ← Reader.advance
          let condition ← Reader.expression fuel depth
          pure (some first, condition)
        else do
          let condition ← Reader.conditionOf place first
          pure (none, condition)) true rest
      (fun header => SameInit none header.1 ∧ SameExpr condition header.2) true rest := by
  refine .atWrittenSemicolon ?_
  rw [ends]
  exact (rereads_conditionOf same place).bind fun _ holds => .pure ⟨rfl, holds⟩

theorem rereads_initCondition {init : Stmt} {condition : Expr} {first : Stmt} (same : SameStmt init first)
    (tested : Reads indent condition) (fuel depth : Nat) (place : Location)
    (ends : ahead true rest = .mark .leftBrace) :
    Rereads (do
        if ← Reader.atWrittenSemicolon then do
          let _ ← Reader.advance
          let condition ← Reader.expression fuel depth
          pure (some first, condition)
        else do
          let condition ← Reader.conditionOf place first
          pure (none, condition)) true (word (.semicolon false) :: blank :: (Layout.expr indent condition ++ rest))
      (fun header => SameInit (some init) header.1 ∧ SameExpr condition header.2) true rest := by
  refine .atWrittenSemicolon (.advance (ne_end rfl) fun _ _ => .blank ?_)
  refine (tested fuel depth _ rest (by rw [ends]; rfl)).bind fun value holds => .pure ⟨?_, holds⟩
  exact congrArg some same

theorem rereads_ifBody {init value : Option Stmt} {condition test : Expr} {body : List Stmt} {orElse : ElseBranch}
    {location place : Location} (same : SameInit init value ∧ SameExpr condition test) (block : BlockReads indent body)
    (others : ElseReads indent orElse) (fuel depth : Nat) (ends : ahead true rest = .semicolon true) :
    Rereads (do
        let body ← Reader.block fuel depth
        let orElse ← Reader.elseBranch fuel depth
        pure (IfStmt.mk value test body orElse place)) true
      (Layout.braces indent (Layout.lines (indent + 1) body) ++ (Layout.elseBranch indent orElse ++ rest))
      (SameIf ⟨init, condition, body, orElse, location⟩) true rest := by
  refine (block fuel depth true _).bind fun inner sameBody => ?_
  refine (others fuel depth rest ends).bind fun last sameElse => .pure ?_
  unfold SameIf Unplaced.ifStmt
  rw [same.1, same.2, sameBody, sameElse]

theorem rereads_if {init : Option Stmt} {condition : Expr} {body : List Stmt} {orElse : ElseBranch} {location : Location}
    (header : ∀ first, init = some first → HeaderReads indent first) (tested : Reads indent condition)
    (block : BlockReads indent body) (others : ElseReads indent orElse) :
    IfReads indent ⟨init, condition, body, orElse, location⟩ := by
  intro fuel depth pending rest ends
  cases fuel with
  | zero => exact .exhausted
  | succ fuel =>
      unfold Layout.ifStmt
      rw [List.cons_append, List.cons_append, List.append_assoc, List.append_assoc, List.cons_append, List.append_assoc]
      refine .advance (ne_end rfl) fun _ _ => .blank (.peek fun here _ => ?_)
      cases init with
      | none =>
          refine (simple_expression tested fuel depth _ _ rfl).bind fun first same => ?_
          refine (rereads_condition same fuel depth _ rfl).bind ?_
          rintro ⟨value, test⟩ holds
          exact .blank (rereads_ifBody holds block others fuel depth ends)
      | some init =>
          unfold Layout.headerStart
          rw [List.append_assoc]
          refine ((header init rfl).reads fuel depth _ _ rfl).bind fun first same => ?_
          refine (rereads_initCondition same tested fuel depth _ rfl).bind ?_
          rintro ⟨value, test⟩ holds
          exact .blank (rereads_ifBody holds block others fuel depth ends)

/-! ## Loops -/

theorem loop_bare {body : List Stmt} {location : Location} (block : BlockReads indent body) (fuel depth : Nat) :
    Rereads (Reader.loop fuel depth) pending (Layout.stmt indent (.loop none none none body location) ++ rest)
      (SameStmt (.loop none none none body location)) true rest := by
  cases fuel with
  | zero => exact .exhausted
  | succ fuel =>
      refine .advance (ne_end rfl) fun _ _ => .blank (.peek fun here _ => .atMark ?_)
      refine (block fuel depth _ rest).bind fun inner same => .pure ?_
      unfold SameStmt Unplaced.stmt
      rw [same]
      rfl

theorem loop_tested {condition : Expr} {body : List Stmt} {location : Location} (tested : Reads indent condition)
    (block : BlockReads indent body) (fuel depth : Nat) :
    Rereads (Reader.loop fuel depth) pending
      (Layout.stmt indent (.loop none (some condition) none body location) ++ rest)
      (SameStmt (.loop none (some condition) none body location)) true rest := by
  cases fuel with
  | zero => exact .exhausted
  | succ fuel =>
      unfold Layout.stmt
      rw [List.cons_append, List.cons_append, List.append_assoc, List.cons_append]
      refine .advance (ne_end rfl) fun _ _ => .blank (.peek fun here _ => .atMark ?_)
      rw [isMark_of_beginsExpr (begins_expr indent condition _ _) rfl]
      refine (rereads_headerStart (header_expression tested) fuel depth rfl).bind ?_
      rintro _ ⟨read, rfl, same⟩
      refine .atSemicolon ?_
      have plain : isSemicolon (ahead true (blank :: (Layout.braces indent (Layout.lines (indent + 1) body) ++ rest)))
          = false := rfl
      rw [plain]
      refine (rereads_conditionOf same _).bind fun test holds => .blank ?_
      refine (block fuel depth true rest).bind fun inner sameBody => .pure ?_
      unfold SameStmt Unplaced.stmt Unplaced.optionalExpr
      rw [holds, sameBody]
      rfl

/-- What follows the first part of a header with three parts. -/
def partsBehind (indent : Nat) (condition : Option Expr) (post : Option Stmt) (body : List Stmt) : List Piece :=
  word (.semicolon false) :: blank :: (Layout.optionalExpr indent condition ++ word (.semicolon false)
    :: (Layout.loopPost indent post ++ blank :: Layout.braces indent (Layout.lines (indent + 1) body)))

theorem rereads_partsBehind {init start : Option Stmt} {condition : Option Expr} {post : Option Stmt} {body : List Stmt}
    {location place : Location} (same : SameInit init start)
    (tested : ∀ test, condition = some test → Reads indent test)
    (last : ∀ stmt, post = some stmt → HeaderReads indent stmt)
    (silent : ∀ stmt, post = some stmt → isSilent stmt = true) (block : BlockReads indent body) (fuel depth : Nat) :
    Rereads (do
        let _ ← Reader.advance
        let condition ← Reader.loopCondition fuel depth
        let _ ← Reader.expectSemicolon .semicolon
        let post ← Reader.loopPost fuel depth
        let body ← Reader.block fuel depth
        pure (Stmt.loop start condition post body place)) true (partsBehind indent condition post body ++ rest)
      (SameStmt (.loop init condition post body location)) true rest := by
  unfold partsBehind
  rw [List.cons_append, List.cons_append, List.append_assoc, List.cons_append, List.append_assoc, List.cons_append]
  refine .advance (ne_end rfl) fun _ _ => .blank ?_
  refine (rereads_loopCondition tested fuel depth).bind fun test sameTest => Rereads.expectSemicolon.bind fun _ _ => ?_
  refine (rereads_loopPost last silent fuel depth).bind fun step samePost => ?_
  refine (block fuel depth true rest).bind fun inner sameBody => .pure ?_
  unfold SameStmt Unplaced.stmt
  rw [same, sameTest, samePost, sameBody]

theorem loop_parts {init : Option Stmt} {condition : Option Expr} {post : Option Stmt} {body : List Stmt}
    {location : Location} (first : ∀ stmt, init = some stmt → HeaderReads indent stmt)
    (tested : ∀ test, condition = some test → Reads indent test)
    (last : ∀ stmt, post = some stmt → HeaderReads indent stmt)
    (silent : ∀ stmt, post = some stmt → isSilent stmt = true) (block : BlockReads indent body) (fuel depth : Nat) :
    Rereads (Reader.loop fuel depth) pending
      (key .forWord :: blank :: (Layout.optionalStmt indent init ++ partsBehind indent condition post body) ++ rest)
      (SameStmt (.loop init condition post body location)) true rest := by
  cases fuel with
  | zero => exact .exhausted
  | succ fuel =>
      rw [List.cons_append, List.cons_append, List.append_assoc]
      refine .advance (ne_end rfl) fun loop _ => .blank (.peek fun here _ => .atMark ?_)
      have plain : isMark .leftBrace (ahead (Word.keyword .forWord).endsStatement (Layout.optionalStmt indent init
          ++ (partsBehind indent condition post body ++ rest))) = false := by
        cases init with
        | none => rfl
        | some stmt => exact isMark_of_beginsExpr ((first stmt rfl).begins _ _) rfl
      rw [plain]
      refine (rereads_init first fuel depth).bind fun start same => .atSemicolon ?_
      cases start with
      | none => exact rereads_partsBehind same tested last silent block fuel depth
      | some _ => exact rereads_partsBehind same tested last silent block fuel depth

/-! ## Switches -/

/-- What the texts of cases are read as, up to places. -/
def SameCases (found values : List SwitchCase) : Prop :=
  Unplaced.cases .float values = Unplaced.cases settledFloat found

/-- The label of a case is read from its layout, in front of a colon. -/
structure CaseReads (indent : Nat) (found : SwitchCase) : Prop where
  values : ∀ values, found.label = .values values → values ≠ [] ∧ ∀ value ∈ values, Reads indent value
  formed : ∀ stmt ∈ found.body, Formed.stmt stmt
  body : ∀ stmt ∈ found.body, StmtReads (indent + 1) stmt

theorem cases_break {found : List SwitchCase} :
    ∃ line next, Layout.switchCases indent found ++ newLine indent :: sign .rightBrace :: rest = newLine line :: next ∧
      endsLines true (ahead false next) = true := by
  cases found with
  | nil => exact ⟨indent, _, rfl, rfl⟩
  | cons first others =>
      obtain ⟨label, body, location⟩ := first
      refine ⟨indent, _, rfl, ?_⟩
      cases label <;> rfl

theorem rereads_caseRest {first : SwitchCase} {others : List SwitchCase} {label : CaseLabel} {place : Location}
    (reads : CaseReads indent first)
    (same : Unplaced.caseLabel .float label = Unplaced.caseLabel settledFloat first.label) (sawDefault : Bool)
    (fuel depth : Nat)
    (more : ∀ fuel, Rereads (Reader.cases fuel depth sawDefault) false
      (Layout.switchCases indent others ++ newLine indent :: sign .rightBrace :: rest) (SameCases others) false
      (sign .rightBrace :: rest)) :
    Rereads (Reader.caseRest fuel depth sawDefault label place) pending
      (sign .colon :: (Layout.lines (indent + 1) first.body
        ++ (Layout.switchCases indent others ++ newLine indent :: sign .rightBrace :: rest)))
      (SameCases (first :: others)) false (sign .rightBrace :: rest) := by
  cases fuel with
  | zero => exact .exhausted
  | succ fuel =>
      obtain ⟨line, next, whole, ends⟩ : ∃ line next, Layout.switchCases indent others
          ++ newLine indent :: sign .rightBrace :: rest = newLine line :: next ∧ endsLines true (ahead false next) = true :=
        cases_break
      rw [whole]
      rw [whole] at more
      -- The body begins on a line of its own, so no semicolon is left behind the colon.
      have none : isSemicolon (ahead false (Layout.lines (indent + 1) first.body ++ newLine line :: next)) = false := by
        obtain ⟨_, _, same, none⟩ : ∃ line' next', Layout.lines (indent + 1) first.body ++ newLine line :: next
            = newLine line' :: next' ∧ isSemicolon (ahead false next') = false :=
          lines_break reads.formed (isSemicolon_of_endsLines ends)
        rw [same]
        exact none
      refine Rereads.expectMark.bind fun _ _ => (Rereads.skipSemicolons none).bind fun _ _ => ?_
      refine (rereads_lines reads.formed reads.body ends fuel depth).bind fun body sameBody => ?_
      refine (more fuel).bind fun values all => .pure ?_
      obtain ⟨found, inner, location⟩ := first
      unfold SameCases Unplaced.cases Unplaced.switchCase
      rw [same, sameBody, all]

theorem rereads_cases {found : List SwitchCase} (reads : ∀ first ∈ found, CaseReads indent first) (sawDefault : Bool)
    (single : (found.filter SwitchCase.isDefault).length + sawDefault.toNat ≤ 1) (fuel depth : Nat) :
    Rereads (Reader.cases fuel depth sawDefault) false
      (Layout.switchCases indent found ++ newLine indent :: sign .rightBrace :: rest) (SameCases found) false
      (sign .rightBrace :: rest) := by
  induction found generalizing sawDefault fuel with
  | nil =>
      cases fuel with
      | zero => exact .exhausted
      | succ fuel =>
          refine .peek fun token seen => ?_
          rw [seen]
          exact .pure rfl
  | cons first others ih =>
      obtain ⟨readsFirst, readsOthers⟩ := List.forall_mem_cons.mp reads
      obtain ⟨label, body, location⟩ := first
      cases fuel with
      | zero => exact .exhausted
      | succ fuel =>
          unfold Layout.switchCases Layout.switchCase
          rw [List.cons_append, List.append_assoc, List.append_assoc, List.cons_append]
          cases label with
          | values values =>
              obtain ⟨some, readsValues⟩ := readsFirst.values values rfl
              refine .peek fun token seen => ?_
              rw [seen]
              refine .noLine (.advance (ne_end rfl) fun _ _ => .blank ?_)
              refine (rereads_expressions some readsValues fuel depth _ rfl rfl).bind fun read all => ?_
              have label : Unplaced.caseLabel .float (.values read) = Unplaced.caseLabel settledFloat (.values values) :=
                congrArg CaseLabel.values all
              refine rereads_caseRest readsFirst label sawDefault fuel depth fun fuel => ?_
              exact ih readsOthers sawDefault single fuel
          | otherwise =>
              have counted : (others.filter SwitchCase.isDefault).length + 1 + sawDefault.toNat ≤ 1 := single
              -- A switch has one default at most, so none was read before this one.
              have fresh : sawDefault = false := by
                cases sawDefault with
                | false => rfl
                | true => exact absurd counted (by simp)
              refine .peek fun token seen => ?_
              rw [seen]
              change Rereads (if sawDefault = true then _ else _) _ _ _ _ _
              rw [fresh]
              refine .noLine (.advance (ne_end rfl) fun _ _ => ?_)
              refine rereads_caseRest readsFirst rfl true fuel depth fun fuel => ?_
              exact ih readsOthers true (by simpa [fresh] using counted) fuel

/-- What the header of a switch is read as, up to places. -/
def SameHeader (init : Option Stmt) (tag : Option Expr) (value : Option Stmt × Option Expr) : Prop :=
  SameInit init value.1 ∧ SameTest tag value.2

theorem rereads_switchHeader {init : Option Stmt} {tag : Option Expr}
    (first : ∀ stmt, init = some stmt → HeaderReads indent stmt)
    (tested : ∀ test, tag = some test → Reads indent test) (fuel depth : Nat) :
    Rereads (Reader.switchHeader fuel depth) false
      (Layout.switchStart indent init ++ (Layout.switchTag indent tag ++ blank :: sign .leftBrace :: rest))
      (SameHeader init tag) true (sign .leftBrace :: rest) := by
  cases fuel with
  | zero => exact .exhausted
  | succ fuel =>
      refine .atMark ?_
      -- With nothing before the brace there is no header; a tag alone is read as a statement and turned into an
      -- expression; a statement is told from a tag by the semicolon behind it.
      match init, tag with
      | none, none => exact .pure ⟨rfl, rfl⟩
      | none, some tag =>
          have other : isMark .leftBrace (ahead false (Layout.switchStart indent none
              ++ (Layout.switchTag indent (some tag) ++ blank :: sign .leftBrace :: rest))) = false :=
            isMark_of_beginsExpr (begins_expr indent tag false _) rfl
          rw [other]
          refine .peek fun here _ => .blank ?_
          have plain : isSemicolon (ahead true (blank :: sign .leftBrace :: rest)) = false := rfl
          refine (rereads_headerStart (header_expression (tested tag rfl)) fuel depth rfl).bind ?_
          rintro _ ⟨read, rfl, same⟩
          refine .atSemicolon ?_
          rw [plain]
          refine (rereads_conditionOf same _).bind fun test holds => .blank (.pure ⟨rfl, ?_⟩)
          exact congrArg some holds
      | some init, tag =>
          have other : isMark .leftBrace (ahead false (Layout.switchStart indent (some init)
              ++ (Layout.switchTag indent tag ++ blank :: sign .leftBrace :: rest))) = false := by
            unfold Layout.switchStart
            rw [List.cons_append, List.append_assoc]
            exact isMark_of_beginsExpr ((first init rfl).begins false _) rfl
          rw [other]
          unfold Layout.switchStart
          rw [List.cons_append, List.append_assoc, List.singleton_append]
          refine .peek fun here _ => .blank ?_
          refine (rereads_headerStart (first init rfl) fuel depth rfl).bind ?_
          rintro _ ⟨read, rfl, same⟩
          refine .atSemicolon (.advance (ne_end rfl) fun _ _ => .atMark ?_)
          cases tag with
          | none => exact .pure ⟨congrArg some same, rfl⟩
          | some tag =>
              have plain : isMark .leftBrace (ahead (Word.semicolon false).endsStatement
                  (Layout.switchTag indent (some tag) ++ blank :: sign .leftBrace :: rest)) = false :=
                isMark_of_beginsExpr (begins_expr indent tag false _) rfl
              rw [plain]
              refine .blank ((tested tag rfl fuel depth _ (blank :: sign .leftBrace :: rest) rfl).bind fun test holds => ?_)
              exact .blank (.pure ⟨congrArg some same, congrArg some holds⟩)

theorem rereads_switch {init : Option Stmt} {tag : Option Expr} {found : List SwitchCase} {location : Location}
    (first : ∀ stmt, init = some stmt → HeaderReads indent stmt)
    (tested : ∀ test, tag = some test → Reads indent test) (reads : ∀ first ∈ found, CaseReads indent first)
    (single : (found.filter SwitchCase.isDefault).length ≤ 1) (fuel depth : Nat) :
    Rereads (Reader.switch fuel depth) pending (Layout.stmt indent (.switch init tag found location) ++ rest)
      (SameStmt (.switch init tag found location)) true rest := by
  cases fuel with
  | zero => exact .exhausted
  | succ fuel =>
      obtain ⟨line, next, whole, ends⟩ : ∃ line next, Layout.switchCases indent found
          ++ newLine indent :: sign .rightBrace :: rest = newLine line :: next ∧ endsLines true (ahead false next) = true :=
        cases_break
      have none : isSemicolon (ahead false (Layout.switchCases indent found ++ newLine indent :: sign .rightBrace :: rest))
          = false := by
        rw [whole]
        exact isSemicolon_of_endsLines ends
      unfold Layout.stmt
      rw [List.cons_append, List.append_assoc, List.append_assoc, List.cons_append, List.cons_append, List.append_assoc,
        List.cons_append]
      refine .advance (ne_end rfl) fun _ _ => ?_
      refine (rereads_switchHeader first tested fuel depth).bind ?_
      rintro ⟨start, test⟩ ⟨sameInit, sameTest⟩
      refine Rereads.expectMark.bind fun _ _ => (Rereads.skipSemicolons none).bind fun _ _ => ?_
      refine (rereads_cases reads false single fuel depth).bind fun values all => ?_
      refine Rereads.expectMark.bind fun _ _ => .pure ?_
      unfold SameStmt Unplaced.stmt
      rw [sameInit, sameTest, all]

end MiniGo.Syntax
