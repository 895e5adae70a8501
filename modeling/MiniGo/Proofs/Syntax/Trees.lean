import MiniGo.Proofs.Syntax.Reading

/-!
# Trees that readers give

The readers of expressions and statements give trees that the grammar has, for every amount of fuel;
so does the reader of files.
-/

namespace MiniGo.Syntax

/-! ## Names -/

theorem assignable_gives {mark : String} {exprs : List Expr} (formed : Formed.exprs exprs) :
    Gives (Reader.assignable mark exprs)
      (fun names => names.length = exprs.length ∧ ∀ name ∈ names, IsName name) := by
  induction exprs with
  | nil => exact .pure ⟨rfl, fun _ member => absurd member List.not_mem_nil⟩
  | cons expr exprs ih =>
      rw [Formed.exprs] at formed
      cases expr with
      | identifier name location =>
          refine (ih formed.2).bind fun names both => .pure ⟨by simp [both.1], ?_⟩
          rw [Formed.expr] at formed
          exact List.forall_mem_cons.mpr ⟨formed.1, both.2⟩
      | _ => exact .peek fun _ _ => .fail

theorem names_gives {mark : String} {exprs : List Expr} (some : exprs ≠ []) (formed : Formed.exprs exprs) :
    Gives (Reader.assignable mark exprs) Formed.names :=
  (assignable_gives formed).weaken fun names both => by
    refine ⟨?_, both.2⟩
    rintro rfl
    exact some (List.length_eq_zero_iff.mp both.1.symm)

theorem singleTarget_gives {mark : String} {exprs : List Expr} (formed : Formed.exprs exprs) :
    Gives (Reader.singleTarget mark exprs) IsName := by
  have targets : Gives (if exprs.length = 1 then Reader.assignable mark exprs else Pure.pure [])
      (fun names => ∀ name ∈ names, IsName name) := by
    split
    · exact (assignable_gives formed).weaken fun _ both => both.2
    · exact .pure fun _ member => absurd member List.not_mem_nil
  refine targets.bind fun names all => ?_
  split
  · exact .pure (all _ List.mem_cons_self)
  · exact .peek fun _ _ => .fail

theorem conditionOf_gives {location : Location} {stmt : Stmt} (formed : Formed.stmt stmt) :
    Gives (Reader.conditionOf location stmt) Formed.expr := by
  cases stmt with
  | expression expr =>
      rw [Formed.stmt] at formed
      exact .pure formed
  | _ => exact .fail

theorem moreNames_gives (fuel : Nat) :
    Gives (Reader.moreNames fuel) (fun names => ∀ name ∈ names, IsName name) := by
  induction fuel with
  | zero => exact .exhausted
  | succ fuel ih =>
      unfold Reader.moreNames
      refine .atMark fun found => ?_
      split
      · refine .advance fun _ => Gives.expectName.bind fun name named => ih.bind fun names all => .pure ?_
        exact List.forall_mem_cons.mpr ⟨named, all⟩
      · exact .pure fun _ member => absurd member List.not_mem_nil

theorem optionalType_gives (fuel : Nat) : Gives (Reader.optionalType fuel) Formed.optionalType := by
  unfold Reader.optionalType
  refine .peekWord fun word _ => ?_
  split
  · exact (typesRead fuel).type.bind fun type formed => .pure (by rintro _ ⟨⟩; exact formed)
  · exact (typesRead fuel).type.bind fun type formed => .pure (by rintro _ ⟨⟩; exact formed)
  · exact .pure nofun

/-! ## Expressions and statements -/

/-- A statement that a body may have. -/
def BodyFormed (stmt : Stmt) : Prop :=
  Formed.stmt stmt ∧ ∀ found, stmt = .expression found → found.isCall = true

/-- A statement that a header may have. -/
def HeaderFormed (stmt : Stmt) : Prop := Formed.stmt stmt ∧ isSimple stmt = true

/-- The parts of a declaration. -/
def SpecFormed : List String × Option Ty × List Expr → Prop
  | (found, type?, values) => Formed.names found ∧ Formed.optionalType type? ∧ Formed.exprs values

/-- The cases of a switch, of which none has no values if there was one. -/
def CasesFormed (sawDefault : Bool) (cases : List SwitchCase) : Prop :=
  Formed.cases cases ∧ (cases.filter SwitchCase.isDefault).length + (if sawDefault then 1 else 0) ≤ 1

/-- What the readers of expressions and statements give. -/
structure TreesRead (fuel : Nat) : Prop where
  expression : ∀ depth, Gives (Reader.expression fuel depth) Formed.expr
  binary : ∀ depth level, Gives (Reader.binary fuel depth level) Formed.expr
  binaryRest : ∀ depth level left, Formed.expr left →
    Gives (Reader.binaryRest fuel depth level left) Formed.expr
  unary : ∀ depth, Gives (Reader.unary fuel depth) Formed.expr
  unaryOperand : ∀ depth op location, Gives (Reader.unaryOperand fuel depth op location) Formed.expr
  calls : ∀ depth callee, Formed.expr callee → Gives (Reader.calls fuel depth callee) Formed.expr
  arguments : ∀ depth, Gives (Reader.arguments fuel depth) Formed.exprs
  primary : ∀ depth, Gives (Reader.primary fuel depth) Formed.expr
  functionRest : ∀ depth location, Gives (Reader.functionRest fuel depth location) Formed.function
  expressions : ∀ depth, Gives (Reader.expressions fuel depth)
    (fun exprs => exprs ≠ [] ∧ Formed.exprs exprs)
  block : ∀ depth, Gives (Reader.block fuel depth) Formed.stmts
  statements : ∀ depth inCase, Gives (Reader.statements fuel depth inCase) Formed.stmts
  moreStatements : ∀ depth inCase, Gives (Reader.moreStatements fuel depth inCase) Formed.stmts
  statement : ∀ depth, Gives (Reader.statement fuel depth) BodyFormed
  simple : ∀ depth, Gives (Reader.simple fuel depth) HeaderFormed
  varDecl : ∀ depth, Gives (Reader.varDecl fuel depth) Formed.valueDecl
  constDecl : ∀ depth, Gives (Reader.constDecl fuel depth) Formed.valueDecl
  valueSpec : ∀ depth keyword, Gives (Reader.valueSpec fuel depth keyword) SpecFormed
  conditional : ∀ depth, Gives (Reader.conditional fuel depth) Formed.ifStmt
  elseBranch : ∀ depth, Gives (Reader.elseBranch fuel depth) Formed.elseBranch
  loop : ∀ depth, Gives (Reader.loop fuel depth) BodyFormed
  headerStart : ∀ depth, Gives (Reader.headerStart fuel depth) Formed.header
  loopCondition : ∀ depth, Gives (Reader.loopCondition fuel depth) Formed.optionalExpr
  loopPost : ∀ depth, Gives (Reader.loopPost fuel depth)
    (fun post => Formed.header post ∧ ∀ last, post = some last → isSilent last = true)
  switch : ∀ depth, Gives (Reader.switch fuel depth) BodyFormed
  switchHeader : ∀ depth, Gives (Reader.switchHeader fuel depth)
    (fun header => Formed.header header.1 ∧ Formed.optionalExpr header.2)
  cases : ∀ depth sawDefault, Gives (Reader.cases fuel depth sawDefault) (CasesFormed sawDefault)
  caseRest : ∀ depth sawDefault label location, Formed.caseLabel label →
    Gives (Reader.caseRest fuel depth sawDefault label location)
      (fun cases => Formed.cases cases ∧ ∃ first rest, cases = first :: rest ∧ first.label = label ∧
        CasesFormed sawDefault rest)

theorem treesRead_zero : TreesRead 0 where
  expression _ := .exhausted
  binary _ _ := .exhausted
  binaryRest _ _ _ _ := .exhausted
  unary _ := .exhausted
  unaryOperand _ _ _ := .exhausted
  calls _ _ _ := .exhausted
  arguments _ := .exhausted
  primary _ := .exhausted
  functionRest _ _ := .exhausted
  expressions _ := .exhausted
  block _ := .exhausted
  statements _ _ := .exhausted
  moreStatements _ _ := .exhausted
  statement _ := .exhausted
  simple _ := .exhausted
  varDecl _ := .exhausted
  constDecl _ := .exhausted
  valueSpec _ _ := .exhausted
  conditional _ := .exhausted
  elseBranch _ := .exhausted
  loop _ := .exhausted
  headerStart _ := .exhausted
  loopCondition _ := .exhausted
  loopPost _ := .exhausted
  switch _ := .exhausted
  switchHeader _ := .exhausted
  cases _ _ := .exhausted
  caseRest _ _ _ _ _ := .exhausted

namespace TreesRead

variable {fuel : Nat} (reads : TreesRead fuel)
include reads

attribute [local simp] Formed.expr Formed.exprs Formed.optionalExpr Formed.function Formed.valueDecl Formed.ifStmt
  Formed.elseBranch Formed.caseLabel Formed.cases Formed.stmt Formed.stmts Formed.header

theorem expression_succ (depth : Nat) : Gives (Reader.expression (fuel + 1) depth) Formed.expr := by
  unfold Reader.expression
  exact .nested fun depth => reads.binary depth 1

theorem binary_succ (depth level : Nat) : Gives (Reader.binary (fuel + 1) depth level) Formed.expr := by
  unfold Reader.binary
  split
  · exact reads.unary depth
  · exact (reads.binary depth (level + 1)).bind fun left formed => reads.binaryRest depth level left formed

theorem binaryRest_succ (depth level : Nat) (left : Expr) (formed : Formed.expr left) :
    Gives (Reader.binaryRest (fuel + 1) depth level left) Formed.expr := by
  unfold Reader.binaryRest
  refine .peekWord fun word _ => ?_
  split
  · split
    · refine .advance fun sign => (reads.binary depth (level + 1)).bind fun right formedRight => ?_
      refine reads.binaryRest depth level _ ?_
      rw [Formed.expr]
      exact ⟨formed, formedRight⟩
    · exact .pure formed
  · exact .pure formed

theorem unary_succ (depth : Nat) : Gives (Reader.unary (fuel + 1) depth) Formed.expr := by
  unfold Reader.unary
  refine .peekWord fun word _ => ?_
  split
  · refine .advance fun sign => .peekWord fun next formed => ?_
    split
    · split
      · refine .advance fun _ => .pure ?_
        rw [Formed.expr]
        exact Or.inr rfl
      · exact reads.unaryOperand depth .negate sign.location
    · exact reads.unaryOperand depth .negate sign.location
  · exact .advance fun sign => reads.unaryOperand depth .plus sign.location
  · exact .advance fun sign => reads.unaryOperand depth .not sign.location
  · exact .advance fun sign => reads.unaryOperand depth .bitNot sign.location
  · exact (reads.primary depth).bind fun callee formed => reads.calls depth callee formed

theorem unaryOperand_succ (depth : Nat) (op : UnaryOp) (location : Location) :
    Gives (Reader.unaryOperand (fuel + 1) depth op location) Formed.expr := by
  unfold Reader.unaryOperand
  refine (Gives.nested fun depth => reads.unary depth).bind fun operand formed => .pure ?_
  rw [Formed.expr]
  exact formed

theorem calls_succ (depth : Nat) (callee : Expr) (formed : Formed.expr callee) :
    Gives (Reader.calls (fuel + 1) depth callee) Formed.expr := by
  unfold Reader.calls
  refine .atMark fun found => ?_
  split
  · refine .advance fun opening => (reads.arguments depth).bind fun args formedArgs => ?_
    refine Gives.expectMark.bind fun _ _ => reads.calls depth _ ?_
    rw [Formed.expr]
    exact ⟨formed, formedArgs⟩
  · exact .pure formed

theorem arguments_succ (depth : Nat) : Gives (Reader.arguments (fuel + 1) depth) Formed.exprs := by
  unfold Reader.arguments
  refine .atMark fun found => ?_
  split
  · exact .pure (by simp)
  · refine (reads.expression depth).bind fun first formed => .atMark fun found => ?_
    split
    · refine .advance fun _ => (reads.arguments depth).bind fun rest formedRest => .pure ?_
      rw [Formed.exprs]
      exact ⟨formed, formedRest⟩
    · refine .pure ?_
      rw [Formed.exprs, Formed.exprs]
      exact ⟨formed, trivial⟩

theorem primary_succ (depth : Nat) : Gives (Reader.primary (fuel + 1) depth) Formed.expr := by
  unfold Reader.primary
  refine .peek fun token formed => ?_
  split
  · rename_i magnitude _
    refine .advance fun _ => ?_
    split
    · rename_i below
      refine .pure ?_
      rw [Formed.expr]
      -- A literal has no sign, so one that fits is not negative.
      have small : magnitude < 2 ^ 63 := below
      refine Or.inl (Int64.le_iff_toInt_le.mpr ?_)
      rw [Int64.toInt_ofNat_of_lt small]
      exact Int.natCast_nonneg magnitude
    · exact .fail
  · rename_i same
    refine .advance fun _ => .pure ?_
    rw [same] at formed
    rw [Formed.expr]
    exact formed
  · refine .advance fun _ => .pure ?_
    simp
  · rename_i same
    rw [same] at formed
    refine .advance fun _ => .atMark fun found => ?_
    split
    · refine .advance fun _ => Gives.expectName.bind fun selected named => .pure ?_
      rw [Formed.expr]
      exact ⟨formed, named⟩
    · refine .pure ?_
      rw [Formed.expr]
      exact formed
  · refine .advance fun _ => (reads.expression depth).bind fun inner formedInner => ?_
    exact Gives.expectMark.bind fun _ _ => .pure formedInner
  · refine .advance fun _ => (reads.functionRest depth token.location).bind fun literal formedLiteral => ?_
    refine .pure ?_
    rw [Formed.expr]
    exact formedLiteral
  · exact .refuse

theorem functionRest_succ (depth : Nat) (location : Location) :
    Gives (Reader.functionRest (fuel + 1) depth location) Formed.function := by
  unfold Reader.functionRest
  refine (signature_gives fuel).bind fun signature formed => (reads.block depth).bind fun body formedBody => ?_
  refine .pure ?_
  rw [Formed.function]
  exact ⟨formed, formedBody⟩

theorem expressions_succ (depth : Nat) :
    Gives (Reader.expressions (fuel + 1) depth) (fun exprs => exprs ≠ [] ∧ Formed.exprs exprs) := by
  unfold Reader.expressions
  refine (reads.expression depth).bind fun first formed => .atMark fun found => ?_
  split
  · refine .advance fun _ => (reads.expressions depth).bind fun rest both => .pure ⟨nofun, ?_⟩
    rw [Formed.exprs]
    exact ⟨formed, both.2⟩
  · refine .pure ⟨nofun, ?_⟩
    rw [Formed.exprs, Formed.exprs]
    exact ⟨formed, trivial⟩

theorem block_succ (depth : Nat) : Gives (Reader.block (fuel + 1) depth) Formed.stmts := by
  unfold Reader.block
  refine .nested fun depth => Gives.expectMark.bind fun _ _ => Gives.skipSemicolons.bind fun _ _ => ?_
  exact (reads.statements depth false).bind fun body formed => Gives.expectMark.bind fun _ _ => .pure formed

theorem statements_succ (depth : Nat) (inCase : Bool) :
    Gives (Reader.statements (fuel + 1) depth inCase) Formed.stmts := by
  have none : Formed.stmts [] := by
    simp
  unfold Reader.statements
  refine .peekWord fun word _ => ?_
  split
  · exact .pure none
  · exact .pure none
  · split
    · exact .pure none
    · exact reads.moreStatements depth inCase
  · split
    · exact .pure none
    · exact reads.moreStatements depth inCase
  · exact reads.moreStatements depth inCase

theorem moreStatements_succ (depth : Nat) (inCase : Bool) :
    Gives (Reader.moreStatements (fuel + 1) depth inCase) Formed.stmts := by
  unfold Reader.moreStatements
  refine (reads.statement depth).bind fun first formed => Gives.separate.bind fun _ _ => ?_
  refine (reads.statements depth inCase).bind fun rest formedRest => .pure ?_
  rw [Formed.stmts]
  exact ⟨formed.1, formed.2, formedRest⟩

theorem statement_succ (depth : Nat) : Gives (Reader.statement (fuel + 1) depth) BodyFormed := by
  unfold Reader.statement
  refine .peek fun token _ => ?_
  split
  · refine (reads.varDecl depth).bind fun decl formed => .pure ⟨?_, nofun⟩
    rw [Formed.stmt]
    exact formed
  · refine (reads.constDecl depth).bind fun decl formed => .pure ⟨?_, nofun⟩
    rw [Formed.stmt]
    exact formed
  · refine (reads.conditional depth).bind fun found formed => .pure ⟨?_, nofun⟩
    rw [Formed.stmt]
    exact formed
  · exact reads.loop depth
  · exact reads.switch depth
  · refine .advance fun _ => .peekWord fun next _ => ?_
    have nothing : BodyFormed (.return [] token.location) := by
      refine ⟨?_, nofun⟩
      rw [Formed.stmt, Formed.exprs]
      exact trivial
    split
    · exact .pure nothing
    · exact .pure nothing
    · refine (reads.expressions depth).bind fun values formed => .pure ⟨?_, nofun⟩
      rw [Formed.stmt]
      exact formed.2
  · refine .advance fun _ => .pure ⟨?_, nofun⟩
    simp
  · refine .advance fun _ => .pure ⟨?_, nofun⟩
    simp
  · refine (reads.block depth).bind fun body formed => .pure ⟨?_, nofun⟩
    rw [Formed.stmt]
    exact formed
  · refine (reads.simple depth).bind fun stmt formed => ?_
    split
    · split
      · rename_i isCall
        exact .pure ⟨formed.1, by rintro _ ⟨⟩; exact isCall⟩
      · exact .fail
    · rename_i other
      exact .pure ⟨formed.1, fun found same => absurd same (other found)⟩

theorem simple_succ (depth : Nat) : Gives (Reader.simple (fuel + 1) depth) HeaderFormed := by
  unfold Reader.simple
  refine .peek fun here _ => (reads.expressions depth).bind fun exprs formed => .peek fun token word => ?_
  split
  · refine (names_gives formed.1 formed.2).bind fun names named => .advance fun _ => ?_
    refine (reads.expressions depth).bind fun values formedValues => .pure ⟨?_, rfl⟩
    rw [Formed.stmt]
    exact ⟨named, formedValues.1, formedValues.2⟩
  · refine (names_gives formed.1 formed.2).bind fun names named => .advance fun _ => ?_
    refine (reads.expressions depth).bind fun values formedValues => .pure ⟨?_, rfl⟩
    rw [Formed.stmt]
    exact ⟨named, formedValues.1, formedValues.2⟩
  · refine (singleTarget_gives formed.2).bind fun name named => .advance fun _ => .pure ⟨?_, rfl⟩
    rw [Formed.stmt]
    exact named
  · refine (singleTarget_gives formed.2).bind fun name named => .advance fun _ => .pure ⟨?_, rfl⟩
    rw [Formed.stmt]
    exact named
  · rename_i op same
    rw [same] at word
    refine (singleTarget_gives formed.2).bind fun name named => .advance fun _ => ?_
    refine (reads.expression depth).bind fun value formedValue => .pure ⟨?_, rfl⟩
    rw [Formed.stmt]
    exact ⟨named, word, formedValue⟩
  · split
    · rename_i expr
      refine .pure ⟨?_, rfl⟩
      rw [Formed.stmt]
      rw [Formed.exprs] at formed
      exact formed.2.1
    · exact .refuse

theorem valueSpec_succ (depth : Nat) (keyword : String) :
    Gives (Reader.valueSpec (fuel + 1) depth keyword) SpecFormed := by
  unfold Reader.valueSpec
  refine Gives.expectName.bind fun first named => (moreNames_gives fuel).bind fun more others => ?_
  refine (optionalType_gives fuel).bind fun type? typed => .atMark fun found => ?_
  have names : Formed.names (first :: more) := ⟨nofun, List.forall_mem_cons.mpr ⟨named, others⟩⟩
  split
  · exact .advance fun _ => (reads.expressions depth).bind fun values formed => .pure ⟨names, typed, formed.2⟩
  · refine .pure ⟨names, typed, ?_⟩
    simp

theorem varDecl_succ (depth : Nat) : Gives (Reader.varDecl (fuel + 1) depth) Formed.valueDecl := by
  unfold Reader.varDecl
  refine .advance fun token => (reads.valueSpec depth "var").bind fun spec formed => ?_
  obtain ⟨names, type?, values⟩ := spec
  dsimp only
  split
  · exact .refuse
  · rename_i given
    refine .pure ?_
    rw [Formed.valueDecl]
    refine ⟨formed.1, formed.2.1, formed.2.2, nofun, ?_⟩
    rintro rfl rfl
    exact given rfl

theorem constDecl_succ (depth : Nat) : Gives (Reader.constDecl (fuel + 1) depth) Formed.valueDecl := by
  unfold Reader.constDecl
  refine .advance fun token => (reads.valueSpec depth "const").bind fun spec formed => ?_
  obtain ⟨names, type?, values⟩ := spec
  dsimp only
  split
  · exact .fail
  · rename_i given
    have some : values ≠ [] := by
      rintro rfl
      exact given rfl
    refine .pure ?_
    rw [Formed.valueDecl]
    exact ⟨formed.1, formed.2.1, formed.2.2, fun _ => some, fun _ => some⟩

theorem conditional_succ (depth : Nat) : Gives (Reader.conditional (fuel + 1) depth) Formed.ifStmt := by
  unfold Reader.conditional
  refine .advance fun token => .peek fun here _ => (reads.simple depth).bind fun first formed => ?_
  have header : Gives (do
      if ← Reader.atWrittenSemicolon then do
        let _ ← Reader.advance
        let condition ← Reader.expression fuel depth
        Pure.pure (some first, condition)
      else do
        let condition ← Reader.conditionOf here.location first
        Pure.pure (none, condition))
      (fun header => Formed.header header.1 ∧ Formed.expr header.2) := by
    refine .atWrittenSemicolon fun found => ?_
    split
    · refine .advance fun _ => (reads.expression depth).bind fun condition formedCondition => .pure ⟨?_, formedCondition⟩
      rw [Formed.header]
      exact formed
    · refine (conditionOf_gives formed.1).bind fun condition formedCondition => .pure ⟨?_, formedCondition⟩
      simp
  refine header.bind fun both formedHeader => ?_
  obtain ⟨init, condition⟩ := both
  refine (reads.block depth).bind fun body formedBody => (reads.elseBranch depth).bind fun orElse formedElse => ?_
  refine .pure ?_
  rw [Formed.ifStmt]
  exact ⟨formedHeader.1, formedHeader.2, formedBody, formedElse⟩

theorem elseBranch_succ (depth : Nat) : Gives (Reader.elseBranch (fuel + 1) depth) Formed.elseBranch := by
  unfold Reader.elseBranch
  refine .atKeyword fun found => ?_
  split
  · refine .advance fun _ => .peekWord fun word _ => ?_
    split
    · refine (reads.conditional depth).bind fun next formed => .pure ?_
      rw [Formed.elseBranch]
      exact formed
    · refine (reads.block depth).bind fun body formed => .pure ?_
      rw [Formed.elseBranch]
      exact formed
    · exact .refuse
  · refine .pure ?_
    simp

theorem loop_succ (depth : Nat) : Gives (Reader.loop (fuel + 1) depth) BodyFormed := by
  have none : Formed.header none := by
    simp
  have noExpr : Formed.optionalExpr .none := by
    simp
  unfold Reader.loop
  refine .advance fun token => .peek fun here _ => .atMark fun found => ?_
  split
  · refine (reads.block depth).bind fun body formedBody => .pure ⟨?_, nofun⟩
    rw [Formed.stmt]
    exact ⟨none, noExpr, none, nofun, formedBody⟩
  · refine (reads.headerStart depth).bind fun first formed => .atSemicolon fun found => ?_
    split
    · rw [Formed.header] at formed
      refine (conditionOf_gives formed.1).bind fun condition formedCondition => ?_
      refine (reads.block depth).bind fun body formedBody => .pure ⟨?_, nofun⟩
      rw [Formed.stmt, Formed.optionalExpr]
      exact ⟨none, formedCondition, none, nofun, formedBody⟩
    · refine .advance fun _ => (reads.loopCondition depth).bind fun condition formedCondition => ?_
      refine Gives.expectSemicolon.bind fun _ _ => (reads.loopPost depth).bind fun post formedPost => ?_
      refine (reads.block depth).bind fun body formedBody => .pure ⟨?_, nofun⟩
      rw [Formed.stmt]
      exact ⟨formed, formedCondition, formedPost.1, formedPost.2, formedBody⟩

theorem headerStart_succ (depth : Nat) : Gives (Reader.headerStart (fuel + 1) depth) Formed.header := by
  unfold Reader.headerStart
  refine .atSemicolon fun found => ?_
  split
  · refine .pure ?_
    simp
  · refine (reads.simple depth).bind fun stmt formed => .pure ?_
    rw [Formed.header]
    exact formed

theorem loopCondition_succ (depth : Nat) :
    Gives (Reader.loopCondition (fuel + 1) depth) Formed.optionalExpr := by
  unfold Reader.loopCondition
  refine .atSemicolon fun found => ?_
  split
  · refine .pure ?_
    simp
  · refine (reads.expression depth).bind fun condition formed => .pure ?_
    rw [Formed.optionalExpr]
    exact formed

theorem loopPost_succ (depth : Nat) : Gives (Reader.loopPost (fuel + 1) depth)
    (fun post => Formed.header post ∧ ∀ last, post = some last → isSilent last = true) := by
  unfold Reader.loopPost
  refine .atMark fun found => ?_
  split
  · refine .pure ⟨?_, nofun⟩
    simp
  · refine .peek fun here _ => (reads.simple depth).bind fun stmt formed => ?_
    split
    · exact .fail
    · rename_i other
      refine .pure ⟨?_, ?_⟩
      · rw [Formed.header]
        exact formed
      · rintro _ ⟨⟩
        cases stmt with
        | define names values location => exact absurd rfl (other names values location)
        | declare decl => exact absurd formed.2 Bool.false_ne_true
        | _ => rfl

theorem switch_succ (depth : Nat) : Gives (Reader.switch (fuel + 1) depth) BodyFormed := by
  unfold Reader.switch
  refine .advance fun token => (reads.switchHeader depth).bind fun header formed => ?_
  obtain ⟨init, tag⟩ := header
  refine Gives.expectMark.bind fun _ _ => Gives.skipSemicolons.bind fun _ _ => ?_
  refine (reads.cases depth false).bind fun found formedCases => Gives.expectMark.bind fun _ _ => ?_
  refine .pure ⟨?_, nofun⟩
  rw [Formed.stmt]
  exact ⟨formed.1, formed.2, formedCases⟩

theorem switchHeader_succ (depth : Nat) : Gives (Reader.switchHeader (fuel + 1) depth)
    (fun header => Formed.header header.1 ∧ Formed.optionalExpr header.2) := by
  have none : Formed.header none := by
    simp
  have noExpr : Formed.optionalExpr .none := by
    simp
  unfold Reader.switchHeader
  refine .atMark fun found => ?_
  split
  · exact .pure ⟨none, noExpr⟩
  · refine .peek fun here _ => (reads.headerStart depth).bind fun first formed => ?_
    refine .atSemicolon fun found => ?_
    split
    · rw [Formed.header] at formed
      refine (conditionOf_gives formed.1).bind fun tag formedTag => .pure ⟨none, ?_⟩
      rw [Formed.optionalExpr]
      exact formedTag
    · refine .advance fun _ => .atMark fun found => ?_
      split
      · exact .pure ⟨formed, noExpr⟩
      · refine (reads.expression depth).bind fun tag formedTag => .pure ⟨formed, ?_⟩
        rw [Formed.optionalExpr]
        exact formedTag

theorem cases_succ (depth : Nat) (sawDefault : Bool) :
    Gives (Reader.cases (fuel + 1) depth sawDefault) (CasesFormed sawDefault) := by
  unfold Reader.cases
  refine .peek fun token _ => ?_
  split
  · refine .pure ⟨?_, ?_⟩
    · simp
    · cases sawDefault <;> decide
  · refine .advance fun _ => (reads.expressions depth).bind fun values formed => ?_
    have labelled : Formed.caseLabel (.values values) := by
      rw [Formed.caseLabel]
      exact formed
    refine (reads.caseRest depth sawDefault _ token.location labelled).weaken fun cases both => ?_
    obtain ⟨formedCases, first, rest, rfl, label, counted⟩ := both
    refine ⟨formedCases, ?_⟩
    have plain : first.isDefault = false := by
      rw [SwitchCase.isDefault, label]
    rw [List.filter_cons_of_neg (by simp [plain])]
    exact counted.2
  · split
    · exact .fail
    · rename_i unseen
      have labelled : Formed.caseLabel .otherwise := by
        simp
      refine .advance fun _ => (reads.caseRest depth true _ token.location labelled).weaken fun cases both => ?_
      obtain ⟨formedCases, first, rest, rfl, _, counted⟩ := both
      refine ⟨formedCases, ?_⟩
      obtain rfl := Bool.eq_false_iff.mpr unseen
      have atMost : (rest.filter SwitchCase.isDefault).length + 1 ≤ 1 := counted.2
      have grown := List.length_filter_le SwitchCase.isDefault [first]
      rw [← List.singleton_append, List.filter_append, List.length_append]
      simp only [List.length_singleton, Bool.false_eq_true, if_false] at grown ⊢
      omega
  · exact .refuse

theorem caseRest_succ (depth : Nat) (sawDefault : Bool) (label : CaseLabel) (location : Location)
    (labelled : Formed.caseLabel label) :
    Gives (Reader.caseRest (fuel + 1) depth sawDefault label location)
      (fun cases => Formed.cases cases ∧ ∃ first rest, cases = first :: rest ∧ first.label = label ∧
        CasesFormed sawDefault rest) := by
  unfold Reader.caseRest
  refine Gives.expectMark.bind fun _ _ => Gives.skipSemicolons.bind fun _ _ => ?_
  refine (reads.statements depth true).bind fun body formedBody => ?_
  refine (reads.cases depth sawDefault).bind fun rest formedRest => .pure ⟨?_, _, rest, rfl, rfl, formedRest⟩
  rw [Formed.cases]
  exact ⟨labelled, formedBody, formedRest.1⟩

theorem succ : TreesRead (fuel + 1) where
  expression := reads.expression_succ
  binary := reads.binary_succ
  binaryRest := reads.binaryRest_succ
  unary := reads.unary_succ
  unaryOperand := reads.unaryOperand_succ
  calls := reads.calls_succ
  arguments := reads.arguments_succ
  primary := reads.primary_succ
  functionRest := reads.functionRest_succ
  expressions := reads.expressions_succ
  block := reads.block_succ
  statements := reads.statements_succ
  moreStatements := reads.moreStatements_succ
  statement := reads.statement_succ
  simple := reads.simple_succ
  varDecl := reads.varDecl_succ
  constDecl := reads.constDecl_succ
  valueSpec := reads.valueSpec_succ
  conditional := reads.conditional_succ
  elseBranch := reads.elseBranch_succ
  loop := reads.loop_succ
  headerStart := reads.headerStart_succ
  loopCondition := reads.loopCondition_succ
  loopPost := reads.loopPost_succ
  switch := reads.switch_succ
  switchHeader := reads.switchHeader_succ
  cases := reads.cases_succ
  caseRest := reads.caseRest_succ

end TreesRead

theorem treesRead (fuel : Nat) : TreesRead fuel := by
  induction fuel with
  | zero => exact treesRead_zero
  | succ fuel ih => exact ih.succ

/-! ## Files -/

theorem importSpec_gives : Gives Reader.importSpec Formed.importSpec := by
  unfold Reader.importSpec
  refine .peek fun here formed => ?_
  refine .bind ?_ fun alias? (named : ∀ other, alias? = some other → IsName other) =>
    .peekWord fun word _ => ?_
  · split
    · rename_i name same
      rw [same] at formed
      exact .advance fun _ => .pure (by rintro _ ⟨⟩; exact formed)
    · exact .pure (by rintro _ ⟨⟩)
  · split
    · exact .advance fun _ => .pure named
    · exact .refuse

theorem importSpecs_gives (fuel : Nat) :
    Gives (Reader.importSpecs fuel) (fun specs => ∀ spec ∈ specs, Formed.importSpec spec) := by
  induction fuel with
  | zero => exact .exhausted
  | succ fuel ih =>
      unfold Reader.importSpecs
      refine .atMark fun found => ?_
      split
      · exact .pure fun _ member => absurd member List.not_mem_nil
      · refine importSpec_gives.bind fun first formed => .atMark fun found => ?_
        have behind : Gives (do
            let rest ← Reader.importSpecs fuel
            Pure.pure (first :: rest)) (fun specs => ∀ spec ∈ specs, Formed.importSpec spec) :=
          ih.bind fun rest all => .pure (List.forall_mem_cons.mpr ⟨formed, all⟩)
        split
        · exact Gives.skipSemicolons.bind fun _ _ => behind
        · exact Gives.expectSemicolon.bind fun _ _ => Gives.skipSemicolons.bind fun _ _ => behind

theorem importDecl_gives (fuel : Nat) :
    Gives (Reader.importDecl fuel) (fun specs => ∀ spec ∈ specs, Formed.importSpec spec) := by
  unfold Reader.importDecl
  refine .advance fun _ => .atMark fun found => ?_
  split
  · refine .advance fun _ => Gives.skipSemicolons.bind fun _ _ => ?_
    exact (importSpecs_gives fuel).bind fun specs all => Gives.expectMark.bind fun _ _ => .pure all
  · exact importSpec_gives.bind fun spec formed => .pure (List.forall_mem_singleton.mpr formed)

theorem imports_gives (fuel : Nat) :
    Gives (Reader.imports fuel) (fun specs => ∀ spec ∈ specs, Formed.importSpec spec) := by
  induction fuel with
  | zero => exact .exhausted
  | succ fuel ih =>
      unfold Reader.imports
      refine .atKeyword fun found => ?_
      split
      · refine (importDecl_gives fuel).bind fun first all => Gives.terminate.bind fun _ _ => ?_
        refine Gives.skipSemicolons.bind fun _ _ => ih.bind fun rest others => .pure ?_
        exact List.forall_mem_append.mpr ⟨all, others⟩
      · exact .pure fun _ member => absurd member List.not_mem_nil

theorem declaration_gives (fuel : Nat) : Gives (Reader.declaration fuel) Formed.decl := by
  have reads := treesRead fuel
  unfold Reader.declaration
  refine .peek fun token _ => ?_
  split
  · exact .fail
  · unfold Reader.functionDecl
    refine .advance fun token => Gives.expectName.bind fun name named => ?_
    exact (reads.functionRest 0 token.location).bind fun literal formed => .pure ⟨named, formed⟩
  · exact (reads.varDecl 0).bind fun decl formed => .pure formed
  · exact (reads.constDecl 0).bind fun decl formed => .pure formed
  · exact .refuse

theorem declarations_gives (fuel : Nat) :
    Gives (Reader.declarations fuel) (fun decls => ∀ decl ∈ decls, Formed.decl decl) := by
  induction fuel with
  | zero => exact .exhausted
  | succ fuel ih =>
      unfold Reader.declarations
      refine .peekWord fun word _ => ?_
      split
      · exact .pure fun _ member => absurd member List.not_mem_nil
      · refine (declaration_gives fuel).bind fun first formed => Gives.terminate.bind fun _ _ => ?_
        refine Gives.skipSemicolons.bind fun _ _ => ih.bind fun rest all => .pure ?_
        exact List.forall_mem_cons.mpr ⟨formed, all⟩

theorem file_gives (fuel : Nat) : Gives (Reader.file fuel) Formed.program := by
  unfold Reader.file
  refine Gives.skipSemicolons.bind fun _ _ => Gives.expectKeyword.bind fun _ _ => ?_
  refine Gives.expectName.bind fun package named => Gives.terminate.bind fun _ _ => ?_
  refine Gives.skipSemicolons.bind fun _ _ => (imports_gives fuel).bind fun imports formedImports => ?_
  refine (declarations_gives fuel).bind fun declarations formedDecls => .pure ?_
  exact ⟨named, formedImports, formedDecls⟩

theorem parse_ok {tokens : List Token} {program : Program} (read : parse tokens = .ok program) :
    ∃ rest, Reader.file (Reader.fuelFor tokens) tokens = .ok (program, rest) := by
  unfold parse Reader.run at read
  split at read
  · rename_i rest same
    cases read
    exact ⟨rest, same⟩
  · cases read
  · cases read

theorem formed_parse {tokens : List Token} {program : Program} (lexed : Lexed tokens)
    (read : parse tokens = .ok program) : Formed.program program := by
  obtain ⟨rest, gave⟩ := parse_ok read
  exact (file_gives _ tokens _ rest lexed gave).1

theorem parseText_ok {source : String} {program : Program} (read : parseText source = .ok program) :
    ∃ tokens, tokenize source = .ok tokens ∧ parse tokens = .ok program := by
  unfold parseText at read
  cases same : tokenize source with
  | error error =>
      rw [same] at read
      cases read
  | ok tokens =>
      rw [same] at read
      cases parsed : parse tokens with
      | error error =>
          simp only [bind, Except.bind, parsed] at read
          cases read
      | ok found =>
          simp only [bind, Except.bind, parsed] at read
          obtain rfl := Except.ok.inj read
          exact ⟨tokens, rfl, parsed⟩

theorem formed_parseText {source : String} {program : Program} (read : parseText source = .ok program) :
    Formed.program program := by
  obtain ⟨tokens, lexed, parsed⟩ := parseText_ok read
  exact formed_parse (lexed_tokenize lexed) parsed

end MiniGo.Syntax
