import MiniGo.Proofs.Lexical.Declarations
import MiniGo.Proofs.Syntax.Formed

/-!
# Checked code is judged

Code that passes the checks is judged: `expression_reads`, `statement_declares` and the others follow
the tree. The free names of the code have to be settled, and the tree has to be one that the grammar
gives.
-/

namespace MiniGo.Lexical

open Syntax (Formed.expr Formed.exprs Formed.optionalExpr Formed.function Formed.valueDecl Formed.ifStmt
  Formed.elseBranch Formed.caseLabel Formed.cases Formed.stmt Formed.stmts Formed.header)

variable {imports : Interfaces} {ready : String → Prop} {table between after : SymbolTable}

/-! ## Bound names -/

theorem bound_ofStmt (bound : List String) (stmt : Stmt) :
    (FreeNames.ofStmt bound stmt).1 = declared stmt ++ bound := by
  cases stmt with
  | declare decl =>
      obtain ⟨isConst, names, type?, values, location⟩ := decl
      simp only [FreeNames.ofStmt, FreeNames.ofDecl, declared]
  | _ => simp only [FreeNames.ofStmt, declared, List.nil_append]

theorem bound_ofOptionalStmt (bound : List String) (stmt : Option Stmt) :
    (FreeNames.ofOptionalStmt bound stmt).1 = declaredBy stmt ++ bound := by
  cases stmt with
  | none => simp only [FreeNames.ofOptionalStmt, declaredBy, List.nil_append]
  | some stmt => simp only [FreeNames.ofOptionalStmt, declaredBy, bound_ofStmt]

theorem declaredBy_silent {stmt : Option Stmt}
    (silent : ∀ last, stmt = some last → Syntax.isSilent last = true) : declaredBy stmt = [] := by
  cases stmt with
  | none => rfl
  | some last =>
      have quiet := silent last rfl
      cases last with
      | declare decl => exact nomatch quiet
      | define names values location => exact nomatch quiet
      | _ => rfl

/-! ## Counts of values -/

theorem typeOf?_counts (counts : Expr → Option Nat → Prop) (expr : Expr) :
    Check.typeOf? imports { table with counts } expr = Check.typeOf? imports table expr := by
  fun_induction Check.typeOf? imports table expr with
  | case4 => rfl
  | case5 => rfl
  | _ => simp_all [Check.typeOf?]

theorem valueTypes_counts (counts : Expr → Option Nat → Prop) (targets : Nat) (values : List Expr) :
    Check.valueTypes imports { table with counts } targets values
      = Check.valueTypes imports table targets values := by
  have types : Check.typeOf? imports { table with counts } = Check.typeOf? imports table :=
    funext (typeOf?_counts counts)
  unfold Check.valueTypes Check.resultsOf?
  simp only [types]

theorem declaredTypes_counts (counts : Expr → Option Nat → Prop) (names : List String) (type? : Option Ty)
    (values : List Expr) :
    Check.declaredTypes imports { table with counts } names type? values
      = Check.declaredTypes imports table names type? values := by
  unfold Check.declaredTypes
  simp only [valueTypes_counts counts]

theorem length_valueTypes {targets : Nat} {values : List Expr} {location : Location} {outcome : Unit}
    (ran : Check.valueCount imports targets values location table = .ok (outcome, after)) :
    (Check.valueTypes imports table targets values).length = targets := by
  -- A single value may stand for several targets: then the count of its results was compared with them.
  have counted : values.length ≠ 1 → values.length = targets := by
    intro many
    unfold Check.valueCount at ran
    split at ran
    · exact absurd rfl many
    · obtain ⟨_, _, agrees, _⟩ := bind_ok ran
      simpa using (require_ok agrees).1
  unfold Check.valueTypes
  split
  · rename_i value
    split
    · rename_i one
      exact one.symm
    · rename_i several
      have agrees : ∀ found, Check.resultCount? imports table value = some found → found = targets := by
        intro found known
        obtain ⟨_, _, got, walked⟩ := bind_ok ran
        rw [(count_ok got).1, known] at walked
        simpa using (require_ok walked).1
      split
      · split
        · rename_i callee args place results known
          rw [List.length_map]
          exact agrees results.length (by rw [Check.resultCount?, known]; rfl)
        · exact List.length_replicate
      · exact List.length_replicate
  · rename_i notOne
    rw [List.length_map]
    refine counted fun one => ?_
    obtain ⟨value, rfl⟩ := List.length_eq_one_iff.mp one
    exact notOne value rfl

theorem length_declaredTypes {names : List String} {type? : Option Ty} {values : List Expr}
    (counted : values ≠ [] → ∃ location outcome after,
      Check.valueCount imports names.length values location table = .ok (outcome, after)) :
    (Check.declaredTypes imports table names type? values).length = names.length := by
  unfold Check.declaredTypes
  split
  · exact List.length_map _
  · exact List.length_map _
  · rename_i notEmpty
    obtain ⟨location, outcome, after, ran⟩ := counted notEmpty
    exact length_valueTypes ran

/-- The values of a declaration and then its names. -/
def checkValues (imports : Interfaces) (scope : Nat) (kind : SymbolKind) (names : List String)
    (type? : Option Ty) (values : List Expr) (location : Location) : Check Unit := do
  Check.expressions imports values
  if values.isEmpty then pure () else Check.valueCount imports names.length values location
  let types := Check.declaredTypes imports (← get) names type? values
  Check.declareValues scope kind location names types

theorem checkValues_ok {scope : Nat} {kind : SymbolKind} {names : List String} {type? : Option Ty}
    {values : List Expr} {location : Location} {outcome : Unit}
    (ran : checkValues imports scope kind names type? values location table = .ok (outcome, after)) :
    ∃ between types counts, Check.expressions imports values table = .ok ((), between) ∧
      types.length = names.length ∧
      Check.declareValues scope kind location names types { between with counts } = .ok ((), after) := by
  obtain ⟨_, between, checked, walked⟩ := bind_ok ran
  dsimp only at walked
  split at walked
  · rename_i empty
    obtain ⟨_, _, got, walked⟩ := bind_ok walked
    obtain ⟨rfl, rfl⟩ := get_ok got
    refine ⟨_, _, _, checked, length_declaredTypes fun notEmpty => ?_, walked⟩
    exact absurd (List.isEmpty_iff.mp empty) notEmpty
  · obtain ⟨_, same, counted, declaring⟩ := bind_ok walked
    obtain ⟨counts, rfl⟩ := steady_valueCount _ _ _ _ _ _ counted
    obtain ⟨_, _, got, last⟩ := bind_ok declaring
    obtain ⟨rfl, rfl⟩ := get_ok got
    rw [declaredTypes_counts] at last
    exact ⟨between, _, counts, checked, length_declaredTypes fun _ => ⟨_, _, _, counted⟩, last⟩

/-- The parts of a checked declaration. -/
theorem valueDecl_ok {scope : Nat} {isConst : Bool} {names : List String} {type? : Option Ty}
    {values : List Expr} {location : Location} {outcome : Unit}
    (ran : Check.valueDecl imports scope ⟨isConst, names, type?, values, location⟩ table
      = .ok (outcome, after)) :
    (∀ type, type? = some type → Inhabits type) ∧
      checkValues imports scope (if isConst then .const else .var) names type? values location table
        = .ok (outcome, after) := by
  unfold Check.valueDecl at ran
  cases type? with
  | none => exact ⟨nofun, ran⟩
  | some found =>
      obtain ⟨_, typed, typing, walked⟩ := bind_ok ran
      cases known : Check.type location found with
      | error error => rw [known] at typing; exact nomatch typing
      | ok _ =>
          rw [known] at typing
          obtain rfl : table = typed := congrArg Prod.snd (Except.ok.inj typing)
          refine ⟨fun type same => ?_, walked⟩
          obtain rfl := Option.some.inj same
          exact inhabits_of_type known

/-! ## Trees -/

/-- What a function asks of its signature, which is checked where the function is declared. -/
theorem function_reads_body {name : String} {signature : Signature} {body : List Stmt} {location : Location}
    (formed : Syntax.Formed.signature signature)
    (inhabited : ∀ type ∈ signature.results, Inhabits type) {names : List String} {two : Check Unit}
    (steady : Steady two)
    (stmts : Declares imports ready (Check.statements imports (.ofFunction name signature) body) names
      (FreeNames.ofStmts · body) (Judged.stmts · · body)) :
    Reads imports ready
      (do
        Check.inScope (.function name) do
          Check.declareParameters location signature.params
          Check.declareResults location signature.resultNames signature.results
          Check.statements imports (.ofFunction name signature) body
        two)
      (FreeNames.ofFunction · ⟨signature, body, location⟩)
      (Judged.function · · ⟨signature, body, location⟩) := by
  let parameters : List Symbol := signature.params.map fun param => ⟨param.name, .parameter, some param.type⟩
  let results : List Symbol :=
    (signature.resultNames.zip signature.results).map fun pair => ⟨pair.1, .var, some pair.2⟩
  -- Parameters and named results are declared like one list of names in the scope of the function.
  have named : (parameters ++ results).map (·.name) = FreeNames.parameters signature := by
    have ofResults : results.map (·.name) = signature.resultNames := by
      rcases formed.2.2.2 with empty | same
      · simp only [results, empty, List.zip_nil_left, List.map_nil]
      · exact names_zip _ (fun _ => rfl) same.symm
    rw [List.map_append, ofResults, List.map_map]
    rfl
  have heads : Declares imports ready (declareAll location (parameters ++ results))
      (FreeNames.parameters signature) (fun _ => [])
      (fun facts context => GetsAll facts context (FreeNames.parameters signature)) := by
    rw [← named]
    refine declareAll_declares location _ fun symbol member => ?_
    rcases List.mem_append.mp member with here | here
    all_goals
      obtain ⟨_, _, rfl⟩ := List.mem_map.mp here
      rfl
  rw [declareParameters_eq, declareResults_eq, ← bind_assoc, declareAll_append]
  refine ((heads.seq stmts).inFunction.followed fun _ => steady).weaken ?_ ?_
  · intro bound free member
    rw [FreeNames.ofFunction]
    exact member
  · rintro facts context ⟨scope, enters, getsAll, judged⟩
    rw [Judged.function]
    exact ⟨⟨inhabited, formed.2.2.2⟩, scope, enters, getsAll, judged⟩

theorem valueDecl_declares {decl : ValueDecl}
    (exprs : Reads imports ready (Check.expressions imports decl.values) (FreeNames.ofExprs · decl.values)
      (Judged.exprs · · decl.values)) :
    Declares imports ready (get >>= fun table => Check.valueDecl imports table.current decl) decl.names
      (fun bound => (FreeNames.ofDecl bound decl).2) (Judged.valueDecl · · decl) := by
  obtain ⟨isConst, names, type?, values, location⟩ := decl
  intro table outcome after regular inner ran
  obtain ⟨_, _, got, walked⟩ := bind_ok ran
  obtain ⟨rfl, rfl⟩ := get_ok got
  obtain ⟨inhabited, checking⟩ := valueDecl_ok walked
  obtain ⟨between, types, counts, checked, same, declaring⟩ := checkValues_ok checking
  have read := (exprs _ _ _ regular checked).counting counts
  rw [← read.continues.current, declareValues_eq] at declaring
  have heads := @declareAll_declares imports ready location _ (by
    intro symbol member
    obtain ⟨_, _, rfl⟩ := List.mem_map.mp member
    cases isConst <;> rfl) _ _ _ read.continues.regular (inner.continues regular read.continues) declaring
  rw [names_zip _ (fun _ => rfl) same] at heads
  refine ((read.declared regular).trans regular inner heads).weaken ?_ ?_
  · intro bound free member
    rw [FreeNames.ofDecl]
    simpa using member
  · rintro facts context ⟨judged, getsAll⟩
    rw [Judged.valueDecl]
    exact ⟨judged, inhabited, getsAll⟩

theorem define_declares {names : List String} {values : List Expr} {location : Location} {body : Check.Body}
    (exprs : Reads imports ready (Check.expressions imports values) (FreeNames.ofExprs · values)
      (Judged.exprs · · values)) :
    Declares imports ready (Check.statement imports body (.define names values location)) names
      (FreeNames.ofExprs · values) (Judged.stmt · · (.define names values location)) := by
  intro table outcome after regular inner ran
  unfold Check.statement at ran
  obtain ⟨_, between, checked, walked⟩ := bind_ok ran
  obtain ⟨_, _, counted, counting⟩ := bind_ok walked
  obtain ⟨counts, rfl⟩ := steady_valueCount _ _ _ _ _ _ counted
  have read := (exprs _ _ _ regular checked).counting counts
  obtain ⟨_, _, got, defining⟩ := bind_ok counting
  obtain ⟨rfl, rfl⟩ := get_ok got
  rw [valueTypes_counts] at defining
  obtain ⟨isNew, _, defined, last⟩ := bind_ok defining
  obtain ⟨_, rfl⟩ := require_ok last
  have heads := @defineValues_declares imports ready location names _
    (length_valueTypes counted) _ _ _ read.continues.regular (inner.continues regular read.continues) defined
  refine ((read.declared regular).trans regular inner heads).weaken ?_ ?_
  · intro bound free member
    simpa using member
  · rintro facts context ⟨judged, defines⟩
    rw [Judged.stmt]
    exact ⟨judged, defines⟩

/-! ## Trees -/

mutual

theorem expression_reads : (found : Expr) → Formed.expr found →
    Reads imports ready (Check.expression imports found) (FreeNames.ofExpr · found) (Judged.expr · · found)
  | .integer _, _ | .float _, _ | .string _, _ => by
      unfold Check.expression
      exact (steady_pure ()).reads_of fun _ _ => by
        rw [Judged.expr]
        trivial
  | .identifier name location, _ => by
      unfold Check.expression
      exact (identifier_reads name location).congr (fun _ => by rw [FreeNames.ofExpr])
        fun _ _ => by rw [Judged.expr]
  | .qualified package name location, _ => by
      unfold Check.expression
      refine (qualified_reads package name location).weaken (fun _ _ member => by cases member)
        fun _ _ used => ?_
      rw [Judged.expr]
      exact used
  | .binary left _ right _, formed => by
      rw [Formed.expr] at formed
      unfold Check.expression
      refine ((expression_reads left formed.1).seq ((steady_single left).reads.seq
        ((expression_reads right formed.2).followed fun _ => steady_single right))).weaken
          (fun _ _ member => ?_) ?_
      · rw [FreeNames.ofExpr]
        simpa using member
      · rintro _ _ ⟨first, _, second⟩
        rw [Judged.expr]
        exact ⟨first, second⟩
  | .unary _ operand _, formed => by
      rw [Formed.expr] at formed
      unfold Check.expression
      exact ((expression_reads operand formed).followed fun _ => steady_single operand).congr
        (fun _ => by rw [FreeNames.ofExpr]) fun _ _ => by rw [Judged.expr]
  | .call callee args _, formed => by
      rw [Formed.expr] at formed
      unfold Check.expression
      refine ((expression_reads callee formed.1).seq ((steady_single callee).reads.seq
        (arguments_reads args formed.2))).weaken (fun _ _ member => ?_) ?_
      · rw [FreeNames.ofExpr]
        simpa using member
      · rintro _ _ ⟨first, _, second⟩
        rw [Judged.expr]
        exact ⟨first, second⟩
  | .function literal, formed => by
      rw [Formed.expr] at formed
      unfold Check.expression
      exact (function_reads literal Check.literalTitle true formed nofun).congr
        (fun _ => by rw [FreeNames.ofExpr]) fun _ _ => by rw [Judged.expr]

theorem expressions_reads : (found : List Expr) → Formed.exprs found →
    Reads imports ready (Check.expressions imports found) (FreeNames.ofExprs · found)
      (Judged.exprs · · found)
  | [], _ => by
      unfold Check.expressions
      exact (steady_pure ()).reads_of fun _ _ => by
        rw [Judged.exprs]
        trivial
  | first :: rest, formed => by
      rw [Formed.exprs] at formed
      unfold Check.expressions
      exact ((expression_reads first formed.1).seq (expressions_reads rest formed.2)).congr
        (fun _ => by rw [FreeNames.ofExprs]) fun _ _ => by rw [Judged.exprs]

theorem operands_reads : (found : List Expr) → Formed.exprs found →
    Reads imports ready (Check.operands imports found) (FreeNames.ofExprs · found) (Judged.exprs · · found)
  | [], _ => by
      unfold Check.operands
      exact (steady_pure ()).reads_of fun _ _ => by
        rw [Judged.exprs]
        trivial
  | first :: rest, formed => by
      rw [Formed.exprs] at formed
      unfold Check.operands
      refine ((expression_reads first formed.1).seq ((steady_single first).reads.seq
        (operands_reads rest formed.2))).weaken (fun _ _ member => ?_) ?_
      · rw [FreeNames.ofExprs]
        simpa using member
      · rintro _ _ ⟨judged, _, others⟩
        rw [Judged.exprs]
        exact ⟨judged, others⟩

theorem optionalOperand_reads : (found : Option Expr) → Formed.optionalExpr found →
    Reads imports ready (Check.optionalOperand imports found) (FreeNames.ofOptionalExpr · found)
      (Judged.optionalExpr · · found)
  | none, _ => by
      unfold Check.optionalOperand
      exact (steady_pure ()).reads_of fun _ _ => by
        rw [Judged.optionalExpr]
        trivial
  | some operand, formed => by
      rw [Formed.optionalExpr] at formed
      unfold Check.optionalOperand
      exact ((expression_reads operand formed).followed fun _ => steady_single operand).congr
        (fun _ => by rw [FreeNames.ofOptionalExpr]) fun _ _ => by rw [Judged.optionalExpr]

theorem arguments_reads : (found : List Expr) → Formed.exprs found →
    Reads imports ready (Check.arguments imports found) (FreeNames.ofExprs · found)
      (Judged.exprs · · found)
  | [], _ => by
      unfold Check.arguments
      exact (steady_pure ()).reads_of fun _ _ => by
        rw [Judged.exprs]
        trivial
  | [arg], formed => by
      rw [Formed.exprs] at formed
      unfold Check.arguments
      refine ((expression_reads arg formed.1).followed fun _ => ?_).weaken (fun _ _ member => ?_)
        fun _ _ judged => ?_
      · split
        · exact (steady_count arg).bind fun _ => steady_require _ _
        · exact steady_single arg
      · rw [FreeNames.ofExprs]
        exact List.mem_append_left _ member
      · rw [Judged.exprs, Judged.exprs]
        exact ⟨judged, trivial⟩
  | first :: second :: rest, formed => by
      rw [Formed.exprs, Formed.exprs] at formed
      unfold Check.arguments
      refine ((expression_reads first formed.1).seq ((steady_single first).reads.seq
        ((expression_reads second formed.2.1).seq ((steady_single second).reads.seq
          (operands_reads rest formed.2.2))))).weaken (fun _ _ member => ?_) ?_
      · rw [FreeNames.ofExprs, FreeNames.ofExprs]
        simpa using member
      · rintro _ _ ⟨one, _, two, _, others⟩
        rw [Judged.exprs, Judged.exprs]
        exact ⟨one, two, others⟩

theorem function_reads : (found : FunctionLiteral) → (name : String) → (isLiteral : Bool) →
    Formed.function found → (isLiteral = false → ∀ type ∈ found.signature.results, Inhabits type) →
    Reads imports ready (Check.function imports name isLiteral found) (FreeNames.ofFunction · found)
      (Judged.function · · found)
  | ⟨signature, body, location⟩, name, isLiteral, formed, inhabited => by
      rw [Formed.function] at formed
      -- A literal has its signature checked first, which leaves the table alone; a function of the package has
      -- got that check before.
      have steady :=
        steady_require (signature.results.isEmpty || isTerminatingList body) (.missingReturn name location)
      have walked := fun inhabited => @function_reads_body imports ready name signature body location
        formed.1 inhabited _ _ steady (statements_declares (.ofFunction name signature) body formed.2)
      unfold Check.function
      cases isLiteral with
      | false => exact walked (inhabited rfl)
      | true =>
          intro table outcome after regular ran
          obtain ⟨_, _, signed, ran'⟩ := bind_ok ran
          obtain ⟨rfl, types⟩ := signature_ok signed
          exact walked types _ _ _ regular ran'

theorem statement_declares : (body : Check.Body) → (found : Stmt) → Formed.stmt found →
    Declares imports ready (Check.statement imports body found) (declared found)
      (fun bound => (FreeNames.ofStmt bound found).2) (Judged.stmt · · found)
  | _, .declare decl, formed => by
      obtain ⟨isConst, names, type?, values, location⟩ := decl
      rw [Formed.stmt, Formed.valueDecl] at formed
      unfold Check.statement
      exact (valueDecl_declares (expressions_reads values formed.2.2.1)).congr
        (fun _ => by rw [FreeNames.ofStmt]) fun _ _ => by rw [Judged.stmt]
  | _, .define names values location, formed => by
      rw [Formed.stmt] at formed
      refine (define_declares (expressions_reads values formed.2.2)).weaken (fun _ _ member => ?_)
        fun _ _ judged => judged
      rw [FreeNames.ofStmt]
      exact member
  | _, .assign targets values location, formed => by
      rw [Formed.stmt] at formed
      unfold Check.statement
      exact ((expressions_reads values formed.2.2).seq ((assignables_reads location targets).followed
        fun _ => steady_valueCount _ _ _)).declares.congr (fun _ => by rw [FreeNames.ofStmt])
        fun _ _ => by rw [Judged.stmt]
  | _, .compound target op value location, formed => by
      rw [Formed.stmt] at formed
      unfold Check.statement
      refine ((expression_reads value formed.2.2).seq ((assignable_reads target location).followed
        fun _ => steady_valueCount _ _ _)).declares.weaken (fun _ _ member => ?_) fun _ _ judged => ?_
      · rw [FreeNames.ofStmt]
        exact member
      · rw [Judged.stmt]
        exact ⟨judged.1, judged.2, formed.2.1⟩
  | _, .step target _ location, _ => by
      unfold Check.statement
      refine (assignable_reads target location).declares.weaken (fun _ _ member => ?_)
        fun _ _ judged => ?_
      · rw [FreeNames.ofStmt]
        split at member
        · cases member
        · exact member
      · rw [Judged.stmt]
        exact judged
  | body, .ifElse found, formed => by
      rw [Formed.stmt] at formed
      unfold Check.statement
      exact (conditional_reads body found formed).declares.congr (fun _ => by rw [FreeNames.ofStmt])
        fun _ _ => by rw [Judged.stmt]
  | body, .loop init condition post inner _, formed => by
      rw [Formed.stmt] at formed
      obtain ⟨first, tested, last, silent, rounds⟩ := formed
      unfold Check.statement
      have quiet := declaredBy_silent silent
      -- What ends a round declares nothing, so the body stands in the scope of the header.
      refine (((optionalStatement_declares body init first).seq
        ((optionalOperand_reads condition tested).declares.seq
          ((optionalStatement_declares body post last).seq
            ((statements_declares body.inside inner rounds).inBlock rfl rfl).declares))).inBlock rfl
              rfl).declares.weaken (fun _ _ member => ?_) ?_
      · simpa only [FreeNames.ofStmt, bound_ofOptionalStmt, quiet, List.nil_append, List.append_assoc] using member
      · rintro _ _ ⟨scope, enters, judged, test, step, block⟩
        rw [quiet] at block
        rw [Judged.stmt]
        exact ⟨scope, enters, judged, test, step, quiet, block⟩
  | body, .switch init tag found _, formed => by
      rw [Formed.stmt] at formed
      unfold Check.statement
      refine (((optionalStatement_declares body init formed.1).seq
        ((optionalOperand_reads tag formed.2.1).seq (cases_reads body found formed.2.2.1)).declares).inBlock
          rfl rfl).declares.weaken (fun _ _ member => ?_) ?_
      · simpa only [FreeNames.ofStmt, bound_ofOptionalStmt, List.append_assoc] using member
      · rintro _ _ ⟨scope, enters, judged, test, rest⟩
        rw [Judged.stmt]
        exact ⟨scope, enters, judged, test, rest⟩
  | body, .return values location, formed => by
      rw [Formed.stmt] at formed
      unfold Check.statement
      exact ((expressions_reads values formed).followed
        fun _ => steady_returnCount body values location).declares.congr (fun _ => by rw [FreeNames.ofStmt])
        fun _ _ => by rw [Judged.stmt]
  | _, .break _, _ | _, .continue _, _ => by
      unfold Check.statement
      exact ((steady_require _ _).reads_of fun _ _ => by
        rw [Judged.stmt]
        trivial).declares
  | body, .block inner, formed => by
      rw [Formed.stmt] at formed
      unfold Check.statement
      exact ((statements_declares body inner formed).inBlock rfl rfl).declares.congr
        (fun _ => by rw [FreeNames.ofStmt]) fun _ _ => by rw [Judged.stmt]
  | _, .expression found, formed => by
      rw [Formed.stmt] at formed
      unfold Check.statement
      exact (expression_reads found formed).declares.congr (fun _ => by rw [FreeNames.ofStmt])
        fun _ _ => by rw [Judged.stmt]

theorem statements_declares : (body : Check.Body) → (found : List Stmt) → Formed.stmts found →
    Declares imports ready (Check.statements imports body found) (found.flatMap declared)
      (FreeNames.ofStmts · found) (Judged.stmts · · found)
  | _, [], _ => by
      unfold Check.statements
      exact ((steady_pure ()).reads_of fun _ _ => by
        rw [Judged.stmts]
        trivial).declares
  | body, first :: rest, formed => by
      rw [Formed.stmts] at formed
      unfold Check.statements
      refine ((statement_declares body first formed.1).seq
        (statements_declares body rest formed.2.2)).weaken (fun bound _ member => ?_) fun _ _ judged => ?_
      · simpa only [FreeNames.ofStmts, bound_ofStmt] using member
      · rw [Judged.stmts]
        exact judged

theorem optionalStatement_declares : (body : Check.Body) → (found : Option Stmt) → Formed.header found →
    Declares imports ready (Check.optionalStatement imports body found) (declaredBy found)
      (fun bound => (FreeNames.ofOptionalStmt bound found).2) (Judged.optionalStmt · · found)
  | _, none, _ => by
      unfold Check.optionalStatement
      exact ((steady_pure ()).reads_of fun _ _ => by
        rw [Judged.optionalStmt]
        trivial).declares
  | body, some found, formed => by
      rw [Formed.header] at formed
      unfold Check.optionalStatement
      exact (statement_declares body found formed.1).congr (fun _ => by rw [FreeNames.ofOptionalStmt])
        fun _ _ => by rw [Judged.optionalStmt]

theorem conditional_reads : (body : Check.Body) → (found : IfStmt) → Formed.ifStmt found →
    Reads imports ready (Check.conditional imports body found) (FreeNames.ofIf · found)
      (Judged.ifStmt · · found)
  | body, ⟨init, condition, inner, orElse, _⟩, formed => by
      rw [Formed.ifStmt] at formed
      obtain ⟨first, tested, taken, other⟩ := formed
      unfold Check.conditional
      refine (((optionalStatement_declares body init first).seq
        ((expression_reads condition tested).seq ((steady_single condition).reads.seq
          (((statements_declares body inner taken).inBlock rfl rfl).seq
            (elseBranch_reads body orElse other)))).declares).inBlock rfl rfl).weaken
              (fun _ _ member => ?_) ?_
      · simpa only [FreeNames.ofIf, bound_ofOptionalStmt, List.nil_append, List.append_assoc] using member
      · rintro _ _ ⟨scope, enters, judged, test, _, block, rest⟩
        rw [Judged.ifStmt]
        exact ⟨scope, enters, judged, test, block, rest⟩

theorem elseBranch_reads : (body : Check.Body) → (found : ElseBranch) → Formed.elseBranch found →
    Reads imports ready (Check.elseBranch imports body found) (FreeNames.ofElse · found)
      (Judged.elseBranch · · found)
  | _, .absent, _ => by
      unfold Check.elseBranch
      exact (steady_pure ()).reads_of fun _ _ => by
        rw [Judged.elseBranch]
        trivial
  | body, .block inner, formed => by
      rw [Formed.elseBranch] at formed
      unfold Check.elseBranch
      exact ((statements_declares body inner formed).inBlock rfl rfl).congr (fun _ => by rw [FreeNames.ofElse])
        fun _ _ => by rw [Judged.elseBranch]
  | body, .chain next, formed => by
      rw [Formed.elseBranch] at formed
      unfold Check.elseBranch
      exact (conditional_reads body next formed).congr (fun _ => by rw [FreeNames.ofElse])
        fun _ _ => by rw [Judged.elseBranch]

theorem caseLabel_reads : (found : CaseLabel) → Formed.caseLabel found →
    Reads imports ready (Check.caseLabel imports found) (FreeNames.ofLabel · found)
      (Judged.caseLabel · · found)
  | .values values, formed => by
      rw [Formed.caseLabel] at formed
      unfold Check.caseLabel
      exact (operands_reads values formed.2).congr (fun _ => by rw [FreeNames.ofLabel])
        fun _ _ => by rw [Judged.caseLabel]
  | .otherwise, _ => by
      unfold Check.caseLabel
      exact (steady_pure ()).reads_of fun _ _ => by
        rw [Judged.caseLabel]
        trivial

theorem cases_reads : (body : Check.Body) → (found : List SwitchCase) → Formed.cases found →
    Reads imports ready (Check.cases imports body found) (FreeNames.ofCases · found)
      (Judged.cases · · found)
  | _, [], _ => by
      unfold Check.cases
      exact (steady_pure ()).reads_of fun _ _ => by
        rw [Judged.cases]
        trivial
  | body, ⟨label, inner, _⟩ :: rest, formed => by
      rw [Formed.cases] at formed
      unfold Check.cases
      refine ((caseLabel_reads label formed.1).seq
        (((statements_declares body.insideCase inner formed.2.1).inBlock rfl rfl).seq
          (cases_reads body rest formed.2.2))).weaken (fun _ _ member => ?_) fun _ _ judged => ?_
      · rw [FreeNames.ofCases, FreeNames.ofCase]
        simpa only [List.append_assoc] using member
      · rw [Judged.cases]
        exact judged

end

end MiniGo.Lexical
