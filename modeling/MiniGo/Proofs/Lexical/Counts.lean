import MiniGo.Proofs.Lexical.Checked

/-!
# Counts of values

Where code needs a number of values, a check that passed has counted them as far as it could. `Counted`
says so of every place in a tree, and which statements may stand in the body of a function.

* `Gives`: some expressions give as many values as are wanted, as far as that was known.
* `Tells`: what a check that passes says of the counts that are kept in mind in the end.
-/

namespace MiniGo.Lexical

open Syntax (Formed.expr Formed.exprs Formed.optionalExpr Formed.function Formed.signature
  Formed.valueDecl Formed.ifStmt Formed.elseBranch Formed.caseLabel Formed.cases Formed.stmt Formed.stmts
  Formed.header)

/-- Expressions whose values were counted, each with what was known then. -/
abbrev Counts := Expr → Option Nat → Prop

/-- An expression gives one value, or it is a call and was not known to give another number. -/
def Single (counts : Counts) (expr : Expr) : Prop :=
  expr.isCall = true → ∃ count?, counts expr count? ∧ ∀ found, count? = some found → found = 1

/-- Expressions give a number of values that is wanted, as far as that was known: a call that stands
alone gives all of its results, other expressions give one value each. -/
inductive Gives (counts : Counts) (wanted : Nat → Prop) : List Expr → Prop where
  | alone {expr : Expr} {count? : Option Nat} : expr.isCall = true →
      counts expr count? → (∀ found, count? = some found → wanted found) → Gives counts wanted [expr]
  | each {exprs : List Expr} :
      (∀ expr ∈ exprs, Single counts expr) → wanted exprs.length → Gives counts wanted exprs

theorem Gives.single {counts : Counts} {expr : Expr} (gives : Gives counts (· = 1) [expr]) :
    Single counts expr := by
  cases gives with
  | alone _ known agrees => exact fun _ => ⟨_, known, agrees⟩
  | each singles _ => exact singles expr (List.mem_singleton_self expr)

namespace Counted

mutual

/-- Where an expression needs values, they were counted. -/
def expr (counts : Counts) : Expr → Prop
  | .integer _ | .float _ | .string _ | .identifier _ _ | .qualified _ _ _ => True
  | .binary left _ right _ =>
      expr counts left ∧ Single counts left ∧ expr counts right ∧ Single counts right
  | .unary _ operand _ => expr counts operand ∧ Single counts operand
  | .call callee args _ =>
      expr counts callee ∧ Single counts callee ∧ exprs counts args ∧ Gives counts (fun _ => True) args
  | .function literal => function counts literal

/-- Where expressions need values, they were counted. -/
def exprs (counts : Counts) : List Expr → Prop
  | [] => True
  | first :: rest => expr counts first ∧ exprs counts rest

/-- Where an expression needs values, they were counted, if there is one; it gives one value. -/
def optionalExpr (counts : Counts) : Option Expr → Prop
  | none => True
  | some operand => expr counts operand ∧ Single counts operand

/-- The body of a function gives as many values as the function has results: they are counted where it
returns, and if there are any its end is not reached. -/
def function (counts : Counts) : FunctionLiteral → Prop
  | ⟨signature, body, _⟩ =>
      (signature.resultNames = [] ∨ signature.resultNames.length = signature.results.length) ∧
      (∃ name, stmts counts (.ofFunction name signature) body) ∧
      (signature.results = [] ∨ isTerminatingList body = true)

/-- A declaration has as many values as names, or none. -/
def valueDecl (counts : Counts) : ValueDecl → Prop
  | ⟨_, names, _, values, _⟩ =>
      exprs counts values ∧ (values = [] ∨ Gives counts (· = names.length) values)

/-- Where a conditional statement needs values, they were counted. -/
def ifStmt (counts : Counts) (body : Check.Body) : IfStmt → Prop
  | ⟨init, condition, inner, orElse, _⟩ =>
      optionalStmt counts body init ∧ expr counts condition ∧ Single counts condition ∧
        stmts counts body inner ∧ elseBranch counts body orElse

/-- Where the rest of a conditional statement needs values, they were counted. -/
def elseBranch (counts : Counts) (body : Check.Body) : ElseBranch → Prop
  | .absent => True
  | .block inner => stmts counts body inner
  | .chain next => ifStmt counts body next

def caseLabel (counts : Counts) : CaseLabel → Prop
  | .values values => exprs counts values ∧ ∀ value ∈ values, Single counts value
  | .otherwise => True

/-- Where cases need values, they were counted. -/
def cases (counts : Counts) (body : Check.Body) : List SwitchCase → Prop
  | [] => True
  | ⟨label, inner, _⟩ :: rest =>
      caseLabel counts label ∧ stmts counts body.insideCase inner ∧ cases counts body rest

/-- Where a statement needs values, they were counted; it leaves a loop or a switch only inside one. -/
def stmt (counts : Counts) (body : Check.Body) : Stmt → Prop
  | .declare decl => valueDecl counts decl
  | .define names values _ | .assign names values _ =>
      exprs counts values ∧ Gives counts (· = names.length) values
  | .compound _ _ value _ => expr counts value ∧ Single counts value
  | .step _ _ _ => True
  | .ifElse found => ifStmt counts body found
  | .loop init condition post inner _ =>
      optionalStmt counts body init ∧ optionalExpr counts condition ∧ optionalStmt counts body post ∧
        stmts counts body.inside inner
  | .switch init tag found _ =>
      optionalStmt counts body init ∧ optionalExpr counts tag ∧ cases counts body found
  | .return values _ =>
      exprs counts values ∧
        ((values = [] ∧ body.namedResults = true) ∨ Gives counts (· = body.results) values)
  | .break _ => body.inBreakable = true
  | .continue _ => body.inLoop = true
  | .block inner => stmts counts body inner
  | .expression found => expr counts found

/-- Where statements need values, they were counted. -/
def stmts (counts : Counts) (body : Check.Body) : List Stmt → Prop
  | [] => True
  | first :: rest => stmt counts body first ∧ stmts counts body rest

/-- Where a statement needs values, they were counted, if there is one. -/
def optionalStmt (counts : Counts) (body : Check.Body) : Option Stmt → Prop
  | none => True
  | some found => stmt counts body found

end

end Counted

/-! ## Counts that checks keep in mind -/

variable {ε α β : Type} {imports : Interfaces} {table after : SymbolTable}

/-- A check that passes forgets no counts, and in the end the counts are as `holds` says. -/
def Tells (check : StateT SymbolTable (Except ε) α) (holds : Counts → Prop) : Prop :=
  ∀ table outcome after, check table = .ok (outcome, after) →
    table.counts ≤ after.counts ∧ ∀ counts, after.counts ≤ counts → holds counts

namespace Tells

variable {holds others : Counts → Prop}

section

variable {check : StateT SymbolTable (Except ε) α} {next : α → StateT SymbolTable (Except ε) β}

theorem weaken (tells : Tells check holds) (imp : ∀ counts, holds counts → others counts) :
    Tells check others := fun table outcome after ran =>
  have told := tells table outcome after ran
  ⟨told.1, fun counts more => imp counts (told.2 counts more)⟩

theorem bind (first : Tells check holds)
    (second : ∀ value, Tells (next value) others) :
    Tells (check >>= next) (fun counts => holds counts ∧ others counts) := by
  intro table outcome after ran
  obtain ⟨value, between, one, two⟩ := bind_ok ran
  obtain ⟨kept, told⟩ := first _ _ _ one
  obtain ⟨keptToo, toldToo⟩ := second value _ _ _ two
  exact ⟨kept.trans keptToo, fun counts more => ⟨told counts (keptToo.trans more), toldToo counts more⟩⟩

theorem silent
    (same : ∀ table outcome after, check table = .ok (outcome, after) → after.counts = table.counts) :
    Tells check (fun _ => True) := fun table outcome after ran =>
  ⟨(same table outcome after ran).ge, fun _ _ => trivial⟩

theorem pure {value : α} : Tells (Pure.pure value : StateT SymbolTable (Except ε) α) (fun _ => True) :=
  silent fun _ _ _ ran => congrArg SymbolTable.counts (pure_ok ran).2

theorem get : Tells (MonadState.get : StateT SymbolTable (Except ε) SymbolTable) (fun _ => True) :=
  silent fun _ _ _ ran => congrArg SymbolTable.counts (get_ok ran).2

theorem seq (first : Tells check (fun _ => True))
    (second : ∀ value, Tells (next value) holds) : Tells (check >>= next) holds :=
  (first.bind second).weaken fun _ both => both.2

theorem before (first : Tells check holds)
    (second : ∀ value, Tells (next value) (fun _ => True)) : Tells (check >>= next) holds :=
  (first.bind second).weaken fun _ both => both.1

theorem quiet (tells : Tells check holds) : Tells check (fun _ => True) :=
  tells.weaken fun _ _ => trivial

end

theorem fail {error : ResolutionError} : Tells (Check.fail error : Check α) holds :=
  fun _ _ _ ran => by cases ran

theorem require {holds : Bool} {error : ResolutionError} :
    Tells (Check.require holds error) (fun _ => holds = true) := by
  intro table outcome after ran
  obtain ⟨passed, rfl⟩ := require_ok ran
  exact ⟨le_rfl, fun _ _ => passed⟩

theorem inScope {kind : BlockKind} {check : Check α} (tells : Tells check holds) :
    Tells (Check.inScope kind check) holds := by
  intro table outcome after ran
  obtain ⟨inner, checked, rfl⟩ := inScope_ok ran
  have told := tells (table.enter kind) outcome inner checked
  exact told

/-! ## Names -/

theorem used {name : String} {location : Location} :
    Tells (modify (·.used name location) : Check Unit) (fun _ => True) :=
  silent fun table _ _ ran => by
    rw [modify_ok ran]
    rfl

theorem declareIn {scope : Nat} {symbol : Symbol} {location : Location} :
    Tells (Check.declareIn scope symbol location) (fun _ => True) := by
  refine silent fun table outcome after ran => ?_
  unfold Check.declareIn SymbolTable.declareIn at ran
  split at ran
  · cases ran
  · cases ran
    rfl

theorem declare {symbol : Symbol} {location : Location} :
    Tells (Check.declare symbol location) (fun _ => True) :=
  fun table outcome after ran => declareIn table outcome after ran

theorem resolve {name : String} {location : Location} :
    Tells (Check.resolve name location) (fun _ => True) := by
  refine silent fun table outcome after ran => ?_
  unfold Check.resolve at ran
  split at ran
  · split at ran
    · cases ran
    · cases ran
      rfl
  · cases ran

theorem identifier {name : String} {location : Location} :
    Tells (Check.identifier name location) (fun _ => True) := by
  refine resolve.seq fun symbol => ?_
  split
  · exact fail
  · exact pure

theorem assignable {name : String} {location : Location} :
    Tells (Check.assignable name location) (fun _ => True) :=
  resolve.seq fun _ => require.quiet

theorem assignables {location : Location} {names : List String} :
    Tells (Check.assignables location names) (fun _ => True) := by
  induction names with
  | nil => exact pure
  | cons name names ih =>
      rw [Check.assignables]
      split
      · exact ih
      · exact assignable.seq fun _ => ih

theorem qualified {package name : String} {location : Location} :
    Tells (Check.qualified imports package name location) (fun _ => True) := by
  refine get.seq fun table => ?_
  split
  · exact fail
  · exact used.seq fun _ => require.quiet.seq fun _ => require.quiet
  · exact fail

theorem signature {found : Signature} {location : Location} :
    Tells (Check.signature found location) (fun _ => True) :=
  silent fun _ _ _ ran => congrArg SymbolTable.counts (signature_ok ran).1

theorem declareValues {scope : Nat} {kind : SymbolKind} {location : Location} {names : List String}
    {types : List (Option Ty)} :
    Tells (Check.declareValues scope kind location names types) (fun _ => True) := by
  induction names generalizing types with
  | nil => exact pure
  | cons name names ih =>
      cases types with
      | nil => exact pure
      | cons type? types => exact declareIn.seq fun _ => ih

theorem defineValues {location : Location} {names : List String} {types : List (Option Ty)} :
    Tells (Check.defineValues location names types) (fun _ => True) := by
  induction names generalizing types with
  | nil => exact pure
  | cons name names ih =>
      cases types with
      | nil => exact pure
      | cons type? types =>
          unfold Check.defineValues
          split
          · exact ih
          · refine get.seq fun table => ?_
            split
            · exact used.seq fun _ => require.quiet.seq fun _ => ih
            · exact declare.seq fun _ => ih.seq fun _ => pure

theorem declareParameters {location : Location} {params : List Parameter} :
    Tells (Check.declareParameters location params) (fun _ => True) := by
  induction params with
  | nil => exact pure
  | cons param params ih => exact declare.seq fun _ => ih

theorem declareResults {location : Location} {names : List String} {types : List Ty} :
    Tells (Check.declareResults location names types) (fun _ => True) := by
  induction names generalizing types with
  | nil => exact pure
  | cons name names ih =>
      cases types with
      | nil => exact pure
      | cons type types => exact declare.seq fun _ => ih

/-! ## Counts -/

/-- What follows a count depends on what was known; of anything but a call it is one value. -/
theorem count {expr : Expr} {next : Option Nat → Check β} {told : Option Nat → Prop}
    (rest : ∀ count?, Tells (next count?) (fun _ => told count?)) :
    Tells (Check.count imports expr >>= next) (fun counts => ∃ count?, counts expr count? ∧
      (expr.isCall = false → count? = some 1) ∧ told count?) := by
  intro table outcome after ran
  obtain ⟨count?, between, counted, ran⟩ := bind_ok ran
  obtain ⟨known, rfl⟩ := count_ok counted
  obtain ⟨kept, tells⟩ := rest count? _ _ _ ran
  refine ⟨le_trans (fun _ _ before => Or.inl before) kept, fun counts more => ?_⟩
  refine ⟨count?, more _ _ (kept _ _ (Or.inr ⟨rfl, rfl⟩)), fun plain => ?_, tells counts more⟩
  rw [known]
  cases expr with
  | call => cases plain
  | _ => rfl

theorem single (expr : Expr) : Tells (Check.single imports expr) (Single · expr) := by
  have told : Tells (Check.single imports expr) (fun counts => ∃ count?, counts expr count? ∧
      (expr.isCall = false → count? = some 1) ∧ ∀ found, count? = some found → found = 1) := by
    refine count fun count? => ?_
    split
    · exact fail
    · exact pure.weaken fun _ _ found same => (Option.some.inj same).symm
    · exact fail
    · exact pure.weaken fun _ _ found same => by cases same
  refine told.weaken fun counts counted _ => ?_
  obtain ⟨count?, known, _, one⟩ := counted
  exact ⟨count?, known, one⟩

theorem singles (exprs : List Expr) :
    Tells (Check.singles imports exprs) (fun counts => ∀ expr ∈ exprs, Single counts expr) := by
  induction exprs with
  | nil => exact pure.weaken fun _ _ _ member => absurd member List.not_mem_nil
  | cons first rest ih =>
      exact ((single first).bind fun _ => ih).weaken fun _ both => List.forall_mem_cons.mpr both

/-- An expression that stands alone and was counted gives a number of values that is wanted. -/
theorem alone {expr : Expr} {next : Option Nat → Check β} {wanted : Nat → Prop}
    (rest : ∀ count?, Tells (next count?) (fun _ => ∀ found, count? = some found → wanted found)) :
    Tells (Check.count imports expr >>= next) (Gives · wanted [expr]) := by
  refine (count rest).weaken fun counts counted => ?_
  obtain ⟨count?, known, plain, agrees⟩ := counted
  cases isCall : expr.isCall with
  | true => exact .alone isCall known agrees
  | false =>
      refine .each (List.forall_mem_singleton.mpr fun call => ?_) (agrees 1 (plain isCall))
      rw [isCall] at call
      cases call

theorem compared {count? : Option Nat} {agrees : Nat → Check Unit} {wanted : Nat → Prop}
    (tells : ∀ found, Tells (agrees found) (fun _ => wanted found)) :
    Tells (match count? with
      | some found => agrees found
      | none => Pure.pure ()) (fun _ => ∀ found, count? = some found → wanted found) := by
  split
  · refine (tells _).weaken fun _ here found same => ?_
    obtain rfl := Option.some.inj same
    exact here
  · exact pure.weaken fun _ _ found same => by cases same

theorem valueCount (targets : Nat) (values : List Expr) (location : Location) :
    Tells (Check.valueCount imports targets values location) (Gives · (· = targets) values) := by
  unfold Check.valueCount
  split
  · exact alone fun count? => compared fun found => require.weaken fun _ => of_decide_eq_true
  · exact (require.bind fun _ => singles _).weaken fun _ both => .each both.2 (of_decide_eq_true both.1)

theorem returnCount (body : Check.Body) (values : List Expr) (location : Location) :
    Tells (Check.returnCount imports body values location) (fun counts =>
      (values = [] ∧ body.namedResults = true) ∨ Gives counts (· = body.results) values) := by
  have agrees : ∀ found, Tells (Check.require (decide (found = body.results))
      (.returnCount body.function body.results found location)) (fun _ => found = body.results) :=
    fun found => require.weaken fun _ => of_decide_eq_true
  unfold Check.returnCount
  dsimp only
  split
  · split
    · rename_i named
      exact pure.weaken fun _ _ => Or.inl ⟨rfl, named⟩
    · exact (agrees 0).weaken fun _ same => Or.inr (.each (fun _ member => absurd member List.not_mem_nil) same)
  · exact (alone fun count? => compared agrees).weaken fun _ => Or.inr
  · exact ((singles _).bind fun _ => agrees _).weaken fun _ both => Or.inr (.each both.1 both.2)

end Tells

/-! ## Trees -/

mutual

theorem expression_tells : (found : Expr) → Formed.expr found →
    Tells (Check.expression imports found) (Counted.expr · found)
  | .integer _, _ | .float _, _ | .string _, _ => by
      unfold Check.expression
      exact Tells.pure
  | .identifier name location, _ => by
      unfold Check.expression
      exact Tells.identifier
  | .qualified package name location, _ => by
      unfold Check.expression
      exact Tells.qualified
  | .binary left _ right _, formed => by
      unfold Check.expression
      exact (expression_tells left formed.1).bind fun _ => (Tells.single left).bind fun _ =>
        (expression_tells right formed.2).bind fun _ => Tells.single right
  | .unary _ operand _, formed => by
      unfold Check.expression
      exact (expression_tells operand formed).bind fun _ => Tells.single operand
  | .call callee args _, formed => by
      unfold Check.expression
      exact (expression_tells callee formed.1).bind fun _ => (Tells.single callee).bind fun _ =>
        arguments_tells args formed.2
  | .function literal, formed => by
      unfold Check.expression
      exact function_tells literal formed _ _

theorem expressions_tells : (found : List Expr) → Formed.exprs found →
    Tells (Check.expressions imports found) (Counted.exprs · found)
  | [], _ => by
      unfold Check.expressions
      exact Tells.pure
  | first :: rest, formed => by
      unfold Check.expressions
      exact (expression_tells first formed.1).bind fun _ => expressions_tells rest formed.2

theorem operands_tells : (found : List Expr) → Formed.exprs found →
    Tells (Check.operands imports found) (fun counts =>
      Counted.exprs counts found ∧ ∀ expr ∈ found, Single counts expr)
  | [], _ => by
      unfold Check.operands
      exact Tells.pure.weaken fun _ _ => ⟨trivial, fun _ member => absurd member List.not_mem_nil⟩
  | first :: rest, formed => by
      unfold Check.operands
      refine ((expression_tells first formed.1).bind fun _ => (Tells.single first).bind fun _ =>
        operands_tells rest formed.2).weaken ?_
      rintro _ ⟨here, single, others, singles⟩
      exact ⟨⟨here, others⟩, List.forall_mem_cons.mpr ⟨single, singles⟩⟩

theorem optionalOperand_tells : (found : Option Expr) → Formed.optionalExpr found →
    Tells (Check.optionalOperand imports found) (Counted.optionalExpr · found)
  | none, _ => by
      unfold Check.optionalOperand
      exact Tells.pure
  | some operand, formed => by
      unfold Check.optionalOperand
      exact (expression_tells operand formed).bind fun _ => Tells.single operand

theorem arguments_tells : (found : List Expr) → Formed.exprs found →
    Tells (Check.arguments imports found) (fun counts =>
      Counted.exprs counts found ∧ Gives counts (fun _ => True) found)
  | [], _ => by
      unfold Check.arguments
      exact Tells.pure.weaken fun _ _ => ⟨trivial, .each (fun _ member => absurd member List.not_mem_nil) trivial⟩
  | [arg], formed => by
      unfold Check.arguments
      have counted : Tells (if arg.isCall then do
            let found ← Check.count imports arg
            Check.require (found != some 0) (.noValue (arg.location?.getD Location.nowhere))
          else Check.single imports arg) (Gives · (fun _ => True) [arg]) := by
        split
        · exact Tells.alone fun _ => Tells.require.weaken fun _ _ _ _ => trivial
        · exact (Tells.single arg).weaken fun _ one => .each (List.forall_mem_singleton.mpr one) trivial
      refine ((expression_tells arg formed.1).bind fun _ => counted).weaken ?_
      rintro _ ⟨here, gives⟩
      exact ⟨⟨here, trivial⟩, gives⟩
  | first :: second :: rest, formed => by
      unfold Check.arguments
      refine ((expression_tells first formed.1).bind fun _ => (Tells.single first).bind fun _ =>
        (expression_tells second formed.2.1).bind fun _ => (Tells.single second).bind fun _ =>
          operands_tells rest formed.2.2).weaken ?_
      rintro _ ⟨one, single, two, single', others, singles⟩
      exact ⟨⟨one, two, others⟩, .each (List.forall_mem_cons.mpr ⟨single,
        List.forall_mem_cons.mpr ⟨single', singles⟩⟩) trivial⟩

theorem function_tells : (found : FunctionLiteral) → Formed.function found → (name : String) →
    (isLiteral : Bool) → Tells (Check.function imports name isLiteral found) (Counted.function · found)
  | ⟨signature, body, location⟩, formed, name, isLiteral => by
      -- The checks of a literal and of a function differ in the signature only.
      have walked : Tells (do
          Check.inScope (.function name) do
            Check.declareParameters location signature.params
            Check.declareResults location signature.resultNames signature.results
            Check.statements imports (.ofFunction name signature) body
          Check.require (signature.results.isEmpty || isTerminatingList body) (.missingReturn name location))
          (Counted.function · ⟨signature, body, location⟩) := by
        refine ((Tells.declareParameters.seq fun _ => Tells.declareResults.seq fun _ =>
          statements_tells (.ofFunction name signature) body formed.2).inScope.bind
            fun _ => Tells.require).weaken ?_
        rintro _ ⟨counted, ends⟩
        exact ⟨formed.1.2.2.2, ⟨name, counted⟩, by simpa using ends⟩
      unfold Check.function
      split
      · exact Tells.signature.seq fun _ => walked
      · exact walked

theorem valueDecl_tells : (found : ValueDecl) → Formed.exprs found.values → (scope : Nat) →
    Tells (Check.valueDecl imports scope found) (Counted.valueDecl · found)
  | ⟨isConst, names, type?, values, location⟩, formed, scope => by
      have declares : Tells (checkValues imports scope (if isConst then .const else .var) names type? values
          location) (Counted.valueDecl · ⟨isConst, names, type?, values, location⟩) := by
        refine (expressions_tells values formed).bind fun _ => ?_
        dsimp only
        split
        · rename_i empty
          exact (Tells.get.seq fun _ => Tells.declareValues).weaken fun _ _ =>
            Or.inl (List.isEmpty_iff.mp empty)
        · exact ((Tells.valueCount _ _ _).before fun _ => Tells.get.seq fun _ =>
            Tells.declareValues).weaken fun _ => Or.inr
      exact fun table outcome after ran => declares table outcome after (valueDecl_ok ran).2

theorem statement_tells : (body : Check.Body) → (found : Stmt) → Formed.stmt found →
    Tells (Check.statement imports body found) (Counted.stmt · body found)
  | _, .declare ⟨isConst, names, type?, values, location⟩, formed => by
      unfold Check.statement
      exact Tells.get.seq fun _ => valueDecl_tells ⟨isConst, names, type?, values, location⟩ formed.2.2.1 _
  | _, .define names values location, formed => by
      unfold Check.statement
      exact (expressions_tells values formed.2.2).bind fun _ => (Tells.valueCount _ _ _).before fun _ =>
        Tells.get.seq fun _ => Tells.defineValues.seq fun _ => Tells.require.quiet
  | _, .assign targets values location, formed => by
      unfold Check.statement
      exact (expressions_tells values formed.2.2).bind fun _ => Tells.assignables.seq fun _ =>
        Tells.valueCount _ _ _
  | _, .compound target op value location, formed => by
      unfold Check.statement
      refine ((expression_tells value formed.2.2).bind fun _ => Tells.assignable.seq fun _ =>
        Tells.valueCount 1 [value] location).weaken ?_
      rintro _ ⟨counted, gives⟩
      exact ⟨counted, gives.single⟩
  | _, .step target _ location, _ => by
      unfold Check.statement
      exact Tells.assignable
  | body, .ifElse found, formed => by
      unfold Check.statement
      exact conditional_tells body found formed
  | body, .loop init condition post inner _, formed => by
      unfold Check.statement
      exact ((optionalStatement_tells body init formed.1).bind fun _ =>
        (optionalOperand_tells condition formed.2.1).bind fun _ =>
        (optionalStatement_tells body post formed.2.2.1).bind fun _ =>
        (statements_tells body.inside inner formed.2.2.2.2).inScope).inScope
  | body, .switch init tag found _, formed => by
      unfold Check.statement
      exact ((optionalStatement_tells body init formed.1).bind fun _ =>
        (optionalOperand_tells tag formed.2.1).bind fun _ => cases_tells body found formed.2.2.1).inScope
  | body, .return values location, formed => by
      unfold Check.statement
      exact (expressions_tells values formed).bind fun _ => Tells.returnCount body values location
  | _, .break _, _ | _, .continue _, _ => by
      unfold Check.statement
      exact Tells.require
  | body, .block inner, formed => by
      unfold Check.statement
      exact (statements_tells body inner formed).inScope
  | _, .expression found, formed => by
      unfold Check.statement
      exact expression_tells found formed

theorem statements_tells : (body : Check.Body) → (found : List Stmt) → Formed.stmts found →
    Tells (Check.statements imports body found) (Counted.stmts · body found)
  | _, [], _ => by
      unfold Check.statements
      exact Tells.pure
  | body, first :: rest, formed => by
      unfold Check.statements
      exact (statement_tells body first formed.1).bind fun _ => statements_tells body rest formed.2.2

theorem optionalStatement_tells : (body : Check.Body) → (found : Option Stmt) → Formed.header found →
    Tells (Check.optionalStatement imports body found) (Counted.optionalStmt · body found)
  | _, none, _ => by
      unfold Check.optionalStatement
      exact Tells.pure
  | body, some found, formed => by
      unfold Check.optionalStatement
      exact statement_tells body found formed.1

theorem conditional_tells : (body : Check.Body) → (found : IfStmt) → Formed.ifStmt found →
    Tells (Check.conditional imports body found) (Counted.ifStmt · body found)
  | body, ⟨init, condition, inner, orElse, _⟩, formed => by
      unfold Check.conditional
      exact ((optionalStatement_tells body init formed.1).bind fun _ =>
        (expression_tells condition formed.2.1).bind fun _ => (Tells.single condition).bind fun _ =>
        (statements_tells body inner formed.2.2.1).inScope.bind fun _ =>
        elseBranch_tells body orElse formed.2.2.2).inScope

theorem elseBranch_tells : (body : Check.Body) → (found : ElseBranch) → Formed.elseBranch found →
    Tells (Check.elseBranch imports body found) (Counted.elseBranch · body found)
  | _, .absent, _ => by
      unfold Check.elseBranch
      exact Tells.pure
  | body, .block inner, formed => by
      unfold Check.elseBranch
      exact (statements_tells body inner formed).inScope
  | body, .chain next, formed => by
      unfold Check.elseBranch
      exact conditional_tells body next formed

theorem caseLabel_tells : (found : CaseLabel) → Formed.caseLabel found →
    Tells (Check.caseLabel imports found) (Counted.caseLabel · found)
  | .values values, formed => by
      unfold Check.caseLabel
      exact operands_tells values formed.2
  | .otherwise, _ => by
      unfold Check.caseLabel
      exact Tells.pure

theorem cases_tells : (body : Check.Body) → (found : List SwitchCase) → Formed.cases found →
    Tells (Check.cases imports body found) (Counted.cases · body found)
  | _, [], _ => by
      unfold Check.cases
      exact Tells.pure
  | body, ⟨label, inner, _⟩ :: rest, formed => by
      unfold Check.cases
      exact (caseLabel_tells label formed.1).bind fun _ =>
        (statements_tells body.insideCase inner formed.2.1).inScope.bind fun _ =>
        cases_tells body rest formed.2.2

end

end MiniGo.Lexical
