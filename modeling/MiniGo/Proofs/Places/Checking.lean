import MiniGo.Check.Scoping
import MiniGo.Proofs.Places.Erasing

/-!
# Code that is checked without places

A check decides nothing by a place: places only go into its errors and into what a table keeps in mind about
names and counts. So code without its places is checked as the code is (`agrees_function`, `agrees_valueDecl`).
-/

namespace MiniGo.Placeless

open Syntax

variable {α β ε : Type} {blind : ε → ε} {imports : Interfaces} {table other : SymbolTable} {location : Location}

/-- A table with the scopes and the symbols of another; what the two keep in mind may differ. -/
structure Alike (table other : SymbolTable) : Prop where
  scopes : other.scopes = table.scopes
  symbols : other.symbols = table.symbols
  current : other.current = table.current

namespace Alike

theorem chain (alike : Alike table other) (id : Nat) : other.chain id = table.chain id := by
  unfold SymbolTable.chain
  rw [alike.scopes]

theorem findIn? (alike : Alike table other) (id : Nat) (name : String) : other.findIn? id name = table.findIn? id name := by
  unfold SymbolTable.findIn?
  rw [alike.scopes]

theorem symbol? (alike : Alike table other) (name : String) : other.symbol? name = table.symbol? name := by
  unfold SymbolTable.symbol? SymbolTable.lookup?
  rw [alike.current, alike.chain, alike.symbols, funext fun id => alike.findIn? id name]

theorem symbolsIn (alike : Alike table other) (id : Nat) : other.symbolsIn id = table.symbolsIn id := by
  unfold SymbolTable.symbolsIn
  rw [alike.scopes, alike.symbols]

theorem used (alike : Alike table other) (name : String) (one two : Location) :
    Alike (table.used name one) (other.used name two) := ⟨alike.scopes, alike.symbols, alike.current⟩

theorem counted (alike : Alike table other) (one two : Expr) (known : Option Nat) :
    Alike (table.counted one known) (other.counted two known) := ⟨alike.scopes, alike.symbols, alike.current⟩

theorem enter (alike : Alike table other) (kind : BlockKind) : Alike (table.enter kind) (other.enter kind) where
  scopes := by
    unfold SymbolTable.enter
    rw [alike.chain, alike.current, alike.scopes]
  symbols := alike.symbols
  current := congrArg Array.size alike.scopes

theorem exit (alike : Alike table other) : Alike table.exit other.exit where
  scopes := alike.scopes
  symbols := alike.symbols
  current := by
    unfold SymbolTable.exit SymbolTable.parent?
    rw [alike.current, alike.scopes]

theorem resume (alike : Alike table other) (id : Nat) : Alike (table.resume id) (other.resume id) := by
  have sizes : other.scopes.size = table.scopes.size := congrArg Array.size alike.scopes
  unfold SymbolTable.resume
  rw [sizes]
  split
  · exact ⟨alike.scopes, alike.symbols, rfl⟩
  · exact alike

theorem insert (alike : Alike table other) (id : Nat) (symbol : Symbol) :
    Alike (table.insert id symbol) (other.insert id symbol) where
  scopes := by
    unfold SymbolTable.insert
    rw [alike.scopes, alike.symbols]
  symbols := congrArg (Array.push · symbol) alike.symbols
  current := alike.current

end Alike

/-- Two checks ended in the same way, up to places. -/
def Agreed (blind : ε → ε) : Except ε (α × SymbolTable) → Except ε (α × SymbolTable) → Prop
  | .ok (found, after), .ok (result, later) => result = found ∧ Alike after later
  | .error found, .error result => result = blind found
  | _, _ => False

/-- On tables alike, two checks do the same, up to places. -/
def Agrees (blind : ε → ε) (check mirror : StateT SymbolTable (Except ε) α) : Prop :=
  ∀ table other, Alike table other → Agreed blind (check table) (mirror other)

theorem Agreed.of_ok {blind : ε → ε} {found : α} {after : SymbolTable} {mirrored : Except ε (α × SymbolTable)}
    (agreed : Agreed blind (.ok (found, after)) mirrored) :
    ∃ later, mirrored = .ok (found, later) ∧ Alike after later := by
  cases mirrored with
  | ok result =>
      obtain ⟨result, later⟩ := result
      obtain ⟨rfl, alike⟩ := agreed
      exact ⟨later, rfl, alike⟩
  | error => exact agreed.elim

theorem Agreed.of_error {blind : ε → ε} {found : ε} {mirrored : Except ε (α × SymbolTable)}
    (agreed : Agreed blind (.error found) mirrored) : mirrored = .error (blind found) := by
  cases mirrored with
  | ok => exact agreed.elim
  | error result => exact congrArg Except.error agreed

namespace Agrees

theorem pure {found : α} : Agrees blind (Pure.pure found) (Pure.pure found) := fun _ _ alike => ⟨rfl, alike⟩

theorem fail {error : ResolutionError} :
    Agrees resolution (Check.fail error : Check α) (Check.fail (resolution error)) := fun _ _ _ => rfl

theorem bind {check mirror : StateT SymbolTable (Except ε) α} {next behind : α → StateT SymbolTable (Except ε) β}
    (first : Agrees blind check mirror) (rest : ∀ found, Agrees blind (next found) (behind found)) :
    Agrees blind (check >>= next) (mirror >>= behind) := by
  intro table other alike
  have agreed := first table other alike
  change Agreed blind (Except.bind (check table) fun pair => next pair.1 pair.2)
    (Except.bind (mirror other) fun pair => behind pair.1 pair.2)
  cases checked : check table with
  | ok pair =>
      obtain ⟨found, after⟩ := pair
      rw [checked] at agreed
      obtain ⟨later, mirrored, alike⟩ := agreed.of_ok
      rw [mirrored]
      exact rest found after later alike
  | error found =>
      rw [checked] at agreed
      rw [agreed.of_error]
      rfl

theorem choice {condition : Prop} [Decidable condition] {yes yes' no no' : StateT SymbolTable (Except ε) α}
    (one : Agrees blind yes yes') (two : Agrees blind no no') :
    Agrees blind (if condition then yes else no) (if condition then yes' else no') := by
  split
  · exact one
  · exact two

theorem get {next behind : SymbolTable → StateT SymbolTable (Except ε) α}
    (rest : ∀ table other, Alike table other → Agrees blind (next table) (behind other)) :
    Agrees blind (MonadState.get >>= next) (MonadState.get >>= behind) :=
  fun table other alike => rest table other alike table other alike

theorem modify {change reshape : SymbolTable → SymbolTable}
    (both : ∀ table other, Alike table other → Alike (change table) (reshape other)) :
    Agrees blind (modify change : StateT SymbolTable (Except ε) PUnit) (modify reshape) :=
  fun table other alike => ⟨rfl, both table other alike⟩

theorem require {holds : Bool} {error : ResolutionError} :
    Agrees resolution (Check.require holds error) (Check.require holds (resolution error)) := choice pure fail

theorem inScope {kind : BlockKind} {check mirror : Check α} (inner : Agrees resolution check mirror) :
    Agrees resolution (Check.inScope kind check) (Check.inScope kind mirror) :=
  (modify fun _ _ alike => alike.enter kind).bind fun _ => inner.bind fun _ =>
    (modify fun _ _ alike => alike.exit).bind fun _ => pure

theorem declareIn {id : Nat} {symbol : Symbol} :
    Agrees resolution (Check.declareIn id symbol location) (Check.declareIn id symbol Location.nowhere) := by
  intro table other alike
  unfold Check.declareIn SymbolTable.declareIn
  rw [alike.findIn?]
  by_cases taken : (symbol.name != blankName && (table.findIn? id symbol.name).isSome) = true
  · rw [if_pos taken, if_pos taken]
    rfl
  · rw [if_neg taken, if_neg taken]
    exact ⟨rfl, alike.insert id symbol⟩

theorem declare {symbol : Symbol} :
    Agrees resolution (Check.declare symbol location) (Check.declare symbol Location.nowhere) := by
  intro table other alike
  unfold Check.declare SymbolTable.declare
  rw [alike.current]
  exact declareIn table other alike

end Agrees

/-! ## Types -/

mutual

theorem type_nowhere (location : Location) : (found : Ty) →
    Check.type Location.nowhere found = (Check.type location found).mapError resolution
  | .named _ | .int | .float | .string | .bool => rfl
  | .func found => funcType_nowhere location found

theorem funcType_nowhere (location : Location) : (found : FuncType) →
    Check.funcType Location.nowhere found = (Check.funcType location found).mapError resolution
  | ⟨params, results⟩ => by
      unfold Check.funcType
      rw [types_nowhere location params, types_nowhere location results]
      cases Check.types location params <;> rfl

theorem types_nowhere (location : Location) : (found : List Ty) →
    Check.types Location.nowhere found = (Check.types location found).mapError resolution
  | [] => rfl
  | first :: rest => by
      unfold Check.types
      rw [type_nowhere location first, types_nowhere location rest]
      cases Check.type location first <;> rfl

end

namespace Agrees

theorem ofTypes {result : Except ResolutionError Unit} :
    Agrees resolution (fun table => do
      result
      Pure.pure ((), table)) (fun table => do
      result.mapError resolution
      Pure.pure ((), table)) := by
  intro table other alike
  cases result with
  | ok found => exact ⟨rfl, alike⟩
  | error error => rfl

theorem signature {found : Signature} :
    Agrees resolution (Check.signature found location) (Check.signature found Location.nowhere) := by
  intro table other alike
  unfold Check.signature
  rw [types_nowhere location (found.params.map (·.type)), types_nowhere location found.results]
  cases Check.types location (found.params.map (·.type)) with
  | error error => rfl
  | ok _ =>
      cases Check.types location found.results with
      | error error => rfl
      | ok _ => exact ⟨rfl, alike⟩

/-! ## Names -/

theorem resolve {name : String} :
    Agrees resolution (Check.resolve name location) (Check.resolve name Location.nowhere) := by
  intro table other alike
  unfold Check.resolve
  rw [alike.symbol?]
  cases table.symbol? name with
  | none => rfl
  | some symbol =>
      dsimp only
      split
      · rfl
      · exact ⟨rfl, alike.used name location Location.nowhere⟩

theorem identifier {name : String} :
    Agrees resolution (Check.identifier name location) (Check.identifier name Location.nowhere) := by
  refine resolve.bind fun symbol => ?_
  cases symbol.kind with
  | package path => exact fail
  | _ => exact pure

theorem assignable {name : String} :
    Agrees resolution (Check.assignable name location) (Check.assignable name Location.nowhere) :=
  resolve.bind fun _ => require

theorem assignables {names : List String} :
    Agrees resolution (Check.assignables location names) (Check.assignables Location.nowhere names) := by
  induction names with
  | nil => exact pure
  | cons name names ih => exact choice ih (assignable.bind fun _ => ih)

theorem qualified {package name : String} :
    Agrees resolution (Check.qualified imports package name location)
      (Check.qualified imports package name Location.nowhere) := by
  refine get fun table other alike => ?_
  rw [alike.symbol?]
  cases table.symbol? package with
  | none => exact fail
  | some symbol =>
      obtain ⟨_, kind, _⟩ := symbol
      cases kind with
      | package path =>
          exact (modify fun _ _ alike => alike.used package location Location.nowhere).bind fun _ =>
            require.bind fun _ => require
      | _ => exact fail

end Agrees

/-! ## What is known of values -/

theorem exprs_eq_map (found : List Expr) : Unplaced.exprs .float found = found.map (Unplaced.expr .float) := by
  induction found with
  | nil => rfl
  | cons first rest ih => rw [Unplaced.exprs, ih, List.map_cons]

theorem length_exprs (found : List Expr) : (Unplaced.exprs .float found).length = found.length := by
  rw [exprs_eq_map, List.length_map]

theorem Alike.member? (alike : Alike table other) (package name : String) :
    Check.member? imports other package name = Check.member? imports table package name := by
  unfold Check.member?
  rw [alike.symbol?]

theorem typeOf?_expr (alike : Alike table other) : (found : Expr) →
    Check.typeOf? imports other (Unplaced.expr .float found) = Check.typeOf? imports table found
  | .integer _ | .float _ | .string _ => rfl
  | .function ⟨_, _, _⟩ => rfl
  | .identifier name _ => by
      change (other.symbol? name).bind (·.type?) = (table.symbol? name).bind (·.type?)
      rw [alike.symbol?]
  | .qualified package name _ => by
      change (Check.member? imports other package name).bind (·.type?)
        = (Check.member? imports table package name).bind (·.type?)
      rw [alike.member?]
  | .call callee _ _ => by
      unfold Unplaced.expr Check.typeOf?
      rw [typeOf?_expr alike callee]
  | .unary op operand _ => by
      unfold Unplaced.expr
      cases op with
      | not => rfl
      | negate | plus | bitNot => exact typeOf?_expr alike operand
  | .binary left op right _ => by
      unfold Unplaced.expr Check.typeOf?
      rw [typeOf?_expr alike left, typeOf?_expr alike right]

theorem resultsOf?_expr (alike : Alike table other) (callee : Expr) :
    Check.resultsOf? imports other (Unplaced.expr .float callee) = Check.resultsOf? imports table callee := by
  unfold Check.resultsOf?
  rw [typeOf?_expr alike]

theorem resultCount?_expr (alike : Alike table other) (found : Expr) :
    Check.resultCount? imports other (Unplaced.expr .float found) = Check.resultCount? imports table found := by
  cases found with
  | call callee args location => exact congrArg (Option.map List.length) (resultsOf?_expr alike callee)
  | _ => rfl

theorem valueTypes_exprs (alike : Alike table other) (count : Nat) (found : List Expr) :
    Check.valueTypes imports other count (Unplaced.exprs .float found)
      = Check.valueTypes imports table count found := by
  have several : (Unplaced.exprs .float found).map (Check.typeOf? imports other)
      = found.map (Check.typeOf? imports table) := by
    rw [exprs_eq_map, List.map_map]
    exact List.map_congr_left fun expr _ => typeOf?_expr alike expr
  match found with
  | [] => rfl
  | first :: second :: rest => exact several
  | [expr] =>
      unfold Unplaced.exprs Unplaced.exprs Check.valueTypes
      dsimp only
      rw [typeOf?_expr alike]
      cases expr with
      | call callee args location =>
          unfold Unplaced.expr
          dsimp only
          rw [resultsOf?_expr alike]
      | _ => rfl

theorem declaredTypes_exprs (alike : Alike table other) (names : List String) (type? : Option Ty) (found : List Expr) :
    Check.declaredTypes imports other names type? (Unplaced.exprs .float found)
      = Check.declaredTypes imports table names type? found := by
  cases type? with
  | some type => rfl
  | none =>
      cases found with
      | nil => rfl
      | cons first rest => exact valueTypes_exprs alike names.length (first :: rest)

namespace Agrees

theorem count {expr : Expr} :
    Agrees resolution (Check.count imports expr) (Check.count imports (Unplaced.expr .float expr)) := by
  intro table other alike
  unfold Check.count
  rw [resultCount?_expr alike]
  exact ⟨rfl, alike.counted _ _ _⟩

theorem single {expr : Expr} :
    Agrees resolution (Check.single imports expr) (Check.single imports (Unplaced.expr .float expr)) := by
  unfold Check.single
  rw [location?_expr]
  refine count.bind fun known => ?_
  match known with
  | none | some 1 => exact pure
  | some 0 | some (_ + 2) => exact fail

theorem singles {exprs : List Expr} :
    Agrees resolution (Check.singles imports exprs) (Check.singles imports (Unplaced.exprs .float exprs)) := by
  induction exprs with
  | nil => exact pure
  | cons first rest ih => exact single.bind fun _ => ih

theorem valueCount {targets : Nat} {values : List Expr} :
    Agrees resolution (Check.valueCount imports targets values location)
      (Check.valueCount imports targets (Unplaced.exprs .float values) Location.nowhere) := by
  match values with
  | [] => exact require.bind fun _ => pure
  | [value] =>
      refine count.bind fun known => ?_
      cases known with
      | none => exact pure
      | some found => exact require
  | first :: second :: rest =>
      change Agrees resolution _ (do
        Check.require ((Unplaced.exprs .float (first :: second :: rest)).length = targets)
          (.assignmentCount targets (Unplaced.exprs .float (first :: second :: rest)).length Location.nowhere)
        Check.singles imports (Unplaced.exprs .float (first :: second :: rest)))
      rw [length_exprs]
      exact require.bind fun _ => singles

theorem returnCount {body : Check.Body} {values : List Expr} :
    Agrees resolution (Check.returnCount imports body values location)
      (Check.returnCount imports body (Unplaced.exprs .float values) Location.nowhere) := by
  match values with
  | [] => exact choice pure require
  | [value] =>
      refine count.bind fun known => ?_
      cases known with
      | none => exact pure
      | some found => exact require
  | first :: second :: rest =>
      change Agrees resolution _ (do
        Check.singles imports (Unplaced.exprs .float (first :: second :: rest))
        Check.require ((Unplaced.exprs .float (first :: second :: rest)).length = body.results)
          (.returnCount body.function body.results (Unplaced.exprs .float (first :: second :: rest)).length
            Location.nowhere))
      rw [length_exprs]
      exact singles.bind fun _ => require

/-! ## Declarations -/

theorem declareValues {scope : Nat} {kind : SymbolKind} {names : List String} {types : List (Option Ty)} :
    Agrees resolution (Check.declareValues scope kind location names types)
      (Check.declareValues scope kind Location.nowhere names types) := by
  induction names generalizing types with
  | nil => exact pure
  | cons name names ih =>
      cases types with
      | nil => exact pure
      | cons type? types => exact declareIn.bind fun _ => ih

theorem defineValues {names : List String} {types : List (Option Ty)} :
    Agrees resolution (Check.defineValues location names types)
      (Check.defineValues Location.nowhere names types) := by
  induction names generalizing types with
  | nil => exact pure
  | cons name names ih =>
      cases types with
      | nil => exact pure
      | cons type? types =>
          refine choice ih (get fun table other alike => ?_)
          have found : (other.lookupCurrent? name).bind (other.symbols[·]?)
              = (table.lookupCurrent? name).bind (table.symbols[·]?) := by
            unfold SymbolTable.lookupCurrent?
            rw [alike.current, alike.findIn?, alike.symbols]
          rw [found]
          cases (table.lookupCurrent? name).bind (table.symbols[·]?) with
          | none => exact declare.bind fun _ => ih.bind fun _ => pure
          | some symbol =>
              exact (modify fun _ _ alike => alike.used name location Location.nowhere).bind fun _ =>
                require.bind fun _ => ih

theorem declareParameters {params : List Parameter} :
    Agrees resolution (Check.declareParameters location params) (Check.declareParameters Location.nowhere params) := by
  induction params with
  | nil => exact pure
  | cons param params ih => exact declare.bind fun _ => ih

theorem declareResults {names : List String} {types : List Ty} :
    Agrees resolution (Check.declareResults location names types)
      (Check.declareResults Location.nowhere names types) := by
  induction names generalizing types with
  | nil => exact pure
  | cons name names ih =>
      cases types with
      | nil => exact pure
      | cons type types => exact declare.bind fun _ => ih

end Agrees

/-! ## Terminating statements -/

mutual

theorem breaksOut_stmt : (found : Stmt) → (Unplaced.stmt .float found).breaksOut = found.breaksOut
  | .block body => breaksOutAny_stmts body
  | .ifElse found => breaksOut_ifStmt found
  | .break _ | .continue _ | .declare _ | .define _ _ _ | .assign _ _ _ | .compound _ _ _ _ | .step _ _ _
  | .loop _ _ _ _ _ | .switch _ _ _ _ | .return _ _ | .expression _ => rfl

theorem breaksOutAny_stmts : (found : List Stmt) → breaksOutAny (Unplaced.stmts .float found) = breaksOutAny found
  | [] => rfl
  | first :: rest => by
      unfold Unplaced.stmts breaksOutAny
      rw [breaksOut_stmt first, breaksOutAny_stmts rest]

theorem breaksOut_ifStmt : (found : IfStmt) → (Unplaced.ifStmt .float found).breaksOut = found.breaksOut
  | ⟨_, _, body, orElse, _⟩ => by
      unfold Unplaced.ifStmt IfStmt.breaksOut
      rw [breaksOutAny_stmts body, breaksOut_elseBranch orElse]

theorem breaksOut_elseBranch : (found : ElseBranch) → (Unplaced.elseBranch .float found).breaksOut = found.breaksOut
  | .absent => rfl
  | .block body => breaksOutAny_stmts body
  | .chain next => breaksOut_ifStmt next

end

theorem isDefault_switchCase (found : SwitchCase) : (Unplaced.switchCase .float found).isDefault = found.isDefault := by
  obtain ⟨label, body, location⟩ := found
  cases label <;> rfl

theorem any_isDefault_cases (found : List SwitchCase) :
    (Unplaced.cases .float found).any SwitchCase.isDefault = found.any SwitchCase.isDefault := by
  induction found with
  | nil => rfl
  | cons first rest ih => rw [Unplaced.cases, List.any_cons, List.any_cons, isDefault_switchCase, ih]

mutual

theorem isTerminating_stmt : (found : Stmt) → (Unplaced.stmt .float found).isTerminating = found.isTerminating
  | .block body => isTerminatingList_stmts body
  | .ifElse found => isTerminating_ifStmt found
  | .loop init condition post body location => by
      cases condition with
      | none => exact congrArg not (breaksOutAny_stmts body)
      | some condition => rfl
  | .switch init tag found location => by
      change ((Unplaced.cases .float found).any SwitchCase.isDefault && isTerminatingCases (Unplaced.cases .float found))
        = (found.any SwitchCase.isDefault && isTerminatingCases found)
      rw [any_isDefault_cases, isTerminatingCases_cases found]
  | .break _ | .continue _ | .declare _ | .define _ _ _ | .assign _ _ _ | .compound _ _ _ _ | .step _ _ _
  | .return _ _ | .expression _ => rfl

theorem isTerminatingList_stmts : (found : List Stmt) →
    isTerminatingList (Unplaced.stmts .float found) = isTerminatingList found
  | [] => rfl
  | [last] => isTerminating_stmt last
  | _ :: second :: rest => isTerminatingList_stmts (second :: rest)

theorem isTerminating_ifStmt : (found : IfStmt) → (Unplaced.ifStmt .float found).isTerminating = found.isTerminating
  | ⟨_, _, body, orElse, _⟩ => by
      unfold Unplaced.ifStmt IfStmt.isTerminating
      rw [isTerminatingList_stmts body, isTerminating_elseBranch orElse]

theorem isTerminating_elseBranch : (found : ElseBranch) →
    (Unplaced.elseBranch .float found).isTerminating = found.isTerminating
  | .absent => rfl
  | .block body => isTerminatingList_stmts body
  | .chain next => isTerminating_ifStmt next

theorem isTerminatingCases_cases : (found : List SwitchCase) →
    isTerminatingCases (Unplaced.cases .float found) = isTerminatingCases found
  | [] => rfl
  | ⟨_, body, _⟩ :: rest => by
      unfold Unplaced.cases Unplaced.switchCase isTerminatingCases
      rw [isTerminatingList_stmts body, breaksOutAny_stmts body, isTerminatingCases_cases rest]

end

/-! ## Code -/

section

open Agrees

mutual

theorem agrees_expression : (found : Expr) →
    Agrees resolution (Check.expression imports found) (Check.expression imports (Unplaced.expr .float found))
  | .integer _ | .float _ | .string _ => pure
  | .identifier _ _ => identifier
  | .qualified _ _ _ => qualified
  | .binary left _ right _ => (agrees_expression left).bind fun _ => single.bind fun _ =>
      (agrees_expression right).bind fun _ => single
  | .unary _ operand _ => (agrees_expression operand).bind fun _ => single
  | .call callee args _ => (agrees_expression callee).bind fun _ => single.bind fun _ => agrees_arguments args
  | .function literal => agrees_function literal

theorem agrees_expressions : (found : List Expr) →
    Agrees resolution (Check.expressions imports found) (Check.expressions imports (Unplaced.exprs .float found))
  | [] => pure
  | first :: rest => (agrees_expression first).bind fun _ => agrees_expressions rest

theorem agrees_operands : (found : List Expr) →
    Agrees resolution (Check.operands imports found) (Check.operands imports (Unplaced.exprs .float found))
  | [] => pure
  | first :: rest => (agrees_expression first).bind fun _ => single.bind fun _ => agrees_operands rest

theorem agrees_optionalOperand : (found : Option Expr) → Agrees resolution (Check.optionalOperand imports found)
    (Check.optionalOperand imports (Unplaced.optionalExpr .float found))
  | none => pure
  | some operand => (agrees_expression operand).bind fun _ => single

theorem agrees_arguments : (found : List Expr) →
    Agrees resolution (Check.arguments imports found) (Check.arguments imports (Unplaced.exprs .float found))
  | [] => pure
  | [arg] => by
      refine (agrees_expression arg).bind fun _ => ?_
      rw [isCall_expr, location?_expr]
      exact choice (count.bind fun _ => require) single
  | first :: second :: rest => (agrees_expression first).bind fun _ => single.bind fun _ =>
      (agrees_expression second).bind fun _ => single.bind fun _ => agrees_operands rest

theorem agrees_function {name : String} {isLiteral : Bool} : (found : FunctionLiteral) →
    Agrees resolution (Check.function imports name isLiteral found)
      (Check.function imports name isLiteral (Unplaced.function .float found))
  | ⟨found, body, location⟩ => by
      have rest : Agrees resolution (do
          Check.inScope (.function name) do
            Check.declareParameters location found.params
            Check.declareResults location found.resultNames found.results
            Check.statements imports (.ofFunction name found) body
          Check.require (found.results.isEmpty || isTerminatingList body) (.missingReturn name location)) (do
          Check.inScope (.function name) do
            Check.declareParameters Location.nowhere found.params
            Check.declareResults Location.nowhere found.resultNames found.results
            Check.statements imports (.ofFunction name found) (Unplaced.stmts .float body)
          Check.require (found.results.isEmpty || isTerminatingList (Unplaced.stmts .float body))
            (.missingReturn name Location.nowhere)) := by
        rw [isTerminatingList_stmts]
        exact (inScope (declareParameters.bind fun _ => declareResults.bind fun _ => agrees_statements body)).bind
          fun _ => require
      exact choice (signature.bind fun _ => rest) rest

theorem agrees_valueDecl {scope : Nat} : (found : ValueDecl) → Agrees resolution (Check.valueDecl imports scope found)
    (Check.valueDecl imports scope (Unplaced.valueDecl .float found))
  | ⟨isConst, names, type?, values, location⟩ => by
      have declares : Agrees resolution (do
          let types := Check.declaredTypes imports (← MonadState.get) names type? values
          Check.declareValues scope (if isConst then .const else .var) location names types) (do
          let types := Check.declaredTypes imports (← MonadState.get) names type? (Unplaced.exprs .float values)
          Check.declareValues scope (if isConst then .const else .var) Location.nowhere names types) := by
        refine get fun table other alike => ?_
        rw [declaredTypes_exprs alike]
        exact declareValues
      have rest : Agrees resolution (do
          Check.expressions imports values
          if values.isEmpty then Pure.pure () else Check.valueCount imports names.length values location
          let types := Check.declaredTypes imports (← MonadState.get) names type? values
          Check.declareValues scope (if isConst then .const else .var) location names types) (do
          Check.expressions imports (Unplaced.exprs .float values)
          if (Unplaced.exprs .float values).isEmpty then Pure.pure ()
          else Check.valueCount imports names.length (Unplaced.exprs .float values) Location.nowhere
          let types := Check.declaredTypes imports (← MonadState.get) names type? (Unplaced.exprs .float values)
          Check.declareValues scope (if isConst then .const else .var) Location.nowhere names types) := by
        refine (agrees_expressions values).bind fun _ => ?_
        have empty : (Unplaced.exprs .float values).isEmpty = values.isEmpty := by cases values <;> rfl
        rw [empty]
        exact choice declares (valueCount.bind fun _ => declares)
      cases type? with
      | none => exact rest
      -- The type is checked before the values, at the place of the declaration.
      | some type =>
          refine bind (fun table other alike => ?_) fun _ => rest
          rw [type_nowhere location type]
          exact ofTypes table other alike

theorem agrees_statement {body : Check.Body} : (found : Stmt) → Agrees resolution (Check.statement imports body found)
    (Check.statement imports body (Unplaced.stmt .float found))
  | .declare decl => get fun table other alike => by
      rw [alike.current]
      exact agrees_valueDecl decl
  | .define names values location => by
      refine (agrees_expressions values).bind fun _ => valueCount.bind fun _ => get fun table other alike => ?_
      rw [valueTypes_exprs alike]
      exact defineValues.bind fun _ => require
  | .assign targets values location =>
      (agrees_expressions values).bind fun _ => assignables.bind fun _ => valueCount
  | .compound target op value location =>
      (agrees_expression value).bind fun _ => assignable.bind fun _ => valueCount
  | .step target up location => assignable
  | .ifElse found => agrees_conditional found
  | .loop init condition post inner location =>
      inScope ((agrees_optionalStatement init).bind fun _ => (agrees_optionalOperand condition).bind fun _ =>
        (agrees_optionalStatement post).bind fun _ => inScope (agrees_statements inner))
  | .switch init tag found location =>
      inScope ((agrees_optionalStatement init).bind fun _ => (agrees_optionalOperand tag).bind fun _ =>
        agrees_cases found)
  | .return values location => (agrees_expressions values).bind fun _ => returnCount
  | .break location | .continue location => require
  | .block inner => inScope (agrees_statements inner)
  | .expression expr => agrees_expression expr

theorem agrees_statements {body : Check.Body} : (found : List Stmt) →
    Agrees resolution (Check.statements imports body found)
      (Check.statements imports body (Unplaced.stmts .float found))
  | [] => pure
  | first :: rest => (agrees_statement first).bind fun _ => agrees_statements rest

theorem agrees_optionalStatement {body : Check.Body} : (found : Option Stmt) →
    Agrees resolution (Check.optionalStatement imports body found)
      (Check.optionalStatement imports body (Unplaced.optionalStmt .float found))
  | none => pure
  | some found => agrees_statement found

theorem agrees_conditional {body : Check.Body} : (found : IfStmt) →
    Agrees resolution (Check.conditional imports body found)
      (Check.conditional imports body (Unplaced.ifStmt .float found))
  | ⟨init, condition, inner, orElse, _⟩ =>
      inScope ((agrees_optionalStatement init).bind fun _ => (agrees_expression condition).bind fun _ =>
        single.bind fun _ => (inScope (agrees_statements inner)).bind fun _ => agrees_elseBranch orElse)

theorem agrees_elseBranch {body : Check.Body} : (found : ElseBranch) →
    Agrees resolution (Check.elseBranch imports body found)
      (Check.elseBranch imports body (Unplaced.elseBranch .float found))
  | .absent => pure
  | .block inner => inScope (agrees_statements inner)
  | .chain next => agrees_conditional next

theorem agrees_caseLabel : (found : CaseLabel) → Agrees resolution (Check.caseLabel imports found)
    (Check.caseLabel imports (Unplaced.caseLabel .float found))
  | .values values => agrees_operands values
  | .otherwise => pure

theorem agrees_cases {body : Check.Body} : (found : List SwitchCase) →
    Agrees resolution (Check.cases imports body found) (Check.cases imports body (Unplaced.cases .float found))
  | [] => pure
  | ⟨label, inner, _⟩ :: rest => (agrees_caseLabel label).bind fun _ =>
      (inScope (agrees_statements inner)).bind fun _ => agrees_cases rest

end

end

end MiniGo.Placeless
