import MiniGo.Build
import MiniGo.Proofs.Places.Checking

/-!
# Packages without places

The names in code, the order of initialization that they lead to, and the checks of a whole package do not
depend on places: a package without its places has the same interface, or fails in the same way (`check_package`).
-/

namespace MiniGo.Placeless

open Syntax

def sourceFile (found : SourceFile) : SourceFile := { found with program := unplaced found.program }

def package (found : Package) : Package := { found with files := found.files.map sourceFile }

/-- A function with its name, without places. -/
def function (found : String × FunctionLiteral) : String × FunctionLiteral :=
  (found.1, Unplaced.function .float found.2)

def initializer (found : Initializer) : Initializer := { found with decl := Unplaced.valueDecl .float found.decl }

/-! ## Free names -/

section

open FreeNames

mutual

theorem ofExpr_unplaced (bound : List String) : (found : Expr) →
    ofExpr bound (Unplaced.expr .float found) = ofExpr bound found
  | .integer _ | .float _ | .string _ | .identifier _ _ | .qualified _ _ _ => rfl
  | .binary left _ right _ => by
      unfold Unplaced.expr ofExpr
      rw [ofExpr_unplaced bound left, ofExpr_unplaced bound right]
  | .unary _ operand _ => ofExpr_unplaced bound operand
  | .call callee args _ => by
      unfold Unplaced.expr ofExpr
      rw [ofExpr_unplaced bound callee, ofExprs_unplaced bound args]
  | .function literal => ofFunction_unplaced bound literal

theorem ofExprs_unplaced (bound : List String) : (found : List Expr) →
    ofExprs bound (Unplaced.exprs .float found) = ofExprs bound found
  | [] => rfl
  | first :: rest => by
      unfold Unplaced.exprs ofExprs
      rw [ofExpr_unplaced bound first, ofExprs_unplaced bound rest]

theorem ofFunction_unplaced (bound : List String) : (found : FunctionLiteral) →
    ofFunction bound (Unplaced.function .float found) = ofFunction bound found
  | ⟨signature, body, _⟩ => ofStmts_unplaced (parameters signature ++ bound) body

theorem ofOptionalExpr_unplaced (bound : List String) : (found : Option Expr) →
    ofOptionalExpr bound (Unplaced.optionalExpr .float found) = ofOptionalExpr bound found
  | none => rfl
  | some found => ofExpr_unplaced bound found

theorem ofDecl_unplaced (bound : List String) : (found : ValueDecl) →
    ofDecl bound (Unplaced.valueDecl .float found) = ofDecl bound found
  | ⟨_, names, _, values, _⟩ => congrArg (Prod.mk (names ++ bound)) (ofExprs_unplaced bound values)

theorem ofIf_unplaced (bound : List String) : (found : IfStmt) →
    ofIf bound (Unplaced.ifStmt .float found) = ofIf bound found
  | ⟨init, condition, body, orElse, _⟩ => by
      unfold Unplaced.ifStmt ofIf
      rw [ofOptionalStmt_unplaced bound init]
      obtain ⟨inner, first⟩ := ofOptionalStmt bound init
      dsimp only
      rw [ofExpr_unplaced inner condition, ofStmts_unplaced inner body, ofElse_unplaced inner orElse]

theorem ofElse_unplaced (bound : List String) : (found : ElseBranch) →
    ofElse bound (Unplaced.elseBranch .float found) = ofElse bound found
  | .absent => rfl
  | .block body => ofStmts_unplaced bound body
  | .chain next => ofIf_unplaced bound next

theorem ofLabel_unplaced (bound : List String) : (found : CaseLabel) →
    ofLabel bound (Unplaced.caseLabel .float found) = ofLabel bound found
  | .values values => ofExprs_unplaced bound values
  | .otherwise => rfl

theorem ofCase_unplaced (bound : List String) : (found : SwitchCase) →
    ofCase bound (Unplaced.switchCase .float found) = ofCase bound found
  | ⟨label, body, _⟩ => by
      unfold Unplaced.switchCase ofCase
      rw [ofLabel_unplaced bound label, ofStmts_unplaced bound body]

theorem ofCases_unplaced (bound : List String) : (found : List SwitchCase) →
    ofCases bound (Unplaced.cases .float found) = ofCases bound found
  | [] => rfl
  | first :: rest => by
      unfold Unplaced.cases ofCases
      rw [ofCase_unplaced bound first, ofCases_unplaced bound rest]

theorem ofStmt_unplaced (bound : List String) : (found : Stmt) →
    ofStmt bound (Unplaced.stmt .float found) = ofStmt bound found
  | .declare decl => ofDecl_unplaced bound decl
  | .define names values _ => congrArg (Prod.mk (names ++ bound)) (ofExprs_unplaced bound values)
  | .assign targets values _ => by
      unfold Unplaced.stmt ofStmt
      rw [ofExprs_unplaced bound values]
  | .compound target _ value _ => by
      unfold Unplaced.stmt ofStmt
      rw [ofExpr_unplaced bound value]
  | .step _ _ _ | .break _ | .continue _ => rfl
  | .ifElse found => congrArg (Prod.mk bound) (ofIf_unplaced bound found)
  | .loop init condition post body _ => by
      unfold Unplaced.stmt ofStmt
      rw [ofOptionalStmt_unplaced bound init]
      -- What the header binds is threaded through the other parts.
      obtain ⟨inner, first⟩ := ofOptionalStmt bound init
      dsimp only
      rw [ofOptionalStmt_unplaced inner post]
      obtain ⟨behind, last⟩ := ofOptionalStmt inner post
      dsimp only
      rw [ofOptionalExpr_unplaced inner condition, ofStmts_unplaced behind body]
  | .switch init tag cases _ => by
      unfold Unplaced.stmt ofStmt
      rw [ofOptionalStmt_unplaced bound init]
      obtain ⟨inner, first⟩ := ofOptionalStmt bound init
      dsimp only
      rw [ofOptionalExpr_unplaced inner tag, ofCases_unplaced inner cases]
  | .return values _ => congrArg (Prod.mk bound) (ofExprs_unplaced bound values)
  | .block body => congrArg (Prod.mk bound) (ofStmts_unplaced bound body)
  | .expression found => congrArg (Prod.mk bound) (ofExpr_unplaced bound found)

theorem ofStmts_unplaced (bound : List String) : (found : List Stmt) →
    ofStmts bound (Unplaced.stmts .float found) = ofStmts bound found
  | [] => rfl
  | first :: rest => by
      unfold Unplaced.stmts ofStmts
      rw [ofStmt_unplaced bound first]
      obtain ⟨behind, names⟩ := ofStmt bound first
      dsimp only
      rw [ofStmts_unplaced behind rest]

theorem ofOptionalStmt_unplaced (bound : List String) : (found : Option Stmt) →
    ofOptionalStmt bound (Unplaced.optionalStmt .float found) = ofOptionalStmt bound found
  | none => rfl
  | some found => ofStmt_unplaced bound found

end

end

/-! ## The order of initialization -/

section

open Initialization

/-- What a name stands for, without places. -/
def entity : Entity → Entity
  | .value index => .value index
  | .function literal => .function (Unplaced.function .float literal)

theorem valueDecls_unplaced (found : Program) :
    (unplaced found).valueDecls = found.valueDecls.map (Unplaced.valueDecl .float) := by
  obtain ⟨name, imports, declarations⟩ := found
  unfold Program.valueDecls unplaced Unplaced.program
  dsimp only
  induction declarations with
  | nil => rfl
  | cons first rest ih => cases first <;> simp [Unplaced.decl, ih]

theorem functions_unplaced (found : Program) : (unplaced found).functions = found.functions.map function := by
  obtain ⟨name, imports, declarations⟩ := found
  unfold Program.functions unplaced Unplaced.program
  dsimp only
  induction declarations with
  | nil => rfl
  | cons first rest ih => cases first <;> simp [Unplaced.decl, function, ih]

theorem initializers_package (found : Package) :
    initializers (package found) = (initializers found).map initializer := by
  unfold initializers package
  dsimp only
  rw [List.zipIdx_map, List.flatMap_map, List.map_flatMap]
  refine congrArg (List.flatMap · _) (funext fun pair => ?_)
  obtain ⟨file, index⟩ := pair
  dsimp only [Prod.map, sourceFile]
  rw [valueDecls_unplaced, List.map_map, List.map_map]
  rfl

theorem bound_valueDecl (found : ValueDecl) : (Unplaced.valueDecl .float found).bound = found.bound := by
  obtain ⟨_, _, _, _, _⟩ := found
  rfl

theorem entitiesFrom_decls (next : Nat) (found : List Decl) :
    entitiesFrom next (found.map (Unplaced.decl .float))
      = (entitiesFrom next found).map fun entry => (entry.1, entity entry.2) := by
  induction found generalizing next with
  | nil => rfl
  | cons first rest ih =>
      cases first with
      | function name literal => simp [Unplaced.decl, entitiesFrom, entity, ih]
      | values decl => simp [Unplaced.decl, entitiesFrom, entity, ih, bound_valueDecl]

theorem entities_package (found : Package) :
    entities (package found) = (entities found).map fun entry => (entry.1, entity entry.2) := by
  unfold entities
  rw [← entitiesFrom_decls]
  congr 1
  unfold package
  rw [List.flatMap_map, List.map_flatMap]
  rfl

theorem functionNames_entities (table : List (String × Entity)) :
    functionNames (table.map fun entry => (entry.1, entity entry.2)) = functionNames table := by
  unfold functionNames
  rw [List.filterMap_map]
  refine List.filterMap_congr fun entry _ => ?_
  obtain ⟨name, found⟩ := entry
  cases found with
  | value index => rfl
  | function literal => exact congrArg (fun names => some (name, names.eraseDups)) (ofFunction_unplaced [] literal)

theorem lookup_entities (table : List (String × Entity)) (name : String) :
    (table.map fun entry => (entry.1, entity entry.2)).lookup name = (table.lookup name).map entity := by
  induction table with
  | nil => rfl
  | cons entry rest ih =>
      obtain ⟨other, found⟩ := entry
      rw [List.map_cons, List.lookup_cons, List.lookup_cons, ih]
      dsimp only
      cases name == other <;> rfl

theorem reach_entities (table : List (String × Entity)) (calls : List (String × List String)) (fuel : Nat)
    (visited : List String) (reached : List Nat) (pending : List String) :
    reach (table.map fun entry => (entry.1, entity entry.2)) calls fuel visited reached pending
      = reach table calls fuel visited reached pending := by
  induction fuel generalizing visited reached pending with
  | zero => rfl
  | succ fuel ih =>
      cases pending with
      | nil => rfl
      | cons name pending =>
          unfold reach
          rw [lookup_entities]
          cases table.lookup name with
          | none => exact ih visited reached pending
          | some found =>
              cases found with
              | value index => exact ih visited _ pending
              | function literal =>
                  exact ite_congr rfl (fun _ => ih visited reached pending) fun _ => ih (name :: visited) reached _

theorem dependencies_package (found : Package) : dependencies (package found) = dependencies found := by
  unfold dependencies
  dsimp only
  rw [entities_package, functionNames_entities, initializers_package, List.map_map]
  refine List.map_congr_left fun item _ => ?_
  obtain ⟨file, _, names, type?, values, location⟩ := item
  unfold dependenciesOf Function.comp initializer Unplaced.valueDecl
  dsimp only
  rw [ofExprs_unplaced, reach_entities]

theorem filePath_package (found : Package) (index : Nat) : (package found).filePath index = found.filePath index := by
  unfold Package.filePath package
  rw [List.getElem?_map, Option.map_map]
  rfl

theorem title_valueDecl (found : ValueDecl) : (Unplaced.valueDecl .float found).title = found.title := by
  unfold ValueDecl.title
  rw [bound_valueDecl]

theorem cycleError_package (found : Package) (items : List Initializer) (indices : List Nat) :
    cycleError (package found) (items.map initializer) indices = error (cycleError found items indices) := by
  have around : (indices.filterMap fun index => (items.map initializer)[index]?)
      = (indices.filterMap fun index => items[index]?).map initializer := by
    rw [List.map_filterMap]
    refine List.filterMap_congr fun index _ => ?_
    rw [List.getElem?_map]
  unfold cycleError
  dsimp only
  rw [around]
  cases indices.filterMap fun index => items[index]? with
  | nil => rfl
  | cons first rest =>
      have titles : ((first :: rest).map initializer).map (·.decl.title) = (first :: rest).map (·.decl.title) := by
        rw [List.map_map]
        exact List.map_congr_left fun item _ => title_valueDecl item.decl
      rw [titles]
      obtain ⟨file, isConst, names, type?, values, location⟩ := first
      refine (congrArg (Error.inFile · _) (filePath_package found file)).trans ?_
      rfl

def ordered : Except Error (List Initializer) → Except Error (List Initializer)
  | .ok order => .ok (order.map initializer)
  | .error found => .error (error found)

theorem initializationOrder_package (found : Package) :
    initializationOrder (package found) = ordered (initializationOrder found) := by
  unfold initializationOrder
  dsimp only
  rw [initializers_package, dependencies_package, List.length_map]
  cases arrange (dependencies found) (initializers found).length
      (Array.replicate (initializers found).length false) with
  | error done => exact congrArg Except.error (cycleError_package found _ _)
  | ok order =>
      refine congrArg Except.ok ?_
      rw [List.map_filterMap]
      refine List.filterMap_congr fun index _ => ?_
      rw [List.getElem?_map]

end

/-! ## Checks -/

namespace Agrees

variable {imports : Interfaces} {α : Type}

theorem checkIn {path : String} {check mirror : Check α} (agrees : Agrees resolution check mirror) :
    Agrees error (Package.checkIn path check) (Package.checkIn path mirror) := by
  intro table other alike
  have agreed := agrees table other alike
  unfold Package.checkIn
  cases checked : check table with
  | ok pair =>
      rw [checked] at agreed
      obtain ⟨later, mirrored, alike⟩ := agreed.of_ok
      rw [mirrored]
      exact ⟨rfl, alike⟩
  | error found =>
      rw [checked] at agreed
      rw [agreed.of_error]
      rfl

theorem declareFunctions {scope : Nat} {functions : List (String × FunctionLiteral)} :
    Agrees resolution (Package.declareFunctions scope functions)
      (Package.declareFunctions scope (functions.map function)) := by
  induction functions with
  | nil => exact pure
  | cons first rest ih =>
      obtain ⟨name, found, body, location⟩ := first
      exact signature.bind fun _ => declareIn.bind fun _ => ih

theorem declareImports {found : List Import} :
    Agrees resolution (Package.declareImports imports found)
      (Package.declareImports imports (found.map Unplaced.importSpec)) := by
  induction found with
  | nil => exact pure
  | cons first rest ih =>
      unfold Package.declareImports
      rw [List.map_cons]
      dsimp only [Unplaced.importSpec]
      cases imports.lookup first.path with
      | none => exact fail.bind fun _ => ih
      | some interface => exact declare.bind fun _ => ih

theorem openFiles {scope : Nat} {files : List SourceFile} :
    Agrees error (Package.openFiles imports scope files)
      (Package.openFiles imports scope (files.map sourceFile)) := by
  induction files with
  | nil => exact pure
  | cons file files ih =>
      refine (modify fun _ _ alike => (alike.resume scope).enter (.file file.path)).bind fun _ =>
        get fun table other alike => ?_
      rw [alike.current]
      exact (checkIn declareImports).bind fun _ => ih.bind fun _ => pure

theorem checkInitializers {found : Package} {scope : Nat} {files : List Nat} {items : List Initializer} :
    Agrees error (Package.checkInitializers imports found scope files items)
      (Package.checkInitializers imports (package found) scope files (items.map initializer)) := by
  induction items with
  | nil => exact pure
  | cons item items ih =>
      refine (modify fun _ _ alike => alike.resume _).bind fun _ => ?_
      rw [filePath_package]
      exact (checkIn (agrees_valueDecl item.decl)).bind fun _ => ih

theorem checkFunctions {scope : Nat} {functions : List (String × FunctionLiteral)} :
    Agrees resolution (Package.checkFunctions imports scope functions)
      (Package.checkFunctions imports scope (functions.map function)) := by
  induction functions with
  | nil => exact pure
  | cons first rest ih =>
      obtain ⟨name, literal⟩ := first
      exact (modify fun _ _ alike => alike.resume scope).bind fun _ => (agrees_function literal).bind fun _ => ih

theorem checkBodies {pairs : List (SourceFile × Nat)} :
    Agrees error (Package.checkBodies imports pairs)
      (Package.checkBodies imports (pairs.map fun pair => (sourceFile pair.1, pair.2))) := by
  induction pairs with
  | nil => exact pure
  | cons pair pairs ih =>
      obtain ⟨file, scope⟩ := pair
      refine bind (checkIn ?_) fun _ => ih
      rw [sourceFile, functions_unplaced]
      exact checkFunctions

theorem declareFiles {scope : Nat} {files : List SourceFile} :
    Agrees error
      (files.forM fun file => Package.checkIn file.path (Package.declareFunctions scope file.program.functions))
      ((files.map sourceFile).forM fun file =>
        Package.checkIn file.path (Package.declareFunctions scope file.program.functions)) := by
  induction files with
  | nil => exact pure
  | cons file files ih =>
      refine bind (checkIn ?_) fun _ => ih
      rw [sourceFile, functions_unplaced]
      exact declareFunctions

theorem order {found : Package} {next behind : List Initializer → Package.Checking α}
    (rest : ∀ order, Agrees error (next order) (behind (order.map initializer))) :
    Agrees error (liftM (initializationOrder found) >>= next)
      (liftM (initializationOrder (package found)) >>= behind) := by
  rw [initializationOrder_package]
  cases initializationOrder found with
  | error found => exact fun _ _ _ => rfl
  | ok order => exact rest order

theorem checking {found : Package} :
    Agrees error (Package.checking imports found) (Package.checking imports (package found)) := by
  refine (modify fun _ _ alike => alike.enter (.package found.name)).bind fun _ => get fun table other alike => ?_
  rw [alike.current]
  refine declareFiles.bind fun _ => openFiles.bind fun files => order fun order => checkInitializers.bind fun _ => ?_
  have files : (package found).files.zip files = (found.files.zip files).map fun pair => (sourceFile pair.1, pair.2) :=
    List.zip_map_left ..
  rw [files]
  refine checkBodies.bind fun _ => get fun table other alike => ?_
  unfold Package.interfaceOf
  rw [alike.symbolsIn]
  exact pure

end Agrees

/-- A package is accepted without its places when it is with them, and exposes the same. -/
theorem check_package (imports : Interfaces) (found : Package) :
    (package found).check imports = (found.check imports).mapError error := by
  have agreed : Agreed error (Package.checking imports found SymbolTable.initial)
      (Package.checking imports (package found) SymbolTable.initial) :=
    Agrees.checking SymbolTable.initial SymbolTable.initial ⟨rfl, rfl, rfl⟩
  unfold Package.check
  cases checked : Package.checking imports found SymbolTable.initial with
  | ok pair =>
      rw [checked] at agreed
      obtain ⟨later, mirrored, _⟩ := agreed.of_ok
      rw [mirrored]
      rfl
  | error failure =>
      rw [checked] at agreed
      rw [agreed.of_error]
      rfl

theorem checkAll_packages (imports : Interfaces) (found : List Package) :
    checkAll imports (found.map package) = (checkAll imports found).mapError error := by
  induction found generalizing imports with
  | nil => rfl
  | cons first rest ih =>
      rw [List.map_cons, checkAll, checkAll, check_package]
      cases first.check imports with
      | error failure => rfl
      | ok interface => exact ih _

end MiniGo.Placeless
