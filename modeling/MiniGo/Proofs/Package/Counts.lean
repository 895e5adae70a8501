import MiniGo.Proofs.Lexical.Counts
import MiniGo.Proofs.Package.Checked

/-!
# Counts of values in packages

When the checks of a package pass, values were counted in all of its code.
-/

namespace MiniGo.Lexical

open Initialization
open Syntax (Formed.exprs Formed.function)

variable {imports : Interfaces} {package : Package} {table : SymbolTable}

/-- Values were counted in the functions of a package and in the declarations that initialize it. -/
structure PackageCounted (counts : Counts) (package : Package) : Prop where
  functions : ∀ file ∈ package.files, ∀ function ∈ file.program.functions,
    Counted.function counts function.2
  initializers : ∃ order, initializationOrder package = .ok order ∧ ∀ item ∈ order,
    Counted.valueDecl counts item.decl

namespace Tells

variable {holds : Counts → Prop}

theorem resumed {id : Nat} : Tells (modify (·.resume id) : StateT SymbolTable (Except ε) Unit) (fun _ => True) :=
  silent fun table _ _ ran => by
    rw [modify_ok ran]
    unfold SymbolTable.resume
    split <;> rfl

theorem checkIn {path : String} {check : Check α} (tells : Tells check holds) :
    Tells (Package.checkIn path check) holds :=
  fun table outcome after ran => tells table outcome after (checkIn_ok ran)

theorem checkInitializers {scope : Nat} {files : List Nat} {items : List Initializer}
    (formed : ∀ item ∈ items, Formed.exprs item.decl.values) :
    Tells (Package.checkInitializers imports package scope files items)
      (fun counts => ∀ item ∈ items, Counted.valueDecl counts item.decl) := by
  induction items with
  | nil => exact pure.weaken fun _ _ _ member => absurd member List.not_mem_nil
  | cons item items ih =>
      obtain ⟨here, others⟩ := List.forall_mem_cons.mp formed
      have first : Tells (Package.checkIn (package.filePath item.file)
          (Check.valueDecl imports scope item.decl)) _ := (valueDecl_tells item.decl here scope).checkIn
      exact resumed.seq fun _ => (first.bind fun _ => ih others).weaken fun _ both =>
        List.forall_mem_cons.mpr both

theorem checkFunctions {scope : Nat} {functions : List (String × FunctionLiteral)}
    (formed : ∀ function ∈ functions, Formed.function function.2) :
    Tells (Package.checkFunctions imports scope functions)
      (fun counts => ∀ function ∈ functions, Counted.function counts function.2) := by
  induction functions with
  | nil => exact pure.weaken fun _ _ _ member => absurd member List.not_mem_nil
  | cons function functions ih =>
      obtain ⟨here, others⟩ := List.forall_mem_cons.mp formed
      have first : Tells (Check.function imports function.1 false function.2) _ :=
        function_tells function.2 here function.1 false
      exact resumed.seq fun _ => (first.bind fun _ => ih others).weaken fun _ both =>
        List.forall_mem_cons.mpr both

theorem checkBodies {pairs : List (SourceFile × Nat)}
    (formed : ∀ pair ∈ pairs, ∀ function ∈ pair.1.program.functions, Formed.function function.2) :
    Tells (Package.checkBodies imports pairs) (fun counts =>
      ∀ pair ∈ pairs, ∀ function ∈ pair.1.program.functions, Counted.function counts function.2) := by
  induction pairs with
  | nil => exact pure.weaken fun _ _ _ member => absurd member List.not_mem_nil
  | cons pair pairs ih =>
      obtain ⟨here, others⟩ := List.forall_mem_cons.mp formed
      have first : Tells (Package.checkIn pair.1.path (Package.checkFunctions imports pair.2
          pair.1.program.functions)) _ := (checkFunctions here).checkIn
      exact (first.bind fun _ => ih others).weaken fun _ both =>
        List.forall_mem_cons.mpr both

end Tells

theorem length_openFiles {scope : Nat} {files : List SourceFile} {ids : List Nat} {after : SymbolTable}
    (ran : Package.openFiles imports scope files table = .ok (ids, after)) : ids.length = files.length := by
  induction files generalizing table ids after with
  | nil =>
      obtain ⟨rfl, _⟩ := pure_ok ran
      rfl
  | cons file files ih =>
      obtain ⟨_, _, _, ran⟩ := bind_ok ran
      obtain ⟨_, _, _, ran⟩ := bind_ok ran
      obtain ⟨_, _, _, ran⟩ := bind_ok ran
      obtain ⟨others, _, opens, ran⟩ := bind_ok ran
      obtain ⟨rfl, _⟩ := pure_ok ran
      rw [List.length_cons, List.length_cons, ih opens]

/-- The checks of a package count values in all of its code. -/
theorem checking_counted {interface : Interface} {counts : Counts} (formed : FormedPackage package)
    (ran : package.checking imports SymbolTable.initial = .ok (interface, table))
    (kept : table.counts ≤ counts) : PackageCounted counts package := by
  obtain ⟨_, ids, _, order, _, _, opens, inOrder, values, bodies, _⟩ := checking_stages ran
  obtain ⟨indices, rfl, _⟩ := initializationOrder_ok inOrder
  have formedItems : ∀ item ∈ indices.filterMap ((initializers package)[·]?), Formed.exprs item.decl.values := by
    intro item member
    obtain ⟨index, _, found⟩ := List.mem_filterMap.mp member
    exact formed.initializers item (List.mem_of_getElem? found)
  obtain ⟨_, counted⟩ := Tells.checkInitializers formedItems _ _ _ values
  obtain ⟨more, countedBodies⟩ := Tells.checkBodies
    (fun pair member => formed.functions (List.of_mem_zip member).1) _ _ _ bodies
  refine ⟨fun file member function inside => ?_, _, inOrder, counted counts (more.trans kept)⟩
  obtain ⟨position, found⟩ := List.getElem?_of_mem member
  have here := (List.getElem?_eq_some_iff.mp found).1
  rw [← length_openFiles opens] at here
  have zipped : (package.files.zip ids)[position]? = some (file, ids[position]) :=
    List.getElem?_zip_eq_some.mpr ⟨found, List.getElem?_eq_getElem here⟩
  exact countedBodies counts kept (file, ids[position]) (List.mem_of_getElem? zipped) function inside

end MiniGo.Lexical
