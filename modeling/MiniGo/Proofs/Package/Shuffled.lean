import MiniGo.Proofs.Package.Passing
import MiniGo.Proofs.Syntax.Trees

/-!
# The order of declarations does not matter

Whether a package passes its checks, and what its interface then is, depends neither on the order of its
files nor on the order of the declarations in them: that symbols fit a package (`Fits`) mentions no order.
-/

namespace MiniGo.Lexical

open Initialization

variable {imports : Interfaces} {package shuffled : Package} {table : SymbolTable} {top : Frame}

/-- A file with the same declarations in another order. -/
structure Reordered (file other : SourceFile) : Prop where
  path : file.path = other.path
  name : file.program.package = other.program.package
  imports : file.program.imports = other.program.imports
  declarations : file.program.declarations.Perm other.program.declarations

/-- A package with the same files in another order, and their declarations in another order. -/
structure Shuffled (package shuffled : Package) : Prop where
  name : package.name = shuffled.name
  path : package.path = shuffled.path
  files : ∃ files, package.files.Perm files ∧ List.Forall₂ Reordered files shuffled.files

/-- Two checks fail both, or both give the same name and the same members. -/
def SameInterface : Except Error Interface → Except Error Interface → Prop
  | .ok found, .ok other => found.name = other.name ∧ ∀ name, found.member? name = other.member? name
  | .error _, .error _ => True
  | _, _ => False

/-! ## Shuffled packages have the same parts -/

theorem Reordered.symm {file other : SourceFile} (reordered : Reordered file other) : Reordered other file :=
  ⟨reordered.path.symm, reordered.name.symm, reordered.imports.symm, reordered.declarations.symm⟩

theorem Shuffled.symm (same : Shuffled package shuffled) : Shuffled shuffled package := by
  obtain ⟨files, perm, each⟩ := same.files
  obtain ⟨others, each, perm⟩ := List.perm_comp_forall₂ perm each
  exact ⟨same.name.symm, same.path.symm, others, perm.symm, each.flip.imp fun _ _ => Reordered.symm⟩

theorem Reordered.values {file other : SourceFile} (reordered : Reordered file other) :
    file.program.valueDecls.Perm other.program.valueDecls :=
  reordered.declarations.filterMap _

theorem Reordered.functions {file other : SourceFile} (reordered : Reordered file other) :
    file.program.functions.Perm other.program.functions :=
  reordered.declarations.filterMap _

theorem Shuffled.file (same : Shuffled package shuffled) {file : SourceFile} (inside : file ∈ shuffled.files) :
    ∃ other ∈ package.files, Reordered other file := by
  obtain ⟨files, perm, each⟩ := same.files
  obtain ⟨position, here, rfl⟩ := List.mem_iff_getElem.mp inside
  have there : position < files.length := each.length_eq ▸ here
  exact ⟨files[position], perm.mem_iff.mpr (List.getElem_mem there), each.get there here⟩

theorem Shuffled.parts {α : Type} {parts : SourceFile → List α} (same : Shuffled package shuffled)
    (reordered : ∀ file other, Reordered file other → (parts file).Perm (parts other)) :
    (package.files.flatMap parts).Perm (shuffled.files.flatMap parts) := by
  obtain ⟨files, perm, each⟩ := same.files
  refine (perm.flatMap_right parts).trans ?_
  generalize shuffled.files = others at each
  clear perm
  induction each with
  | nil => exact .nil
  | cons first _ ih =>
      rw [List.flatMap_cons, List.flatMap_cons]
      exact (reordered _ _ first).append ih

theorem Shuffled.functions (same : Shuffled package shuffled) :
    (functionsOf package).Perm (functionsOf shuffled) :=
  same.parts fun _ _ => Reordered.functions

theorem Shuffled.declarations (same : Shuffled package shuffled) :
    (declarationsOf package).Perm (declarationsOf shuffled) :=
  same.parts fun _ _ => Reordered.values

theorem Shuffled.allNames (same : Shuffled package shuffled) :
    (real (allNames package)).Perm (real (allNames shuffled)) :=
  ((same.functions.map _).append (same.declarations.flatMap_right _)).filter _

theorem Shuffled.formed (same : Shuffled package shuffled) (formed : FormedPackage package) :
    FormedPackage shuffled := by
  intro file inside
  obtain ⟨other, there, reordered⟩ := same.file inside
  obtain ⟨name, imports, declarations⟩ := formed other there
  rw [reordered.name] at name
  rw [reordered.imports] at imports
  exact ⟨name, imports, fun decl member => declarations decl (reordered.declarations.mem_iff.mpr member)⟩

/-! ## What fits a package fits it when it is shuffled -/

theorem Shuffled.uses (same : Shuffled package shuffled) {name needed : String} (uses : Uses shuffled name needed) :
    Uses package name needed := by
  induction uses with
  | value member bound => exact .value (same.declarations.mem_iff.mpr member) bound
  | function member inside _ ih => exact .function (same.functions.mem_iff.mpr member) inside ih

theorem Shuffled.grounded (same : Shuffled package shuffled) (grounded : Grounded package) :
    Grounded shuffled := by
  obtain ⟨rank, lower⟩ := grounded
  exact ⟨rank, fun decl member name bound free isFree needed uses =>
    lower decl (same.declarations.mem_iff.mpr member) name bound free isFree needed (same.uses uses)⟩

theorem Shuffled.fits (same : Shuffled package shuffled) (fits : Fits imports package top) :
    Fits imports shuffled top where
  imported file inside := by
    obtain ⟨other, there, reordered⟩ := same.file inside
    exact reordered.imports ▸ fits.imported other there
  distinct := same.allNames.nodup_iff.mp fits.distinct
  grounded := same.grounded fits.grounded
  declarations file inside decl written := by
    obtain ⟨other, there, reordered⟩ := same.file inside
    have here := fits.declarations other there decl (reordered.values.mem_iff.mpr written)
    rwa [DeclarationFits, reordered.imports] at here
  functions file inside function written := by
    obtain ⟨other, there, reordered⟩ := same.file inside
    have here := fits.functions other there function (reordered.functions.mem_iff.mpr written)
    exact ⟨here.typed, reordered.imports ▸ here.passes, here.symbol⟩
  names name := by rw [fits.names, same.allNames.mem_iff]

/-! ## Interfaces -/

/-- The members of a package are the symbols that its top level has in the end. -/
theorem member?_interfaceOf (regular : Regular table) (name : String) :
    (package.interfaceOf table 1).member? name
      = (frame table 1 name).map fun symbol => ⟨symbol.kind, symbol.type?⟩ := by
  unfold Interface.member? Package.interfaceOf SymbolTable.symbolsIn frame SymbolTable.findIn?
  cases found : table.scopes[1]? with
  | none => rfl
  | some scope =>
      have keyed := regular.keyed 1 scope found
      simp only [Option.bind_some, SymbolScope.find?]
      generalize scope.names = entries at keyed
      -- Along the entries of the scope: each has a symbol of its name, so both searches stop at the same one.
      induction entries with
      | nil => rfl
      | cons entry entries ih =>
          obtain ⟨⟨symbol, known, named⟩, rest⟩ := List.forall_mem_cons.mp keyed
          obtain ⟨key, number⟩ := entry
          dsimp only at known named
          rw [List.filterMap_cons, List.lookup_cons]
          simp only [known, List.map_cons, List.lookup_cons, named]
          cases name == key with
          | true => simp [known]
          | false => exact ih rest

/-- A shuffled package passes its checks if the package does, and has the same interface. -/
theorem Shuffled.check (same : Shuffled package shuffled) (formed : FormedPackage package) {interface : Interface}
    (ran : package.check imports = .ok interface) :
    ∃ other, shuffled.check imports = .ok other ∧ interface.name = other.name ∧
      ∀ name, interface.member? name = other.member? name := by
  obtain ⟨table, checked⟩ := check_ok ran
  obtain ⟨fits, layout, rfl⟩ := fits_of_checking formed checked
  obtain ⟨other, table', checked', frames⟩ := checking_of_fits (same.formed formed) (same.fits fits)
  obtain ⟨_, layout', rfl⟩ := fits_of_checking (same.formed formed) checked'
  refine ⟨shuffled.interfaceOf table' 1, ?_, same.name, fun name => ?_⟩
  · unfold Package.check
    rw [checked']
    rfl
  · rw [member?_interfaceOf layout.regular, member?_interfaceOf layout'.regular, frames]

/-- Neither the order of the files of a package nor the order of the declarations in them changes whether
it passes its checks, or the interface that it then has. -/
theorem check_shuffled (imports : Interfaces) (formed : FormedPackage package) (same : Shuffled package shuffled) :
    SameInterface (package.check imports) (shuffled.check imports) := by
  cases one : package.check imports with
  | ok interface =>
      obtain ⟨other, two, alike⟩ := same.check formed one
      rw [two]
      exact alike
  | error error =>
      cases two : shuffled.check imports with
      | error _ => trivial
      | ok other =>
          obtain ⟨interface, checked, _⟩ := same.symm.check (same.formed formed) two
          rw [one] at checked
          exact nomatch checked

namespace Reversed

def dependent : SourceFile :=
  ⟨"first.go", "main", [], [.values ⟨false, ["y"], none, [.call (.identifier "get" ⟨2, 9⟩) [] ⟨2, 12⟩], ⟨2, 1⟩⟩]⟩

def function : Decl :=
  .function "get" ⟨⟨[], [.int], []⟩, [.return [.identifier "x" ⟨2, 25⟩] ⟨2, 18⟩], ⟨2, 1⟩⟩

def value : Decl := .values ⟨false, ["x"], none, [.integer 1], ⟨3, 1⟩⟩

def written : Package := ⟨"main", "main", [dependent, ⟨"second.go", "main", [], [function, value]⟩]⟩

/-- The package with its files and their declarations the other way round. -/
def reversed : Package := ⟨"main", "main", [⟨"second.go", "main", [], [value, function]⟩, dependent]⟩

theorem formed : FormedPackage written := by
  have first : parseText "package main\nvar y = get()\n" = .ok dependent.program := by
    unfold dependent
    cbv
  have second : parseText "package main\nfunc get() int \x7b return x \x7d\nvar x = 1\n"
      = .ok ⟨"main", [], [function, value]⟩ := by
    unfold function value
    cbv
  exact List.forall_mem_cons.mpr ⟨Syntax.formed_parseText first,
    List.forall_mem_singleton.mpr (Syntax.formed_parseText second)⟩

theorem same : Shuffled written reversed := by
  refine ⟨rfl, rfl, written.files.reverse, written.files.reverse_perm.symm, ?_⟩
  exact .cons ⟨rfl, rfl, rfl, .swap value function []⟩ (.cons ⟨rfl, rfl, rfl, .refl _⟩ .nil)

theorem typed : ∃ interface, reversed.check .initial = .ok interface ∧
    interface.member? "y" = some ⟨.var, some .int⟩ := by
  refine ⟨⟨"main", [("y", ⟨.var, some .int⟩), ("x", ⟨.var, some .int⟩),
    ("get", ⟨.function, some (.func ⟨[], [.int]⟩)⟩)]⟩, ?_, by cbv⟩
  unfold reversed value function dependent
  cbv

end Reversed

/-- A package passes its checks in both orders, and `y` is an integer in both. -/
theorem reversed_package_checked :
    FormedPackage Reversed.written ∧ Shuffled Reversed.written Reversed.reversed ∧
    SameInterface (Reversed.written.check .initial) (Reversed.reversed.check .initial) ∧
    ∃ interface, Reversed.reversed.check .initial = .ok interface ∧
      interface.member? "y" = some ⟨.var, some .int⟩ :=
  ⟨Reversed.formed, Reversed.same, check_shuffled .initial Reversed.formed Reversed.same, Reversed.typed⟩

end MiniGo.Lexical
