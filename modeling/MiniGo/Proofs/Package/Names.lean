import Mathlib.Data.List.Pairwise
import MiniGo.Proofs.Package.Order

/-!
# The names of a package

Every name of the top level stands for one function or one declaration when no two of them have the
same name. `Ready` are the names that code may use when some of the declarations are initialized.
-/

namespace MiniGo.Initialization

def functionsOf (package : Package) : List (String × FunctionLiteral) :=
  package.files.flatMap (·.program.functions)

def namesAt (package : Package) (index : Nat) : List String :=
  (((initializers package)[index]?).map (·.decl.names)).getD []

/-- The names of a package in the order in which they are declared: functions, then values. -/
def topNames (package : Package) (indices : List Nat) : List String :=
  (functionsOf package).map (·.1) ++ indices.flatMap (namesAt package)

def real (names : List String) : List String := names.filter (· != blankName)

@[simp] theorem mem_real {names : List String} {name : String} :
    name ∈ real names ↔ name ∈ names ∧ name ≠ blankName := by
  simp [real]

@[simp] theorem real_append (first second : List String) :
    real (first ++ second) = real first ++ real second :=
  List.filter_append ..

theorem real_cons (name : String) (names : List String) :
    real (name :: names) = real [name] ++ real names :=
  real_append [name] names

/-- A name of a package whose code may run once some declarations are initialized. -/
def Ready (package : Package) (done : List Nat) (name : String) : Prop :=
  name ≠ blankName ∧ ((entities package).lookup name).isSome ∧
    ∀ needed, Leads (entities package) name needed → needed ∈ done

variable {package : Package}

/-! ## Entities -/

theorem mem_entitiesFrom_function {next : Nat} {decls : List Decl} {name : String}
    {literal : FunctionLiteral} :
    (name, .function literal) ∈ entitiesFrom next decls ↔ .function name literal ∈ decls := by
  induction decls generalizing next with
  | nil => simp [entitiesFrom]
  | cons decl decls ih => cases decl <;> simp [entitiesFrom, ih]

def valuesOf (decls : List Decl) : List ValueDecl :=
  decls.filterMap fun
    | .values decl => some decl
    | .function .. => none

theorem mem_entitiesFrom_value {next : Nat} {decls : List Decl} {name : String} {index : Nat} :
    (name, .value index) ∈ entitiesFrom next decls ↔
      ∃ position decl, index = next + position ∧ (valuesOf decls)[position]? = some decl ∧
        name ∈ decl.bound := by
  induction decls generalizing next with
  | nil => simp [entitiesFrom, valuesOf]
  | cons decl decls ih =>
      cases decl with
      | function other literal => simpa [entitiesFrom, valuesOf] using ih
      | values decl =>
          simp only [entitiesFrom, List.mem_append, ih, valuesOf, List.filterMap_cons]
          constructor
          · rintro (here | ⟨position, later, rfl, found, bound⟩)
            · obtain ⟨_, bound, same⟩ := List.mem_map.mp here
              obtain ⟨rfl, rfl⟩ : _ = name ∧ next = index := by simpa using same
              exact ⟨0, decl, rfl, rfl, bound⟩
            · exact ⟨position + 1, later, by omega, found, bound⟩
          · rintro ⟨position, later, rfl, found, bound⟩
            cases position with
            | zero =>
                obtain rfl : decl = later := by simpa using found
                exact Or.inl (List.mem_map.mpr ⟨name, bound, rfl⟩)
            | succ position => exact Or.inr ⟨position, later, by omega, found, bound⟩

theorem map_decl_initializers (package : Package) :
    (initializers package).map (·.decl)
      = valuesOf (package.files.flatMap (·.program.declarations)) := by
  unfold initializers
  generalize package.files = files
  suffices every : ∀ first, ((files.zipIdx first).flatMap fun pair =>
      pair.1.program.valueDecls.map fun decl => (⟨pair.2, decl⟩ : Initializer)).map (·.decl)
        = valuesOf (files.flatMap (·.program.declarations)) from every 0
  induction files with
  | nil => exact fun _ => rfl
  | cons file files ih =>
      intro first
      rw [List.zipIdx_cons, List.flatMap_cons, List.map_append, ih, List.flatMap_cons]
      simp only [Program.valueDecls, valuesOf, List.map_map, List.filterMap_append]
      exact congrArg (· ++ _) (List.map_id _)

theorem file_initializers {index : Nat} {item : Initializer} (found : (initializers package)[index]? = some item) :
    ∃ file, package.files[item.file]? = some file ∧ item.decl ∈ file.program.valueDecls := by
  have member := List.mem_of_getElem? found
  unfold initializers at member
  obtain ⟨⟨file, position⟩, inside, here⟩ := List.mem_flatMap.mp member
  obtain ⟨decl, declared, rfl⟩ := List.mem_map.mp here
  exact ⟨file, List.mem_zipIdx_iff_getElem?.mp inside, declared⟩

theorem mem_entities_function {name : String} {literal : FunctionLiteral} :
    (name, .function literal) ∈ entities package ↔ (name, literal) ∈ functionsOf package := by
  unfold entities functionsOf Program.functions
  rw [mem_entitiesFrom_function]
  simp only [List.mem_flatMap, List.mem_filterMap]
  constructor
  · rintro ⟨file, inside, declared⟩
    exact ⟨file, inside, _, declared, rfl⟩
  · rintro ⟨file, inside, decl, declared, same⟩
    cases decl with
    | values decl => exact nomatch same
    | function other found =>
        obtain ⟨rfl, rfl⟩ : other = name ∧ found = literal := by simpa using same
        exact ⟨file, inside, declared⟩

theorem mem_entities_value {name : String} {index : Nat} :
    (name, .value index) ∈ entities package ↔
      ∃ item, (initializers package)[index]? = some item ∧ name ∈ item.decl.bound := by
  unfold entities
  rw [mem_entitiesFrom_value, ← map_decl_initializers]
  simp only [List.getElem?_map, Option.map_eq_some_iff, Nat.zero_add]
  constructor
  · rintro ⟨_, _, rfl, ⟨item, found, rfl⟩, bound⟩
    exact ⟨item, found, bound⟩
  · rintro ⟨item, found, bound⟩
    exact ⟨index, item.decl, rfl, ⟨item, found, rfl⟩, bound⟩

theorem mem_of_lookup {name : String} {entity : Entity}
    (found : (entities package).lookup name = some entity) : (name, entity) ∈ entities package := by
  obtain ⟨front, back, same, _⟩ := List.lookup_eq_some_iff.mp found
  simp [same]

theorem lookup_of_mem {name : String} {entity : Entity} (member : (name, entity) ∈ entities package) :
    ∃ first, (entities package).lookup name = some first ∧ (name, first) ∈ entities package := by
  have some : ((entities package).lookup name).isSome :=
    List.lookup_isSome_iff.mpr ⟨(name, entity), member, beq_self_eq_true name⟩
  obtain ⟨first, found⟩ := Option.isSome_iff_exists.mp some
  exact ⟨first, found, mem_of_lookup found⟩

theorem leads_lt {name : String} {needed : Nat} (leads : Leads (entities package) name needed) :
    needed < (initializers package).length := by
  induction leads with
  | value found =>
      obtain ⟨_, known, _⟩ := mem_entities_value.mp (mem_of_lookup found)
      exact (List.getElem?_eq_some_iff.mp known).1
  | function _ _ _ ih => exact ih

theorem mem_bound {decl : ValueDecl} {name : String} : name ∈ decl.bound ↔ name ∈ real decl.names :=
  Iff.rfl

theorem mem_namesAt {item : Initializer} {index : Nat} {name : String}
    (found : (initializers package)[index]? = some item) (bound : name ∈ item.decl.bound) :
    name ∈ real (namesAt package index) := by
  rw [namesAt, found]
  exact bound

theorem lookup_of_mem_topNames {indices : List Nat} {name : String}
    (member : name ∈ real (topNames package indices)) : ((entities package).lookup name).isSome := by
  rw [List.lookup_isSome_iff]
  obtain ⟨member, named⟩ := mem_real.mp member
  rcases List.mem_append.mp member with function | value
  · obtain ⟨⟨_, literal⟩, inside, rfl⟩ := List.mem_map.mp function
    exact ⟨_, mem_entities_function.mpr inside, beq_self_eq_true _⟩
  · obtain ⟨index, _, inside⟩ := List.mem_flatMap.mp value
    unfold namesAt at inside
    cases found : (initializers package)[index]? with
    | none =>
        rw [found] at inside
        exact absurd inside List.not_mem_nil
    | some item =>
        rw [found] at inside
        exact ⟨_, mem_entities_value.mpr ⟨item, found, mem_real.mpr ⟨inside, named⟩⟩, beq_self_eq_true _⟩

theorem Ready.mem_topNames {done : List Nat} {name : String} (ready : Ready package done name) :
    name ∈ real (topNames package done) := by
  obtain ⟨entity, found⟩ := Option.isSome_iff_exists.mp ready.2.1
  have member := mem_of_lookup found
  refine mem_real.mpr ⟨?_, ready.1⟩
  cases entity with
  | function literal =>
      exact List.mem_append_left _ (List.mem_map.mpr ⟨_, mem_entities_function.mp member, rfl⟩)
  | value index =>
      obtain ⟨item, known, bound⟩ := mem_entities_value.mp member
      refine List.mem_append_right _ (List.mem_flatMap.mpr ⟨index, ready.2.2 index (.value found), ?_⟩)
      exact (mem_real.mp (mem_namesAt known bound)).1

/-! ## Distinct names -/

/-- No two things of the top level have the same name, and every declaration is in the order. -/
structure Distinct (package : Package) (indices : List Nat) : Prop where
  names : (real (topNames package indices)).Nodup
  all : ∀ index < (initializers package).length, index ∈ indices

variable {indices : List Nat}

theorem eq_of_nodup_map {functions : List (String × FunctionLiteral)} {name : String}
    {first second : FunctionLiteral} (distinct : (real (functions.map (·.1))).Nodup)
    (named : name ≠ blankName) (one : (name, first) ∈ functions) (two : (name, second) ∈ functions) :
    first = second := by
  induction functions with
  | nil => exact absurd one List.not_mem_nil
  | cons function functions ih =>
      obtain ⟨other, literal⟩ := function
      have tail : (real (functions.map (·.1))).Nodup := by
        refine distinct.sublist ?_
        simp only [real, List.map_cons]
        exact (List.sublist_cons_self _ _).filter _
      have head : ∀ literal', (name, literal') ∈ functions → other ≠ name := by
        rintro literal' member rfl
        have keep : (other != blankName) = true := by simpa using named
        simp only [real, List.map_cons, List.filter_cons, keep, if_true, List.nodup_cons] at distinct
        exact distinct.1 (List.mem_filter.mpr ⟨List.mem_map.mpr ⟨_, member, rfl⟩, keep⟩)
      rcases List.mem_cons.mp one with same | one <;> rcases List.mem_cons.mp two with same' | two
      · have both := same.trans same'.symm
        exact (Prod.mk.inj both).2
      · exact absurd (Prod.mk.inj same).1.symm (head second two)
      · exact absurd (Prod.mk.inj same').1.symm (head first one)
      · exact ih tail one two

theorem Distinct.apart (distinct : Distinct package indices) {name : String} {literal : FunctionLiteral}
    {index : Nat} {item : Initializer} (function : (name, literal) ∈ functionsOf package)
    (found : (initializers package)[index]? = some item) (bound : name ∈ item.decl.bound) : False := by
  have nodup := distinct.names
  rw [topNames, real_append] at nodup
  have named := (mem_real.mp (mem_bound.mp bound)).2
  have inside := distinct.all index (List.getElem?_eq_some_iff.mp found).1
  have second := (mem_real.mp (mem_namesAt found bound)).1
  exact List.disjoint_of_nodup_append nodup (mem_real.mpr ⟨List.mem_map.mpr ⟨_, function, rfl⟩, named⟩)
    (mem_real.mpr ⟨List.mem_flatMap.mpr ⟨index, inside, second⟩, named⟩)

theorem Distinct.lookup_function (distinct : Distinct package indices) {name : String}
    {literal : FunctionLiteral} (named : name ≠ blankName)
    (function : (name, literal) ∈ functionsOf package) :
    (entities package).lookup name = some (.function literal) := by
  obtain ⟨first, found, member⟩ := lookup_of_mem (mem_entities_function.mpr function)
  rw [found]
  cases first with
  | value index =>
      obtain ⟨item, known, bound⟩ := mem_entities_value.mp member
      exact (distinct.apart function known bound).elim
  | function other =>
      have nodup := distinct.names
      rw [topNames, real_append] at nodup
      rw [eq_of_nodup_map (List.nodup_append.mp nodup).1 named function (mem_entities_function.mp member)]

theorem Distinct.lookup_value (distinct : Distinct package indices) {name : String} {index : Nat}
    {item : Initializer} (known : (initializers package)[index]? = some item)
    (bound : name ∈ item.decl.bound) : (entities package).lookup name = some (.value index) := by
  obtain ⟨first, found, member⟩ := lookup_of_mem (mem_entities_value.mpr ⟨item, known, bound⟩)
  rw [found]
  cases first with
  | function other => exact (distinct.apart (mem_entities_function.mp member) known bound).elim
  | value other =>
      obtain ⟨item', known', bound'⟩ := mem_entities_value.mp member
      by_cases same : index = other
      · rw [same]
      · -- Two declarations with one name would stand apart in the order.
        have nodup := distinct.names
        rw [topNames, real_append] at nodup
        have values := (List.nodup_append.mp nodup).2.1
        simp only [real, List.filter_flatMap] at values
        have pairs := (List.nodup_flatMap.mp values).2
        have inside := distinct.all index (List.getElem?_eq_some_iff.mp known).1
        have inside' := distinct.all other (List.getElem?_eq_some_iff.mp known').1
        have symm : Std.Symm (Function.onFun List.Disjoint fun index =>
            (namesAt package index).filter (· != blankName)) := ⟨fun _ _ disjoint => disjoint.symm⟩
        have disjoint := pairs.forall inside inside' same
        exact (disjoint (mem_namesAt known bound) (mem_namesAt known' bound')).elim

end MiniGo.Initialization
