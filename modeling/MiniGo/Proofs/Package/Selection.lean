import MiniGo.Proofs.Package.Grounded
import MiniGo.Proofs.Package.Occurrences

/-!
# Selecting declarations

The next declaration to be initialized is the earliest one that depends on nothing but those before it.
`DependsOn` says what a declaration depends on, for a reading of the names of the top level, without
following anything; `Greedy` says what the order is that the selection gives (`arrange_greedy`).
-/

namespace MiniGo.Initialization

variable {package : Package}

/-! ## Dependencies -/

/-- A name leads to a declaration that it stands for, or that a name free in a function that it stands for
leads to. -/
inductive Reaches (means : String → Entity → Prop) : String → Nat → Prop where
  | value {name : String} {index : Nat} : means name (.value index) → Reaches means name index
  | function {name inner : String} {literal : FunctionLiteral} {index : Nat} :
      means name (.function literal) → Occurs.function inner literal → Reaches means inner index →
      Reaches means name index

/-- A declaration has a free name in its values that leads to another declaration. -/
def DependsOn (means : String → Entity → Prop) (package : Package) (index other : Nat) : Prop :=
  ∃ item name, (initializers package)[index]? = some item ∧ Occurs.exprs name item.decl.values ∧
    Reaches means name other

/-- A name stands for everything at the top level that has this name. -/
def AnyNamed (package : Package) (name : String) (entity : Entity) : Prop := (name, entity) ∈ entities package

/-- A name stands for the first thing at the top level that has this name. -/
def FirstNamed (package : Package) (name : String) (entity : Entity) : Prop :=
  (entities package).lookup name = some entity

/-- A declaration depends on another, where the first of two things with one name counts. -/
abbrev Depends (package : Package) : Nat → Nat → Prop := DependsOn (FirstNamed package) package

theorem reaches_iff_leads {name : String} {index : Nat} :
    Reaches (FirstNamed package) name index ↔ Leads (entities package) name index := by
  constructor
  · intro reaches
    induction reaches with
    | value found => exact .value found
    | function found free _ ih =>
        exact .function found ((FreeNames.mem_ofFunction [] _).mpr ⟨List.not_mem_nil, free⟩) ih
  · intro leads
    induction leads with
    | value found => exact .value found
    | function found inside _ ih => exact .function found ((FreeNames.mem_ofFunction [] _).mp inside).2 ih

theorem Depends.lt {index other : Nat} (depends : Depends package index other) :
    index < (initializers package).length ∧ other < (initializers package).length := by
  obtain ⟨item, name, found, _, reaches⟩ := depends
  exact ⟨(List.getElem?_eq_some_iff.mp found).1, leads_lt (reaches_iff_leads.mp reaches)⟩

theorem length_dependencies (package : Package) :
    (dependencies package).length = (initializers package).length :=
  List.length_map _

theorem mem_dependencies {index other : Nat} {needed : List Nat}
    (known : (dependencies package)[index]? = some needed) : other ∈ needed ↔ Depends package index other := by
  unfold dependencies at known
  rw [List.getElem?_map] at known
  obtain ⟨item, found, rfl⟩ := Option.map_eq_some_iff.mp known
  constructor
  · intro member
    obtain ⟨name, free, leads⟩ := leads_of_mem_dependenciesOf member
    exact ⟨item, name, found, ((FreeNames.mem_ofExprs [] _).mp free).2, reaches_iff_leads.mpr leads⟩
  · rintro ⟨item', name, found', free, reaches⟩
    obtain rfl := Option.some.inj (found.symm.trans found')
    exact leads_mem_dependenciesOf ((FreeNames.mem_ofExprs [] _).mpr ⟨List.not_mem_nil, free⟩)
      (reaches_iff_leads.mp reaches)

/-! ## The selection -/

/-- The declarations that depend on nothing but those that are placed, and are not placed themselves. -/
def Available (package : Package) (placed : List Nat) : Set Nat :=
  {index | index < (initializers package).length ∧ index ∉ placed ∧
    ∀ other, Depends package index other → other ∈ placed}

/-- Every declaration of an order is the earliest one that is available behind those before it. -/
def Greedy (package : Package) (indices : List Nat) : Prop :=
  ∀ front index back, indices = front ++ index :: back → IsLeast (Available package front) index

/-- The flags say which declarations are placed. -/
structure Marks (package : Package) (flags : Array Bool) (placed : List Nat) : Prop where
  size : flags.size = (initializers package).length
  isDone : ∀ index, isDone flags index = true ↔ index ∈ placed

variable {flags : Array Bool} {placed : List Nat} {index : Nat}

theorem marks_start (package : Package) :
    Marks package (Array.replicate (initializers package).length false) [] where
  size := Array.size_replicate
  isDone index := by
    simp only [Initialization.isDone, Array.getD_eq_getD_getElem?, Array.getElem?_replicate, List.not_mem_nil,
      iff_false]
    split <;> exact Bool.false_ne_true

theorem Marks.place (marks : Marks package flags placed) (inside : index < (initializers package).length) :
    Marks package (flags.setIfInBounds index true) (placed ++ [index]) where
  size := by rw [Array.size_setIfInBounds, marks.size]
  isDone other := by
    rw [isDone_set (marks.size.symm ▸ inside), marks.isDone, List.mem_append, List.mem_singleton]
    exact Or.comm

theorem mem_available : index ∈ Available package placed ↔ index < (initializers package).length ∧ index ∉ placed ∧
    ∀ other, Depends package index other → other ∈ placed := Iff.rfl

theorem available_iff (marks : Marks package flags placed) {needed : List Nat}
    (known : (dependencies package)[index]? = some needed) :
    index ∈ Available package placed ↔
      (!isDone flags index && needed.all (isDone flags)) = true := by
  have inside : index < (initializers package).length :=
    length_dependencies package ▸ (List.getElem?_eq_some_iff.mp known).1
  have new : isDone flags index = false ↔ index ∉ placed := by
    rw [← marks.isDone, Bool.not_eq_true]
  rw [mem_available]
  simp only [inside, true_and, Bool.and_eq_true, Bool.not_eq_true', new, List.all_eq_true, mem_dependencies known,
    marks.isDone]

theorem nextReady_isLeast (marks : Marks package flags placed)
    (next : nextReady (dependencies package) flags = some index) : IsLeast (Available package placed) index := by
  obtain ⟨⟨needed, position⟩, first, rfl⟩ := Option.map_eq_some_iff.mp next
  obtain ⟨ready, place, bound, here, before⟩ := List.find?_eq_some_iff_getElem.mp first
  rw [List.getElem_zipIdx, Nat.zero_add] at here
  obtain ⟨rfl, rfl⟩ := Prod.mk.inj here
  rw [List.length_zipIdx] at bound
  refine ⟨(available_iff marks (List.getElem?_eq_getElem bound)).mpr ready, fun other available => ?_⟩
  by_contra earlier
  rw [Nat.not_le] at earlier
  have refused := before other earlier
  rw [List.getElem_zipIdx, Nat.zero_add] at refused
  rw [available_iff marks (List.getElem?_eq_getElem (earlier.trans bound))] at available
  dsimp only at refused
  rw [available] at refused
  exact nomatch refused

theorem nextReady_none (marks : Marks package flags placed)
    (none : nextReady (dependencies package) flags = none) : Available package placed = ∅ := by
  rw [Set.eq_empty_iff_forall_notMem]
  intro index available
  have inside : index < (dependencies package).length := length_dependencies package ▸ available.1
  have known := List.getElem?_eq_getElem inside
  have member : ((dependencies package)[index], index) ∈ (dependencies package).zipIdx :=
    List.mem_zipIdx_iff_getElem?.mpr known
  exact List.find?_eq_none.mp (Option.map_eq_none_iff.mp none) _ member ((available_iff marks known).mp available)

theorem Greedy.place (greedy : Greedy package placed) (least : IsLeast (Available package placed) index) :
    Greedy package (placed ++ [index]) := by
  intro front next back same
  rcases List.eq_nil_or_concat back with rfl | ⟨others, last, rfl⟩
  · obtain ⟨rfl, last⟩ := List.append_inj' same rfl
    obtain rfl := List.singleton_inj.mp last
    exact least
  · rw [List.concat_eq_append, ← List.cons_append, ← List.append_assoc] at same
    exact greedy front next others (List.append_inj' same rfl).1

/-- Flags at which the selection is stuck: they mark a greedy order behind which nothing is available,
though some declaration is left. -/
structure Stuck (package : Package) (done : Array Bool) (placed : List Nat) : Prop where
  greedy : Greedy package placed
  marks : Marks package done placed
  exhausted : Available package placed = ∅
  unfinished : ∃ index < (initializers package).length, index ∉ placed

/-- What the selection gives behind declarations that are placed: the rest of a greedy order of all, or the
flags at which it is stuck. -/
def Selects (package : Package) (placed : List Nat) : Except (Array Bool) (List Nat) → Prop
  | .ok rest => Greedy package (placed ++ rest) ∧ ∀ index < (initializers package).length, index ∈ placed ++ rest
  | .error done => ∃ all, Stuck package done all

/-- The selection places declarations greedily: all of them, or as many as it can. -/
theorem arrange_greedy {fuel : Nat} (marks : Marks package flags placed) (greedy : Greedy package placed)
    (count : left (initializers package).length flags = fuel) :
    Selects package placed (arrange (dependencies package) fuel flags) := by
  induction fuel generalizing flags placed with
  | zero =>
      refine ⟨by rwa [List.append_nil], fun index inside => ?_⟩
      rw [List.append_nil, ← marks.isDone]
      by_contra missing
      have member : index ∈ (Finset.range (initializers package).length).filter fun index => isDone flags index = false :=
        Finset.mem_filter.mpr ⟨Finset.mem_range.mpr inside, Bool.not_eq_true _ ▸ missing⟩
      exact absurd count (Finset.card_ne_zero_of_mem member)
  | succ fuel ih =>
      unfold arrange
      cases next : nextReady (dependencies package) flags with
      -- Nothing is ready and something is left, so the selection is stuck.
      | none =>
          obtain ⟨index, member⟩ := Finset.card_pos.mp (Nat.lt_of_lt_of_eq (Nat.succ_pos fuel) count.symm)
          obtain ⟨inside, new⟩ := Finset.mem_filter.mp member
          exact ⟨placed, greedy, marks, nextReady_none marks next, index, Finset.mem_range.mp inside,
            by rw [← marks.isDone, new]; exact Bool.false_ne_true⟩
      | some index =>
          have least := nextReady_isLeast marks next
          have inside := least.1.1
          have new : isDone flags index = false := Bool.not_eq_true _ ▸ (marks.isDone index).not.mpr least.1.2.1
          have fewer := left_set marks.size inside new
          have most := left_le_set marks.size inside
          have later := ih (marks.place inside) (greedy.place least) (by omega)
          dsimp only
          cases ran : arrange (dependencies package) fuel (flags.setIfInBounds index true) with
          | error done => rwa [ran] at later
          | ok rest =>
              rw [ran] at later
              change Greedy package (placed ++ index :: rest) ∧ ∀ other < _, other ∈ placed ++ index :: rest
              rw [List.append_cons]
              exact later

theorem left_start (package : Package) :
    left (initializers package).length (Array.replicate (initializers package).length false)
      = (initializers package).length := by
  have every : ∀ index, isDone (Array.replicate (initializers package).length false) index = false := fun index =>
    Bool.not_eq_true _ ▸ ((marks_start package).isDone index).not.mpr List.not_mem_nil
  rw [left, Finset.filter_true_of_mem fun index _ => every index, Finset.card_range]

/-! ## Greedy orders -/

theorem Greedy.nodup {indices : List Nat} (greedy : Greedy package indices) : indices.Nodup := by
  induction indices using List.reverseRecOn with
  | nil => exact List.nodup_nil
  | append_singleton front index ih =>
      have new := (greedy front index [] rfl).1.2.1
      have before : Greedy package front := fun first next back same =>
        greedy first next (back ++ [index]) (by rw [same, List.append_assoc, List.cons_append])
      exact List.nodup_append.mpr ⟨ih before, List.nodup_singleton index, by
        rintro other inside _ (_ | _) rfl <;> contradiction⟩

theorem Greedy.lt {indices : List Nat} (greedy : Greedy package indices) (member : index ∈ indices) :
    index < (initializers package).length := by
  obtain ⟨front, back, same⟩ := List.append_of_mem member
  exact (greedy front index back same).1.1

theorem Greedy.before {indices : List Nat} (greedy : Greedy package indices) (member : index ∈ indices) {other : Nat}
    (depends : Depends package index other) : indices.idxOf other < indices.idxOf index := by
  obtain ⟨front, back, rfl⟩ := List.append_of_mem member
  obtain ⟨_, new, needed⟩ := (greedy front index back rfl).1
  have inside := needed other depends
  rw [List.idxOf_append_of_mem inside, List.idxOf_append_of_notMem new]
  exact (List.idxOf_lt_length_of_mem inside).trans_le (Nat.le_add_right _ _)

theorem Greedy.acyclic {indices : List Nat} (greedy : Greedy package indices)
    (all : ∀ index < (initializers package).length, index ∈ indices) :
    ¬ Relation.TransGen (Depends package) index index := by
  have descends : ∀ {first last}, Relation.TransGen (Depends package) first last →
      indices.idxOf last < indices.idxOf first := by
    intro first last path
    induction path with
    | single depends => exact greedy.before (all _ depends.lt.1) depends
    | tail _ depends ih => exact (greedy.before (all _ depends.lt.1) depends).trans ih
  exact fun path => absurd (descends path) (Nat.lt_irrefl _)

end MiniGo.Initialization
