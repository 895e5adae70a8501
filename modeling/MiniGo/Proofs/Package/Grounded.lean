import MiniGo.Proofs.Package.Names

/-!
# When there is an order of initialization

Following names through functions says nothing about where declarations stand. A package is `Grounded`
if its names have ranks such that every declaration ranks above all that its values lead to. Exactly then
its declarations can be initialized one after another, as long as its names are distinct and no blank
name is used.
-/

namespace MiniGo.Initialization

variable {package : Package} {table : List (String × Entity)}

def declarationsOf (package : Package) : List ValueDecl := package.files.flatMap (·.program.valueDecls)

theorem map_initializers (package : Package) :
    (initializers package).map (·.decl) = declarationsOf package := by
  rw [map_decl_initializers, valuesOf, declarationsOf, List.filterMap_flatMap]
  rfl

theorem mem_declarationsOf {index : Nat} {item : Initializer}
    (found : (initializers package)[index]? = some item) : item.decl ∈ declarationsOf package := by
  rw [← map_initializers]
  exact List.mem_map_of_mem (List.mem_of_getElem? found)

theorem initializer_of_mem {decl : ValueDecl} (member : decl ∈ declarationsOf package) :
    ∃ (index : Nat) (item : Initializer), (initializers package)[index]? = some item ∧ item.decl = decl := by
  rw [← map_initializers] at member
  obtain ⟨item, inside, same⟩ := List.mem_map.mp member
  obtain ⟨index, found⟩ := List.getElem?_of_mem inside
  exact ⟨index, item, found, same⟩

/-- A name leads to the name of a value, maybe through functions. -/
inductive Uses (package : Package) : String → String → Prop where
  | value {name : String} {decl : ValueDecl} : decl ∈ declarationsOf package → name ∈ decl.bound →
      Uses package name name
  | function {name inner needed : String} {literal : FunctionLiteral} :
      (name, literal) ∈ functionsOf package → inner ∈ FreeNames.ofFunction [] literal →
      Uses package inner needed → Uses package name needed

/-- Every declaration ranks above the values that it needs. -/
def Grounded (package : Package) : Prop :=
  ∃ rank : String → Nat, ∀ decl ∈ declarationsOf package, ∀ name ∈ decl.bound,
    ∀ free ∈ FreeNames.ofExprs [] decl.values, ∀ needed, Uses package free needed → rank needed < rank name

/-! ## Names and positions -/

theorem uses_of_leads {name : String} {index : Nat} (leads : Leads (entities package) name index) :
    ∃ item needed, (initializers package)[index]? = some item ∧ needed ∈ item.decl.bound ∧
      Uses package name needed := by
  induction leads with
  | @value name index found =>
      obtain ⟨item, known, bound⟩ := mem_entities_value.mp (mem_of_lookup found)
      exact ⟨item, name, known, bound, .value (mem_declarationsOf known) bound⟩
  | function found inside _ ih =>
      obtain ⟨item, needed, known, bound, uses⟩ := ih
      exact ⟨item, needed, known, bound, .function (mem_entities_function.mp (mem_of_lookup found)) inside uses⟩

/-- The blank name is not used in functions. -/
def Clean (package : Package) : Prop :=
  ∀ function ∈ functionsOf package, blankName ∉ FreeNames.ofFunction [] function.2

theorem leads_of_uses {indices : List Nat} (distinct : Distinct package indices) (clean : Clean package)
    {name needed : String} (uses : Uses package name needed) (named : name ≠ blankName) :
    ∃ index, Leads (entities package) name index ∧
      (entities package).lookup needed = some (.value index) := by
  induction uses with
  | value member bound =>
      obtain ⟨index, item, found, rfl⟩ := initializer_of_mem member
      have known := distinct.lookup_value found bound
      exact ⟨index, .value known, known⟩
  | @function name inner needed literal member inside _ ih =>
      have free : inner ≠ blankName := fun blank => clean _ member (blank ▸ inside)
      obtain ⟨index, leads, known⟩ := ih free
      exact ⟨index, .function (distinct.lookup_function named member) inside leads, known⟩

/-! ## Dependencies -/

/-- Only what names lead to is reached. -/
theorem reach_leads {fuel : Nat} {visited : List String} {reached : List Nat} {pending : List String}
    {index : Nat} (member : index ∈ reach table (functionNames table) fuel visited reached pending) :
    index ∈ reached ∨ ∃ name ∈ pending, Leads table name index := by
  induction fuel generalizing visited reached pending with
  | zero => exact Or.inl member
  | succ fuel ih =>
      cases pending with
      | nil => exact Or.inl member
      | cons name pending =>
          have later : (index ∈ reached ∨ ∃ name ∈ pending, Leads table name index) →
              index ∈ reached ∨ ∃ other ∈ name :: pending, Leads table other index :=
            Or.imp_right fun ⟨other, inside, leads⟩ => ⟨other, List.mem_cons_of_mem _ inside, leads⟩
          unfold reach at member
          cases found : table.lookup name with
          | none =>
              rw [found] at member
              exact later (ih member)
          | some entity =>
              rw [found] at member
              -- A declaration is reached itself; a function passes on what its own names lead to.
              cases entity with
              | value other =>
                  rcases ih member with new | rest
                  · by_cases same : index = other
                    · exact Or.inr ⟨name, List.mem_cons_self, .value (same ▸ found)⟩
                    · refine Or.inl ?_
                      split at new
                      · exact new
                      · exact (List.mem_cons.mp new).resolve_left same
                  · exact later (Or.inr rest)
              | function literal =>
                  dsimp only at member
                  split at member
                  · exact later (ih member)
                  · rcases ih member with before | ⟨inner, inside, leads⟩
                    · exact Or.inl before
                    · rcases List.mem_append.mp inside with here | rest
                      · rw [lookup_functionNames found] at here
                        exact Or.inr ⟨name, List.mem_cons_self,
                          .function found (List.mem_eraseDups.mp here) leads⟩
                      · exact later (Or.inr ⟨inner, rest, leads⟩)

theorem leads_of_mem_dependenciesOf {decl : ValueDecl} {index : Nat}
    (member : index ∈ dependenciesOf table (functionNames table) decl) :
    ∃ name ∈ FreeNames.ofExprs [] decl.values, Leads table name index := by
  rcases reach_leads member with none | ⟨name, free, leads⟩
  · exact absurd none List.not_mem_nil
  · exact ⟨name, List.mem_eraseDups.mp free, leads⟩

/-! ## Arranging -/

variable {deps : List (List Nat)} {flags : Array Bool}

theorem isSome_nextReady {index : Nat} {needed : List Nat} (known : deps[index]? = some needed)
    (new : isDone flags index = false) (ready : ∀ other ∈ needed, isDone flags other = true) :
    (nextReady deps flags).isSome := by
  unfold nextReady
  rw [Option.isSome_map, List.find?_isSome]
  exact ⟨(needed, index), List.mem_zipIdx_iff_getElem?.mpr known, by simpa [new] using ready⟩

theorem left_le_set {count index : Nat} (size : flags.size = count) (inside : index < count) :
    left count flags ≤ left count (flags.setIfInBounds index true) + 1 := by
  have sub : ((Finset.range count).filter fun other => isDone flags other = false)
      ⊆ insert index ((Finset.range count).filter fun other =>
        isDone (flags.setIfInBounds index true) other = false) := by
    intro other member
    obtain ⟨within, new⟩ := Finset.mem_filter.mp member
    rw [Finset.mem_insert, Finset.mem_filter]
    by_cases same : other = index
    · exact Or.inl same
    · refine Or.inr ⟨within, ?_⟩
      rw [Bool.eq_false_iff, ne_eq, isDone_set (size ▸ inside), not_or, new]
      exact ⟨same, Bool.false_ne_true⟩
  exact (Finset.card_le_card sub).trans (Finset.card_insert_le _ _)

/-- If there is always a declaration that is ready, then all can be arranged. -/
theorem arrange_succeeds {fuel : Nat} (size : flags.size = deps.length) (enough : fuel ≤ left deps.length flags)
    (ready : ∀ flags : Array Bool, flags.size = deps.length →
      (∃ index < deps.length, isDone flags index = false) → (nextReady deps flags).isSome) :
    ∃ order, arrange deps fuel flags = .ok order := by
  induction fuel generalizing flags with
  | zero => exact ⟨[], rfl⟩
  | succ fuel ih =>
      have undone : ∃ index < deps.length, isDone flags index = false := by
        have some := Finset.card_pos.mp (Nat.lt_of_lt_of_le (Nat.succ_pos fuel) enough)
        obtain ⟨index, member⟩ := some
        obtain ⟨within, new⟩ := Finset.mem_filter.mp member
        exact ⟨index, Finset.mem_range.mp within, new⟩
      obtain ⟨index, next⟩ := Option.isSome_iff_exists.mp (ready flags size undone)
      obtain ⟨_, known, _⟩ := nextReady_some next
      have inside := (List.getElem?_eq_some_iff.mp known).1
      have fewer := @left_le_set flags _ _ size inside
      obtain ⟨order, arranged⟩ := @ih (flags.setIfInBounds index true)
        (by rw [Array.size_setIfInBounds, size]) (by omega)
      refine ⟨index :: order, ?_⟩
      unfold arrange
      rw [next]
      dsimp only
      rw [arranged]
      rfl

/-- Among declarations that are not initialized, one of the lowest rank is ready. -/
theorem ready_of_rank {rank : String → Nat}
    (lower : ∀ decl ∈ declarationsOf package, ∀ name ∈ decl.bound, ∀ free ∈ FreeNames.ofExprs [] decl.values,
      ∀ needed, Uses package free needed → rank needed < rank name)
    (undone : ∃ index < (dependencies package).length, isDone flags index = false) :
    (nextReady (dependencies package) flags).isSome := by
  -- A declaration is ready, or it needs one that is not initialized.
  have step : ∀ index < (dependencies package).length, isDone flags index = false →
      (nextReady (dependencies package) flags).isSome ∨
      ∃ item other needed, (initializers package)[index]? = some item ∧
        (∃ later, (initializers package)[other]? = some later ∧ needed ∈ later.decl.bound) ∧
        isDone flags other = false ∧ ∀ name ∈ item.decl.bound, rank needed < rank name := by
    intro index inside new
    have known := List.getElem?_eq_getElem inside
    by_cases ready : ∀ other ∈ (dependencies package)[index], isDone flags other = true
    · exact Or.inl (isSome_nextReady known new ready)
    · push Not at ready
      obtain ⟨other, member, pending⟩ := ready
      unfold dependencies at known member
      rw [List.getElem?_map] at known
      obtain ⟨item, found, same⟩ := Option.map_eq_some_iff.mp known
      rw [← same] at member
      obtain ⟨free, isFree, leads⟩ := leads_of_mem_dependenciesOf member
      obtain ⟨later, needed, there, bound, uses⟩ := uses_of_leads leads
      exact Or.inr ⟨item, other, needed, found, ⟨later, there, bound⟩, by simpa using pending,
        fun name here => lower _ (mem_declarationsOf found) name here free isFree needed uses⟩
  have count : (dependencies package).length = (initializers package).length := List.length_map _
  have descend : ∀ (bound index : Nat) (item : Initializer) (name : String),
      (initializers package)[index]? = some item → name ∈ item.decl.bound → rank name < bound →
      isDone flags index = false → (nextReady (dependencies package) flags).isSome := by
    intro bound
    induction bound with
    | zero => exact fun _ _ _ _ _ less => absurd less (Nat.not_lt_zero _)
    | succ bound ih =>
        intro index item name found inside less new
        have within := count ▸ (List.getElem?_eq_some_iff.mp found).1
        rcases step index within new with ready | ⟨item', other, needed, found', ⟨later, there, isBound⟩, pending, below⟩
        · exact ready
        · obtain rfl := Option.some.inj (found.symm.trans found')
          exact ih other later needed there isBound (by have := below name inside; omega) pending
  obtain ⟨index, inside, new⟩ := undone
  rcases step index inside new with ready | ⟨_, other, needed, _, ⟨later, there, isBound⟩, pending, _⟩
  · exact ready
  · exact descend _ other later needed there isBound (Nat.lt_succ_self _) pending

/-- The declarations of a grounded package can be initialized one after another. -/
theorem Grounded.initializationOrder (grounded : Grounded package) :
    ∃ order, initializationOrder package = .ok order := by
  obtain ⟨rank, lower⟩ := grounded
  have count : (dependencies package).length = (initializers package).length := List.length_map _
  have all : left (dependencies package).length (Array.replicate (initializers package).length false)
      = (initializers package).length := by
    have every : ∀ index, isDone (Array.replicate (initializers package).length false) index = false := by
      intro index
      rw [isDone, Array.getD_eq_getD_getElem?, Array.getElem?_replicate]
      split <;> rfl
    rw [left, count, Finset.filter_true_of_mem fun index _ => every index, Finset.card_range]
  obtain ⟨order, arranged⟩ := arrange_succeeds (by rw [Array.size_replicate, count]) (Nat.le_of_eq all.symm)
    fun flags _ undone => ready_of_rank lower undone
  refine ⟨order.filterMap ((initializers package)[·]?), ?_⟩
  unfold MiniGo.initializationOrder
  dsimp only
  rw [arranged]

/-! ## Orders give ranks -/

theorem Sorted.before {done indices : List Nat} (sorted : Sorted package done indices) {index : Nat}
    {item : Initializer} (member : index ∈ indices) (found : (initializers package)[index]? = some item)
    {name : String} (free : name ∈ FreeNames.ofExprs [] item.decl.values) {needed : Nat}
    (leads : Leads (entities package) name needed) :
    needed ∈ done ∨ indices.idxOf needed < indices.idxOf index := by
  induction indices generalizing done with
  | nil => exact absurd member List.not_mem_nil
  | cons first rest ih =>
      obtain ⟨_, ⟨item', found', before⟩, others⟩ := sorted
      by_cases here : first = index
      · subst here
        obtain rfl := Option.some.inj (found.symm.trans found')
        exact Or.inl (before name free needed leads)
      · rcases ih others ((List.mem_cons.mp member).resolve_left (Ne.symm here)) with inside | less
        · rcases List.mem_cons.mp inside with rfl | inside
          · refine Or.inr ?_
            rw [List.idxOf_cons_self, List.idxOf_cons_ne _ here]
            omega
          · exact Or.inl inside
        · refine Or.inr ?_
          rw [List.idxOf_cons_ne _ here]
          by_cases same : first = needed
          · subst same
            rw [List.idxOf_cons_self]
            omega
          · rw [List.idxOf_cons_ne _ same]
            omega

/-- The place of a declaration in an order; a function has none of its own. -/
def placeOf (indices : List Nat) : Option Entity → Nat
  | some (.value index) => indices.idxOf index
  | _ => 0

/-- A package whose declarations are in order is grounded, unless the blank name is used. -/
theorem grounded_of_sorted {indices : List Nat} (sorted : Sorted package [] indices)
    (distinct : Distinct package indices) (clean : Clean package)
    (named : ∀ decl ∈ declarationsOf package, blankName ∉ FreeNames.ofExprs [] decl.values) :
    Grounded package := by
  let place (name : String) : Nat := placeOf indices ((entities package).lookup name)
  have placed : ∀ {name index}, (entities package).lookup name = some (.value index) →
      place name = indices.idxOf index := fun found => by simp only [place, found, placeOf]
  refine ⟨place, fun decl member name bound free isFree needed uses => ?_⟩
  obtain ⟨index, item, found, rfl⟩ := initializer_of_mem member
  have real : free ≠ blankName := fun blank => named _ member (blank ▸ isFree)
  obtain ⟨other, leads, known⟩ := leads_of_uses distinct clean uses real
  rw [placed known, placed (distinct.lookup_value found bound)]
  have inside := distinct.all index (List.getElem?_eq_some_iff.mp found).1
  exact (sorted.before inside found isFree leads).resolve_left List.not_mem_nil

end MiniGo.Initialization
