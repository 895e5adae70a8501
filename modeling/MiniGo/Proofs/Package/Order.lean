import Mathlib
import MiniGo.Package.Initialization

/-!
# The order of initialization is safe

A name leads to the declarations that have to be initialized before code may use it: a declared value
leads to its declaration, and a function to all that its free names lead to. `reach` finds all of them,
so in the order that `arrange` gives every declaration stands behind all that its values lead to.
-/

namespace MiniGo.Initialization

/-- A name leads to a declaration, maybe through functions. -/
inductive Leads (table : List (String × Entity)) : String → Nat → Prop where
  | value {name : String} {index : Nat} : table.lookup name = some (.value index) →
      Leads table name index
  | function {name inner : String} {literal : FunctionLiteral} {index : Nat} :
      table.lookup name = some (.function literal) → inner ∈ FreeNames.ofFunction [] literal →
      Leads table inner index → Leads table name index

variable {table : List (String × Entity)} {calls : List (String × List String)}

/-! ## Following names -/

/-- A name is still to be followed, or where it leads is known. -/
def Followed (table : List (String × Entity)) (visited : List String) (reached : List Nat)
    (pending : List String) (name : String) : Prop :=
  name ∈ pending ∨
    match table.lookup name with
    | none => True
    | some (.value index) => index ∈ reached
    | some (.function _) => name ∈ visited

/-- The names in functions that were visited are followed. -/
def Closed (table : List (String × Entity)) (calls : List (String × List String))
    (visited : List String) (reached : List Nat) (pending : List String) : Prop :=
  ∀ name ∈ visited, ∀ inner ∈ (calls.lookup name).getD [],
    Followed table visited reached pending inner

def unvisited (calls : List (String × List String)) (visited : List String) : List String :=
  (calls.filter fun call => !visited.contains call.1).flatMap (·.2)

theorem length_unvisited_le (calls : List (String × List String)) (name : String) (visited : List String) :
    (unvisited calls (name :: visited)).length ≤ (unvisited calls visited).length := by
  induction calls with
  | nil => exact Nat.le_refl _
  | cons call calls ih =>
      simp only [unvisited, List.filter_cons, List.contains_cons] at ih ⊢
      cases call.1 == name <;> cases visited.contains call.1 <;> simp at ih ⊢ <;> omega

/-- Visiting a function takes its names away from those that may come. -/
theorem length_unvisited_cons {name : String} {visited : List String} (new : name ∉ visited) :
    ((calls.lookup name).getD []).length + (unvisited calls (name :: visited)).length
      ≤ (unvisited calls visited).length := by
  induction calls with
  | nil => exact Nat.le_refl _
  | cons call calls ih =>
      obtain ⟨key, names⟩ := call
      by_cases same : name = key
      · subst same
        have rest := length_unvisited_le calls name visited
        have out : visited.contains name = false := by simpa using new
        simp only [unvisited, List.filter_cons, List.contains_cons, out, beq_self_eq_true, Bool.true_or,
          Bool.not_true, Bool.not_false, Bool.false_eq_true, if_false, if_true, List.lookup_cons_self,
          Option.getD_some, List.flatMap_cons, List.length_append] at rest ⊢
        omega
      · have other : (name == key) = false := by simpa using same
        have other' : (key == name) = false := by simpa using Ne.symm same
        simp only [unvisited, List.filter_cons, List.contains_cons, List.lookup_cons, other, other',
          Bool.false_or] at ih ⊢
        split
        · simp only [List.flatMap_cons, List.length_append]
          omega
        · exact ih

/-- What is followed stays followed when more is, if the name taken off is followed too. -/
theorem Followed.mono {visited further : List String} {reached more : List Nat}
    {pending rest : List String} {name : String} (known : Followed table further more rest name)
    (visits : visited ⊆ further) (reaches : reached ⊆ more) (waits : pending ⊆ rest)
    (other : String) (followed : Followed table visited reached (name :: pending) other) :
    Followed table further more rest other := by
  rcases followed with member | led
  · rcases List.mem_cons.mp member with rfl | member
    · exact known
    · exact Or.inl (waits member)
  · refine Or.inr ?_
    split at led
    · trivial
    · exact reaches led
    · exact visits led

/-- A name of a value is followed once its index is reached. -/
theorem followed_value {visited pending : List String} (reached : List Nat) {name : String} {index : Nat}
    (found : table.lookup name = some (.value index)) :
    Followed table visited (if reached.contains index then reached else index :: reached) pending name := by
  refine Or.inr ?_
  rw [found]
  dsimp only
  split
  · rename_i here
    simpa using here
  · exact List.mem_cons_self

theorem followed_function {visited pending : List String} {reached : List Nat} {name : String}
    {literal : FunctionLiteral} (found : table.lookup name = some (.function literal)) (seen : name ∈ visited) :
    Followed table visited reached pending name := by
  refine Or.inr ?_
  rw [found]
  exact seen

/-- Visiting a function leaves its own names to be followed. -/
theorem Closed.visit {visited pending : List String} {reached : List Nat} {name : String}
    (closed : Closed table calls visited reached (name :: pending))
    (known : Followed table (name :: visited) reached ((calls.lookup name).getD [] ++ pending) name) :
    Closed table calls (name :: visited) reached ((calls.lookup name).getD [] ++ pending) := by
  intro other member inner inside
  rcases List.mem_cons.mp member with rfl | member
  · exact Or.inl (List.mem_append_left _ inside)
  · exact known.mono (List.subset_cons_self name visited) (fun _ => id) (List.subset_append_right _ pending) inner
      (closed other member inner inside)

/-- Whatever is followed at the start leads nowhere else in the end. -/
theorem reach_closed (fuel : Nat) (visited : List String) (reached : List Nat) (pending : List String)
    (enough : pending.length + (unvisited calls visited).length < fuel)
    (closed : Closed table calls visited reached pending) :
    ∃ last, Closed table calls last (reach table calls fuel visited reached pending) [] ∧
      ∀ name, Followed table visited reached pending name →
        Followed table last (reach table calls fuel visited reached pending) [] name := by
  -- The fuel bounds the names that are waiting and those that unvisited functions may still add.
  induction fuel generalizing visited reached pending with
  | zero => exact absurd enough (Nat.not_lt_zero _)
  | succ fuel ih =>
      cases pending with
      | nil => exact ⟨visited, closed, fun _ followed => followed⟩
      | cons name pending =>
          rw [List.length_cons] at enough
          have goOn {further : List String} {more : List Nat} {rest : List String}
              (enough : rest.length + (unvisited calls further).length < fuel)
              (closed : Closed table calls further more rest)
              (grow : ∀ other, Followed table visited reached (name :: pending) other →
                Followed table further more rest other) :
              ∃ last, Closed table calls last (reach table calls fuel further more rest) [] ∧
                ∀ other, Followed table visited reached (name :: pending) other →
                  Followed table last (reach table calls fuel further more rest) [] other :=
            let ⟨last, done, follows⟩ := ih further more rest enough closed
            ⟨last, done, fun other followed => follows other (grow other followed)⟩
          -- A name that leads nowhere new is dropped.
          have drop (known : Followed table visited reached pending name) :=
            have grow := known.mono (fun _ => id) (fun _ => id) (fun _ => id)
            goOn (by omega) (fun other member inner inside => grow inner (closed other member inner inside)) grow
          unfold reach
          cases found : table.lookup name with
          | none => exact drop (Or.inr (by rw [found]; trivial))
          | some entity =>
              cases entity with
              | value index =>
                  dsimp only
                  have more : reached ⊆ if reached.contains index then reached else index :: reached := by
                    split
                    · exact fun _ => id
                    · exact List.subset_cons_self index reached
                  have known : Followed table visited _ pending name := followed_value reached found
                  have grow := known.mono (fun _ => id) more (fun _ => id)
                  exact goOn (by omega)
                    (fun other member inner inside => grow inner (closed other member inner inside)) grow
              | function literal =>
                  dsimp only
                  split
                  · rename_i seen
                    exact drop (followed_function found (by simpa using seen))
                  · rename_i unseen
                    have fewer := @length_unvisited_cons calls name visited (by simpa using unseen)
                    have known : Followed table (name :: visited) reached ((calls.lookup name).getD [] ++ pending) name :=
                      followed_function found List.mem_cons_self
                    exact goOn (by rw [List.length_append]; omega) (closed.visit known)
                      (known.mono (List.subset_cons_self name visited) (fun _ => id)
                        (List.subset_append_right _ pending))

theorem lookup_functionNames {name : String} {literal : FunctionLiteral}
    (found : table.lookup name = some (.function literal)) :
    (functionNames table).lookup name = some (FreeNames.ofFunction [] literal).eraseDups := by
  induction table with
  | nil => exact nomatch found
  | cons entry table ih =>
      obtain ⟨key, entity⟩ := entry
      rw [List.lookup_cons] at found
      unfold functionNames
      rw [List.filterMap_cons]
      split at found
      · obtain rfl := Option.some.inj found
        rename_i same
        dsimp only
        rw [List.lookup_cons, same]
      · rename_i different
        cases entity with
        | value index => exact ih found
        | function other =>
            dsimp only
            rw [List.lookup_cons, different]
            exact ih found

/-- A declaration depends on everything that its free names lead to. -/
theorem leads_mem_dependenciesOf {decl : ValueDecl} {name : String} {index : Nat}
    (free : name ∈ FreeNames.ofExprs [] decl.values) (leads : Leads table name index) :
    index ∈ dependenciesOf table (functionNames table) decl := by
  have all : unvisited (functionNames table) [] = (functionNames table).flatMap (·.2) := by
    simp [unvisited]
  have start : (FreeNames.ofExprs [] decl.values).eraseDups.length
      + (unvisited (functionNames table) []).length
      < ((functionNames table).flatMap (·.2)).length
        + (FreeNames.ofExprs [] decl.values).eraseDups.length + 1 := by
    rw [all]
    omega
  obtain ⟨last, closed, follows⟩ :=
    @reach_closed table _ _ [] [] _ start fun name member => absurd member List.not_mem_nil
  have followed := follows name (Or.inl (List.mem_eraseDups.mpr free))
  change index ∈ reach table (functionNames table) _ [] [] _
  clear free follows
  induction leads with
  | value found =>
      have rest := followed.resolve_left List.not_mem_nil
      rw [found] at rest
      exact rest
  | @function name inner literal index found inside _ ih =>
      have rest := followed.resolve_left List.not_mem_nil
      rw [found] at rest
      refine ih (closed name rest inner ?_)
      rw [lookup_functionNames found]
      exact List.mem_eraseDups.mpr inside

/-! ## Arranging declarations -/

/-- Every index is new and stands behind its dependencies. -/
def Arranged (deps : List (List Nat)) : List Nat → List Nat → Prop
  | _, [] => True
  | done, index :: rest =>
      index ∉ done ∧ (∃ needed, deps[index]? = some needed ∧ ∀ other ∈ needed, other ∈ done) ∧
        Arranged deps (index :: done) rest

variable {deps : List (List Nat)} {flags : Array Bool}

theorem isDone_set {index other : Nat} (inside : index < flags.size) :
    isDone (flags.setIfInBounds index true) other = true ↔ other = index ∨ isDone flags other = true := by
  unfold isDone
  rw [Array.getD_eq_getD_getElem?, Array.getD_eq_getD_getElem?, Array.getElem?_setIfInBounds]
  by_cases same : index = other
  · subst same
    simp [inside]
  · simp [same, Ne.symm same]

theorem nextReady_some {index : Nat} (found : nextReady deps flags = some index) :
    ∃ needed, deps[index]? = some needed ∧ isDone flags index = false ∧
      ∀ other ∈ needed, isDone flags other = true := by
  obtain ⟨⟨needed, position⟩, first, rfl⟩ := Option.map_eq_some_iff.mp found
  have member := List.mem_of_find?_eq_some first
  have ready := List.find?_some first
  refine ⟨needed, List.mem_zipIdx_iff_getElem?.mp member, ?_⟩
  simpa using ready

def left (count : Nat) (flags : Array Bool) : Nat :=
  ((Finset.range count).filter fun index => isDone flags index = false).card

theorem left_set {count index : Nat} (size : flags.size = count) (inside : index < count)
    (new : isDone flags index = false) :
    left count (flags.setIfInBounds index true) < left count flags := by
  refine Finset.card_lt_card (Finset.ssubset_iff_of_subset (fun other member => ?_) |>.mpr ⟨index, ?_, ?_⟩)
  · rw [Finset.mem_filter] at member ⊢
    refine ⟨member.1, ?_⟩
    by_contra done
    have later := (@isDone_set flags index other (size ▸ inside)).mpr (Or.inr (by simpa using done))
    rw [later] at member
    exact nomatch member.2
  · exact Finset.mem_filter.mpr ⟨Finset.mem_range.mpr inside, new⟩
  · intro member
    have here := (Finset.mem_filter.mp member).2
    rw [(@isDone_set flags index index (size ▸ inside)).mpr (Or.inl rfl)] at here
    exact nomatch here

theorem arrange_ok {fuel : Nat} {order done : List Nat} (ran : arrange deps fuel flags = .ok order)
    (size : flags.size = deps.length) (same : ∀ index, isDone flags index = true ↔ index ∈ done) :
    Arranged deps done order ∧
      (left deps.length flags ≤ fuel → ∀ index < deps.length, index ∈ done ∨ index ∈ order) := by
  induction fuel generalizing flags order done with
  | zero =>
      obtain rfl : [] = order := Except.ok.inj ran
      refine ⟨trivial, fun none index inside => Or.inl ?_⟩
      by_contra missing
      have member : index ∈ (Finset.range deps.length).filter fun index => isDone flags index = false :=
        Finset.mem_filter.mpr ⟨Finset.mem_range.mpr inside, by simpa [← same] using missing⟩
      exact absurd (Finset.card_pos.mpr ⟨index, member⟩) (Nat.not_lt.mpr none)
  | succ fuel ih =>
      unfold arrange at ran
      split at ran
      · exact nomatch ran
      · rename_i index next
        obtain ⟨needed, known, new, ready⟩ := nextReady_some next
        have inside : index < deps.length := (List.getElem?_eq_some_iff.mp known).1
        cases rest : arrange deps fuel (flags.setIfInBounds index true) with
        | error other => rw [rest] at ran; exact nomatch ran
        | ok others =>
            rw [rest] at ran
            obtain rfl : index :: others = order := Except.ok.inj ran
            -- The flags stand for the declarations that are done, with the one that is placed now.
            have later : ∀ other, isDone (flags.setIfInBounds index true) other = true ↔
                other ∈ index :: done := fun other => by
              rw [isDone_set (size ▸ inside), same, List.mem_cons]
            obtain ⟨arranged, covers⟩ := ih rest (by rw [Array.size_setIfInBounds, size]) later
            refine ⟨⟨?_, ⟨needed, known, fun other member => (same other).mp (ready other member)⟩, arranged⟩,
              fun enough other within => ?_⟩
            · rw [← same, new]
              exact Bool.false_ne_true
            · have fewer := left_set size inside new
              rcases covers (by omega) other within with before | after
              · rcases List.mem_cons.mp before with rfl | before
                · exact Or.inr List.mem_cons_self
                · exact Or.inl before
              · exact Or.inr (List.mem_cons_of_mem _ after)

/-! ## Packages -/

/-- Every declaration of a package is new and stands behind all that its values lead to. -/
def Sorted (package : Package) : List Nat → List Nat → Prop
  | _, [] => True
  | done, index :: rest =>
      index ∉ done ∧
      (∃ item, (initializers package)[index]? = some item ∧
        ∀ name ∈ FreeNames.ofExprs [] item.decl.values, ∀ needed,
          Leads (entities package) name needed → needed ∈ done) ∧
      Sorted package (index :: done) rest

theorem sorted_of_arranged {package : Package} {done order : List Nat}
    (arranged : Arranged (dependencies package) done order) : Sorted package done order := by
  induction order generalizing done with
  | nil => trivial
  | cons index rest ih =>
      obtain ⟨new, ⟨needed, known, before⟩, others⟩ := arranged
      refine ⟨new, ?_, ih others⟩
      obtain ⟨item, found, rfl⟩ : ∃ item, (initializers package)[index]? = some item ∧
          dependenciesOf (entities package) (functionNames (entities package)) item.decl = needed := by
        unfold dependencies at known
        rw [List.getElem?_map] at known
        exact Option.map_eq_some_iff.mp known
      exact ⟨item, found, fun name free other leads => before other (leads_mem_dependenciesOf free leads)⟩

/-- The order of initialization has every declaration once, behind all that its values lead to. -/
theorem initializationOrder_ok {package : Package} {order : List Initializer}
    (ran : initializationOrder package = .ok order) :
    ∃ indices, order = indices.filterMap ((initializers package)[·]?) ∧ Sorted package [] indices ∧
      ∀ index < (initializers package).length, index ∈ indices := by
  unfold initializationOrder at ran
  dsimp only at ran
  split at ran
  · rename_i indices arranged
    have count : (dependencies package).length = (initializers package).length := by
      unfold dependencies
      exact List.length_map _
    have none : ∀ index, isDone (Array.replicate (initializers package).length false) index = true ↔
        index ∈ ([] : List Nat) := by
      intro index
      simp only [isDone, Array.getD_eq_getD_getElem?, Array.getElem?_replicate, List.not_mem_nil, iff_false]
      split <;> exact Bool.false_ne_true
    obtain ⟨sorted, covers⟩ := arrange_ok arranged (by rw [Array.size_replicate, count]) none
    refine ⟨indices, (Except.ok.inj ran).symm, sorted_of_arranged sorted, fun index inside => ?_⟩
    rw [count] at covers
    refine (covers ?_ index inside).resolve_left List.not_mem_nil
    exact (Finset.card_filter_le _ _).trans (Nat.le_of_eq (Finset.card_range _))
  · exact nomatch ran

end MiniGo.Initialization
