import MiniGo.Proofs.Package.Selection

/-!
# Cycles of dependencies

When the selection is stuck, every declaration that is left depends on another one that is left. So the
walk along these comes back to a declaration that it has passed, at the latest when it has passed all of
them, and what it has passed since then is a cycle (`Trail.walk`). Hence a package has an order of
initialization exactly when none of its declarations depends on itself, and the cycle that is reported
otherwise is one.
-/

namespace MiniGo.Initialization

variable {package : Package} {done : Array Bool} {placed path : List Nat} {index current : Nat}

/-- A declaration that is not placed. -/
def Pending (package : Package) (placed : List Nat) (index : Nat) : Prop :=
  index < (initializers package).length ∧ index ∉ placed

/-- Each of some declarations depends on the next, and the last on the first; they are pending and no two
of them are the same. -/
structure IsCycle (package : Package) (placed : List Nat) (first : Nat) (rest : List Nat) : Prop where
  nodup : (first :: rest).Nodup
  pending : ∀ index ∈ first :: rest, Pending package placed index
  chain : List.IsChain (Depends package) (first :: (rest ++ [first]))

/-- What a walk has passed, in reverse, and where it stands. -/
structure Trail (package : Package) (placed path : List Nat) (current : Nat) : Prop where
  nodup : path.Nodup
  pending : ∀ index ∈ current :: path, Pending package placed index
  chain : List.IsChain (Depends package) (path.reverse ++ [current])

/-! ## The walk -/

/-- Every declaration that is left waits for another one that is left. -/
theorem Stuck.waits (stuck : Stuck package done placed) (pending : Pending package placed index) :
    Depends package index (firstPending (dependencies package) done index) ∧
      Pending package placed (firstPending (dependencies package) done index) := by
  have inside : index < (dependencies package).length := length_dependencies package ▸ pending.1
  have known := List.getElem?_eq_getElem inside
  obtain ⟨other, depends, waits⟩ : ∃ other, Depends package index other ∧ other ∉ placed := by
    by_contra all
    push Not at all
    exact Set.eq_empty_iff_forall_notMem.mp stuck.exhausted index ⟨pending.1, pending.2, all⟩
  have pendings : ∀ next, next ∈ (dependencies package)[index].filter (fun next => !isDone done next) ↔
      Depends package index next ∧ next ∉ placed := by
    intro next
    rw [List.mem_filter, mem_dependencies known, Bool.not_eq_true', ← Bool.not_eq_true, stuck.marks.isDone]
  unfold firstPending
  rw [known]
  dsimp only [Option.getD_some]
  cases least : ((dependencies package)[index].filter fun next => !isDone done next).min? with
  | none =>
      have member := (pendings other).mpr ⟨depends, waits⟩
      rw [List.min?_eq_none_iff.mp least] at member
      exact absurd member List.not_mem_nil
  | some next =>
      obtain ⟨depends, left⟩ := (pendings next).mp (List.min?_mem least)
      exact ⟨depends, depends.lt.2, left⟩

theorem Trail.step (trail : Trail package placed path current) (stuck : Stuck package done placed)
    (new : current ∉ path) :
    Trail package placed (current :: path) (firstPending (dependencies package) done current) := by
  obtain ⟨depends, left⟩ := stuck.waits (trail.pending current List.mem_cons_self)
  refine ⟨List.nodup_cons.mpr ⟨new, trail.nodup⟩, List.forall_mem_cons.mpr ⟨left, trail.pending⟩, ?_⟩
  rw [List.reverse_cons, List.append_assoc, List.singleton_append, List.isChain_append_cons_cons]
  exact ⟨trail.chain, depends, List.isChain_singleton _⟩

theorem Trail.close (trail : Trail package placed path current) (back : current ∈ path) :
    ∃ rest, path.reverse.dropWhile (· != current) = current :: rest ∧ IsCycle package placed current rest := by
  obtain ⟨front, rest, same⟩ := List.append_of_mem (List.mem_reverse.mpr back)
  have nodup : (front ++ current :: rest).Nodup := same ▸ List.nodup_reverse.mpr trail.nodup
  have before : ∀ index ∈ front, (index != current) = true := fun index member =>
    bne_iff_ne.mpr fun equal => (List.nodup_append.mp nodup).2.2 index member current List.mem_cons_self equal
  refine ⟨rest, ?_, (List.nodup_append.mp nodup).2.1, fun index member => ?_, ?_⟩
  · rw [same, List.dropWhile_append_of_pos before, List.dropWhile_cons_of_neg (by simp)]
  · have passed : index ∈ path.reverse := same ▸ List.mem_append_right front member
    exact trail.pending index (List.mem_cons_of_mem _ (List.mem_reverse.mp passed))
  · have chain := trail.chain
    rw [same, List.append_assoc] at chain
    exact chain.right_of_append

/-- The walk ends in a cycle, and more fuel than there are declarations changes nothing. -/
theorem Trail.walk (stuck : Stuck package done placed) (room : Nat) (trail : Trail package placed path current)
    (enough : (initializers package).length < room + path.length) :
    ∃ first rest, IsCycle package placed first rest ∧
      ∀ fuel, room ≤ fuel → Initialization.walk (dependencies package) done fuel path current = first :: rest := by
  induction room generalizing path current with
  | zero =>
      -- The declarations passed would be more than there are.
      have within : path ⊆ List.range (initializers package).length := fun index member =>
        List.mem_range.mpr (trail.pending index (List.mem_cons_of_mem _ member)).1
      have few := (trail.nodup.subperm within).length_le
      rw [List.length_range] at few
      omega
  | succ room ih =>
      by_cases back : current ∈ path
      · obtain ⟨rest, same, cycle⟩ := trail.close back
        refine ⟨current, rest, cycle, fun fuel most => ?_⟩
        obtain ⟨fuel, rfl⟩ := Nat.exists_eq_add_of_le' (Nat.le_of_add_left_le most)
        rw [Initialization.walk, if_pos (List.contains_iff_mem.mpr back), same]
      · obtain ⟨first, rest, cycle, walks⟩ := ih (trail.step stuck back) (by rw [List.length_cons]; omega)
        refine ⟨first, rest, cycle, fun fuel most => ?_⟩
        obtain ⟨fuel, rfl⟩ := Nat.exists_eq_add_of_le' (Nat.le_of_add_left_le most)
        rw [Initialization.walk, if_neg (List.contains_iff_mem.not.mpr back)]
        exact walks fuel (by omega)

/-- The walk begins at the first declaration that is left. -/
theorem Stuck.start (stuck : Stuck package done placed) :
    ∃ start, IsLeast {index | Pending package placed index} start ∧
      ((List.range (dependencies package).length).find? fun index => !isDone done index) = some start := by
  have left : ∀ index, (!isDone done index) = true ↔ index ∉ placed := fun index => by
    rw [Bool.not_eq_true', ← Bool.not_eq_true, stuck.marks.isDone]
  cases found : (List.range (dependencies package).length).find? fun index => !isDone done index with
  | none =>
      obtain ⟨index, inside, pending⟩ := stuck.unfinished
      have member := List.mem_range.mpr (length_dependencies package ▸ inside)
      exact absurd ((left index).mpr pending) (List.find?_eq_none.mp found index member)
  | some start =>
      obtain ⟨pending, place, bound, same, before⟩ := List.find?_eq_some_iff_getElem.mp found
      rw [List.getElem_range] at same
      subst same
      rw [List.length_range, length_dependencies] at bound
      refine ⟨place, ⟨⟨bound, (left place).mp pending⟩, fun other waits => ?_⟩, rfl⟩
      by_contra earlier
      have refused := before other (Nat.not_le.mp earlier)
      rw [List.getElem_range, (left other).mpr waits.2] at refused
      exact nomatch refused

theorem Stuck.cycle (stuck : Stuck package done placed) :
    ∃ start first rest, IsLeast {index | Pending package placed index} start ∧ IsCycle package placed first rest ∧
      cycle (dependencies package) done = first :: rest ∧
      ∀ fuel, (initializers package).length < fuel →
        Initialization.walk (dependencies package) done fuel [] start = first :: rest := by
  obtain ⟨start, least, found⟩ := stuck.start
  have trail : Trail package placed [] start :=
    ⟨List.nodup_nil, List.forall_mem_singleton.mpr least.1, List.isChain_singleton _⟩
  obtain ⟨first, rest, cycle, walks⟩ := trail.walk stuck ((initializers package).length + 1) (Nat.lt_succ_self _)
  refine ⟨start, first, rest, least, cycle, ?_, walks⟩
  unfold Initialization.cycle
  rw [found]
  exact walks _ (by rw [length_dependencies])

theorem IsCycle.transGen {first : Nat} {rest : List Nat} (cycle : IsCycle package placed first rest) :
    Relation.TransGen (Depends package) first first := by
  have along : ∀ (between : List Nat) (last : Nat), List.IsChain (Depends package) (last :: (between ++ [first])) →
      Relation.TransGen (Depends package) last first := by
    intro between
    induction between with
    | nil => exact fun last chain => .single (List.isChain_cons_cons.mp chain).1
    | cons next between ih =>
        intro last chain
        obtain ⟨depends, chain⟩ := List.isChain_cons_cons.mp chain
        exact .head depends (ih next chain)
  exact along rest first cycle.chain

/-! ## The order of a package -/

/-- The selection, from the start: a package has an order, or the cycle is reported at which it is stuck. -/
theorem initializationOrder_cases (package : Package) :
    (∃ indices, initializationOrder package = .ok (indices.filterMap ((initializers package)[·]?)) ∧
      Greedy package indices ∧ ∀ index < (initializers package).length, index ∈ indices) ∨
    ∃ done placed, Stuck package done placed ∧ initializationOrder package
      = .error (cycleError package (initializers package) (cycle (dependencies package) done)) := by
  have selects : Selects package [] _ :=
    arrange_greedy (marks_start package) (fun _ _ _ same => by simp at same) (left_start package)
  unfold initializationOrder
  dsimp only
  cases ran : arrange (dependencies package) (initializers package).length
      (Array.replicate (initializers package).length false) with
  | ok indices =>
      rw [ran] at selects
      exact Or.inl ⟨indices, rfl, selects⟩
  | error done =>
      rw [ran] at selects
      obtain ⟨placed, stuck⟩ := selects
      exact Or.inr ⟨done, placed, stuck, rfl⟩

theorem map_some_filterMap {items : List Initializer} {indices : List Nat}
    (inside : ∀ index ∈ indices, index < items.length) :
    (indices.filterMap (items[·]?)).map some = indices.map (items[·]?) := by
  induction indices with
  | nil => rfl
  | cons index indices ih =>
      obtain ⟨here, rest⟩ := List.forall_mem_cons.mp inside
      rw [List.filterMap_cons, List.getElem?_eq_getElem here]
      simp only [List.map_cons, ih rest, List.getElem?_eq_getElem here]

/-- A package has an order of initialization exactly when no declaration depends on itself. The order has
every declaration once, and at each position the earliest one that is not placed yet and depends only on
such that are. Of two things with one name at the top level, the first counts. -/
theorem initializationOrder_greedy (package : Package) :
    ((∃ order, initializationOrder package = .ok order) ↔
      ∀ index, ¬ Relation.TransGen (Depends package) index index) ∧
    ∀ order, initializationOrder package = .ok order → order.Perm (initializers package) ∧
      ∃ indices, order.map some = indices.map ((initializers package)[·]?) ∧
        indices.Perm (List.range (initializers package).length) ∧
        ∀ front index back, indices = front ++ index :: back →
          IsLeast {other | other < (initializers package).length ∧ other ∉ front ∧
            ∀ needed, Depends package other needed → needed ∈ front} index := by
  rcases initializationOrder_cases package with ⟨indices, ran, greedy, all⟩ | ⟨done, placed, stuck, ran⟩
  · refine ⟨⟨fun _ index => greedy.acyclic all, fun _ => ⟨_, ran⟩⟩, fun order same => ?_⟩
    obtain rfl := Except.ok.inj (ran.symm.trans same)
    have perm : indices.Perm (List.range (initializers package).length) :=
      (List.perm_ext_iff_of_nodup greedy.nodup List.nodup_range).mpr fun index =>
        ⟨fun member => List.mem_range.mpr (greedy.lt member), fun member => all index (List.mem_range.mp member)⟩
    refine ⟨?_, indices, map_some_filterMap fun index member => greedy.lt member, perm, greedy⟩
    have whole : (List.range (initializers package).length).filterMap ((initializers package)[·]?)
        = initializers package := by
      refine List.map_injective_iff.mpr (Option.some_injective _) ?_
      rw [map_some_filterMap fun index member => List.mem_range.mp member]
      exact List.ext_getElem (by simp) (by simp)
    exact (perm.filterMap _).trans (List.Perm.of_eq whole)
  · obtain ⟨_, first, rest, _, cycle, _, _⟩ := stuck.cycle
    refine ⟨⟨?_, fun acyclic => absurd cycle.transGen (acyclic first)⟩, ?_⟩
    · rintro ⟨order, same⟩
      exact nomatch ran.symm.trans same
    · exact fun order same => nomatch ran.symm.trans same

namespace Diamond

/-- A variable that needs two others, both of which need a fourth one through a function. -/
def program : Program where
  package := "main"
  imports := []
  declarations :=
    [.values ⟨false, ["a"], none, [.binary (.identifier "c" ⟨2, 9⟩) .add (.identifier "b" ⟨2, 13⟩) ⟨2, 11⟩], ⟨2, 1⟩⟩,
      .values ⟨false, ["b"], none, [.call (.identifier "f" ⟨3, 9⟩) [] ⟨3, 10⟩], ⟨3, 1⟩⟩,
      .values ⟨false, ["c"], none, [.call (.identifier "f" ⟨4, 9⟩) [] ⟨4, 10⟩], ⟨4, 1⟩⟩,
      .values ⟨false, ["d"], none, [.integer 3], ⟨5, 1⟩⟩,
      .function "f" ⟨⟨[], [.int], []⟩, [.return [.identifier "d" ⟨6, 25⟩] ⟨6, 18⟩], ⟨6, 1⟩⟩]

def whole : Package := ⟨"main", "main", [⟨"main.go", program⟩]⟩

theorem ordered : ∃ order, initializationOrder whole = .ok order ∧
    order.map (·.decl.names) = [["d"], ["b"], ["c"], ["a"]] := by
  refine ⟨[3, 1, 2, 0].filterMap ((initializers whole)[·]?), ?_, rfl⟩
  unfold whole program
  cbv

end Diamond

/-- The variable that all need comes first, and the others in the order in which they are written. -/
theorem diamond_initialized : ∃ order, initializationOrder Diamond.whole = .ok order ∧
    order.map (·.decl.names) = [["d"], ["b"], ["c"], ["a"]] ∧ order.Perm (initializers Diamond.whole) := by
  obtain ⟨order, ran, names⟩ := Diamond.ordered
  exact ⟨order, ran, names, ((initializationOrder_greedy Diamond.whole).2 order ran).1⟩

namespace Redeclared

/-- A variable that is declared twice, and needs one that reads it. -/
def program : Program where
  package := "main"
  imports := []
  declarations :=
    [.values ⟨false, ["y"], none, [.identifier "x" ⟨2, 9⟩], ⟨2, 1⟩⟩,
      .values ⟨false, ["x"], none, [.integer 1], ⟨3, 1⟩⟩,
      .values ⟨false, ["x"], none, [.identifier "y" ⟨4, 9⟩], ⟨4, 1⟩⟩]

def whole : Package := ⟨"main", "main", [⟨"main.go", program⟩]⟩

theorem ordered : ∃ order, initializationOrder whole = .ok order := by
  refine ⟨[⟨0, ⟨false, ["x"], none, [.integer 1], ⟨3, 1⟩⟩⟩,
    ⟨0, ⟨false, ["y"], none, [.identifier "x" ⟨2, 9⟩], ⟨2, 1⟩⟩⟩,
    ⟨0, ⟨false, ["x"], none, [.identifier "y" ⟨4, 9⟩], ⟨4, 1⟩⟩⟩], ?_⟩
  unfold whole program
  cbv

end Redeclared

/-- If every declaration of a name counted, and not only the first, then a package could have an order although
one of its declarations depends on itself. -/
theorem redeclared_has_order :
    (∃ order, initializationOrder Redeclared.whole = .ok order) ∧
    ∃ index, Relation.TransGen (DependsOn (AnyNamed Redeclared.whole) Redeclared.whole) index index := by
  refine ⟨Redeclared.ordered, 0, .tail (.single (b := 2) ?_) ?_⟩
  · exact ⟨_, "x", rfl, Or.inl rfl, .value (.tail _ (.tail _ (.head _)))⟩
  · exact ⟨_, "y", rfl, Or.inl rfl, .value (.head _)⟩

/-! ## The report -/

/-- The name by which a message calls a declaration. -/
def titleAt (package : Package) (index : Nat) : String :=
  (((initializers package)[index]?).map (·.decl.title)).getD ""

theorem map_title_filterMap {indices : List Nat} (inside : ∀ index ∈ indices, index < (initializers package).length) :
    (indices.filterMap ((initializers package)[·]?)).map (·.decl.title) = indices.map (titleAt package) := by
  have same := congrArg (List.map fun item => (item.map (·.decl.title)).getD "") (map_some_filterMap inside)
  rwa [List.map_map, List.map_map] at same

/-- When a package has no order, the selection is stuck at some declarations, the walk from the first one that
is left ends however long it may go on, and the error names a cycle of declarations that are left, the first
one again at the end, at the place and in the file of the first. -/
theorem reported_cycle_real {error : Error} (failed : initializationOrder package = .error error) :
    ∃ done placed start first rest item file,
      Stuck package done placed ∧ IsLeast {index | Pending package placed index} start ∧
      (∀ fuel, (initializers package).length < fuel →
        Initialization.walk (dependencies package) done fuel [] start = first :: rest) ∧
      IsCycle package placed first rest ∧
      (initializers package)[first]? = some item ∧ package.files[item.file]? = some file ∧
      item.decl ∈ file.program.valueDecls ∧
      error = .inFile file.path (.resolution (.initializationCycle
        ((first :: (rest ++ [first])).map (titleAt package)) item.decl.location)) := by
  rcases initializationOrder_cases package with ⟨_, ran, _⟩ | ⟨done, placed, stuck, ran⟩
  · exact nomatch ran.symm.trans failed
  · obtain ⟨start, first, rest, least, cycle, found, walks⟩ := stuck.cycle
    have inside : ∀ index ∈ first :: rest, index < (initializers package).length :=
      fun index member => (cycle.pending index member).1
    have known := List.getElem?_eq_getElem (inside first List.mem_cons_self)
    obtain ⟨file, fileFound, written⟩ := file_initializers known
    refine ⟨done, placed, start, first, rest, _, file, stuck, least, walks, cycle, known, fileFound, written, ?_⟩
    have titles := map_title_filterMap inside
    rw [List.filterMap_cons, known] at titles
    obtain rfl := Except.error.inj (ran.symm.trans failed)
    rw [found]
    unfold cycleError
    rw [List.filterMap_cons, known]
    dsimp only
    rw [titles, Package.filePath, fileFound, ← List.cons_append, List.map_append, List.map_singleton, titleAt, known]
    rfl

namespace Mutual

/-- Two variables that need each other, one through a function, behind one that needs the first. -/
def program : Program where
  package := "main"
  imports := []
  declarations :=
    [.values ⟨false, ["z"], none, [.identifier "a" ⟨2, 9⟩], ⟨2, 1⟩⟩,
      .values ⟨false, ["a"], none, [.identifier "b" ⟨3, 9⟩], ⟨3, 1⟩⟩,
      .values ⟨false, ["_", "b"], none, [.call (.identifier "get" ⟨4, 12⟩) [] ⟨4, 15⟩], ⟨4, 1⟩⟩,
      .function "get" ⟨⟨[], [.int, .int], []⟩, [.return [.integer 1, .identifier "a" ⟨5, 33⟩] ⟨5, 23⟩], ⟨5, 1⟩⟩]

def whole : Package := ⟨"main", "main", [⟨"main.go", program⟩]⟩

theorem failed : initializationOrder whole
    = .error (.inFile "main.go" (.resolution (.initializationCycle ["a", "b", "a"] ⟨3, 1⟩))) := by
  unfold whole program
  cbv

end Mutual

/-- The cycle of two variables is reported without the one that leads into it. -/
theorem mutual_cycle_reported :
    initializationOrder Mutual.whole
      = .error (.inFile "main.go" (.resolution (.initializationCycle ["a", "b", "a"] ⟨3, 1⟩))) ∧
    ∃ placed first rest, IsCycle Mutual.whole placed first rest ∧
      (first :: (rest ++ [first])).map (titleAt Mutual.whole) = ["a", "b", "a"] := by
  obtain ⟨_, placed, _, first, rest, _, _, _, _, _, cycle, _, _, _, same⟩ := reported_cycle_real Mutual.failed
  refine ⟨Mutual.failed, placed, first, rest, cycle, ?_⟩
  injection same with _ inner
  injection inner with inner
  injection inner with names
  exact names.symm

end MiniGo.Initialization
