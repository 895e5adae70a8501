import MiniGo.Proofs.Running.Accepted

/-!
# Scopes of the checker and of a run

Every scope that a run opens stands for a scope of the checker, with the same scopes around it. A name
that is read or assigned is found in the scope that the checker found, unless a scope nearer to it has
the name by then. The checker walks a function where it stands, while a run looks its names up when it
is called: a block around the function may have declared the name in between.
-/

namespace MiniGo.Running

variable {packages : List Package}

/-- A name that a run reads or assigns in an environment, against what the checker recorded of the
same name at the same place: there the name was found `use.depth` scopes further out, here it is found
`position` scopes further out. -/
structure UsedAt (packages : List Package) (place : ScopeId → Place) (store : Store) (env : Env)
    (name : String) (location : Location) (index : Nat) (use : Use) (position : Nat) : Prop where
  recorded : (programOf packages index).table.uses use
  sameName : use.name = name
  sameLocation : use.location = location
  scopes : env.map place = use.scopes.map (Place.of index)
  declared : ∃ scope, use.scopes[use.depth]? = some scope ∧ (programOf packages index).Declares scope name
  resolved : ∃ id binding, env[use.depth]? = some id ∧ (store.scope id).find? name = some binding
  touched : ∃ id binding, env[position]? = some id ∧ store.find? env name = some (id, binding)
  same : position = use.depth ↔
    ∀ nearer < use.depth, ∀ id, env[nearer]? = some id → (store.scope id).find? name = none
  late : position ≠ use.depth → Late (programOf packages index) use position

theorem find?_of_touched {store : Store} {env : Env} {name : String} {position : Nat} {id : ScopeId}
    {binding : Binding} (here : env[position]? = some id) (bound : (store.scope id).find? name = some binding)
    (passed : ∀ nearer < position, ∀ other, env[nearer]? = some other →
      (store.scope other).find? name = none) : store.find? env name = some (id, binding) := by
  induction env generalizing position with
  | nil => exact nomatch here
  | cons first env ih =>
      cases position with
      | zero =>
          obtain rfl : first = id := Option.some.inj here
          rw [Store.find?, bound]
      | succ position =>
          rw [Store.find?, passed 0 (Nat.succ_pos position) first rfl]
          exact ih here fun nearer less other found => passed (nearer + 1) (Nat.succ_lt_succ less) other found

theorem Touches.usedAt {world : World} {store : Store} {env : Env} {name : String} {location : Location}
    {index : Nat} {use : Use} {position : Nat} (sane : Sane (programOf packages) world)
    (agrees : Agrees world store)
    (touches : Touches (programOf packages index) world index store env name location use position) :
    UsedAt packages world.place store env name location index use position where
  recorded := touches.recorded
  sameName := touches.sameName
  sameLocation := touches.sameLocation
  scopes := touches.scopes
  declared := by
    obtain ⟨id, binding, here, bound⟩ := touches.resolved
    obtain ⟨slot, known, _⟩ := agrees.2 id name binding bound
    have placed : (use.scopes.map (Place.of index))[use.depth]? = some (world.place id) := by
      rw [← touches.scopes, List.getElem?_map, here, Option.map_some]
    rw [List.getElem?_map] at placed
    obtain ⟨scope, found, place⟩ := Option.map_eq_some_iff.mp placed
    exact ⟨scope, found, declares_of_place (sane.declared id name slot known) place.symm⟩
  resolved := touches.resolved
  touched := by
    obtain ⟨id, binding, here, bound⟩ := touches.touched
    exact ⟨id, binding, here, find?_of_touched here bound touches.passed⟩
  -- The name is found where the checker found it unless a nearer scope has got it since.
  same := by
    constructor
    · rintro rfl
      exact touches.passed
    · intro free
      refine touches.late.resolve_right fun late => ?_
      obtain ⟨id, binding, here, bound⟩ := touches.touched
      rw [free position late.1 id here] at bound
      exact nomatch bound
  late different := touches.late.resolve_left different

/-- Scopes that a run opens stand for scopes of the checker, and every name that is read or assigned is
found in the scope that the checker found exactly if no scope nearer to it has the name at that moment.
A nearer scope that has it is a block which declares the name, with a function around the use inside. -/
theorem names_found_in_scopes {fuel : Nat} {settings : Settings} {output : Output} {entry : String}
    {session : Session} {given : List Value} (accepted : Accepted packages)
    (reached : Reached fuel settings output entry packages session given) :
    ∃ place : ScopeId → Place,
      (∀ store env, session.machine.past store (.opened env) → ∃ index scope, scope ≠ 0 ∧
        (store.scopes.size :: env).map place
          = ((programOf packages index).table.chain scope).map (Place.of index)) ∧
      ∀ store env name location, session.machine.past store (.used env name location) →
        ∃ index use position, UsedAt packages place store env name location index use position := by
  obtain ⟨world, imports, loaded, _⟩ := accepted.known reached
  refine ⟨world.place, fun store env happened => ?_, fun store env name location happened => ?_⟩
  · exact (loaded.inv.past store _ happened).2.2.2
  · obtain ⟨agrees, index, use, position, touches⟩ := loaded.inv.past store _ happened
    exact ⟨index, use, position, touches.usedAt loaded.inv.typed.sane agrees⟩

/-! ## A name that is declared late -/

namespace LateName

/-- A function literal reads a name that the block around it declares behind it. -/
def source : String :=
  "package main\nvar x = 1\nfunc Main() int \x7b\n\tg := func() int \x7b return x \x7d\n\tx := 2\n\treturn g()\n\x7d\n"

/-- What `source` is read as. -/
def package : Package := ⟨"main", "main", [⟨"main.go", ⟨"main", [], [
  .values ⟨false, ["x"], none, [.integer 1], ⟨2, 1⟩⟩,
  .function "Main" ⟨⟨[], [.int], []⟩, [
    .define ["g"] [.function ⟨⟨[], [.int], []⟩, [.return [.identifier "x" ⟨4, 27⟩] ⟨4, 20⟩], ⟨4, 7⟩⟩] ⟨4, 2⟩,
    .define ["x"] [.integer 2] ⟨5, 2⟩,
    .return [.call (.identifier "g" ⟨6, 9⟩) [] ⟨6, 10⟩] ⟨6, 2⟩], ⟨3, 1⟩⟩]⟩⟩]⟩

/-- The session that `package` is loaded into. -/
@[irreducible] def loaded : Session := behind (loadPackages 100 .default .empty "main" [package])

/-- The session behind a call of `Main`. -/
@[irreducible] def called : Session := behind (Session.invoke "main" "Main" [] loaded)

theorem outcomes :
    value? (loadPackages 100 .default .empty "main" [package]) = some () ∧
    (value? (Session.invoke "main" "Main" [] loaded)).map (·.map int?) = some [some 2] ∧
    ((called.machine.store.scope 4).find? "x").isSome := by
  decide +kernel

theorem started : loadPackages 100 .default .empty "main" [package] = .ok () loaded := by
  unfold loaded
  exact ok_of_value? outcomes.1

theorem ran : Session.invoke "main" "Main" [] loaded = .ok [.int 2] called := by
  unfold called
  exact ok_of_int outcomes.2.1

theorem reached : ∃ given, Reached 100 .default .empty "main" [package] called given :=
  ⟨_, (Reached.loaded started).returned (fun _ member => absurd member List.not_mem_nil) ran⟩

theorem used : called.machine.past called.machine.store (.used [5, 4, 3, 2, 0] "x" ⟨4, 27⟩) := by
  unfold called loaded package
  cbv
  exact Or.inl (Or.inl (Or.inl (Or.inr trivial)))

theorem found : ∃ binding, (called.machine.store.scope 4).find? "x" = some binding :=
  Option.isSome_iff_exists.mp outcomes.2.2

theorem depth_of_recorded {index : Nat} {use : Use} (recorded : (programOf [package] index).table.uses use)
    (name : use.name = "x") : use.depth = 3 := by
  cases index with
  | succ index =>
      have none : (factsOf .initial [package])[index + 1]? = none := by
        unfold package
        cbv
      rw [programOf, none] at recorded
      exact absurd recorded id
  | zero =>
      unfold package at recorded
      cbv at recorded
      rcases recorded with rfl | rfl
      · rfl
      · exact absurd name (by decide)

theorem accepted : Accepted [package] := by
  refine ⟨.empty, "main", _, ⟨none, [package]⟩, .source "main" "main.go" source (.empty none), ?_⟩
  unfold source package
  cbv

end LateName

/-- A function literal touches a name in the block around it, which declares the name behind the literal,
while the checker found the name in the package. -/
theorem late_name_found_nearer :
    ∃ packages session given, Accepted packages ∧
      Reached 100 .default .empty "main" packages session given ∧
      ∃ place store env name location index use position,
        session.machine.past store (.used env name location) ∧
        UsedAt packages place store env name location index use position ∧ position ≠ use.depth := by
  obtain ⟨given, reached⟩ := LateName.reached
  obtain ⟨place, _, used⟩ := names_found_in_scopes LateName.accepted reached
  obtain ⟨index, use, position, known⟩ := used _ _ _ _ LateName.used
  refine ⟨_, _, given, LateName.accepted, reached, place, _, _, _, _, index, use, position, LateName.used,
    known, fun same => ?_⟩
  obtain ⟨binding, found⟩ := LateName.found
  have free := known.same.mp same 1
  rw [LateName.depth_of_recorded known.recorded known.sameName] at free
  rw [free (by decide) 4 rfl] at found
  exact nomatch found

end MiniGo.Running
