import MiniGo.Proofs.Running.Scoping

/-!
# Names that are resolved stay resolved

No code of an accepted program comes to a name without a binding, and calls from outside find every
name but that of the function they ask for. Errors about names are reported by the checks, before there
is a session.
-/

namespace MiniGo.Running

variable {packages : List Package}

/-- A name behind a point, against what the checker recorded of the name before the point: the package
that is loaded has the exported name exactly if the scope is touched that the checker found. -/
structure SelectedAt (packages : List Package) (place : ScopeId → Place) (store : Store) (env : Env)
    (package name : String) (location : Location) (index : Nat) (use : Use) (position : Nat) : Prop where
  used : UsedAt packages place store env package location index use position
  exported : isExported name = true
  found : position = use.depth ↔ ∃ ref value, store.get? env package = some (.package ref) ∧
    store.getLocal? [ref.scope] name = some value

theorem Touches.selectedAt {world : World} {store : Store} {env : Env} {package name : String}
    {location : Location} {index : Nat} {use : Use} {position : Nat}
    (sane : Sane (programOf packages) world) (agrees : Agrees world store)
    (touches : Touches (programOf packages index) world index store env package location use position)
    (selects : Selects store env package name use position) :
    SelectedAt packages world.place store env package name location index use position where
  used := touches.usedAt sane agrees
  exported := selects.1
  found := by
    refine ⟨selects.2.1, ?_⟩
    rintro ⟨ref, value, isPackage, _⟩
    exact touches.late.resolve_right fun late => selects.2.2 late.1 ref isPackage

/-- An error of a build that does not come from running code is one of the checks, which end before the
first session is made. -/
theorem build_error {files : FileTree} {fuel : Nat} {settings : Settings} {output : Output}
    {entry : String} {workspace after : Workspace} {error : Error} (filled : Workspace.Filled workspace)
    (failed : build files fuel settings output entry workspace = .error error after) :
    Stopped error ∨ prepare files entry workspace = .error error after := by
  change EStateM.bind (prepare files entry) _ workspace = _ at failed
  unfold EStateM.bind at failed
  cases prepared : prepare files entry workspace with
  | error other next =>
      rw [prepared] at failed
      obtain ⟨rfl, rfl⟩ := EStateM.Result.error.inj failed
      exact Or.inr rfl
  | ok packages next =>
      rw [prepared] at failed
      have accepted : Accepted packages := ⟨files, entry, workspace, next, filled, prepared⟩
      dsimp only at failed
      cases loaded : loadPackages fuel settings output entry packages with
      | ok _ session =>
          simp only [loaded] at failed
          exact nomatch failed
      | error other session =>
          simp only [loaded] at failed
          obtain ⟨rfl, _⟩ := EStateM.Result.error.inj failed
          exact Or.inl (accepted.stopped fuel settings output entry loaded)

/-- Checked programs never lose a name: errors about names are reported before code runs, loading and
calls never come to a name without a binding, a name that is read or assigned has a binding where the
checker found it, so that its initializer has run, and a name behind a point is found in the package
exactly if no scope nearer than that of the import has the name of the package by then. -/
theorem names_never_lost {fuel : Nat} {settings : Settings} {output : Output} {entry : String} :
    (∀ files root workspace error after, Workspace.Filled workspace →
      build files fuel settings output root workspace = .error error after →
      Stopped error ∨ prepare files root workspace = .error error after) ∧
    ∀ packages, Accepted packages →
      (∀ error session, loadPackages fuel settings output entry packages = .error error session →
        Stopped error) ∧
      ∀ session given, Reached fuel settings output entry packages session given →
        (∀ path name args error next, (∀ arg ∈ args, Given given arg) →
          Session.invoke path name args session = .error error next →
          Stopped error ∨ error = .resolution (.missingEntry path name)) ∧
        ∃ place : ScopeId → Place,
          (∀ store env name location, session.machine.past store (.used env name location) →
            ∃ index use position, UsedAt packages place store env name location index use position) ∧
          ∀ store env package name location,
            session.machine.past store (.selected env package name location) →
            ∃ index use position,
              SelectedAt packages place store env package name location index use position := by
  refine ⟨fun files root workspace error after filled failed => build_error filled failed, ?_⟩
  intro packages accepted
  refine ⟨fun error session failed => accepted.stopped fuel settings output entry failed, ?_⟩
  intro session given reached
  -- What the run has met is recorded with its invariant, and that tells the use the checker saw.
  obtain ⟨world, imports, loaded, offered⟩ := accepted.known reached
  refine ⟨fun path name args error next handed failed => ?_, world.place,
    fun store env name location happened => ?_, fun store env package name location happened => ?_⟩
  · have ran := loaded.invoke path name (allOffered_of_given offered handed)
    rw [failed] at ran
    exact ran.1
  · obtain ⟨agrees, index, use, position, touches⟩ := loaded.inv.past store _ happened
    exact ⟨index, use, position, touches.usedAt loaded.inv.typed.sane agrees⟩
  · obtain ⟨agrees, index, use, position, touches, selects⟩ := loaded.inv.past store _ happened
    exact ⟨index, use, position, touches.selectedAt loaded.inv.typed.sane agrees selects⟩

/-! ## An import that is hidden late -/

namespace LateImport

/-- A function literal selects a name of an import, whose name the block around the literal declares
behind it. -/
def source : String :=
  "package main\nimport \"fmt\"\nfunc Main() \x7b\n\tg := func() \x7b fmt.Println(1) \x7d\n\tfmt := 2\n\tg()\n\x7d\n"

/-- What `source` is read as. -/
def package : Package := ⟨"main", "main", [⟨"main.go", ⟨"main", [⟨none, "fmt", ⟨2, 8⟩⟩], [
  .function "Main" ⟨⟨[], [], []⟩, [
    .define ["g"] [.function ⟨⟨[], [], []⟩, [
      .expression (.call (.qualified "fmt" "Println" ⟨4, 16⟩) [.integer 1] ⟨4, 27⟩)], ⟨4, 7⟩⟩] ⟨4, 2⟩,
    .define ["fmt"] [.integer 2] ⟨5, 2⟩,
    .expression (.call (.identifier "g" ⟨6, 2⟩) [] ⟨6, 3⟩)], ⟨3, 1⟩⟩]⟩⟩]⟩

/-- The session that `package` is loaded into. -/
@[irreducible] def loaded : Session := behind (loadPackages 100 .default .empty "main" [package])

/-- The session behind a call of `Main`. -/
@[irreducible] def called : Session := behind (Session.invoke "main" "Main" [] loaded)

theorem outcomes :
    value? (loadPackages 100 .default .empty "main" [package]) = some () ∧
    (called.machine.store.get? [5, 4, 3, 2, 0] "fmt").bind int? = some 2 := by
  decide +kernel

theorem started : loadPackages 100 .default .empty "main" [package] = .ok () loaded := by
  unfold loaded
  exact ok_of_value? outcomes.1

theorem failed : Session.invoke "main" "Main" [] loaded
    = .error (.runtime (.mismatch (.notImport "fmt" "Println" .int) ⟨4, 16⟩)) called := by
  unfold called loaded package
  cbv

theorem reached : Reached 100 .default .empty "main" [package] called [] :=
  (Reached.loaded started).failed (fun _ member => absurd member List.not_mem_nil) failed

theorem selected : called.machine.past called.machine.store (.selected [5, 4, 3, 2, 0] "fmt" "Println" ⟨4, 16⟩) := by
  unfold called loaded package
  cbv
  exact Or.inl (Or.inr trivial)

theorem found : called.machine.store.get? [5, 4, 3, 2, 0] "fmt" = some (.int 2) := by
  obtain ⟨value, known, number⟩ := Option.bind_eq_some_iff.mp outcomes.2
  rw [known, eq_int number]

theorem accepted : Accepted [package] := by
  refine ⟨.empty, "main", _, ⟨none, [package]⟩, .source "main" "main.go" source (.empty none), ?_⟩
  unfold source package
  cbv

end LateImport

/-- A name behind a point is not found in the package that the checker found: the block around a function
literal declares the name of the package behind the literal. -/
theorem late_import_not_selected :
    ∃ packages session given, Accepted packages ∧
      Reached 100 .default .empty "main" packages session given ∧
      ∃ place store env package name location index use position,
        session.machine.past store (.selected env package name location) ∧
        SelectedAt packages place store env package name location index use position ∧
        position ≠ use.depth := by
  obtain ⟨_, known⟩ := @names_never_lost 100 .default .empty "main"
  obtain ⟨_, sessions⟩ := known _ LateImport.accepted
  obtain ⟨_, place, _, selected⟩ := sessions _ _ LateImport.reached
  obtain ⟨index, use, position, at_⟩ := selected _ _ _ _ _ LateImport.selected
  have apart : position ≠ use.depth := by
    intro same
    obtain ⟨ref, _, isPackage, _⟩ := at_.found.mp same
    exact Value.noConfusion (Option.some.inj (LateImport.found.symm.trans isPackage))
  exact ⟨[LateImport.package], LateImport.called, [], LateImport.accepted, LateImport.reached, place,
    LateImport.called.machine.store, [5, 4, 3, 2, 0], "fmt", "Println", ⟨4, 16⟩, index, use, position,
    LateImport.selected, at_, apart⟩

end MiniGo.Running
