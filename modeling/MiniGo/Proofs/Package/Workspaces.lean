import MiniGo.Build
import MiniGo.Proofs.Package.Checked
import MiniGo.Proofs.Syntax.Trees

/-!
# Packages that are read

Whatever is read into a workspace, and in whatever order, its packages are made of files that the
grammar has, also behind a step that fails. `Filled` are the workspaces that a caller can come to.
-/

namespace MiniGo

open Lexical (FormedPackage)

/-- The state behind a step, whether it fails or not. -/
def behind : EStateM.Result ε σ α → σ
  | .ok _ state => state
  | .error _ state => state

/-- What a step gives, if it does not fail. Unlike the state behind it this can often be decided. -/
def value? : EStateM.Result ε σ α → Option α
  | .ok value _ => some value
  | .error _ _ => none

theorem ok_of_value? {result : EStateM.Result ε σ α} {value : α} (given : value? result = some value) :
    result = .ok value (behind result) := by
  cases result with
  | ok other state =>
      obtain rfl := Option.some.inj given
      rfl
  | error error state => cases given

theorem bind_run {action : EStateM ε σ α} {next : α → EStateM ε σ β} {state : σ} :
    (action >>= next) state = match action state with
      | .ok value after => next value after
      | .error error after => .error error after := by
  simp only [bind, EStateM.bind]
  cases action state <;> rfl

theorem get_run {next : σ → EStateM ε σ α} {state : σ} : (get >>= next) state = next state state := rfl

namespace Workspace

/-- Every package of a workspace is made of files that the grammar has. -/
def AllFormed (workspace : Workspace) : Prop := ∀ package ∈ workspace.packages, FormedPackage package

/-- A step keeps workspaces formed, and `post` holds of what it gives. -/
def Fills (action : Loading α) (post : α → Prop) : Prop :=
  ∀ workspace : Workspace, workspace.AllFormed →
    (behind (action workspace)).AllFormed ∧ ∀ value after, action workspace = .ok value after → post value

namespace Fills

variable {post : α → Prop}

theorem pure {value : α} (holds : post value) : Fills (Pure.pure value) post := by
  refine fun workspace formed => ⟨formed, fun found after ran => ?_⟩
  obtain ⟨rfl, _⟩ := EStateM.Result.ok.inj ran
  exact holds

theorem throw {error : Error} : Fills (MonadExcept.throw error) post :=
  fun _ formed => ⟨formed, nofun⟩

theorem bind {middle : α → Prop} {last : β → Prop} {action : Loading α} {next : α → Loading β}
    (first : Fills action middle) (rest : ∀ value, middle value → Fills (next value) last) :
    Fills (action >>= next) last := by
  intro workspace formed
  obtain ⟨kept, given⟩ := first workspace formed
  rw [bind_run]
  cases ran : action workspace with
  | ok value after =>
      rw [ran] at kept
      exact rest value (given value after ran) after kept
  | error error after =>
      rw [ran] at kept
      exact ⟨kept, nofun⟩

theorem get {next : Workspace → Loading α}
    (rest : ∀ workspace, workspace.AllFormed → Fills (next workspace) post) :
    Fills (MonadState.get >>= next) post :=
  fun workspace formed => rest workspace formed workspace formed

theorem set {workspace : Workspace} (formed : workspace.AllFormed) :
    Fills (MonadStateOf.set workspace) (fun _ => True) :=
  fun _ _ => ⟨formed, fun _ _ _ => trivial⟩

theorem ofExcept {result : Except Error α} (holds : ∀ value, result = .ok value → post value) :
    Fills (Workspace.ofExcept result) post := by
  unfold Workspace.ofExcept
  split
  · exact pure (holds _ rfl)
  · exact throw

end Fills

/-! ## Files -/

theorem AllFormed.addFile {workspace after : Workspace} {path : String} {file : SourceFile}
    (formed : workspace.AllFormed) (written : Syntax.Formed.program file.program)
    (added : workspace.addFile path file = .ok after) : after.AllFormed := by
  unfold Workspace.addFile at added
  split at added
  · obtain rfl := Except.ok.inj added
    intro package member
    rcases List.mem_append.mp member with before | last
    · exact formed package before
    · obtain rfl := List.mem_singleton.mp last
      exact List.forall_mem_singleton.mpr written
  · rename_i package found
    dsimp only at added
    split at added
    · obtain rfl := Except.ok.inj added
      -- Only the package at the path has the file; the others are kept.
      intro other member
      obtain ⟨original, before, rfl⟩ := List.mem_map.mp member
      split
      · have known := formed package (List.mem_of_find?_eq_some found)
        exact List.forall_mem_append.mpr ⟨known, List.forall_mem_singleton.mpr written⟩
      · exact formed original before
    · exact nomatch added

theorem inFile_ok {path : String} {result : Except Error α} {value : α}
    (read : inFile path result = .ok value) : result = .ok value := by
  unfold inFile at read
  split at read
  · exact read
  · exact nomatch read

theorem fills_addSource (path filePath text : String) :
    Fills (addSource path filePath text) (fun _ => True) := by
  unfold addSource
  have read : Fills (ofExcept (inFile filePath (parseText text))) Syntax.Formed.program :=
    .ofExcept fun program read => Syntax.formed_parseText (inFile_ok read)
  refine read.bind fun program written => .get fun workspace formed => ?_
  have added : Fills (ofExcept (workspace.addFile path ⟨filePath, program⟩)) AllFormed :=
    .ofExcept fun after added => formed.addFile written added
  exact added.bind fun after formed => .set formed

theorem fills_loadFile (files : FileTree) (path filePath : String) :
    Fills (loadFile files path filePath) (fun _ => True) := by
  unfold loadFile
  split
  · exact fills_addSource path filePath _
  · exact .throw

theorem fills_loadFiles (files : FileTree) (path : String) (sources : List String) :
    Fills (loadFiles files path sources) (fun _ => True) := by
  induction sources with
  | nil => exact .pure trivial
  | cons filePath rest ih => exact (fills_loadFile files path filePath).bind fun _ _ => ih

theorem fills_loadDirectory (files : FileTree) (path directory : String) :
    Fills (loadDirectory files path directory) (fun _ => True) := by
  unfold loadDirectory
  split
  · exact .throw
  · split
    · exact .throw
    · exact fills_loadFiles files path _

theorem fills_loadFromRoot (files : FileTree) (path : String) :
    Fills (loadFromRoot files path) (fun _ => True) := by
  unfold loadFromRoot
  refine .get fun workspace _ => ?_
  split
  · exact .throw
  · dsimp only
    split
    · exact fills_loadDirectory files path _
    · exact .throw

/-! ## Imports -/

theorem fills_foldlM {step : β → α → Loading β} (kept : ∀ done found, Fills (step done found) (fun _ => True))
    (found : List α) (done : β) : Fills (found.foldlM step done) (fun _ => True) := by
  induction found generalizing done with
  | nil => exact .pure trivial
  | cons first rest ih =>
      rw [List.foldlM_cons]
      exact (kept done first).bind fun done _ => ih done

theorem fills_visit (files : FileTree) (fuel : Nat) (visiting done : List String) (path : String) :
    Fills (visit files fuel visiting done path) (fun _ => True) := by
  induction fuel generalizing visiting done path with
  | zero => exact .throw
  | succ fuel ih =>
      unfold visit
      have imports : Fills (do
          let imports := (← MonadState.get).importsOf path
          let done ← imports.foldlM (visit files fuel (visiting ++ [path])) done
          Pure.pure (done ++ [path])) (fun _ => True) :=
        .get fun workspace _ => (fills_foldlM (ih _) _ done).bind fun _ _ => .pure trivial
      split
      · exact .pure trivial
      · split
        · exact .throw
        · refine .get fun workspace _ => ?_
          split
          · exact (fills_loadFromRoot files path).bind fun _ _ => imports
          · exact imports

theorem fills_resolve (files : FileTree) (entry : String) :
    Fills (resolve files entry) (fun packages => ∀ package ∈ packages, FormedPackage package) := by
  unfold resolve
  refine .get fun workspace _ => (fills_visit files _ [] [] entry).bind fun order _ => ?_
  refine .get fun workspace formed => .pure fun package member => ?_
  obtain ⟨path, _, found⟩ := List.mem_filterMap.mp member
  exact formed package (List.mem_of_find?_eq_some found)

theorem fills_prepare (files : FileTree) (entry : String) :
    Fills (prepare files entry) (fun packages => (∀ package ∈ packages, FormedPackage package) ∧
      ∃ interfaces, checkAll .initial packages = .ok interfaces) := by
  unfold prepare
  refine (fills_resolve files entry).bind fun packages formed => ?_
  have checked : Fills (ofExcept (checkAll .initial packages))
      (fun _ => ∃ interfaces, checkAll .initial packages = .ok interfaces) :=
    .ofExcept fun interfaces ran => ⟨interfaces, ran⟩
  exact checked.bind fun _ accepted => .pure ⟨formed, accepted⟩

/-! ## Workspaces of a caller -/

/-- The workspaces that a caller can come to: the caller adds texts, files and directories, and
resolves packages. A workspace goes on after an error. -/
inductive Filled : Workspace → Prop where
  | empty (root? : Option String) : Filled (.empty root?)
  | source {workspace : Workspace} (path filePath text : String) :
      Filled workspace → Filled (behind (addSource path filePath text workspace))
  | files {workspace : Workspace} (files : FileTree) (path : String) (sources : List String) :
      Filled workspace → Filled (behind (loadFiles files path sources workspace))
  | directory {workspace : Workspace} (files : FileTree) (path directory : String) :
      Filled workspace → Filled (behind (loadDirectory files path directory workspace))
  | prepared {workspace : Workspace} (files : FileTree) (entry : String) :
      Filled workspace → Filled (behind (prepare files entry workspace))

theorem Filled.allFormed {workspace : Workspace} (filled : Filled workspace) : workspace.AllFormed := by
  induction filled with
  | empty root? => exact fun package member => absurd member List.not_mem_nil
  | source path filePath text _ ih => exact (fills_addSource path filePath text _ ih).1
  | files files path sources _ ih => exact (fills_loadFiles files path sources _ ih).1
  | directory files path directory _ ih => exact (fills_loadDirectory files path directory _ ih).1
  | prepared files entry _ ih => exact (fills_prepare files entry _ ih).1

/-- Packages that are prepared are made of files that the grammar has, and were checked. -/
theorem Filled.prepare_ok {workspace after : Workspace} {files : FileTree} {entry : String}
    {packages : List Package} (filled : Filled workspace)
    (prepared : prepare files entry workspace = .ok packages after) :
    (∀ package ∈ packages, FormedPackage package) ∧
      ∃ interfaces, checkAll .initial packages = .ok interfaces :=
  (fills_prepare files entry workspace filled.allFormed).2 packages after prepared

end Workspace

end MiniGo
