import MiniGo.Proofs.Package.Imports

/-!
# Packages that are read in part

The files of a directory are added to a package one after another, and a file that cannot be added stops
the reading. What was added before stays: a directory whose first files fit and whose next one does not
leaves a package of the first ones, and a package that is there is not read again. So a package that was
read from a directory consists of the files up to the first one that does not fit (`ReadUpTo`), and is
whole only if there is none. Texts and single files are added in full or not at all.
-/

namespace MiniGo.Workspace

variable {files : FileTree} {one two start current after : Workspace} {path name directory : String}
  {package : Package}

/-! ## What a directory holds -/

/-- The paths of the source files in a directory, in the order in which they are read. -/
def sourcesIn (files : FileTree) (directory : String) : List String :=
  match files.fileNames? directory with
  | none => []
  | some names => (names.filter Path.isSourceName).map (Path.join directory)

/-- A path leads to the source of a file of a package. -/
structure Holds (files : FileTree) (name filePath : String) (file : SourceFile) : Prop where
  path : file.path = filePath
  package : file.program.package = name
  source : ∃ text, files.read? filePath = some text ∧ parseText text = .ok file.program

/-- A path does not lead to a file of a package: there is nothing to read, or what is there is no program or
belongs to another package. -/
def Unfit (files : FileTree) (name filePath : String) : Prop := ∀ file, ¬ Holds files name filePath file

/-- A package consists of the files of a directory in front of `rest`, which starts with a file that does
not fit if there is any. -/
structure ReadUpTo (files : FileTree) (directory : String) (package : Package) (rest : List String) : Prop where
  nonempty : package.files ≠ []
  read : ∃ read, sourcesIn files directory = read ++ rest ∧
    List.Forall₂ (Holds files package.name) read package.files
  stopped : ∀ next, rest.head? = some next → Unfit files package.name next

/-- A package was read in full from its directory below the source root. -/
def Whole (files : FileTree) (root? : Option String) (package : Package) : Prop :=
  ∃ root, root? = some root ∧ ReadUpTo files (Path.join root package.path) package []

/-- A package was read in part from its directory below the source root. -/
def Torn (files : FileTree) (root? : Option String) (package : Package) : Prop :=
  ∃ root next rest, root? = some root ∧ ReadUpTo files (Path.join root package.path) package (next :: rest)

theorem Holds.unique {filePath : String} {file other : SourceFile} (holds : Holds files name filePath file)
    (text : String) (read : files.read? filePath = some text) (parsed : parseText text = .ok other.program) :
    file.program = other.program := by
  obtain ⟨found, there, same⟩ := holds.source
  rw [read] at there
  cases there
  rw [parsed] at same
  exact (Except.ok.inj same).symm

/-! ## Texts and single files -/

/-- A text that is not added changes nothing. -/
theorem addSource_failed {filePath text : String} {error : Error}
    (failed : addSource path filePath text current = .error error after) : after = current := by
  cases parsed : parseText text with
  | error reason =>
      rw [addSource_refused parsed] at failed
      cases failed
      rfl
  | ok program =>
      rw [addSource_read parsed, bind_run] at failed
      cases added : current.addFile path ⟨filePath, program⟩ with
      | ok extended =>
          rw [added] at failed
          cases failed
      | error error =>
          rw [added] at failed
          cases failed
          rfl

theorem loadFile_failed {filePath : String} {error : Error}
    (failed : loadFile files path filePath current = .error error after) : after = current := by
  unfold loadFile at failed
  cases read : files.read? filePath with
  | none =>
      rw [read] at failed
      cases failed
      rfl
  | some text =>
      rw [read] at failed
      exact addSource_failed failed

/-- Files are added up to the one that fails. -/
theorem loadFiles_failed {sources : List String} {error : Error}
    (failed : loadFiles files path sources current = .error error after) :
    ∃ read next rest, sources = read ++ next :: rest ∧
      loadFiles files path read current = .ok () after ∧ loadFile files path next after = .error error after := by
  induction sources generalizing current with
  | nil => cases failed
  | cons first rest ih =>
      unfold loadFiles at failed
      rw [bind_run] at failed
      cases ran : loadFile files path first current with
      | error reason stopped =>
          obtain rfl := loadFile_failed ran
          rw [ran] at failed
          cases failed
          exact ⟨[], first, rest, rfl, rfl, ran⟩
      | ok value between =>
          rw [ran] at failed
          obtain ⟨read, next, others, rfl, before, stop⟩ := ih failed
          refine ⟨first :: read, next, others, rfl, ?_, stop⟩
          unfold loadFiles
          rw [bind_run, ran]
          exact before

/-- A directory is read up to the file that fails; nothing is added when there is no file to read. -/
theorem loadDirectory_failed {error : Error}
    (failed : loadDirectory files path directory current = .error error after) :
    ∃ read rest, sourcesIn files directory = read ++ rest ∧
      loadFiles files path read current = .ok () after ∧ (rest = [] → read = []) ∧
      ∀ next, rest.head? = some next → loadFile files path next after = .error error after := by
  unfold loadDirectory at failed
  unfold sourcesIn
  cases listed : files.fileNames? directory with
  | none =>
      rw [listed] at failed
      cases failed
      exact ⟨[], [], rfl, rfl, fun _ => rfl, nofun⟩
  | some names =>
      rw [listed] at failed
      dsimp only at failed ⊢
      cases sources : names.filter Path.isSourceName with
      | nil =>
          rw [sources] at failed
          cases failed
          exact ⟨[], [], rfl, rfl, fun _ => rfl, nofun⟩
      | cons first others =>
          rw [sources] at failed
          obtain ⟨read, next, rest, split, before, stop⟩ := loadFiles_failed failed
          exact ⟨read, next :: rest, split, before, nofun, fun other same => Option.some.inj same ▸ stop⟩

/-! ## Reading a package -/

/-- How a file is added to a package that nothing else is known of: it fits, or nothing changes. -/
theorem loadFile_fits {filePath : String} (missing : one.find? package.path = none) :
    (∃ file, Holds files package.name filePath file ∧
      loadFile files package.path filePath (one.add package)
        = .ok () (one.add { package with files := package.files ++ [file] })) ∨
    (Unfit files package.name filePath ∧
      ∃ error, loadFile files package.path filePath (one.add package) = .error error (one.add package)) := by
  unfold loadFile
  cases read : files.read? filePath with
  | none =>
      refine Or.inr ⟨fun file holds => ?_, _, rfl⟩
      obtain ⟨text, there, _⟩ := holds.source
      rw [read] at there
      cases there
  | some text =>
      dsimp only
      cases parsed : parseText text with
      | error error =>
          refine Or.inr ⟨fun file holds => ?_, _, addSource_refused parsed _⟩
          obtain ⟨found, there, same⟩ := holds.source
          rw [read] at there
          cases there
          rw [parsed] at same
          cases same
      | ok program =>
          rw [addSource_read parsed, addFile_add missing]
          split
          · rename_i same
            exact Or.inl ⟨⟨filePath, program⟩, ⟨rfl, same.symm, text, read, parsed⟩, rfl⟩
          · rename_i other
            refine Or.inr ⟨fun file holds => other ?_, _, rfl⟩
            have same : file.program = program := @Holds.unique _ _ _ _ ⟨filePath, program⟩ holds text read parsed
            rw [← same]
            exact holds.package.symm

/-- How files are added to a package that nothing else is known of: all of them, or those in front of the
first that does not fit. -/
theorem loadFiles_fit (missing : one.find? package.path = none) (sources : List String) :
    ∃ read rest found, sources = read ++ rest ∧ List.Forall₂ (Holds files package.name) read found ∧
      ((rest = [] ∧ loadFiles files package.path sources (one.add package)
          = .ok () (one.add { package with files := package.files ++ found })) ∨
        ∃ next others error, rest = next :: others ∧ Unfit files package.name next ∧
          loadFiles files package.path sources (one.add package)
            = .error error (one.add { package with files := package.files ++ found })) := by
  induction sources generalizing package with
  | nil => exact ⟨[], [], [], rfl, .nil, Or.inl ⟨rfl, by rw [List.append_nil]; rfl⟩⟩
  | cons first sources ih =>
      unfold loadFiles
      rw [bind_run]
      rcases @loadFile_fits files one package first missing with ⟨file, holds, ran⟩ | ⟨unfit, error, ran⟩
      · have missing' : one.find? ({ package with files := package.files ++ [file] } : Package).path = none := missing
        obtain ⟨read, rest, found, rfl, fits, outcome⟩ := ih missing'
        refine ⟨first :: read, rest, file :: found, rfl, .cons holds fits, ?_⟩
        rw [ran]
        simpa only [List.append_assoc, List.singleton_append] using outcome
      · refine ⟨[], first :: sources, [], rfl, .nil, Or.inr ⟨first, sources, error, rfl, unfit, ?_⟩⟩
        rw [ran, List.append_nil]

/-- How the first of some files is added to a workspace without its package. -/
theorem loadFile_first {filePath : String} (missing : one.find? path = none) :
    (∃ file, Holds files file.program.package filePath file ∧
      loadFile files path filePath one = .ok () (one.add ⟨file.program.package, path, [file]⟩)) ∨
    ∃ error, loadFile files path filePath one = .error error one := by
  unfold loadFile
  cases read : files.read? filePath with
  | none => exact Or.inr ⟨_, rfl⟩
  | some text =>
      dsimp only
      cases parsed : parseText text with
      | error error => exact Or.inr ⟨_, addSource_refused parsed _⟩
      | ok program =>
          rw [addSource_read parsed, addFile_missing missing]
          exact Or.inl ⟨⟨filePath, program⟩, ⟨rfl, rfl, text, read, parsed⟩, rfl⟩

/-- What reading a package leaves: the package in full; or after a failure nothing, or the files in front
of the first that does not fit. -/
def Leaves (files : FileTree) (directory path : String) (one : Workspace) :
    EStateM.Result Error Workspace Unit → Prop
  | .ok _ after => ∃ package, package.path = path ∧ after = one.add package ∧ ReadUpTo files directory package []
  | .error _ after => after = one ∨ ∃ package next rest, package.path = path ∧ after = one.add package ∧
      ReadUpTo files directory package (next :: rest)

theorem leaves_refused {error : Error} : Leaves files directory path one (.error error one) := Or.inl rfl

theorem loadDirectory_leaves (missing : one.find? path = none) :
    Leaves files directory path one (loadDirectory files path directory one) := by
  unfold loadDirectory
  cases listed : files.fileNames? directory with
  | none => exact leaves_refused
  | some names =>
      dsimp only
      cases sources : names.filter Path.isSourceName with
      | nil => exact leaves_refused
      | cons first others =>
          have all : sourcesIn files directory
              = Path.join directory first :: others.map (Path.join directory) := by
            unfold sourcesIn
            rw [listed]
            exact congrArg (List.map (Path.join directory)) sources
          dsimp only
          rw [List.map_cons, loadFiles, bind_run]
          -- The first file gives the package its name; one that does not fit leaves it with those in front.
          rcases @loadFile_first files one path (Path.join directory first) missing with
            ⟨file, holds, ran⟩ | ⟨error, ran⟩
          · rw [ran]
            dsimp only
            obtain ⟨read, rest, found, split, fits, outcome⟩ := @loadFiles_fit files one
              ⟨file.program.package, path, [file]⟩ missing (others.map (Path.join directory))
            rw [split] at all
            rcases outcome with ⟨rfl, ran⟩ | ⟨next, more, error, rfl, unfit, ran⟩
            · rw [ran]
              exact ⟨_, rfl, rfl, List.cons_ne_nil _ _, ⟨_, all, .cons holds fits⟩, nofun⟩
            · rw [ran]
              exact Or.inr ⟨_, next, more, rfl, rfl, List.cons_ne_nil _ _, ⟨_, all, .cons holds fits⟩,
                fun other same => Option.some.inj same ▸ unfit⟩
          · rw [ran]
            exact Or.inl rfl

/-! ## Resolving -/

/-- A workspace with more packages that were read in full. -/
def Gained (files : FileTree) (one after : Workspace) : Prop :=
  after.root? = one.root? ∧ ∃ added, after.packages = one.packages ++ added ∧
    ∀ package ∈ added, Whole files one.root? package

/-- What a step that reads packages leaves: more packages, all of them in full; behind a failure the last one
may be there in part. -/
def Kept (files : FileTree) (one : Workspace) : EStateM.Result Error Workspace α → Prop
  | .ok _ after => Gained files one after
  | .error _ after => Gained files one after ∨ ∃ between package, Gained files one between ∧
      after = between.add package ∧ Torn files one.root? package

theorem Gained.refl : Gained files one one :=
  ⟨rfl, [], (List.append_nil _).symm, fun _ member => absurd member List.not_mem_nil⟩

theorem Gained.trans (first : Gained files one two) (second : Gained files two after) : Gained files one after := by
  obtain ⟨root, added, same, whole⟩ := first
  obtain ⟨root', added', same', whole'⟩ := second
  refine ⟨root'.trans root, added ++ added', by rw [same', same, List.append_assoc], ?_⟩
  exact List.forall_mem_append.mpr ⟨whole, fun package member => root ▸ whole' package member⟩

theorem Kept.trans {result : EStateM.Result Error Workspace α} (first : Gained files one two)
    (second : Kept files two result) : Kept files one result := by
  cases result with
  | ok value after => exact first.trans second
  | error error after =>
      rcases second with gained | ⟨between, package, gained, same, torn⟩
      · exact Or.inl (first.trans gained)
      · exact Or.inr ⟨between, package, first.trans gained, same, first.1 ▸ torn⟩

/-- A step that reads packages, from any workspace. -/
def Reads (files : FileTree) (action : Loading α) : Prop := ∀ one, Kept files one (action one)

theorem Reads.bind {action : Loading α} {next : α → Loading β} (first : Reads files action)
    (rest : ∀ value, Reads files (next value)) : Reads files (action >>= next) := by
  intro one
  have ran := first one
  rw [bind_run]
  cases outcome : action one with
  | ok value after =>
      rw [outcome] at ran
      exact .trans ran (rest value after)
  | error error after =>
      rw [outcome] at ran
      exact ran

theorem Reads.pure {value : α} : Reads files (Pure.pure value) := fun _ => .refl

theorem Reads.throw {error : Error} : Reads files (MonadExcept.throw error : Loading α) := fun _ => Or.inl .refl

theorem Reads.get {next : Workspace → Loading α} (rest : ∀ one, Kept files one (next one one)) :
    Reads files (MonadState.get >>= next) := fun one => rest one

theorem loadFromRoot_kept (missing : one.find? path = none) : Kept files one (loadFromRoot files path one) := by
  unfold loadFromRoot
  change Kept files one (EStateM.bind EStateM.get _ one)
  dsimp only [EStateM.bind, EStateM.get]
  cases rooted : one.root? with
  | none => exact Reads.throw one
  | some root =>
      dsimp only
      split
      · have leaves := @loadDirectory_leaves files one path (Path.join root path) missing
        cases outcome : loadDirectory files path (Path.join root path) one with
        | ok value after =>
            rw [outcome] at leaves
            obtain ⟨package, rfl, rfl, read⟩ := leaves
            exact ⟨rfl, [package], rfl, List.forall_mem_singleton.mpr ⟨root, rooted, read⟩⟩
        | error error after =>
            rw [outcome] at leaves
            rcases leaves with rfl | ⟨package, next, rest, rfl, rfl, read⟩
            · exact Or.inl .refl
            · exact Or.inr ⟨one, package, .refl, rfl, root, next, rest, rooted, read⟩
      · exact Reads.throw one

theorem foldlM_reads {step : β → α → Loading β} (reads : ∀ done found, Reads files (step done found))
    (found : List α) (done : β) : Reads files (found.foldlM step done) := by
  induction found generalizing done with
  | nil => exact .pure
  | cons first rest ih =>
      rw [List.foldlM_cons]
      exact (reads done first).bind fun done => ih done

theorem visit_reads (fuel : Nat) (visiting done : List String) (path : String) :
    Reads files (visit files fuel visiting done path) := by
  induction fuel generalizing visiting done path with
  | zero => exact .throw
  | succ fuel ih =>
      unfold visit
      have imports : Reads files (do
          let imports := (← MonadState.get).importsOf path
          let done ← imports.foldlM (visit files fuel (visiting ++ [path])) done
          Pure.pure (done ++ [path])) :=
        .get fun one => ((foldlM_reads (ih _) _ done).bind fun _ => .pure) one
      split
      · exact .pure
      split
      · exact .throw
      refine .get fun one => ?_
      split
      · rename_i missing
        have kept : Kept files one (loadFromRoot files path one) :=
          loadFromRoot_kept (Option.isNone_iff_eq_none.mp missing)
        rw [bind_run]
        cases outcome : loadFromRoot files path one with
        | ok value after =>
            rw [outcome] at kept
            exact .trans kept (imports after)
        | error error after =>
            rw [outcome] at kept
            exact kept
      · exact imports one

theorem resolve_reads (entry : String) : Reads files (resolve files entry) := by
  unfold resolve
  exact .get fun one => ((visit_reads _ [] [] entry).bind fun order => .get fun after => Reads.pure after) one

theorem resolved_mem {entry : String} {packages : List Package}
    (ran : resolve files entry one = .ok packages after) : ∀ package ∈ packages, package ∈ after.packages := by
  unfold resolve at ran
  rw [bind_run] at ran
  dsimp only [get, getThe, MonadStateOf.get, EStateM.get] at ran
  rw [bind_run] at ran
  cases visited : visit files (depthBound files one) [] [] entry one with
  | error error stopped =>
      rw [visited] at ran
      cases ran
  | ok order last =>
      rw [visited] at ran
      cases ran
      intro package member
      obtain ⟨path, _, found⟩ := List.mem_filterMap.mp member
      exact List.mem_of_find?_eq_some found

/-! ## Requests of a caller -/

/-- What a caller asks of a workspace. -/
inductive Request where
  | source (path filePath text : String)
  | file (path filePath : String)
  | directory (path directory : String)
  | resolve (entry : String)

/-- What a request does. -/
def Request.run (files : FileTree) : Request → Loading Unit
  | .source path filePath text => addSource path filePath text
  | .file path filePath => loadFile files path filePath
  | .directory path directory => loadDirectory files path directory
  | .resolve entry => do
      let _ ← Workspace.resolve files entry
      pure ()

/-- The package that a request adds to by name. -/
def Request.target? : Request → Option String
  | .source path _ _ | .file path _ | .directory path _ => some path
  | .resolve _ => none

/-- A workspace behind requests, some of which may have failed. -/
def serve (files : FileTree) (workspace : Workspace) (requests : List Request) : Workspace :=
  requests.foldl (fun workspace request => behind (request.run files workspace)) workspace

/-- A step adds to one package only. -/
def AddsTo (path : String) (action : Loading α) : Prop :=
  ∀ one, (behind (action one)).root? = one.root? ∧
    ∀ package ∈ (behind (action one)).packages, package.path = path ∨ package ∈ one.packages

theorem AddsTo.bind {action : Loading α} {next : α → Loading β} (first : AddsTo path action)
    (rest : ∀ value, AddsTo path (next value)) : AddsTo path (action >>= next) := by
  intro one
  have ran := first one
  rw [bind_run]
  cases outcome : action one with
  | error error after =>
      rw [outcome] at ran
      exact ran
  | ok value after =>
      rw [outcome] at ran
      obtain ⟨root, known⟩ := rest value after
      refine ⟨root.trans ran.1, fun package member => ?_⟩
      exact (known package member).elim Or.inl (ran.2 package)

theorem addsTo_refused {action : Loading α} (refused : ∀ one, behind (action one) = one) : AddsTo path action :=
  fun one => by
    rw [refused one]
    exact ⟨rfl, fun _ member => Or.inr member⟩

theorem addFile_addsTo {file : SourceFile} (added : one.addFile path file = .ok after) :
    after.root? = one.root? ∧ ∀ package ∈ after.packages, package.path = path ∨ package ∈ one.packages := by
  unfold addFile at added
  split at added
  · cases added
    refine ⟨rfl, fun package member => ?_⟩
    rcases List.mem_append.mp member with before | last
    · exact Or.inr before
    · exact Or.inl (congrArg Package.path (List.mem_singleton.mp last))
  · rename_i package found
    dsimp only at added
    split at added
    · cases added
      refine ⟨rfl, fun other member => ?_⟩
      obtain ⟨original, before, rfl⟩ := List.mem_map.mp member
      split
      · exact Or.inl (path_of_find? found :)
      · exact Or.inr before
    · cases added

theorem addSource_addsTo {filePath text : String} : AddsTo path (addSource path filePath text) := by
  intro one
  cases parsed : parseText text with
  | error error =>
      rw [addSource_refused parsed]
      exact ⟨rfl, fun _ member => Or.inr member⟩
  | ok program =>
      rw [addSource_read parsed, bind_run]
      cases added : one.addFile path ⟨filePath, program⟩ with
      | error error => exact ⟨rfl, fun _ member => Or.inr member⟩
      | ok after => exact addFile_addsTo added

theorem loadFile_addsTo {filePath : String} : AddsTo path (loadFile files path filePath) := by
  unfold loadFile
  cases files.read? filePath with
  | none => exact addsTo_refused fun _ => rfl
  | some text => exact addSource_addsTo

theorem loadFiles_addsTo {sources : List String} : AddsTo path (loadFiles files path sources) := by
  induction sources with
  | nil => exact addsTo_refused fun _ => rfl
  | cons first rest ih => exact loadFile_addsTo.bind fun _ => ih

theorem loadDirectory_addsTo : AddsTo path (loadDirectory files path directory) := by
  unfold loadDirectory
  cases files.fileNames? directory with
  | none => exact addsTo_refused fun _ => rfl
  | some names =>
      dsimp only
      split
      · exact addsTo_refused fun _ => rfl
      · exact loadFiles_addsTo

/-- Packages that nobody adds to by name were read from their directories, in full or in part. -/
def ReadAsNeeded (files : FileTree) (named : List String) (workspace : Workspace) : Prop :=
  ∀ package ∈ workspace.packages,
    package.path ∈ named ∨ Whole files workspace.root? package ∨ Torn files workspace.root? package

theorem AddsTo.readAsNeeded {named : List String} {action : Loading α} (adds : AddsTo path action)
    (read : ReadAsNeeded files named one) : ReadAsNeeded files (path :: named) (behind (action one)) := by
  intro package member
  obtain ⟨root, known⟩ := adds one
  rw [root]
  rcases known package member with rfl | before
  · exact Or.inl List.mem_cons_self
  · exact (read package before).imp (List.mem_cons_of_mem _) id

theorem Kept.readAsNeeded {named : List String} {result : EStateM.Result Error Workspace α}
    (kept : Kept files one result) (read : ReadAsNeeded files named one) :
    (behind result).root? = one.root? ∧ ReadAsNeeded files named (behind result) := by
  have gains : ∀ {after}, Gained files one after → after.root? = one.root? ∧ ReadAsNeeded files named after := by
    rintro after ⟨root, added, same, whole⟩
    refine ⟨root, fun package member => ?_⟩
    rw [root]
    rw [same] at member
    exact (List.mem_append.mp member).elim (read package) fun new => Or.inr (Or.inl (whole package new))
  cases result with
  | ok value after => exact gains kept
  | error error after =>
      rcases kept with gained | ⟨between, torn, gained, rfl, isTorn⟩
      · exact gains gained
      · obtain ⟨root, known⟩ := gains gained
        refine ⟨root, fun package member => ?_⟩
        rcases List.mem_append.mp member with before | last
        · exact known package before
        · obtain rfl := List.mem_singleton.mp last
          exact Or.inr (Or.inr (root ▸ isTorn))

theorem Request.run_readAsNeeded {named : List String} (request : Request)
    (read : ReadAsNeeded files named one) :
    (behind (request.run files one)).root? = one.root? ∧
      ReadAsNeeded files (request.target?.toList ++ named) (behind (request.run files one)) := by
  cases request with
  | source path filePath text => exact ⟨(addSource_addsTo one).1, addSource_addsTo.readAsNeeded read⟩
  | file path filePath => exact ⟨(loadFile_addsTo one).1, loadFile_addsTo.readAsNeeded read⟩
  | directory path directory => exact ⟨(loadDirectory_addsTo one).1, loadDirectory_addsTo.readAsNeeded read⟩
  | resolve entry => exact (((resolve_reads entry).bind fun _ => .pure) one).readAsNeeded read

theorem serve_readAsNeeded {named : List String} (requests : List Request) (read : ReadAsNeeded files named one) :
    (serve files one requests).root? = one.root? ∧
      ReadAsNeeded files (requests.filterMap Request.target? ++ named) (serve files one requests) := by
  induction requests generalizing one named with
  | nil => exact ⟨rfl, read⟩
  | cons request requests ih =>
      obtain ⟨root, first⟩ := request.run_readAsNeeded read
      obtain ⟨root', rest⟩ := ih first
      refine ⟨root'.trans root, fun package member => (rest package member).imp (fun inside => ?_) id⟩
      rw [List.filterMap_cons]
      cases target : request.target? with
      | none => simpa [target] using inside
      | some path =>
          simp only [target, Option.toList_some, List.mem_append, List.mem_cons, List.not_mem_nil, or_false] at inside ⊢
          tauto

/-! ## Directories of one piece -/

/-- The files of a directory belong together: if the first one is a file of a package, all others are. -/
def OfOnePiece (files : FileTree) (directory : String) : Prop :=
  ∀ first rest file, sourcesIn files directory = first :: rest → Holds files file.program.package first file →
    ∀ next ∈ rest, ¬ Unfit files file.program.package next

theorem ReadUpTo.whole {rest : List String} (read : ReadUpTo files directory package rest)
    (piece : OfOnePiece files directory) : rest = [] := by
  obtain ⟨front, split, fits⟩ := read.read
  cases rest with
  | nil => rfl
  | cons next others =>
      refine absurd (read.stopped next rfl) ?_
      have some := read.nonempty
      generalize package.files = found at fits some
      cases fits with
      | nil => exact absurd rfl some
      | @cons first file front found holds fits =>
          rw [← holds.package]
          refine piece first _ file split ⟨holds.path, rfl, holds.source⟩ next ?_
          simp

theorem addFile_ok {file : SourceFile} (added : one.addFile path file = .ok after) :
    ∃ package, after.find? path = some package ∧ package.name = file.program.package ∧
      ∀ old, one.find? path = some old → old.name = package.name := by
  cases found : one.find? path with
  | none =>
      rw [addFile_missing found] at added
      cases added
      exact ⟨_, @find?_add_self _ ⟨file.program.package, path, [file]⟩ found, rfl, nofun⟩
  | some package =>
      unfold addFile at added
      rw [found] at added
      dsimp only at added
      split at added
      · rename_i same
        cases added
        refine ⟨{ package with files := package.files ++ [file] }, ?_, same, fun old known => ?_⟩
        · have target : package.path = path := path_of_find? found
          unfold find? at found ⊢
          rw [List.find?_map]
          have alike : ((fun other : Package => other.path == path) ∘ fun other =>
              if other.path == path then { package with files := package.files ++ [file] } else other)
                = fun other => other.path == path := by
            funext other
            by_cases here : other.path = path <;> simp [here, target]
          rw [alike, found, Option.map_some, if_pos (by simp [target])]
        · rw [← Option.some.inj known]
      · cases added

theorem loadFile_ok {filePath : String} (loaded : loadFile files path filePath one = .ok () after) :
    ∃ package file, after.find? path = some package ∧ Holds files package.name filePath file ∧
      ∀ old, one.find? path = some old → old.name = package.name := by
  unfold loadFile at loaded
  cases read : files.read? filePath with
  | none =>
      rw [read] at loaded
      cases loaded
  | some text =>
      rw [read] at loaded
      dsimp only at loaded
      cases parsed : parseText text with
      | error error =>
          rw [addSource_refused parsed] at loaded
          cases loaded
      | ok program =>
          rw [addSource_read parsed, bind_run] at loaded
          cases added : one.addFile path ⟨filePath, program⟩ with
          | error error =>
              rw [added] at loaded
              cases loaded
          | ok extended =>
              rw [added] at loaded
              cases loaded
              obtain ⟨package, found, name, old⟩ := addFile_ok added
              exact ⟨package, ⟨filePath, program⟩, found, ⟨rfl, name.symm, text, read, parsed⟩, old⟩

theorem loadFile_unfit {filePath : String} {error : Error} (found : one.find? path = some package)
    (failed : loadFile files path filePath one = .error error after) : Unfit files package.name filePath := by
  intro file holds
  obtain ⟨text, read, parsed⟩ := holds.source
  unfold loadFile at failed
  rw [read] at failed
  dsimp only at failed
  rw [addSource_read parsed, bind_run] at failed
  unfold addFile at failed
  rw [found] at failed
  dsimp only at failed
  rw [if_pos holds.package.symm] at failed
  cases failed

theorem loadFiles_ok {sources : List String} (found : one.find? path = some package)
    (loaded : loadFiles files path sources one = .ok () after) :
    ∃ last, after.find? path = some last ∧ last.name = package.name := by
  induction sources generalizing one package with
  | nil =>
      cases loaded
      exact ⟨package, found, rfl⟩
  | cons first rest ih =>
      unfold loadFiles at loaded
      rw [bind_run] at loaded
      cases ran : loadFile files path first one with
      | error error stopped =>
          rw [ran] at loaded
          cases loaded
      | ok value between =>
          rw [ran] at loaded
          obtain ⟨next, file, there, _, kept⟩ := loadFile_ok ran
          obtain ⟨last, known, same⟩ := ih there loaded
          exact ⟨last, known, same.trans (kept package found).symm⟩

/-- A directory of one piece that fails to be added changes nothing. -/
theorem OfOnePiece.loadDirectory_failed {error : Error} (piece : OfOnePiece files directory)
    (failed : loadDirectory files path directory current = .error error after) : after = current := by
  obtain ⟨read, rest, split, before, all, stop⟩ := Workspace.loadDirectory_failed failed
  cases read with
  | nil =>
      cases before
      rfl
  | cons first read =>
      cases rest with
      | nil => exact absurd (all rfl) (List.cons_ne_nil _ _)
      | cons next others =>
          unfold loadFiles at before
          rw [bind_run] at before
          cases ran : loadFile files path first current with
          | error reason stopped =>
              rw [ran] at before
              cases before
          | ok value between =>
              rw [ran] at before
              obtain ⟨package, file, there, holds, _⟩ := loadFile_ok ran
              obtain ⟨last, known, same⟩ := loadFiles_ok there before
              have unfit := loadFile_unfit known (stop next rfl)
              rw [same, ← holds.package] at unfit
              exact absurd unfit (piece first _ file split ⟨holds.path, rfl, holds.source⟩ next (by simp))

/-! ## Failures -/

/-- Whatever a caller asked of a workspace before, and whether it failed or not: a text or a single file that
is not added changes nothing, and of a directory that is not added in full the files in front of the one that
fails are added. Packages that are read because they are imported are read in full, but for one that a failure
leaves with its first files. Packages that nobody adds to by name have no other reason to be incomplete; in
particular, directories of one piece are added in full or not at all. -/
theorem failures_leave_first_files (files : FileTree) (root? : Option String) (requests : List Request) :
    let workspace := serve files (.empty root?) requests
    (∀ path filePath text error after,
      addSource path filePath text workspace = .error error after → after = workspace) ∧
    (∀ path filePath error after,
      loadFile files path filePath workspace = .error error after → after = workspace) ∧
    (∀ path directory error after, loadDirectory files path directory workspace = .error error after →
      (∃ read rest, sourcesIn files directory = read ++ rest ∧
        loadFiles files path read workspace = .ok () after ∧ (rest = [] → read = []) ∧
        ∀ next, rest.head? = some next → loadFile files path next after = .error error after) ∧
      (OfOnePiece files directory → after = workspace)) ∧
    (∀ entry error after, resolve files entry workspace = .error error after →
      Gained files workspace after ∨ ∃ between torn, Gained files workspace between ∧
        after = between.add torn ∧ Torn files root? torn) ∧
    (∀ entry packages after, resolve files entry workspace = .ok packages after →
      ∀ package ∈ packages, package.path ∈ requests.filterMap Request.target? ∨
        Whole files root? package ∨ Torn files root? package) ∧
    ((∀ directory, OfOnePiece files directory) → ∀ package, ¬ Torn files root? package) := by
  intro workspace
  -- A workspace that is served is read as needed from the empty one on, whatever was asked of it.
  have start : ReadAsNeeded files [] (.empty root?) := fun package member => absurd member List.not_mem_nil
  obtain ⟨same, served⟩ := serve_readAsNeeded requests start
  have root : workspace.root? = root? := same
  refine ⟨fun _ _ _ _ _ => addSource_failed, fun _ _ _ _ => loadFile_failed, fun path directory error after failed =>
    ⟨loadDirectory_failed failed, fun piece => piece.loadDirectory_failed failed⟩, fun entry error after failed => ?_,
    fun entry packages after ran package member => ?_, fun pieces package torn => ?_⟩
  · have kept := @resolve_reads files entry workspace
    rw [failed] at kept
    rcases kept with gained | ⟨between, torn, gained, same, isTorn⟩
    · exact Or.inl gained
    · exact Or.inr ⟨between, torn, gained, same, root ▸ isTorn⟩
  · have kept := @resolve_reads files entry workspace
    rw [ran] at kept
    obtain ⟨root', read⟩ := kept.readAsNeeded served
    have inside := resolved_mem ran package member
    have known := read package inside
    rw [root', root, List.append_nil] at known
    exact known
  · obtain ⟨directory, next, rest, _, read⟩ := torn
    exact absurd (read.whole (pieces _)) (List.cons_ne_nil next rest)

namespace Broken

/-- A directory with a good file and, behind it, one that is no program. -/
def tree : FileTree :=
  ⟨[(["src", "lib", "a.go"], "package lib\n"), (["src", "lib", "b.go"], "package lib\nfunc \x7b\n")]⟩

def remainder : Package := ⟨"lib", "lib", [⟨"src/lib/a.go", ⟨"lib", [], []⟩⟩]⟩

theorem sources : sourcesIn tree "src/lib" = ["src/lib/a.go", "src/lib/b.go"] := by
  unfold tree
  cbv

theorem fails : ∃ error, resolve tree "lib" (.empty (some "src")) = .error error ⟨some "src", [remainder]⟩ := by
  refine ⟨.inFile "src/lib/b.go" (.parse (.unexpected .functionName ⟨.mark .leftBrace, "\x7b", ⟨2, 6⟩⟩)), ?_⟩
  unfold tree remainder
  cbv

theorem succeeds : resolve tree "lib" ⟨some "src", [remainder]⟩ = .ok [remainder] ⟨some "src", [remainder]⟩ := by
  unfold tree remainder
  cbv

end Broken

/-- Behind a failure, a package is resolved of which a file is missing. -/
theorem broken_package_resolved :
    ∃ error after, resolve Broken.tree "lib" (.empty (some "src")) = .error error after ∧
      resolve Broken.tree "lib" after = .ok [Broken.remainder] after ∧
      sourcesIn Broken.tree "src/lib" = ["src/lib/a.go", "src/lib/b.go"] ∧
      Broken.remainder.files.map (·.path) = ["src/lib/a.go"] ∧ Torn Broken.tree (some "src") Broken.remainder := by
  obtain ⟨error, failed⟩ := Broken.fails
  obtain ⟨_, _, _, resolves, _⟩ := failures_leave_first_files Broken.tree (some "src") []
  refine ⟨error, _, failed, Broken.succeeds, Broken.sources, rfl, ?_⟩
  -- The package was not there before, and is not whole.
  have missing : ¬ Whole Broken.tree (some "src") Broken.remainder := by
    rintro ⟨root, ⟨⟩, whole⟩
    obtain ⟨read, split, fits⟩ := whole.read
    have count := fits.length_eq
    rw [List.append_nil] at split
    rw [← split, show Path.join "src" Broken.remainder.path = "src/lib" from by unfold Broken.remainder; cbv,
      Broken.sources] at count
    cases count
  rcases resolves "lib" error _ failed with ⟨_, added, same, whole⟩ | ⟨between, torn, ⟨_, added, same, whole⟩, last, isTorn⟩
  · have inside : Broken.remainder ∈ [] ++ added := same ▸ List.mem_singleton_self _
    exact absurd (whole Broken.remainder inside) missing
  · have packages : [Broken.remainder] = between.packages ++ [torn] := congrArg Workspace.packages last
    cases front : between.packages with
    | nil =>
        rw [front] at packages
        cases packages
        exact isTorn
    | cons first rest =>
        rw [front] at packages
        simp at packages

end MiniGo.Workspace
