import MiniGo.Proofs.Package.Workspaces
import MiniGo.Proofs.Syntax.Imports

/-!
# The import graph

Which package stands behind an import path depends on the workspace and on the files alone: a package
that is there is used as it is, another is read from its directory, and reading it does not depend on
the packages that were read before. So a workspace has one import graph, which stays the same while
packages are read. Its paths are the entry and texts of the sources, so there are finitely many.
-/

namespace MiniGo.Workspace

variable {files : FileTree} {start current after one two : Workspace} {path : String} {package : Package}

/-! ## Packages of a workspace -/

/-- A workspace with another package. -/
def add (workspace : Workspace) (package : Package) : Workspace :=
  { workspace with packages := workspace.packages ++ [package] }

theorem find?_add_of_some (found : one.find? path = some package) (other : Package) :
    (one.add other).find? path = some package := by
  unfold find? at found ⊢
  rw [add, List.find?_append, found]
  rfl

theorem find?_add_self (missing : one.find? package.path = none) :
    (one.add package).find? package.path = some package := by
  unfold find? at missing ⊢
  rw [add, List.find?_append, missing]
  simp

theorem find?_add_of_ne (other : package.path ≠ path) : (one.add package).find? path = one.find? path := by
  unfold find?
  simp [add, List.find?_append, other]

theorem path_of_find? (found : one.find? path = some package) : package.path = path := by
  simpa using List.find?_some found

theorem addFile_missing {file : SourceFile} (missing : one.find? path = none) :
    one.addFile path file = .ok (one.add ⟨file.program.package, path, [file]⟩) := by
  unfold addFile
  rw [missing]
  rfl

theorem addFile_add {file : SourceFile} (missing : one.find? package.path = none) :
    (one.add package).addFile package.path file
      = if package.name = file.program.package then
          .ok (one.add { package with files := package.files ++ [file] })
        else
          .error (.resolution (.packageMismatch package.name file.program.package package.path)) := by
  have others : one.packages.map (fun other =>
      if other.path == package.path then { package with files := package.files ++ [file] } else other)
        = one.packages := by
    refine (List.map_congr_left fun other member => ?_).trans (List.map_id _)
    have no := List.find?_eq_none.mp missing other member
    rw [if_neg no]
    rfl
  unfold addFile
  rw [find?_add_self missing]
  simp only [add, List.map_append, others, List.map_cons, List.map_nil, beq_self_eq_true, if_true]

/-! ## Reading a package -/

/-- Every file of a package was read from a text of the tree. -/
def ReadFrom (files : FileTree) (package : Package) : Prop :=
  ∀ file ∈ package.files, ∃ text, text ∈ files.files.map Prod.snd ∧ parseText text = .ok file.program

/-- A package is read into two workspaces alike: the same package is added, or the same error stops it,
which is no import cycle. -/
inductive Alike (files : FileTree) (path : String) (one two : Workspace) :
    EStateM.Result Error Workspace Unit → EStateM.Result Error Workspace Unit → Prop where
  | read {package : Package} : package.path = path → ReadFrom files package →
      Alike files path one two (.ok () (one.add package)) (.ok () (two.add package))
  | refused {error : Error} {left right : Workspace} :
      (∀ cycle, error ≠ .resolution (.importCycle cycle)) →
      Alike files path one two (.error error left) (.error error right)

theorem Alike.seq {first rest : Loading Unit} {left right : Workspace}
    (alike : Alike files path one two (first left) (first right))
    (next : ∀ package, package.path = path → ReadFrom files package →
      Alike files path one two (rest (one.add package)) (rest (two.add package))) :
    Alike files path one two ((first >>= fun _ => rest) left) ((first >>= fun _ => rest) right) := by
  rw [bind_run, bind_run]
  generalize first left = ranLeft at alike
  generalize first right = ranRight at alike
  cases alike with
  | read same reads => exact next _ same reads
  | refused other => exact .refused other

theorem read?_mem {filePath text : String} (read : files.read? filePath = some text) :
    text ∈ files.files.map Prod.snd := by
  obtain ⟨place, _, found⟩ := Option.bind_eq_some_iff.mp read
  obtain ⟨front, back, same, _⟩ := List.lookup_eq_some_iff.mp found
  exact List.mem_map.mpr ⟨(place, text), by simp [same], rfl⟩

theorem addSource_refused {filePath text : String} {error : Error} (refused : parseText text = .error error)
    (workspace : Workspace) :
    addSource path filePath text workspace = .error (.inFile filePath error) workspace := by
  unfold addSource
  rw [refused]
  rfl

theorem addSource_read {filePath text : String} {program : Program} (read : parseText text = .ok program)
    (workspace : Workspace) :
    addSource path filePath text workspace
      = (do set (← ofExcept (workspace.addFile path ⟨filePath, program⟩))) workspace := by
  unfold addSource
  rw [read]
  rfl

/-- A file is read alike into workspaces to which it is added alike. -/
theorem loadFile_alike {filePath : String} {left right : Workspace}
    (added : ∀ text program, text ∈ files.files.map Prod.snd → parseText text = .ok program →
      Alike files path one two ((do set (← ofExcept (left.addFile path ⟨filePath, program⟩)) : Loading Unit) left)
        ((do set (← ofExcept (right.addFile path ⟨filePath, program⟩)) : Loading Unit) right)) :
    Alike files path one two (loadFile files path filePath left) (loadFile files path filePath right) := by
  unfold loadFile
  cases read : files.read? filePath with
  | none => exact .refused (by rintro _ ⟨⟩)
  | some text =>
      dsimp only
      cases parsed : parseText text with
      | error error =>
          rw [addSource_refused parsed, addSource_refused parsed]
          exact .refused (by rintro _ ⟨⟩)
      | ok program =>
          rw [addSource_read parsed, addSource_read parsed]
          exact added text program (read?_mem read) parsed

theorem loadFile_add {filePath : String} (same : package.path = path) (reads : ReadFrom files package)
    (missing₁ : one.find? path = none) (missing₂ : two.find? path = none) :
    Alike files path one two (loadFile files path filePath (one.add package))
      (loadFile files path filePath (two.add package)) := by
  subst same
  refine loadFile_alike fun text program written parsed => ?_
  -- Whether the file fits depends on the name of the package alone, and both workspaces have the same package.
  rw [addFile_add missing₁, addFile_add missing₂]
  split
  · refine .read rfl (List.forall_mem_append.mpr ⟨reads, ?_⟩)
    exact List.forall_mem_singleton.mpr ⟨text, written, parsed⟩
  · exact .refused (by rintro _ ⟨⟩)

theorem loadFile_missing {filePath : String} (missing₁ : one.find? path = none)
    (missing₂ : two.find? path = none) :
    Alike files path one two (loadFile files path filePath one) (loadFile files path filePath two) := by
  refine loadFile_alike fun text program written parsed => ?_
  rw [addFile_missing missing₁, addFile_missing missing₂]
  exact .read rfl (List.forall_mem_singleton.mpr ⟨text, written, parsed⟩)

theorem loadFiles_add {sources : List String} (same : package.path = path) (reads : ReadFrom files package)
    (missing₁ : one.find? path = none) (missing₂ : two.find? path = none) :
    Alike files path one two (loadFiles files path sources (one.add package))
      (loadFiles files path sources (two.add package)) := by
  induction sources generalizing package with
  | nil => exact .read same reads
  | cons filePath rest ih => exact (loadFile_add same reads missing₁ missing₂).seq fun _ => ih

theorem loadFiles_missing {sources : List String} (some : sources ≠ [])
    (missing₁ : one.find? path = none) (missing₂ : two.find? path = none) :
    Alike files path one two (loadFiles files path sources one) (loadFiles files path sources two) := by
  cases sources with
  | nil => exact absurd rfl some
  | cons filePath rest =>
      exact (loadFile_missing missing₁ missing₂).seq fun _ same reads =>
        loadFiles_add same reads missing₁ missing₂

theorem loadDirectory_alike {directory : String} (missing₁ : one.find? path = none)
    (missing₂ : two.find? path = none) :
    Alike files path one two (loadDirectory files path directory one)
      (loadDirectory files path directory two) := by
  unfold loadDirectory
  cases files.fileNames? directory with
  | none => exact .refused (by rintro _ ⟨⟩)
  | some names =>
      dsimp only
      cases sources : names.filter Path.isSourceName with
      | nil => exact .refused (by rintro _ ⟨⟩)
      | cons first rest => exact loadFiles_missing (by simp) missing₁ missing₂

/-- A package that is missing in two workspaces with the same root is read into both alike. -/
theorem loadFromRoot_alike (roots : one.root? = two.root?) (missing₁ : one.find? path = none)
    (missing₂ : two.find? path = none) :
    Alike files path one two (loadFromRoot files path one) (loadFromRoot files path two) := by
  unfold loadFromRoot
  change Alike files path one two (EStateM.bind EStateM.get _ one) (EStateM.bind EStateM.get _ two)
  dsimp only [EStateM.bind, EStateM.get]
  rw [← roots]
  cases one.root? with
  | none => exact .refused (by rintro _ ⟨⟩)
  | some root =>
      dsimp only
      split
      · exact loadDirectory_alike missing₁ missing₂
      · exact .refused (by rintro _ ⟨⟩)

/-! ## The graph -/

section

variable (files : FileTree) (start : Workspace)

/-- The package behind an import path: the one that is there, or else the one that is read from the
directory of the path. -/
def package? (path : String) : Option Package :=
  match start.find? path with
  | some package => some package
  | none =>
      match loadFromRoot files path start with
      | .ok _ after => after.find? path
      | .error _ _ => none

/-- A package imports another one; the formatting package is always there and does not count. -/
def Imports (path other : String) : Prop :=
  ∃ package, package? files start path = some package ∧
    (∃ found ∈ package.imports, found.path = other) ∧ other ≠ Builtin.formattingPath

/-- A path is reached from another one over imports. -/
def Reaches : String → String → Prop := Relation.ReflTransGen (Imports files start)

/-- What is there on the way: the packages that were there at the start, and others that were read. -/
structure View (current : Workspace) : Prop where
  root : current.root? = start.root?
  known : ∀ path package, current.find? path = some package → package? files start path = some package
  kept : ∀ path package, start.find? path = some package → current.find? path = some package

end

theorem view_start : View files start start where
  root := rfl
  known path package found := by rw [package?, found]
  kept _ _ found := found

theorem View.missing (view : View files start current) (missing : current.find? path = none) :
    start.find? path = none := by
  cases found : start.find? path with
  | none => rfl
  | some package =>
      rw [view.kept path package found] at missing
      cases missing

/-- A package that is missing is read as it would be read at the start. -/
theorem View.load (view : View files start current) (missing : current.find? path = none)
    (read : loadFromRoot files path current = .ok () after) :
    View files start after ∧ (after.find? path).isSome ∧
      ∀ other, (current.find? other).isSome → (after.find? other).isSome := by
  have never := view.missing missing
  have alike := @loadFromRoot_alike files _ _ path view.root.symm never missing
  rw [read] at alike
  generalize first : loadFromRoot files path start = outcome at alike
  cases alike with
  | @read package same reads =>
      subst same
      have self := find?_add_self missing
      refine ⟨⟨view.root, fun other found known => ?_, fun other found known => ?_⟩, by rw [self]; rfl,
        fun other there => ?_⟩
      -- The package itself is what would be read at the start; any other was known before.
      · by_cases same : package.path = other
        · subst same
          rw [package?, never, first]
          rw [self] at known
          rw [← known]
          exact find?_add_self never
        · rw [find?_add_of_ne same] at known
          exact view.known other found known
      · exact find?_add_of_some (view.kept other found known) package
      · obtain ⟨found, known⟩ := Option.isSome_iff_exists.mp there
        rw [find?_add_of_some known]
        rfl

theorem View.refuse (view : View files start current) (missing : current.find? path = none) {error : Error}
    (refused : loadFromRoot files path current = .error error after) :
    package? files start path = none ∧ ∀ cycle, error ≠ .resolution (.importCycle cycle) := by
  have never := view.missing missing
  have alike := @loadFromRoot_alike files _ _ path view.root.symm never missing
  rw [refused] at alike
  generalize first : loadFromRoot files path start = outcome at alike
  cases alike with
  | refused other =>
      rw [package?, never, first]
      exact ⟨rfl, other⟩

theorem View.mem_importsOf (view : View files start current) (there : (current.find? path).isSome)
    {other : String} : other ∈ current.importsOf path ↔ Imports files start path other := by
  obtain ⟨package, found⟩ := Option.isSome_iff_exists.mp there
  have known := view.known path package found
  unfold importsOf Imports
  simp [found, known]

/-! ## The paths of the graph -/

def importsIn (text : String) : List String :=
  match parseText text with
  | .ok program => program.imports.map (·.path)
  | .error _ => []

/-- The paths that the packages of a workspace and the files of a tree import. -/
def mentioned (files : FileTree) (start : Workspace) : List String :=
  (start.packages.flatMap (·.imports)).map (·.path) ++ (files.files.map Prod.snd).flatMap importsIn

theorem length_importsIn (text : String) : (importsIn text).length ≤ text.utf8ByteSize := by
  unfold importsIn
  split
  · rename_i program read
    rw [List.length_map]
    exact Syntax.length_imports read
  · exact Nat.zero_le _

theorem size_eq (files : FileTree) : files.size = ((files.files.map Prod.snd).map String.utf8ByteSize).sum := by
  unfold FileTree.size
  rw [List.map_map, List.sum_eq_foldl, List.foldl_map]
  rfl

theorem length_mentioned (files : FileTree) (start : Workspace) :
    (mentioned files start).length + 2 ≤ depthBound files start := by
  have read : ∀ texts : List String, (texts.flatMap importsIn).length ≤ (texts.map String.utf8ByteSize).sum := by
    intro texts
    induction texts with
    | nil => exact Nat.le_refl _
    | cons text texts ih =>
        have first := length_importsIn text
        simp only [List.flatMap_cons, List.length_append, List.map_cons, List.sum_cons]
        omega
  have all := read (files.files.map Prod.snd)
  rw [depthBound, mentioned, size_eq, List.length_append, List.length_map]
  omega

/-- The package behind a path was there, or all of its files were read. -/
theorem package?_cases (known : package? files start path = some package) :
    package ∈ start.packages ∨ ReadFrom files package := by
  unfold package? at known
  cases found : start.find? path with
  | some other =>
      rw [found] at known
      cases known
      exact Or.inl (List.mem_of_find?_eq_some found)
  | none =>
      have alike := @loadFromRoot_alike files _ _ path rfl found found
      rw [found] at known
      dsimp only at known
      generalize loadFromRoot files path start = outcome at alike known
      cases alike with
      | read same reads =>
          subst same
          dsimp only at known
          rw [find?_add_self found] at known
          cases known
          exact Or.inr reads
      | refused _ => cases known

theorem mentioned_of_imports {other : String} (imports : Imports files start path other) :
    other ∈ mentioned files start := by
  obtain ⟨package, known, ⟨found, member, rfl⟩, _⟩ := imports
  obtain ⟨file, inside, here⟩ := List.mem_flatMap.mp member
  rcases package?_cases known with there | reads
  · exact List.mem_append_left _ (List.mem_map.mpr ⟨found, List.mem_flatMap.mpr ⟨package, there, member⟩, rfl⟩)
  · obtain ⟨text, within, parsed⟩ := reads file inside
    refine List.mem_append_right _ (List.mem_flatMap.mpr ⟨text, within, ?_⟩)
    rw [importsIn, parsed]
    exact List.mem_map.mpr ⟨found, here, rfl⟩

theorem mem_of_reaches {entry : String} (reaches : Reaches files start entry path) :
    path ∈ entry :: mentioned files start := by
  rcases Relation.ReflTransGen.cases_tail reaches with rfl | ⟨before, _, imports⟩
  · exact List.mem_cons_self
  · exact List.mem_cons_of_mem _ (mentioned_of_imports imports)

theorem length_lt_depthBound {entry : String} {paths : List String} (nodup : paths.Nodup)
    (reached : ∀ path ∈ paths, Reaches files start entry path) : paths.length < depthBound files start := by
  have few := (nodup.subperm fun path member => mem_of_reaches (reached path member)).length_le
  have bound := length_mentioned files start
  rw [List.length_cons] at few
  omega

end MiniGo.Workspace
