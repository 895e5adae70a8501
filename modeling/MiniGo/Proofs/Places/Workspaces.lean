import MiniGo.Proofs.Package.Resolving
import MiniGo.Proofs.Places.Sessions
import MiniGo.Proofs.Syntax.Printing

/-!
# Programs that are read alike

Two texts are read alike if they are read as the same file up to places, or refused alike. Which files of a tree are
read is decided by names and by what the files before them import, so trees whose texts are read alike lead to the
same packages, and what a caller sees of them is the same (`transcript_alike`). The printed form of a file is read as
the file is, so a program does what its printed form does (`printed_program_alike`).
-/

namespace MiniGo.Placeless

open Syntax
open Workspace (addSource_refused addSource_read)

variable {α β γ δ ε : Type}

/-! ## Files -/

/-- What a text is read as, without places. -/
def reading (text : String) : Except Error Program := ((parseText text).map unplaced).mapError error

/-- Trees with the same files, the texts of which are read alike. -/
def SameTexts (files other : FileTree) : Prop :=
  List.Forall₂ (fun file mirror => mirror.1 = file.1 ∧ reading mirror.2 = reading file.2) files.files other.files

namespace SameTexts

variable {files other : FileTree}

theorem names (same : SameTexts files other) : other.files.map Prod.fst = files.files.map Prod.fst := by
  unfold SameTexts at same
  generalize files.files = left at same
  generalize other.files = right at same
  induction same with
  | nil => rfl
  | cons first _ ih => exact congrArg₂ List.cons first.1 ih

theorem isPlace (same : SameTexts files other) (place : List String) : other.isPlace place = files.isPlace place := by
  have names := congrArg (List.any · fun found => place.length < found.length && place.isPrefixOf found) same.names
  simp only [List.any_map] at names
  exact congrArg (place.isEmpty || ·) names

theorem walk (same : SameTexts files other) (place names : List String) : other.walk place names = files.walk place names := by
  induction names generalizing place with
  | nil => rfl
  | cons name names ih =>
      unfold FileTree.walk FileTree.follow
      rw [same.isPlace]
      split <;> simp only [ih]

theorem place? (same : SameTexts files other) (path : String) : other.place? path = files.place? path := by
  unfold FileTree.place?
  rw [same.walk]

theorem lookup (same : SameTexts files other) (place : List String) :
    Option.Rel (fun text mirror => reading mirror = reading text) (files.files.lookup place) (other.files.lookup place) := by
  unfold SameTexts at same
  generalize files.files = left at same
  generalize other.files = right at same
  induction same with
  | nil => exact .none
  | @cons file mirror left right first _ ih =>
      obtain ⟨name, text⟩ := file
      obtain ⟨again, found⟩ := mirror
      obtain ⟨rfl, read⟩ := first
      rw [List.lookup_cons, List.lookup_cons]
      cases place == again with
      | true => exact .some read
      | false => exact ih

theorem read? (same : SameTexts files other) (path : String) :
    Option.Rel (fun text mirror => reading mirror = reading text) (files.read? path) (other.read? path) := by
  unfold FileTree.read?
  rw [same.place?]
  cases files.place? path with
  | none => exact .none
  | some place => exact same.lookup place

theorem isDirectory (same : SameTexts files other) (path : String) : other.isDirectory path = files.isDirectory path := by
  unfold FileTree.isDirectory
  rw [same.place?]
  simp only [same.isPlace]

theorem fileNames? (same : SameTexts files other) (path : String) : other.fileNames? path = files.fileNames? path := by
  have names (place : List String) := congrArg (List.filterMap (FileTree.nameIn? place)) same.names
  simp only [List.filterMap_map] at names
  unfold FileTree.fileNames?
  rw [same.place?]
  simp only [same.isPlace]
  cases files.place? path with
  | none => rfl
  | some place =>
      exact congrArg (fun found => if files.isPlace place then some (found.mergeSort fun a b => !(b < a)) else none)
        (names place)

theorem directoryFault (same : SameTexts files other) (place : List String) :
    other.directoryFault place = files.directoryFault place := by
  have there : (other.files.lookup place).isSome = (files.files.lookup place).isSome := by
    have found := same.lookup place
    generalize files.files.lookup place = text at found
    generalize other.files.lookup place = mirror at found
    cases found <;> rfl
  unfold FileTree.directoryFault
  rw [there]

theorem readFault (same : SameTexts files other) (path : String) : other.readFault path = files.readFault path := by
  unfold FileTree.readFault
  simp only [same.walk, same.directoryFault, same.isPlace]

theorem listFault (same : SameTexts files other) (path : String) : other.listFault path = files.listFault path := by
  unfold FileTree.listFault
  simp only [same.walk, same.directoryFault]

end SameTexts

/-- A file of a program, and the package that it is added to. -/
structure Source where
  package : String
  file : String
  text : String

/-- Files of the same package and path, the texts of which are read alike. -/
def SameSource (source other : Source) : Prop :=
  other.package = source.package ∧ other.file = source.file ∧ reading other.text = reading source.text

/-- Adds the files of a program to a workspace. -/
def addSources : List Source → Loading Unit
  | [] => pure ()
  | source :: rest => do
      Workspace.addSource source.package source.file source.text
      addSources rest

/-! ## Workspaces -/

theorem imports_package (found : Package) : (package found).imports.map (·.path) = found.imports.map (·.path) := by
  simp only [Package.imports, package, sourceFile, unplaced, Unplaced.program, List.map_flatMap, List.flatMap_map,
    List.map_map]
  rfl

theorem package_extended {found other : Package} {file mirror : SourceFile} (same : package other = package found)
    (fits : sourceFile mirror = sourceFile file) :
    package { other with files := other.files ++ [mirror] } = package { found with files := found.files ++ [file] } := by
  simp only [package, Package.mk.injEq, List.map_append, List.map_cons, List.map_nil, fits] at same ⊢
  exact ⟨same.1, same.2.1, congrArg (· ++ [sourceFile file]) same.2.2⟩

theorem map_package_replaced (path : String) (extended : Package) (packages : List Package) :
    (packages.map fun other => if other.path == path then extended else other).map package
      = (packages.map package).map fun other => if other.path == path then package extended else other := by
  rw [List.map_map, List.map_map]
  exact List.map_congr_left fun other _ => apply_ite package (other.path == path) extended other

/-- A workspace with the packages of another, up to places. -/
structure SamePackages (one two : Workspace) : Prop where
  root : two.root? = one.root?
  packages : two.packages.map package = one.packages.map package

/-- Two steps of workspaces ended in the same way, up to places. -/
def EndedAlike (erase : α → γ) : EStateM.Result Error Workspace α → EStateM.Result Error Workspace α → Prop
  | .ok found after, .ok result later => erase result = erase found ∧ SamePackages after later
  | .error found after, .error result later => error result = error found ∧ SamePackages after later
  | _, _ => False

/-- On workspaces with the same packages, two steps do the same. -/
def LoadsAlike (erase : α → γ) (run mirror : Loading α) : Prop :=
  ∀ one two, SamePackages one two → EndedAlike erase (run one) (mirror two)

theorem EndedAlike.of_ok {erase : α → γ} {found : α} {after : Workspace}
    {mirrored : EStateM.Result Error Workspace α} (ended : EndedAlike erase (.ok found after) mirrored) :
    ∃ other later, mirrored = .ok other later ∧ erase other = erase found ∧ SamePackages after later := by
  cases mirrored with
  | ok other later => exact ⟨other, later, rfl, ended⟩
  | error => exact ended.elim

theorem EndedAlike.of_error {erase : α → γ} {found : Error} {after : Workspace}
    {mirrored : EStateM.Result Error Workspace α} (ended : EndedAlike erase (.error found after) mirrored) :
    ∃ other later, mirrored = .error other later ∧ error other = error found ∧ SamePackages after later := by
  cases mirrored with
  | ok => exact ended.elim
  | error other later => exact ⟨other, later, rfl, ended⟩

namespace SamePackages

variable {one two : Workspace} {path : String}

theorem find? (same : SamePackages one two) (path : String) :
    (two.find? path).map package = (one.find? path).map package := by
  have found := congrArg (List.find? (·.path == path)) same.packages
  rw [List.find?_map, List.find?_map] at found
  exact found

theorem isNone (same : SamePackages one two) (path : String) : (two.find? path).isNone = (one.find? path).isNone := by
  have found := congrArg Option.isNone (same.find? path)
  rwa [Option.isNone_map, Option.isNone_map] at found

theorem importsOf (same : SamePackages one two) (path : String) : two.importsOf path = one.importsOf path := by
  have found := same.find? path
  unfold Workspace.importsOf
  generalize one.find? path = left at found
  generalize two.find? path = right at found
  cases left with
  | none =>
      cases right with
      | none => rfl
      | some other => cases found
  | some package =>
      cases right with
      | none => cases found
      | some other =>
          have paths : other.imports.map (·.path) = package.imports.map (·.path) := by
            rw [← imports_package other, Option.some.inj found, imports_package]
          exact congrArg (List.filter (· != Builtin.formattingPath)) paths

theorem filterMap_find? (same : SamePackages one two) (order : List String) :
    (order.filterMap two.find?).map package = (order.filterMap one.find?).map package := by
  rw [List.map_filterMap, List.map_filterMap]
  exact congrFun (congrArg List.filterMap (funext same.find?)) order

end SamePackages

namespace LoadsAlike

variable {erase : α → γ} {last : β → δ}

theorem pure {found other : α} (same : erase other = erase found) :
    LoadsAlike erase (Pure.pure found : Loading α) (Pure.pure other) := fun _ _ alike => ⟨same, alike⟩

theorem throw {found other : Error} (same : error other = error found) :
    LoadsAlike erase (MonadExcept.throw found : Loading α) (MonadExcept.throw other) := fun _ _ alike => ⟨same, alike⟩

theorem bind {run mirror : Loading α} {next behind : α → Loading β} (first : LoadsAlike erase run mirror)
    (rest : ∀ found other, erase other = erase found → LoadsAlike last (next found) (behind other)) :
    LoadsAlike last (run >>= next) (mirror >>= behind) := by
  intro one two alike
  have ended := first one two alike
  rw [bind_run, bind_run]
  generalize run one = left at ended
  cases left with
  | ok found after =>
      obtain ⟨other, later, mirrored, same, alike⟩ := ended.of_ok
      rw [mirrored]
      exact rest found other same after later alike
  | error found after =>
      obtain ⟨other, later, mirrored, same⟩ := ended.of_error
      rw [mirrored]
      exact same

theorem get {next behind : Workspace → Loading β}
    (rest : ∀ one two, SamePackages one two → EndedAlike last (next one one) (behind two two)) :
    LoadsAlike last (MonadState.get >>= next) (MonadState.get >>= behind) := rest

theorem addFile {path : String} {file mirror : SourceFile} (fits : sourceFile mirror = sourceFile file) :
    LoadsAlike id (do set (← Workspace.ofExcept ((← MonadState.get).addFile path file)) : Loading Unit)
      (do set (← Workspace.ofExcept ((← MonadState.get).addFile path mirror))) := by
  have name : mirror.program.package = file.program.package := by
    change (sourceFile mirror).program.package = (sourceFile file).program.package
    rw [fits]
  refine get fun one two same => ?_
  have found := same.find? path
  unfold Workspace.addFile
  -- Both workspaces have the package or neither has, and a package that both have has one name.
  generalize one.find? path = left at found
  generalize two.find? path = right at found
  cases left with
  | none =>
      cases right with
      | none =>
          refine ⟨rfl, same.root, ?_⟩
          simp only [List.map_append, same.packages, List.map_cons, List.map_nil, package, fits, name]
      | some other => cases found
  | some existing =>
      cases right with
      | none => cases found
      | some other =>
          have again := Option.some.inj found
          have named : other.name = existing.name := by
            change (package other).name = (package existing).name
            rw [again]
          dsimp only
          by_cases agrees : existing.name = file.program.package
          · rw [if_pos agrees, if_pos (named.trans (agrees.trans name.symm))]
            refine ⟨rfl, same.root, ?_⟩
            dsimp only
            rw [map_package_replaced, map_package_replaced, same.packages, package_extended again fits]
          · rw [if_neg agrees, if_neg (by rwa [named, name]), named, name]
            exact ⟨rfl, same⟩

theorem addSource {path filePath text other : String} (read : reading other = reading text) :
    LoadsAlike id (Workspace.addSource path filePath text) (Workspace.addSource path filePath other) := by
  intro one two same
  unfold reading at read
  cases parsed : parseText text with
  | error found =>
      cases again : parseText other with
      | error mirror =>
          rw [parsed, again] at read
          rw [addSource_refused parsed, addSource_refused again]
          exact ⟨congrArg (Error.inFile filePath) (Except.error.inj read), same⟩
      | ok program =>
          rw [parsed, again] at read
          cases read
  | ok program =>
      cases again : parseText other with
      | error mirror =>
          rw [parsed, again] at read
          cases read
      | ok mirror =>
          rw [parsed, again] at read
          have fits : sourceFile ⟨filePath, mirror⟩ = sourceFile ⟨filePath, program⟩ :=
            congrArg (SourceFile.mk filePath) (Except.ok.inj read)
          rw [addSource_read parsed, addSource_read again]
          exact addFile fits one two same

variable {files other : FileTree}

theorem loadFile (trees : SameTexts files other) {path filePath : String} :
    LoadsAlike id (Workspace.loadFile files path filePath) (Workspace.loadFile other path filePath) := by
  have read := trees.read? filePath
  unfold Workspace.loadFile
  rw [trees.readFault]
  generalize files.read? filePath = left at read
  generalize other.read? filePath = right at read
  cases read with
  | none => exact throw rfl
  | some same => exact addSource same

theorem loadFiles (trees : SameTexts files other) {path : String} {sources : List String} :
    LoadsAlike id (Workspace.loadFiles files path sources) (Workspace.loadFiles other path sources) := by
  induction sources with
  | nil => exact pure rfl
  | cons filePath rest ih => exact (loadFile trees).bind fun _ _ _ => ih

theorem loadDirectory (trees : SameTexts files other) {path directory : String} :
    LoadsAlike id (Workspace.loadDirectory files path directory) (Workspace.loadDirectory other path directory) := by
  unfold Workspace.loadDirectory
  rw [trees.fileNames?, trees.listFault]
  split
  · exact throw rfl
  · split
    · exact throw rfl
    · exact loadFiles trees

theorem loadFromRoot (trees : SameTexts files other) {path : String} :
    LoadsAlike id (Workspace.loadFromRoot files path) (Workspace.loadFromRoot other path) := by
  refine get fun one two same => ?_
  rw [same.root]
  cases one.root? with
  | none => exact throw rfl one two same
  | some root =>
      dsimp only
      rw [trees.isDirectory]
      split
      · exact loadDirectory trees one two same
      · exact throw rfl one two same

theorem foldlM {step mirror : List String → String → Loading (List String)}
    (visits : ∀ done path, LoadsAlike id (step done path) (mirror done path)) {done : List String} {paths : List String} :
    LoadsAlike id (paths.foldlM step done) (paths.foldlM mirror done) := by
  induction paths generalizing done with
  | nil => exact pure rfl
  | cons path rest ih =>
      rw [List.foldlM_cons, List.foldlM_cons]
      refine (visits done path).bind fun found other same => ?_
      obtain rfl : other = found := same
      exact ih

theorem visit (trees : SameTexts files other) {fuel : Nat} {visiting done : List String} {path : String} :
    LoadsAlike id (Workspace.visit files fuel visiting done path) (Workspace.visit other fuel visiting done path) := by
  induction fuel generalizing visiting done path with
  | zero => exact throw rfl
  | succ fuel ih =>
      unfold Workspace.visit
      split
      · exact pure rfl
      · split
        · exact throw rfl
        · have rest : LoadsAlike id
              (do
                let imports := (← MonadState.get).importsOf path
                let done ← imports.foldlM (Workspace.visit files fuel (visiting ++ [path])) done
                Pure.pure (done ++ [path]) : Loading (List String))
              (do
                let imports := (← MonadState.get).importsOf path
                let done ← imports.foldlM (Workspace.visit other fuel (visiting ++ [path])) done
                Pure.pure (done ++ [path])) := by
            refine get fun one two same => ?_
            rw [same.importsOf]
            refine (foldlM fun done path => ih).bind (fun found other same => ?_) one two same
            obtain rfl : other = found := same
            exact pure rfl
          refine get fun one two same => ?_
          rw [same.isNone]
          split
          · exact (loadFromRoot trees).bind (fun _ _ _ => rest) one two same
          · exact rest one two same

theorem resolve (trees : SameTexts files other) {entry : String} :
    LoadsAlike (List.map package) (Workspace.resolve files entry) (Workspace.resolve other entry) := by
  intro one two same
  -- The two visits are bounded by the texts, which may differ in length.
  rw [Workspace.resolve_bound (Nat.le_max_left _ (Workspace.depthBound other two)),
    Workspace.resolve_bound (Nat.le_max_right (Workspace.depthBound files one) _)]
  refine (visit trees).bind (fun found order same => ?_) one two same
  obtain rfl : order = found := same
  exact get fun one two same => ⟨same.filterMap_find? _, same⟩

theorem prepare (trees : SameTexts files other) {entry : String} :
    LoadsAlike (List.map package) (MiniGo.prepare files entry) (MiniGo.prepare other entry) := by
  refine (resolve trees).bind fun found mirror same => ?_
  have checks : (checkAll .initial mirror).mapError error = (checkAll .initial found).mapError error := by
    rw [← checkAll_packages, ← checkAll_packages, same]
  cases checked : checkAll .initial found with
  | error failure =>
      cases again : checkAll .initial mirror with
      | error other =>
          rw [checked, again] at checks
          exact throw (Except.error.inj checks)
      | ok interfaces =>
          rw [checked, again] at checks
          cases checks
  | ok interfaces =>
      cases again : checkAll .initial mirror with
      | error other =>
          rw [checked, again] at checks
          cases checks
      | ok others => exact pure same

theorem addSources {sources mirror : List Source} (same : List.Forall₂ SameSource sources mirror) :
    LoadsAlike id (Placeless.addSources sources) (Placeless.addSources mirror) := by
  induction same with
  | nil => exact pure rfl
  | @cons source other sources mirror first _ ih =>
      obtain ⟨package, file, text⟩ := source
      obtain ⟨_, _, again⟩ := other
      obtain ⟨rfl, rfl, read⟩ := first
      exact (addSource read).bind fun _ _ _ => ih

end LoadsAlike

/-! ## Programs -/

section

variable {files other : FileTree} {one two : Workspace} {fuel : Nat} {settings : Settings} {output : Output} {entry : String}
  {caller : Running.Caller}

/-- What a caller sees of packages that are loaded and called. -/
def loadedTranscript (fuel : Nat) (settings : Settings) (output : Output) (entry : String) (packages : List Package)
    (caller : Running.Caller) : Running.Transcript :=
  match loadPackages fuel settings output entry packages with
  | .error error session => ⟨some error, (Running.drain session).1, []⟩
  | .ok _ session => ⟨none, (Running.drain session).1, Running.serve caller [] (Running.drain session).2⟩

theorem loadedTranscript_packages (blind : Blind caller) (packages : List Package) :
    loadedTranscript fuel settings output entry (packages.map package) (caller.map fun next answers => call (next answers))
      = transcript (loadedTranscript fuel settings output entry packages caller) := by
  have ended := loadPackages_packages fuel settings output entry packages
  unfold loadedTranscript
  generalize loadPackages fuel settings output entry packages = left at ended
  cases left with
  | ok _ session =>
      obtain ⟨other, mirrored, paired⟩ := ended.of_ok
      obtain ⟨printed, paired⟩ := drain_paired paired
      have answers := serve_paired caller blind [] paired
      rw [mirrored]
      dsimp only
      rw [printed]
      exact congrArg (Running.Transcript.mk none _) answers
  | error failure session =>
      obtain ⟨other, mirrored, paired⟩ := ended.of_error
      rw [mirrored]
      dsimp only
      rw [(drain_paired paired).1]
      rfl

/-- A program whose texts are read alike does the same, up to places. -/
theorem transcript_alike (trees : SameTexts files other) (same : SamePackages one two) (blind : Blind caller) :
    transcript (Running.transcript other fuel settings output entry two caller)
      = transcript (Running.transcript files fuel settings output entry one caller) := by
  have ended : EndedAlike (List.map package) (prepare files entry one) (prepare other entry two) :=
    LoadsAlike.prepare trees one two same
  unfold Running.transcript
  generalize prepare files entry one = left at ended
  cases left with
  | ok packages after =>
      obtain ⟨mirror, later, mirrored, alike, _⟩ := ended.of_ok
      rw [mirrored]
      change transcript (loadedTranscript fuel settings output entry mirror caller)
        = transcript (loadedTranscript fuel settings output entry packages caller)
      rw [← loadedTranscript_packages blind, ← loadedTranscript_packages blind, alike]
  | error failure after =>
      obtain ⟨other, later, mirrored, alike, _⟩ := ended.of_error
      rw [mirrored]
      dsimp only [transcript, Option.map]
      rw [alike]

end

/-! ## Printed programs -/

/-- A text that is a file, as it is printed. -/
def printed (text : String) : String :=
  match parseText text with
  | .ok program => program.render
  | .error _ => text

/-- A file of a program, as it is printed. -/
def Source.printed (source : Source) : Source := { source with text := Placeless.printed source.text }

/-- A tree of files, each as it is printed. -/
def printedTree (files : FileTree) : FileTree := ⟨files.files.map fun file => (file.1, printed file.2)⟩

/-- A text is a file whose printed form is a file too, without literals that are spelled as something else: an infinite
float is spelled as a name, and the smallest integer loses its sign in front of arguments. -/
def Prints (text : String) : Prop :=
  ∀ program, parseText text = .ok program → (∃ again, parseText program.render = .ok again) ∧
    Everywhere.program NotInfinite program ∧ Everywhere.program Callable program

theorem reading_printed {text : String} (prints : Prints text) : reading (printed text) = reading text := by
  unfold printed
  cases parsed : parseText text with
  | error failure => rfl
  | ok program =>
      obtain ⟨⟨again, read⟩, finite, callable⟩ := prints program parsed
      obtain ⟨other, reread, same⟩ := (parseText_print parsed finite callable).resolve_right fun ⟨_, deep⟩ => by
        rw [deep] at read
        cases read
      unfold reading
      rw [parsed]
      dsimp only
      rw [reread]
      exact congrArg Except.ok same

theorem sameTexts_printed {files : FileTree} (prints : ∀ file ∈ files.files, Prints file.2) :
    SameTexts files (printedTree files) :=
  List.forall₂_map_right_iff.mpr (List.forall₂_same.mpr fun file member => ⟨rfl, reading_printed (prints file member)⟩)

/-- A program that is built is also built from the printed forms of its files, and then does the same, up to places. -/
theorem printed_program_alike {files : FileTree} {sources : List Source} {root? : Option String} {workspace : Workspace}
    {fuel : Nat} {settings : Settings} {output : Output} {entry : String} {caller : Running.Caller}
    (listed : ∀ source ∈ sources, Prints source.text) (stored : ∀ file ∈ files.files, Prints file.2)
    (added : addSources sources (.empty root?) = .ok () workspace)
    (accepted : ∃ session after, build files fuel settings output entry workspace = .ok session after)
    (blind : Blind caller) :
    ∃ again, addSources (sources.map Source.printed) (.empty root?) = .ok () again ∧
      (∃ session after, build (printedTree files) fuel settings output entry again = .ok session after) ∧
      transcript (Running.transcript (printedTree files) fuel settings output entry again caller)
        = transcript (Running.transcript files fuel settings output entry workspace caller) := by
  have texts : List.Forall₂ SameSource sources (sources.map Source.printed) :=
    List.forall₂_map_right_iff.mpr (List.forall₂_same.mpr fun source member =>
      ⟨rfl, rfl, reading_printed (listed source member)⟩)
  have ended := LoadsAlike.addSources texts (.empty root?) (.empty root?) ⟨rfl, rfl⟩
  rw [added] at ended
  cases mirrored : addSources (sources.map Source.printed) (.empty root?) with
  | error failure later =>
      rw [mirrored] at ended
      exact ended.elim
  | ok _ again =>
      rw [mirrored] at ended
      -- The transcripts agree, so the second build cannot fail where the first did not.
      have alike : transcript (Running.transcript (printedTree files) fuel settings output entry again caller)
          = transcript (Running.transcript files fuel settings output entry workspace caller) :=
        transcript_alike (sameTexts_printed stored) ended.2 blind
      refine ⟨again, rfl, ?_, alike⟩
      obtain ⟨session, after, built⟩ := accepted
      have failures := congrArg Running.Transcript.failure alike
      simp only [transcript, Running.failure_eq_build, built, Option.map_none] at failures
      cases rebuilt : build (printedTree files) fuel settings output entry again with
      | ok session after => exact ⟨session, after, rfl⟩
      | error failure after =>
          rw [rebuilt] at failures
          cases failures

namespace Sum

def text : String := "package main\nfunc Main() int \x7b return 1 + (2 * 3) \x7d\n"

/-- What `text` is read as. -/
def program : Program := ⟨"main", [], [.function "Main" ⟨⟨[], [.int], []⟩,
  [.return [.binary (.integer 1) .add (.binary (.integer 2) .multiply (.integer 3) ⟨2, 33⟩) ⟨2, 28⟩] ⟨2, 19⟩], ⟨2, 1⟩⟩]⟩

def sources : List Source := [⟨"main", "main.go", text⟩]

def workspace : Workspace := ⟨none, [⟨"main", "main", [⟨"main.go", program⟩]⟩]⟩

def caller : Running.Caller := [fun _ => ⟨"main", "Main", []⟩]

theorem read : parseText text = .ok program := by
  unfold text program
  cbv

theorem finite : Everywhere.program NotInfinite program := by
  simp [program, Everywhere.program, Everywhere.decl, Everywhere.function, Everywhere.stmts, Everywhere.stmt,
    Everywhere.exprs, Everywhere.expr, NotInfinite]

theorem callable : Everywhere.program Callable program := by
  simp [program, Everywhere.program, Everywhere.decl, Everywhere.function, Everywhere.stmts, Everywhere.stmt,
    Everywhere.exprs, Everywhere.expr, Callable]

theorem prints : Prints text := by
  intro found same
  obtain rfl := Except.ok.inj (read.symm.trans same)
  refine ⟨⟨⟨"main", [], [.function "Main" ⟨⟨[], [.int], []⟩, [.return [.binary (.integer 1) .add
    (.binary (.integer 2) .multiply (.integer 3) ⟨4, 15⟩) ⟨4, 11⟩] ⟨4, 2⟩], ⟨3, 1⟩⟩]⟩, ?_⟩, finite, callable⟩
  unfold program
  cbv

theorem seen : Running.transcript .empty 100 ⟨10, none, "main"⟩ .empty "main" workspace caller
    = ⟨none, "", [⟨.ok [.int 7], ""⟩]⟩ := by
  unfold workspace program caller
  cbv

theorem accepted : ∃ session after, build .empty 100 ⟨10, none, "main"⟩ .empty "main" workspace = .ok session after := by
  have failure := Running.failure_eq_build .empty 100 ⟨10, none, "main"⟩ .empty "main" workspace caller
  rw [seen] at failure
  cases built : build .empty 100 ⟨10, none, "main"⟩ .empty "main" workspace with
  | ok session after => exact ⟨session, after, rfl⟩
  | error error after =>
      rw [built] at failure
      cases failure

theorem added : addSources sources (.empty none) = .ok () workspace := by
  unfold sources addSources addSources
  rw [bind_run, Workspace.addSource_read read]
  rfl

theorem blind : Blind caller := by
  intro next member answers
  obtain rfl := List.mem_singleton.mp member
  rfl

end Sum

/-- The hypotheses hold of a file with a sum in parentheses that are not printed. -/
theorem printed_sum_alike :
    (∀ source ∈ Sum.sources, Prints source.text) ∧ (∀ file ∈ FileTree.empty.files, Prints file.2) ∧
    addSources Sum.sources (.empty none) = .ok () Sum.workspace ∧
    (∃ session after, build .empty 100 ⟨10, none, "main"⟩ .empty "main" Sum.workspace = .ok session after) ∧
    Blind Sum.caller ∧
    ∃ again, addSources (Sum.sources.map Source.printed) (.empty none) = .ok () again ∧
      (∃ session after, build (printedTree .empty) 100 ⟨10, none, "main"⟩ .empty "main" again = .ok session after) ∧
      transcript (Running.transcript (printedTree .empty) 100 ⟨10, none, "main"⟩ .empty "main" again Sum.caller)
        = transcript (Running.transcript .empty 100 ⟨10, none, "main"⟩ .empty "main" Sum.workspace Sum.caller) := by
  have listed : ∀ source ∈ Sum.sources, Prints source.text := by
    intro source member
    obtain rfl := List.mem_singleton.mp member
    exact Sum.prints
  have stored : ∀ file ∈ FileTree.empty.files, Prints file.2 := fun _ member => absurd member List.not_mem_nil
  exact ⟨listed, stored, Sum.added, Sum.accepted, Sum.blind,
    printed_program_alike listed stored Sum.added Sum.accepted Sum.blind⟩

end MiniGo.Placeless
