import MiniGo.Proofs.Package.Imports

/-!
# Resolving imports

A visit appends to the paths that are done, each behind all that it imports. What is being visited is a
chain of imports from the entry, so a path that is met again on it closes a cycle, and the chain never
gets longer than there are paths. A visit fails only over a package that cannot be read or over a cycle
of the import graph; a graph with neither is arranged in full.
-/

namespace MiniGo.Workspace

open Relation

variable {files : FileTree} {start current after : Workspace} {entry path : String}
  {visiting done longer : List String}

/-! ## Arranged paths -/

/-- Paths that stand behind all that they import. -/
inductive Arranged (files : FileTree) (start : Workspace) : List String → Prop where
  | nil : Arranged files start []
  | snoc {done : List String} {path : String} : Arranged files start done → path ∉ done →
      (∀ other, Imports files start path other → other ∈ done) → Arranged files start (done ++ [path])

theorem Arranged.nodup (arranged : Arranged files start done) : done.Nodup := by
  induction arranged with
  | nil => exact List.nodup_nil
  | snoc _ new _ ih => exact ih.append (List.nodup_singleton _) (by simpa using new)

theorem Arranged.closed {other : String} (arranged : Arranged files start done) (member : path ∈ done)
    (imports : Imports files start path other) : other ∈ done := by
  induction arranged with
  | nil => exact absurd member List.not_mem_nil
  | snoc _ _ all ih =>
      rcases List.mem_append.mp member with before | last
      · exact List.mem_append_left _ (ih before)
      · obtain rfl := List.mem_singleton.mp last
        exact List.mem_append_left _ (all other imports)

theorem Arranged.reaches {other : String} (arranged : Arranged files start done) (member : path ∈ done)
    (reaches : Reaches files start path other) : other ∈ done := by
  induction reaches with
  | refl => exact member
  | tail _ imports ih => exact arranged.closed ih imports

theorem Arranged.acyclic (arranged : Arranged files start done) (member : path ∈ done) :
    ¬ TransGen (Imports files start) path path := by
  induction arranged with
  | nil => exact absurd member List.not_mem_nil
  | @snoc done last before new all ih =>
      by_cases inside : path ∈ done
      · exact ih inside
      · obtain rfl : path = last := by
          simpa [inside] using member
        intro cycle
        obtain ⟨other, imports, back⟩ := TransGen.head'_iff.mp cycle
        exact inside (before.reaches (all other imports) back)

theorem Arranged.earlier {earlier later : List String} (arranged : Arranged files start done)
    (split : done = earlier ++ path :: later) {other : String} (imports : Imports files start path other) :
    other ∈ earlier := by
  induction arranged generalizing later with
  | nil => simp at split
  | @snoc done last before new all ih =>
      rcases List.eq_nil_or_concat later with rfl | ⟨later, final, rfl⟩
      · obtain ⟨rfl, same⟩ := List.append_inj' split rfl
        obtain rfl := List.singleton_injective same
        exact all other imports
      · rw [List.concat_eq_append, ← List.cons_append, ← List.append_assoc] at split
        exact ih (List.append_inj' split rfl).1

/-! ## What a visit does -/

/-- A path from a package back to itself, over imports. -/
def IsCycle (files : FileTree) (start : Workspace) (entry : String) (cycle : List String) : Prop :=
  ∃ first middle, cycle = first :: middle ++ [first] ∧ Reaches files start entry first ∧
    cycle.IsChain (Imports files start)

/-- Why a visit fails: a package that cannot be read, or an import cycle. -/
def Failed (files : FileTree) (start : Workspace) (entry : String) (error : Error) : Prop :=
  (∃ path, Reaches files start entry path ∧ package? files start path = none ∧
    ∀ cycle, error ≠ .resolution (.importCycle cycle)) ∨
  ∃ cycle, error = .resolution (.importCycle cycle) ∧ IsCycle files start entry cycle

/-- A step gives a result of which `post` holds, or fails for a reason. -/
def Leads (files : FileTree) (start : Workspace) (entry : String) (post : α → Workspace → Prop) :
    EStateM.Result Error Workspace α → Prop
  | .ok value after => post value after
  | .error error _ => Failed files start entry error

theorem Leads.bind {action : Loading α} {next : α → Loading β} {middle : α → Workspace → Prop}
    {post : β → Workspace → Prop} (first : Leads files start entry middle (action current))
    (rest : ∀ value after, middle value after → Leads files start entry post (next value after)) :
    Leads files start entry post ((action >>= next) current) := by
  rw [bind_run]
  generalize action current = outcome at first
  cases outcome with
  | ok value after => exact rest value after first
  | error error after => exact first

theorem Leads.get {next : Workspace → Loading α} {post : α → Workspace → Prop}
    (rest : Leads files start entry post (next current current)) :
    Leads files start entry post ((MonadState.get >>= next) current) := rest

/-- Where a walk over the graph stands: the paths being visited are a chain of imports from the entry,
and those that are done are arranged and read. -/
structure Walk (files : FileTree) (start : Workspace) (entry : String) (visiting done : List String)
    (path : String) (current : Workspace) : Prop where
  view : View files start current
  chain : (visiting ++ [path]).IsChain (Imports files start)
  reached : ∀ other ∈ visiting ++ [path], Reaches files start entry other
  nodup : visiting.Nodup
  arranged : Arranged files start done
  there : ∀ other ∈ done, (current.find? other).isSome
  apart : ∀ other ∈ visiting, other ∉ done

/-- A walk went on: more paths are done, all of them reached, and none of them is being visited. -/
structure Goes (files : FileTree) (start : Workspace) (entry : String) (visiting done : List String)
    (current : Workspace) (longer : List String) (after : Workspace) : Prop where
  view : View files start after
  arranged : Arranged files start longer
  there : ∀ other ∈ longer, (after.find? other).isSome
  stays : ∀ other, (current.find? other).isSome → (after.find? other).isSome
  kept : ∀ other ∈ done, other ∈ longer
  new : ∀ other ∈ longer, other ∈ done ∨ Reaches files start entry other ∧ other ∉ visiting

theorem Walk.goes (walk : Walk files start entry visiting done path current) {around : List String} :
    Goes files start entry around done current done current where
  view := walk.view
  arranged := walk.arranged
  there := walk.there
  stays _ there := there
  kept _ member := member
  new _ member := Or.inl member

theorem Goes.trans {more : List String} {last : Workspace}
    (first : Goes files start entry visiting done current longer after)
    (second : Goes files start entry visiting longer after more last) :
    Goes files start entry visiting done current more last where
  view := second.view
  arranged := second.arranged
  there := second.there
  stays other there := second.stays other (first.stays other there)
  kept other member := second.kept other (first.kept other member)
  new other member := (second.new other member).elim (first.new other) Or.inr

theorem Walk.next (walk : Walk files start entry visiting done path current)
    (goes : Goes files start entry visiting done current longer after) :
    Walk files start entry visiting longer path after where
  view := goes.view
  chain := walk.chain
  reached := walk.reached
  nodup := walk.nodup
  arranged := goes.arranged
  there := goes.there
  apart other member inside :=
    (goes.new other inside).elim (walk.apart other member) fun new => new.2 member

theorem Walk.loaded (walk : Walk files start entry visiting done path current) (view : View files start after)
    (stays : ∀ other, (current.find? other).isSome → (after.find? other).isSome) :
    Walk files start entry visiting done path after :=
  { walk with view, there := fun other member => stays other (walk.there other member) }

/-- A walk enters an import of the path it is at. -/
theorem Walk.enter {other : String} (walk : Walk files start entry visiting done path current)
    (fresh : path ∉ visiting) (unfinished : path ∉ done) (imports : Imports files start path other) :
    Walk files start entry (visiting ++ [path]) done other current where
  view := walk.view
  chain := by
    rw [List.append_assoc]
    exact List.isChain_append_cons_cons.mpr ⟨walk.chain, imports, .singleton _⟩
  reached next member := by
    rcases List.mem_append.mp member with before | last
    · exact walk.reached next before
    · obtain rfl := List.mem_singleton.mp last
      exact (walk.reached path (by simp)).tail imports
  nodup := walk.nodup.append (List.nodup_singleton _) (by simpa using fresh)
  arranged := walk.arranged
  there := walk.there
  apart next member := by
    rcases List.mem_append.mp member with before | last
    · exact walk.apart next before
    · obtain rfl := List.mem_singleton.mp last
      exact unfinished

/-- A path that is met while it is being visited closes a cycle. -/
theorem Walk.cycle (walk : Walk files start entry visiting done path current) (met : path ∈ visiting) :
    IsCycle files start entry (visiting.dropWhile (· != path) ++ [path]) := by
  obtain ⟨front, back, rfl⟩ := List.append_of_mem met
  have apart : ∀ other ∈ front, (other != path) = true := by
    intro other member
    have disjoint := List.disjoint_of_nodup_append walk.nodup member
    simp only [bne_iff_ne]
    rintro rfl
    exact disjoint List.mem_cons_self
  have rest : (front ++ path :: back).dropWhile (· != path) = path :: back := by
    rw [List.dropWhile_append_of_pos apart, List.dropWhile_cons_of_neg (by simp)]
  rw [rest]
  refine ⟨path, back, rfl, walk.reached path (by simp), ?_⟩
  have chain := walk.chain
  rw [List.append_assoc] at chain
  exact chain.right_of_append

/-! ## Visits -/

theorem visit_done {fuel : Nat} (finished : path ∈ done) : visit files (fuel + 1) visiting done path = pure done :=
  if_pos (by simpa using finished)

theorem visit_met {fuel : Nat} (unfinished : path ∉ done) (met : path ∈ visiting) :
    visit files (fuel + 1) visiting done path
      = throw (.resolution (.importCycle (visiting.dropWhile (· != path) ++ [path]))) :=
  (if_neg (by simpa using unfinished)).trans (if_pos (by simpa using met))

/-- Visits of the imports of a path, and of the path behind them. -/
def visitImports (files : FileTree) (fuel : Nat) (visiting done : List String) (path : String) : Loading (List String) := do
  let imports := (← get).importsOf path
  let done ← imports.foldlM (visit files fuel (visiting ++ [path])) done
  pure (done ++ [path])

theorem visit_new {fuel : Nat} (unfinished : path ∉ done) (fresh : path ∉ visiting) :
    visit files (fuel + 1) visiting done path current
      = if (current.find? path).isNone then
          (loadFromRoot files path >>= fun _ => visitImports files fuel visiting done path) current
        else visitImports files fuel visiting done path current := by
  have visits := congrFun ((if_neg (by simpa using unfinished)).trans (if_neg (by simpa using fresh)) :
    visit files (fuel + 1) visiting done path = _) current
  refine visits.trans ?_
  exact apply_ite (fun run : Loading (List String) => run current) ..

/-- A visit goes on to its path. -/
def Reached (files : FileTree) (start : Workspace) (entry : String) (visiting done : List String)
    (path : String) (current : Workspace) (longer : List String) (after : Workspace) : Prop :=
  Goes files start entry visiting done current longer after ∧ path ∈ longer ∧
    (path ∈ done ∨ longer.getLast? = some path)

theorem foldlM_leads {step : List String → String → Loading (List String)}
    (visits : ∀ other done current, Walk files start entry visiting done other current →
      Leads files start entry (Reached files start entry visiting done other current) (step done other current))
    {imports : List String}
    (walks : ∀ other ∈ imports, Walk files start entry visiting done other current)
    (goes : Goes files start entry visiting done current done current) :
    Leads files start entry
      (fun longer after => Goes files start entry visiting done current longer after ∧
        ∀ other ∈ imports, other ∈ longer)
      (imports.foldlM step done current) := by
  induction imports generalizing done current with
  | nil => exact ⟨goes, fun _ member => absurd member List.not_mem_nil⟩
  | cons first rest ih =>
      rw [List.foldlM_cons]
      refine (visits first done current (walks first List.mem_cons_self)).bind fun longer after came => ?_
      have again := ih (fun other member => (walks other (List.mem_cons_of_mem _ member)).next came.1)
        ((walks first List.mem_cons_self).next came.1).goes
      generalize rest.foldlM step longer after = outcome at again
      cases outcome with
      | error error last => exact again
      | ok more last =>
          refine ⟨came.1.trans again.1, fun other member => ?_⟩
          rcases List.mem_cons.mp member with rfl | member
          · exact again.1.kept other came.2.1
          · exact again.2 other member

theorem Walk.load (walk : Walk files start entry visiting done path current)
    (missing : current.find? path = none) :
    Leads files start entry (fun _ after => View files start after ∧ (after.find? path).isSome ∧
      ∀ other, (current.find? other).isSome → (after.find? other).isSome)
      (loadFromRoot files path current) := by
  cases read : loadFromRoot files path current with
  | ok _ after => exact walk.view.load missing read
  | error error after =>
      obtain ⟨absent, other⟩ := walk.view.refuse missing read
      exact Or.inl ⟨path, walk.reached path (by simp), absent, other⟩

/-- A visit goes on to its path, or fails for a reason. The bound on visits is not met, since those that
are under way are distinct paths of the graph. -/
theorem visit_leads {fuel : Nat} (walk : Walk files start entry visiting done path current)
    (enough : depthBound files start ≤ fuel + visiting.length) :
    Leads files start entry (Reached files start entry visiting done path current)
      (visit files fuel visiting done path current) := by
  induction fuel generalizing visiting done path current with
  -- With the fuel used up there would be more paths under way than the graph has.
  | zero =>
      have few := length_lt_depthBound walk.nodup fun other member =>
        walk.reached other (List.mem_append_left _ member)
      omega
  | succ fuel ih =>
      by_cases finished : path ∈ done
      · rw [visit_done finished]
        exact ⟨walk.goes, finished, Or.inl finished⟩
      by_cases met : path ∈ visiting
      · rw [visit_met finished met]
        exact Or.inr ⟨_, rfl, walk.cycle met⟩
      rw [visit_new finished met]
      -- Once the package is there, its imports are visited, and it is done behind them.
      have ready : ∀ after, View files start after → (after.find? path).isSome →
          (∀ other, (current.find? other).isSome → (after.find? other).isSome) →
          Leads files start entry (Reached files start entry visiting done path current)
            (visitImports files fuel visiting done path after) := by
        intro after view there stays
        have walk := walk.loaded view stays
        refine .get (Leads.bind (foldlM_leads (fun other done current walk => ih walk (by simp; omega))
          (fun other member => walk.enter met finished ((view.mem_importsOf there).mp member)) walk.goes) ?_)
        intro longer last came
        have new : path ∉ longer := fun inside =>
          (came.1.new path inside).elim finished fun apart => apart.2 (by simp)
        have arranged : Arranged files start (longer ++ [path]) :=
          .snoc came.1.arranged new fun other imports => came.2 other ((view.mem_importsOf there).mpr imports)
        refine ⟨⟨came.1.view, arranged, fun other member => ?_, fun other there => ?_, fun other member => ?_,
          fun other member => ?_⟩, by simp, Or.inr (by simp)⟩
        · rcases List.mem_append.mp member with before | here
          · exact came.1.there other before
          · obtain rfl := List.mem_singleton.mp here
            exact came.1.stays other there
        · exact came.1.stays other (stays other there)
        · exact List.mem_append_left _ (came.1.kept other member)
        · rcases List.mem_append.mp member with before | here
          · exact (came.1.new other before).imp id fun apart => ⟨apart.1, fun inside => apart.2 (by simp [inside])⟩
          · obtain rfl := List.mem_singleton.mp here
            exact Or.inr ⟨walk.reached other (by simp), met⟩
      -- A package that was read before is not read again.
      by_cases missing : (current.find? path).isNone = true
      · rw [if_pos missing]
        exact (walk.load (Option.isNone_iff_eq_none.mp missing)).bind fun _ after read =>
          ready after read.1 read.2.1 read.2.2
      · rw [if_neg missing]
        exact ready current walk.view (Option.isSome_iff_ne_none.mpr (by simpa using missing))
          fun _ there => there

/-! ## The bound on visits -/

theorem foldlM_same {step again : List String → String → Loading (List String)}
    (visits : ∀ other done current, Walk files start entry visiting done other current →
      Leads files start entry (Reached files start entry visiting done other current) (step done other current))
    (same : ∀ other done current, Walk files start entry visiting done other current →
      again done other current = step done other current)
    {imports : List String} (walks : ∀ other ∈ imports, Walk files start entry visiting done other current) :
    imports.foldlM again done current = imports.foldlM step done current := by
  induction imports generalizing done current with
  | nil => rfl
  | cons first rest ih =>
      have walk := walks first List.mem_cons_self
      have came := visits first done current walk
      rw [List.foldlM_cons, List.foldlM_cons, bind_run, bind_run, same first done current walk]
      generalize step done first current = outcome at came
      cases outcome with
      | error error after => rfl
      | ok longer after => exact ih fun other member => (walks other (List.mem_cons_of_mem _ member)).next came.1

/-- A visit does the same under every bound that is high enough. -/
theorem visit_bound {fuel more : Nat} (walk : Walk files start entry visiting done path current)
    (enough : depthBound files start ≤ fuel + visiting.length) (above : fuel ≤ more) :
    visit files more visiting done path current = visit files fuel visiting done path current := by
  induction fuel generalizing more visiting done path current with
  | zero =>
      have few := length_lt_depthBound walk.nodup fun other member =>
        walk.reached other (List.mem_append_left _ member)
      omega
  | succ fuel ih =>
      obtain ⟨more, rfl⟩ : ∃ less, more = less + 1 := ⟨more - 1, by omega⟩
      by_cases finished : path ∈ done
      · rw [visit_done finished, visit_done finished]
      by_cases met : path ∈ visiting
      · rw [visit_met finished met, visit_met finished met]
      rw [visit_new finished met, visit_new finished met]
      -- Visits of imports have one more path under way, which makes up for the unit of fuel.
      have ready : ∀ after, View files start after → (after.find? path).isSome →
          (∀ other, (current.find? other).isSome → (after.find? other).isSome) →
          visitImports files more visiting done path after = visitImports files fuel visiting done path after := by
        intro after view there stays
        have walk := walk.loaded view stays
        have imports := foldlM_same (fun other done current walk => visit_leads walk (by simp; omega))
          (fun other done current walk => ih walk (by simp; omega) (Nat.le_of_succ_le_succ above))
          fun other member => walk.enter met finished ((view.mem_importsOf there).mp member)
        unfold visitImports
        rw [get_run, get_run, bind_run, bind_run, imports]
      by_cases missing : (current.find? path).isNone = true
      · rw [if_pos missing, if_pos missing]
        have came := walk.load (Option.isNone_iff_eq_none.mp missing)
        rw [bind_run, bind_run]
        generalize loadFromRoot files path current = outcome at came
        cases outcome with
        | error error after => rfl
        | ok _ after => exact ready after came.1 came.2.1 came.2.2
      · rw [if_neg missing, if_neg missing]
        exact ready current walk.view (Option.isSome_iff_ne_none.mpr (by simpa using missing)) fun _ there => there

/-! ## Resolving -/

theorem walk_start : Walk files start entry [] [] entry start where
  view := view_start
  chain := .singleton _
  reached other member := by
    obtain rfl := List.mem_singleton.mp member
    exact .refl
  nodup := List.nodup_nil
  arranged := .nil
  there _ member := absurd member List.not_mem_nil
  apart _ member := absurd member List.not_mem_nil

theorem resolve_bound {bound : Nat} (above : depthBound files start ≤ bound) :
    resolve files entry start = (do
      let order ← visit files bound [] [] entry
      pure (order.filterMap (← get).find?)) start := by
  have visits : visit files bound [] [] entry start = visit files (depthBound files start) [] [] entry start :=
    visit_bound walk_start (Nat.le_refl _) above
  unfold resolve
  rw [get_run, bind_run, bind_run, visits]

/-- The packages of a resolved entry. -/
structure Resolved (files : FileTree) (start : Workspace) (entry : String) (packages : List Package) :
    Prop where
  arranged : Arranged files start (packages.map (·.path))
  known : ∀ package ∈ packages, package? files start package.path = some package
  reached : ∀ package ∈ packages, Reaches files start entry package.path
  last : (packages.map (·.path)).getLast? = some entry

theorem map_path_filterMap (there : ∀ other ∈ done, (after.find? other).isSome) :
    (done.filterMap after.find?).map (·.path) = done := by
  induction done with
  | nil => rfl
  | cons first rest ih =>
      obtain ⟨package, found⟩ := Option.isSome_iff_exists.mp (there first List.mem_cons_self)
      rw [List.filterMap_cons_some found, List.map_cons, path_of_find? found,
        ih fun other member => there other (List.mem_cons_of_mem _ member)]

theorem resolve_leads (files : FileTree) (entry : String) (start : Workspace) :
    Leads files start entry (fun packages _ => Resolved files start entry packages)
      (resolve files entry start) := by
  unfold resolve
  refine .get (Leads.bind (visit_leads walk_start (Nat.le_refl _)) fun order after came => .get ?_)
  have paths := map_path_filterMap came.1.there
  refine ⟨by rw [paths]; exact came.1.arranged, fun package member => ?_, fun package member => ?_, ?_⟩
  · obtain ⟨path, _, found⟩ := List.mem_filterMap.mp member
    rw [path_of_find? found]
    exact came.1.view.known path package found
  · have inside : package.path ∈ order := by
      rw [← paths]
      exact List.mem_map_of_mem member
    exact ((came.1.new _ inside).resolve_left List.not_mem_nil).1
  · rw [paths]
    exact came.2.2.resolve_left List.not_mem_nil

end MiniGo.Workspace
