import MiniGo.Proofs.Lexical.Visible

/-!
# Checks that passed

What a check that passed says of the code that it checked.

* `Reads`: the table goes on without a new name around the code, and the code is judged in the
  context of the table.
* `Declares`: the open block has new names behind the code as well.

Each has a rule for every way in which checks are put together, so that a walk over a tree only has
to name the parts.
-/

namespace MiniGo.Lexical

variable {α β : Type} {imports : Interfaces} {ready : String → Prop}
  {table between after final : SymbolTable}

/-! ## Checks one after another -/

section

variable {ε : Type}

theorem bind_ok {check : StateT SymbolTable (Except ε) α} {next : α → StateT SymbolTable (Except ε) β}
    {outcome : β} (ran : (check >>= next) table = .ok (outcome, after)) :
    ∃ value between, check table = .ok (value, between) ∧ next value between = .ok (outcome, after) := by
  cases first : check table with
  | error error => simp [bind, StateT.bind, first, Except.bind] at ran
  | ok both =>
      refine ⟨both.1, both.2, rfl, ?_⟩
      simpa [bind, StateT.bind, first, Except.bind] using ran

theorem pure_ok {value outcome : α}
    (ran : (pure value : StateT SymbolTable (Except ε) α) table = .ok (outcome, after)) :
    outcome = value ∧ after = table := by
  simpa [pure, StateT.pure, Except.pure, eq_comm] using ran

theorem get_ok {found : SymbolTable}
    (ran : (get : StateT SymbolTable (Except ε) SymbolTable) table = .ok (found, after)) :
    found = table ∧ after = table := by
  simpa [get, getThe, MonadStateOf.get, StateT.get, pure, Except.pure, eq_comm] using ran

theorem modify_ok {change : SymbolTable → SymbolTable} {outcome : Unit}
    (ran : (modify change : StateT SymbolTable (Except ε) Unit) table = .ok (outcome, after)) :
    after = change table := by
  simpa [modify, modifyGet, MonadStateOf.modifyGet, StateT.modifyGet, pure, Except.pure, eq_comm] using ran

end

theorem require_ok {holds : Bool} {error : ResolutionError} {outcome : Unit}
    (ran : Check.require holds error table = .ok (outcome, after)) : holds = true ∧ after = table := by
  unfold Check.require at ran
  split at ran
  · rename_i holds
    exact ⟨holds, (pure_ok ran).2⟩
  · exact nomatch ran

theorem inScope_ok {kind : BlockKind} {check : Check α} {outcome : α}
    (ran : Check.inScope kind check table = .ok (outcome, after)) :
    ∃ inner, check (table.enter kind) = .ok (outcome, inner) ∧ after = inner.exit := by
  obtain ⟨_, entered, first, ran⟩ := bind_ok ran
  obtain rfl := modify_ok first
  obtain ⟨value, inner, checked, ran⟩ := bind_ok ran
  obtain ⟨_, left, exited, ran⟩ := bind_ok ran
  obtain rfl := modify_ok exited
  obtain ⟨rfl, rfl⟩ := pure_ok ran
  exact ⟨inner, checked, rfl⟩

/-- A check that leaves the table as it is, up to the counts that it keeps in mind. -/
def Steady (check : Check α) : Prop :=
  ∀ table outcome after, check table = .ok (outcome, after) → ∃ counts, after = { table with counts }

theorem steady_of_same {check : Check α}
    (same : ∀ table outcome after, check table = .ok (outcome, after) → after = table) : Steady check :=
  fun table outcome after ran => ⟨table.counts, same table outcome after ran⟩

theorem steady_pure (value : α) : Steady (pure value : Check α) :=
  steady_of_same fun _ _ _ ran => (pure_ok ran).2

theorem steady_fail (error : ResolutionError) : Steady (Check.fail error : Check α) :=
  fun _ _ _ ran => nomatch ran

theorem steady_require (holds : Bool) (error : ResolutionError) : Steady (Check.require holds error) :=
  steady_of_same fun _ _ _ ran => (require_ok ran).2

theorem count_ok {expr : Expr} {count? : Option Nat}
    (ran : Check.count imports expr table = .ok (count?, after)) :
    count? = Check.resultCount? imports table expr ∧ after = table.counted expr count? := by
  obtain ⟨rfl, rfl⟩ := Prod.mk.inj (Except.ok.inj ran)
  exact ⟨rfl, rfl⟩

theorem steady_count (expr : Expr) : Steady (Check.count imports expr) :=
  fun _ _ _ ran => ⟨_, (count_ok ran).2⟩

theorem Steady.bind {check : Check α} {next : α → Check β} (first : Steady check)
    (second : ∀ value, Steady (next value)) : Steady (check >>= next) := by
  intro table outcome after ran
  obtain ⟨value, between, one, two⟩ := bind_ok ran
  obtain ⟨_, rfl⟩ := first _ _ _ one
  obtain ⟨counts, rfl⟩ := second value _ _ _ two
  exact ⟨counts, rfl⟩

theorem steady_single (expr : Expr) : Steady (Check.single imports expr) := by
  refine (steady_count expr).bind fun count? => ?_
  split
  · exact steady_fail _
  · exact steady_pure _
  · exact steady_fail _
  · exact steady_pure _

theorem steady_singles (exprs : List Expr) : Steady (Check.singles imports exprs) := by
  induction exprs with
  | nil => exact steady_pure _
  | cons first rest ih => exact (steady_single first).bind fun _ => ih

theorem steady_valueCount (targets : Nat) (values : List Expr) (location : Location) :
    Steady (Check.valueCount imports targets values location) := by
  unfold Check.valueCount
  split
  · refine (steady_count _).bind fun count? => ?_
    split
    · exact steady_require _ _
    · exact steady_pure _
  · exact (steady_require _ _).bind fun _ => steady_singles _

theorem steady_returnCount (body : Check.Body) (values : List Expr) (location : Location) :
    Steady (Check.returnCount imports body values location) := by
  unfold Check.returnCount
  dsimp only
  split
  · split
    · exact steady_pure _
    · exact steady_require _ _
  · refine (steady_count _).bind fun count? => ?_
    split
    · exact steady_require _ _
    · exact steady_pure _
  · exact (steady_singles _).bind fun _ => steady_require _ _

/-! ## Code that reads names -/

/-- Code without declarations around it was checked and is judged. -/
structure HasRead (imports : Interfaces) (ready : String → Prop) (free : List String → List String)
    (judged : Facts → Context → Prop) (table after : SymbolTable) : Prop where
  continues : Continues none table after
  judged : ∀ final bound, Extends after final → Local table bound →
    Settled final table ready (free bound) → judged ⟨final, imports⟩ (contextOf table ready)

/-- Code that passes a check is judged, and declares nothing. -/
def Reads (imports : Interfaces) (ready : String → Prop) (check : Check α)
    (free : List String → List String) (judged : Facts → Context → Prop) : Prop :=
  ∀ table outcome after, Regular table → check table = .ok (outcome, after) →
    HasRead imports ready free judged table after

variable {free free' : List String → List String} {judged judged' : Facts → Context → Prop}

theorem HasRead.context (read : HasRead imports ready free judged table after) (regular : Regular table) :
    contextOf after ready = contextOf table ready :=
  contextOf_continues regular read.continues

theorem Reads.weaken {check : Check α} (reads : Reads imports ready check free judged)
    (sub : ∀ bound, ∀ name ∈ free bound, name ∈ free' bound)
    (implies : ∀ facts context, judged facts context → judged' facts context) :
    Reads imports ready check free' judged' := fun table outcome after regular ran =>
  have read := reads table outcome after regular ran
  ⟨read.continues, fun final bound later isLocal settled =>
    implies _ _ (read.judged final bound later isLocal (settled.subset (sub bound)))⟩

/-- Code is judged by the parts of it that are walked. -/
theorem Reads.congr {check : Check α} (reads : Reads imports ready check free judged)
    (same : ∀ bound, free' bound = free bound)
    (alike : ∀ facts context, judged' facts context ↔ judged facts context) :
    Reads imports ready check free' judged' :=
  reads.weaken (fun bound _ member => same bound ▸ member) fun facts context => (alike facts context).mpr

theorem Reads.imp {check : Check α} (reads : Reads imports ready check free judged)
    (implies : ∀ facts context, judged facts context → judged' facts context) :
    Reads imports ready check free judged' :=
  reads.weaken (fun _ _ member => member) implies

theorem Steady.reads {check : Check α} (steady : Steady check) :
    Reads imports ready check (fun _ => []) (fun _ _ => True) := by
  intro table outcome after regular ran
  obtain ⟨counts, rfl⟩ := steady table outcome after ran
  exact ⟨continues_counts regular counts, fun _ _ _ _ _ => trivial⟩

theorem Steady.reads_of {check : Check α} (steady : Steady check)
    (holds : ∀ facts context, judged facts context) : Reads imports ready check free judged :=
  steady.reads.weaken (fun _ _ member => absurd member List.not_mem_nil) fun facts context _ => holds facts context

theorem HasRead.trans (regular : Regular table) (first : HasRead imports ready free judged table between)
    (second : HasRead imports ready free' judged' between after) :
    HasRead imports ready (fun bound => free bound ++ free' bound)
      (fun facts context => judged facts context ∧ judged' facts context) table after where
  continues := first.continues.trans second.continues
  judged final bound later isLocal settled := by
    refine ⟨first.judged final bound (second.continues.toExtends.trans later) isLocal
      (settled.subset fun name member => List.mem_append_left _ member), ?_⟩
    rw [← first.context regular]
    refine second.judged final bound later (isLocal.continues regular first.continues) ?_
    exact (settled.subset fun name member => List.mem_append_right _ member).continues regular
      first.continues nofun

theorem Reads.seq {one : Check α} {two : Check β} (first : Reads imports ready one free judged)
    (second : Reads imports ready two free' judged') :
    Reads imports ready (one >>= fun _ => two) (fun bound => free bound ++ free' bound)
      (fun facts context => judged facts context ∧ judged' facts context) := by
  intro table outcome after regular ran
  obtain ⟨_, between, ran, ran'⟩ := bind_ok ran
  have read := first _ _ _ regular ran
  exact read.trans regular (second _ _ _ read.continues.regular ran')

theorem HasRead.counting (read : HasRead imports ready free judged table after)
    (counts : Expr → Option Nat → Prop) :
    HasRead imports ready free judged table { after with counts } :=
  have goes := continues_counts read.continues.regular counts
  ⟨read.continues.trans goes, fun final bound later =>
    read.judged final bound (goes.toExtends.trans later)⟩

theorem Reads.followed {one : Check α} {two : α → Check β} (first : Reads imports ready one free judged)
    (steady : ∀ value, Steady (two value)) : Reads imports ready (one >>= two) free judged := by
  intro table outcome after regular ran
  obtain ⟨value, between, read, counted⟩ := bind_ok ran
  obtain ⟨counts, rfl⟩ := steady value _ _ _ counted
  exact (first _ _ _ regular read).counting counts

/-! ## Code that declares names -/

/-- Code that stands in a block was checked, is judged, and has names behind it. -/
structure HasDeclared (imports : Interfaces) (ready : String → Prop) (names : List String)
    (free : List String → List String) (judged : Facts → Context → Prop)
    (table after : SymbolTable) : Prop where
  continues : Continues (some table.current) table after
  context : contextOf after ready = (contextOf table ready).addAll names
  isLocal : ∀ bound, Local table bound → Local after (names ++ bound)
  judged : ∀ final bound, Extends after final → Local table bound →
    Settled final table ready (free bound) → judged ⟨final, imports⟩ (contextOf table ready)

/-- Code that passes a check in a block is judged, and declares some names. -/
def Declares (imports : Interfaces) (ready : String → Prop) (check : Check α) (names : List String)
    (free : List String → List String) (judged : Facts → Context → Prop) : Prop :=
  ∀ table outcome after, Regular table → Open table → check table = .ok (outcome, after) →
    HasDeclared imports ready names free judged table after

variable {names names' : List String}

theorem HasDeclared.weaken (done : HasDeclared imports ready names free judged table after)
    (sub : ∀ bound, ∀ name ∈ free bound, name ∈ free' bound)
    (implies : ∀ facts context, judged facts context → judged' facts context) :
    HasDeclared imports ready names free' judged' table after :=
  ⟨done.continues, done.context, done.isLocal, fun final bound later isLocal settled =>
    implies _ _ (done.judged final bound later isLocal (settled.subset (sub bound)))⟩

theorem Declares.weaken {check : Check α} (declares : Declares imports ready check names free judged)
    (sub : ∀ bound, ∀ name ∈ free bound, name ∈ free' bound)
    (implies : ∀ facts context, judged facts context → judged' facts context) :
    Declares imports ready check names free' judged' := fun table outcome after regular inner ran =>
  (declares table outcome after regular inner ran).weaken sub implies

theorem Declares.congr {check : Check α} (declares : Declares imports ready check names free judged)
    (same : ∀ bound, free' bound = free bound)
    (alike : ∀ facts context, judged' facts context ↔ judged facts context) :
    Declares imports ready check names free' judged' :=
  declares.weaken (fun bound _ member => same bound ▸ member) fun facts context => (alike facts context).mpr

theorem Declares.imp {check : Check α} (declares : Declares imports ready check names free judged)
    (implies : ∀ facts context, judged facts context → judged' facts context) :
    Declares imports ready check names free judged' :=
  declares.weaken (fun _ _ member => member) implies

theorem HasRead.declared (regular : Regular table) (read : HasRead imports ready free judged table after) :
    HasDeclared imports ready [] free judged table after where
  continues := read.continues.widen _
  context := read.context regular
  isLocal _ isLocal := isLocal.continues regular read.continues
  judged := read.judged

theorem Reads.declares {check : Check α} (reads : Reads imports ready check free judged) :
    Declares imports ready check [] free judged := fun table outcome after regular _ ran =>
  (reads table outcome after regular ran).declared regular

theorem HasDeclared.trans (regular : Regular table) (inner : Open table)
    (first : HasDeclared imports ready names free judged table between)
    (second : HasDeclared imports ready names' free' judged' between after) :
    HasDeclared imports ready (names ++ names') (fun bound => free bound ++ free' (names ++ bound))
      (fun facts context => judged facts context ∧ judged' facts (context.addAll names)) table after where
  continues := first.continues.trans (first.continues.current ▸ second.continues)
  context := by
    rw [second.context, first.context]
    exact (List.foldl_append ..).symm
  isLocal bound isLocal := by
    refine (second.isLocal _ (first.isLocal bound isLocal)).subset fun name member => ?_
    simp only [List.mem_append] at member ⊢
    tauto
  judged final bound later isLocal settled := by
    refine ⟨first.judged final bound (second.continues.toExtends.trans later) isLocal
      (settled.subset fun name member => List.mem_append_left _ member), ?_⟩
    rw [← first.context]
    -- The second part is judged in the context that the first one leaves.
    refine second.judged final (names ++ bound) later (first.isLocal bound isLocal) ?_
    refine (settled.subset fun name member => List.mem_append_right _ member).continues regular
      first.continues fun id around outer same => ?_
    obtain rfl := Option.some.inj same
    rw [inner] at outer
    exact absurd outer Bool.false_ne_true

theorem Declares.seq {one : Check α} {two : Check β} (first : Declares imports ready one names free judged)
    (second : Declares imports ready two names' free' judged') :
    Declares imports ready (one >>= fun _ => two) (names ++ names')
      (fun bound => free bound ++ free' (names ++ bound))
      (fun facts context => judged facts context ∧ judged' facts (context.addAll names)) := by
  intro table outcome after regular inner ran
  obtain ⟨_, between, ran, ran'⟩ := bind_ok ran
  have done := first _ _ _ regular inner ran
  exact done.trans regular inner
    (second _ _ _ done.continues.regular (inner.continues regular done.continues) ran')

/-! ## Scopes -/

theorem enters_enter (regular : Regular table) {kind : BlockKind} (later : Extends (table.enter kind) final) :
    Enters ⟨final, imports⟩ (contextOf table ready) table.scopes.size := by
  refine ⟨Nat.ne_of_gt (Nat.lt_of_le_of_lt (Nat.zero_le _) regular.current), ?_⟩
  have new : table.scopes.size < (table.enter kind).scopes.size := by simp [SymbolTable.enter]
  rw [scopes_contextOf, later.chain new]
  exact chain_enter kind

/-- What was checked in a scope of its own is judged in the context of that scope. -/
theorem inScope_read {kind : BlockKind} {check : Check α} {outcome : α} (inner : isOuter kind = false)
    (declares : Declares imports ready check names free judged) (regular : Regular table)
    (ran : Check.inScope kind check table = .ok (outcome, after)) :
    Continues none table after ∧
    ∀ final bound, Extends after final → Local table bound → Settled final table ready (free bound) →
      Enters ⟨final, imports⟩ (contextOf table ready) table.scopes.size ∧
      judged ⟨final, imports⟩ (contextOf (table.enter kind) ready) := by
  obtain ⟨last, checked, rfl⟩ := inScope_ok ran
  have done := declares _ _ _ (regular.enter kind (Or.inl inner)) (Open.enter inner) checked
  refine ⟨continues_exit regular done.continues fun id old same => ?_, ?_⟩
  · exact absurd (Option.some.inj same) (Nat.ne_of_gt old)
  · intro final bound later isLocal settled
    have behind : Extends last final := ⟨later.scopes, later.kept, later.symbols, later.names, later.uses⟩
    exact ⟨enters_enter regular (done.continues.toExtends.trans behind),
      done.judged final bound behind (isLocal.enter regular inner) (settled.enter regular inner)⟩

theorem Declares.inBlock {kind : BlockKind} {check : Check α}
    (declares : Declares imports ready check names free judged) (inner : isOuter kind = false)
    (block : isFunction kind = false) :
    Reads imports ready (Check.inScope kind check) free
      (fun facts context => ∃ scope, Enters facts context scope ∧ judged facts (context.enter scope)) := by
  intro table outcome after regular ran
  obtain ⟨continues, reads⟩ := inScope_read inner declares regular ran
  refine ⟨continues, fun final bound later isLocal settled => ⟨table.scopes.size, ?_⟩⟩
  rw [← contextOf_enter regular inner block]
  exact reads final bound later isLocal settled

theorem Declares.inFunction {name : String} {check : Check α}
    (declares : Declares imports ready check names free judged) :
    Reads imports ready (Check.inScope (.function name) check) free
      (fun facts context => ∃ scope, Enters facts context scope ∧
        judged facts ((context.capture).enter scope)) := by
  intro table outcome after regular ran
  obtain ⟨continues, reads⟩ := inScope_read rfl declares regular ran
  refine ⟨continues, fun final bound later isLocal settled => ⟨table.scopes.size, ?_⟩⟩
  rw [← contextOf_enter_function regular name]
  exact reads final bound later isLocal settled

end MiniGo.Lexical
