import MiniGo.Proofs.Running.Compounds
import MiniGo.Proofs.Running.Switches

/-!
# Code with scopes to spare

A scope that nothing is declared in may as well not be there: code that opens it comes to the same ends as code that
does not, up to the numbers of the scopes that are opened later. `Mirrors` relates two pieces of code so, from
every tidy machine and its twins, and for runs of arbitrary length.
-/

namespace MiniGo.Running

open Syntax

variable {limit : Nat} {env : Env} {machine twin : Machine} {location : Location} {pairs later : Pairing}

/-! ## Scopes without names -/

theorem Twin.congr {size : Nat} {value other : Value} (twin : Twin pairs value other) (housed : Housed size value)
    (same : ∀ id < size, later id = pairs id) : Twin later value other := by
  cases twin with
  | plain noFunction noPackage => exact .plain noFunction noPackage
  | function identity name literal env =>
      have envs : env.filterMap pairs = env.filterMap later :=
        List.filterMap_congr fun id member => (same id ((housed.1 _ rfl).1 id member)).symm
      rw [envs]
      exact .function identity name literal env
  | package paired => exact .package ((same _ (housed.2 _ rfl)).trans paired)

theorem EntryTwins.congr {size : Nat} {entries others : List (String × Binding)} (twins : EntryTwins pairs entries others)
    (housed : ∀ entry ∈ entries, Housed size entry.2.value) (same : ∀ id < size, later id = pairs id) :
    EntryTwins later entries others := by
  induction twins with
  | nil => exact .nil
  | cons first _ ih =>
      obtain ⟨here, behind⟩ := List.forall_mem_cons.mp housed
      exact .cons ⟨first.1, first.2.value.congr here same, first.2.mutable⟩ (ih behind)

/-- The counterparts when one more scope is opened that has none. -/
def Pairing.skip (pairs : Pairing) (blank : Nat) : Pairing := fun (id : Nat) =>
  if id < blank then pairs id else if id = blank then none else pairs (id - 1)

theorem skip_below {blank id : Nat} (below : id < blank) : pairs.skip blank id = pairs id := if_pos below

theorem skip_blank {blank : Nat} : pairs.skip blank blank = none := by
  unfold Pairing.skip
  rw [if_neg (Nat.lt_irrefl blank), if_pos rfl]

theorem skip_above {blank more : Nat} : pairs.skip blank (blank + 1 + more) = pairs (blank + more) := by
  have shift : blank + 1 + more - 1 = blank + more := by omega
  unfold Pairing.skip
  rw [if_neg (by omega : ¬ blank + 1 + more < blank), if_neg (by omega : ¬ blank + 1 + more = blank), shift]

theorem skip_cases (blank id : Nat) : id < blank ∨ id = blank ∨ ∃ more, id = blank + 1 + more := by
  rcases Nat.lt_trichotomy id blank with below | here | above
  · exact Or.inl below
  · exact Or.inr (Or.inl here)
  · exact Or.inr (Or.inr (Nat.exists_eq_add_of_le above))

/-- A tidy store with one more scope is a twin of what the store was a twin of. -/
theorem StoreTwin.skip {store other : Store} (twin : StoreTwin pairs store other) (tidy : TidyStore store) (env : Env) :
    StoreTwin (pairs.skip store.scopes.size) (store.child env).2 other := by
  have apart : ∀ {one more : Nat} {id}, one < store.scopes.size → pairs one = some id →
      pairs (store.scopes.size + more) = some id → False := fun below first second =>
    absurd (twin.apart first second) (Nat.ne_of_lt (Nat.lt_of_lt_of_le below (Nat.le_add_right _ _)))
  -- A scope of the store is one from before, the new one, which has no twin, or one that is still to come.
  refine ⟨fun {one two id} first second => ?_, fun more => ?_, fun {id id'} paired => ?_, fun {id} none => ?_⟩
  · rcases skip_cases store.scopes.size one with below | rfl | ⟨more, rfl⟩
    · rw [skip_below below] at first
      rcases skip_cases store.scopes.size two with below' | rfl | ⟨more, rfl⟩
      · rw [skip_below below'] at second
        exact twin.apart first second
      · cases skip_blank.symm.trans second
      · exact (apart below first (skip_above.symm.trans second)).elim
    · cases skip_blank.symm.trans first
    · have first := skip_above.symm.trans first
      rcases skip_cases store.scopes.size two with below' | rfl | ⟨more', rfl⟩
      · rw [skip_below below'] at second
        exact (apart below' second first).elim
      · cases skip_blank.symm.trans second
      · have same := Nat.add_left_cancel (twin.apart first (skip_above.symm.trans second))
        rw [same]
  · rw [Store.size_child]
    exact skip_above.trans (twin.fresh more)
  · rw [Store.scope_child]
    rcases skip_cases store.scopes.size id with below | rfl | ⟨more, rfl⟩
    · rw [skip_below below] at paired
      exact (twin.entries paired).congr (tidy id) fun _ => skip_below
    · cases skip_blank.symm.trans paired
    · cases (twin.fresh more).symm.trans (skip_above.symm.trans paired)
      rw [store.scope_of_le (Nat.le_trans (Nat.le_succ _) (Nat.le_add_right _ _)), other.scope_of_le (Nat.le_add_right _ _)]
      exact .nil
  · rw [Store.scope_child]
    rcases skip_cases store.scopes.size id with below | rfl | ⟨more, rfl⟩
    · rw [skip_below below] at none
      exact twin.blank none
    · rw [store.scope_of_le (Nat.le_refl _)]
      rfl
    · rw [store.scope_of_le (Nat.le_trans (Nat.le_succ _) (Nat.le_add_right _ _))]
      rfl

/-! ## Runs on twins -/

/-- Whatever comes of one side comes of the other, too, and is related to it. -/
structure BothWays (related : α → β → Prop) (left : α → Prop) (right : β → Prop) : Prop where
  onto : ∀ one, left one → ∃ other, right other ∧ related one other
  back : ∀ other, right other → ∃ one, left one ∧ related one other

theorem BothWays.iff {related : α → β → Prop} {left left' : α → Prop} {right right' : β → Prop}
    (both : BothWays related left right) (one : ∀ end_, left' end_ ↔ left end_) (two : ∀ end_, right' end_ ↔ right end_) :
    BothWays related left' right' where
  onto end_ ran := by
    obtain ⟨other, ranOther, holds⟩ := both.onto end_ ((one end_).mp ran)
    exact ⟨other, (two other).mpr ranOther, holds⟩
  back end_ ran := by
    obtain ⟨other, ranOther, holds⟩ := both.back end_ ((two end_).mp ran)
    exact ⟨other, (one other).mpr ranOther, holds⟩

theorem BothWays.weaken {related other : α → β → Prop} {left : α → Prop} {right : β → Prop}
    (both : BothWays related left right) (imp : ∀ {one two}, related one two → other one two) :
    BothWays other left right where
  onto end_ ran := by
    obtain ⟨found, there, holds⟩ := both.onto end_ ran
    exact ⟨found, there, imp holds⟩
  back end_ ran := by
    obtain ⟨found, there, holds⟩ := both.back end_ ran
    exact ⟨found, there, imp holds⟩

theorem Echoed.finished {same : α → β → Prop} {result : EStateM.Result Halt Machine α}
    {other : EStateM.Result Halt Machine β} (echoed : Echoed pairs same result other) :
    Finished result ↔ Finished other := by
  cases result <;> cases other
  · exact Iff.rfl
  · exact echoed.elim
  · exact echoed.elim
  · rw [echoed.1]
    exact Iff.rfl

theorem BothWays.of_echoes {same : α → β → Prop} {run : Nat → Eval α} {other : Nat → Eval β}
    (echoes : ∀ fuel, Echoes pairs same (run fuel) (other fuel)) (twins : MachineTwin pairs machine twin) :
    BothWays (Echoed pairs same) (Comes run machine) (Comes other twin) where
  onto := by
    rintro _ ⟨fuel, rfl, finished⟩
    have echoed := echoes fuel machine twin twins
    exact ⟨_, ⟨fuel, rfl, echoed.finished.mp finished⟩, echoed⟩
  back := by
    rintro _ ⟨fuel, rfl, finished⟩
    have echoed := echoes fuel machine twin twins
    exact ⟨_, ⟨fuel, rfl, echoed.finished.mpr finished⟩, echoed⟩

theorem BothWays.behind {same : α → β → Prop} {related : EStateM.Result Halt Machine γ → EStateM.Result Halt Machine δ → Prop}
    {first : EStateM.Result Halt Machine α → Prop} {first' : EStateM.Result Halt Machine β → Prop}
    {next : α → Machine → EStateM.Result Halt Machine γ → Prop} {next' : β → Machine → EStateM.Result Halt Machine δ → Prop}
    (both : BothWays (Echoed pairs same) first first')
    (halts : ∀ {halt after last}, MachineTwin pairs after last → related (.error halt after) (.error halt last))
    (rest : ∀ {value other after last}, first (.ok value after) → same value other → MachineTwin pairs after last →
      BothWays related (next value after) (next' other last)) :
    BothWays related (Then first next) (Then first' next') where
  onto := by
    rintro end_ (⟨ran, behind⟩ | ran)
    · obtain ⟨result | _, there, echoed⟩ := both.onto _ ran
      · obtain ⟨other, behindOther, holds⟩ := (rest ran echoed.1 echoed.2).onto _ behind
        exact ⟨other, .ok there behindOther, holds⟩
      · exact echoed.elim
    · obtain ⟨_ | _, there, echoed⟩ := both.onto _ ran
      · exact echoed.elim
      · obtain ⟨rfl, twins⟩ := echoed
        exact ⟨_, .error there, halts twins⟩
  back := by
    rintro end_ (⟨ran, behind⟩ | ran)
    · obtain ⟨result | _, there, echoed⟩ := both.back _ ran
      · obtain ⟨other, behindOther, holds⟩ := (rest there echoed.1 echoed.2).back _ behind
        exact ⟨other, .ok there behindOther, holds⟩
      · exact echoed.elim
    · obtain ⟨_ | _, there, echoed⟩ := both.back _ ran
      · exact echoed.elim
      · obtain ⟨rfl, twins⟩ := echoed
        exact ⟨_, .error there, halts twins⟩

/-- Two runs ended in the same way, and the scopes that were there keep their counterparts. -/
def Alike (pairs : Pairing) (size : Nat) (one other : EStateM.Result Halt Machine Flow) : Prop :=
  ∃ later : Pairing, (∀ id < size, later id = pairs id) ∧ Echoed later (FlowTwin later) one other

theorem Alike.mono {size larger : Nat} {one other : EStateM.Result Halt Machine Flow} (alike : Alike pairs larger one other)
    (le : size ≤ larger) : Alike pairs size one other := by
  obtain ⟨later, same, echoed⟩ := alike
  exact ⟨later, fun id below => same id (Nat.lt_of_lt_of_le below le), echoed⟩

theorem Alike.halted {size : Nat} {halt : Halt} (twins : MachineTwin pairs machine twin) :
    Alike pairs size (.error halt machine) (.error halt twin) :=
  ⟨pairs, fun _ _ => rfl, rfl, twins⟩

/-- On tidy machines, code in an environment comes to the ends that other code comes to on twins, among the
counterparts of the scopes. -/
def Mirrors (left right : Env → Machine → EStateM.Result Halt Machine Flow → Prop) : Prop :=
  ∀ pairs env machine twin, TidyStore machine.store → Within machine.store.scopes.size env →
    MachineTwin pairs machine twin →
    BothWays (Alike pairs machine.store.scopes.size) (left env machine) (right (env.filterMap pairs) twin)

section

variable {left left' right right' other other' : Env → Machine → EStateM.Result Halt Machine Flow → Prop}

theorem Mirrors.iff (mirrors : Mirrors left right)
    (one : ∀ {env machine result}, left' env machine result ↔ left env machine result)
    (two : ∀ {env machine result}, right' env machine result ↔ right env machine result) : Mirrors left' right' :=
  fun _ _ _ _ tidy within twins => (mirrors _ _ _ _ tidy within twins).iff (fun _ => one) fun _ => two

theorem Mirrors.of_echoes {run twinRun : Env → Nat → Eval Flow}
    (echoes : ∀ {pairs env fuel}, Echoes pairs (FlowTwin pairs) (run env fuel) (twinRun (env.filterMap pairs) fuel)) :
    Mirrors (fun env => Comes (run env)) (fun env => Comes (twinRun env)) :=
  fun _ _ _ _ _ _ twins => (BothWays.of_echoes (fun _ => echoes) twins).weaken fun echoed => ⟨_, fun _ _ => rfl, echoed⟩

def entered (machine : Machine) (env : Env) : Machine :=
  { machine.met (.opened env) with store := (machine.store.child env).2 }

theorem comes_openScope {result : EStateM.Result Halt Machine Env} : Comes (fun _ => Eval.openScope env) machine result ↔
    result = .ok (machine.store.scopes.size :: env) (entered machine env) :=
  comes_const.trans ⟨fun both => both.1.symm, fun same => ⟨same.symm, same ▸ id⟩⟩

theorem size_entered (machine : Machine) (env : Env) :
    (entered machine env).store.scopes.size = machine.store.scopes.size + 1 := machine.store.size_child env

theorem within_entered (within : Within machine.store.scopes.size env) :
    Within (entered machine env).store.scopes.size (machine.store.scopes.size :: env) := by
  rw [size_entered]
  exact List.forall_mem_cons.mpr ⟨Nat.lt_succ_self _, within.mono (Nat.le_succ _)⟩

/-- A scope that nothing is declared in may as well not be there. -/
theorem Mirrors.blank (mirrors : Mirrors left right) :
    Mirrors (fun env machine => Then (Comes (fun _ => Eval.openScope env) machine) left) right := by
  intro pairs env machine twin tidy within twins
  -- the new scope has no counterpart, and the environment of the other side stays as it is
  have twinsInner : MachineTwin (pairs.skip machine.store.scopes.size) (entered machine env) twin :=
    ⟨twins.store.skip tidy env, twins.calls, twins.output, twins.closures⟩
  have scopes : (machine.store.scopes.size :: env).filterMap (pairs.skip machine.store.scopes.size) = env.filterMap pairs := by
    rw [List.filterMap_cons_none skip_blank]
    exact List.filterMap_congr fun id member => skip_below (within id member)
  have both := mirrors _ _ _ _ (tidy.child env) (within_entered within) twinsInner
  rw [scopes] at both
  refine (both.weaken fun alike => ?_).iff (fun _ => then_ok fun _ => comes_openScope) fun _ => Iff.rfl
  obtain ⟨later, same, echoed⟩ := alike
  refine ⟨later, fun id below => ?_, echoed⟩
  rw [same id (by rw [size_entered]; exact Nat.lt_succ_of_lt below), skip_below below]

theorem condition_echoes {expr : Expr} {fuel : Nat} :
    Echoes some Eq (Eval.condition limit fuel env expr location) (Eval.condition limit fuel env expr location) :=
  .here (Eval.condition limit fuel · expr location) (echoing some limit fuel).condition

theorem header_echoes {init : Option Stmt} {fuel : Nat} {id : ScopeId} :
    Echoes some Eq (Eval.header limit fuel (id :: env) init) (Eval.header limit fuel (id :: env) init) :=
  .here (Eval.header limit fuel · init) ((echoing some limit fuel).header fun _ _ => rfl)

theorem Mirrors.choice (limit : Nat) (location : Location) {expr : Expr} (formed : Formed.expr expr)
    (yes : Mirrors left right) (no : Mirrors other other') :
    Mirrors
      (fun env machine => Then (Comes (fun fuel => Eval.condition limit fuel env expr location) machine)
        fun holds after => if holds = true then left env after else other env after)
      (fun env machine => Then (Comes (fun fuel => Eval.condition limit fuel env expr location) machine)
        fun holds after => if holds = true then right env after else other' env after) := by
  intro pairs env machine twin tidy within twins
  refine (BothWays.of_echoes (fun fuel => (echoing pairs limit fuel).condition) twins).behind .halted ?_
  rintro holds _ after last ⟨fuel, ran, _⟩ rfl twinsAfter
  obtain ⟨tidyAfter, retains⟩ := ((tidying limit fuel).condition within formed).of_store condition_echoes tidy
    (Nat.le_refl _) (Nat.le_refl _) ran
  cases holds with
  | true => exact (yes _ _ _ _ tidyAfter (within.mono retains.size) twinsAfter).weaken fun alike => alike.mono retains.size
  | false => exact (no _ _ _ _ tidyAfter (within.mono retains.size) twinsAfter).weaken fun alike => alike.mono retains.size

end

/-- What mirrors each other behind a header comes to the same ends from the same machine. -/
theorem Mirrors.headed (mirrors : Mirrors left right) {init : Option Stmt} (formed : Formed.header init)
    (tidy : TidyStore machine.store) (within : Within machine.store.scopes.size env) :
    BothWays (Alike some machine.store.scopes.size) (Headed limit env init machine left)
      (Headed limit env init machine right) := by
  refine BothWays.iff ?_ (fun _ => then_ok fun _ => comes_openScope) (fun _ => then_ok fun _ => comes_openScope)
  have same : MachineTwin some (entered machine env) (entered machine env) := machineTwin_some.mpr rfl
  refine (BothWays.of_echoes (fun fuel => header_echoes) same).behind .halted ?_
  rintro _ _ after last ⟨fuel, ran, _⟩ _ twins
  have above : Above machine.store.scopes.size (machine.store.scopes.size :: env) := by
    rintro id ⟨⟩
    exact Nat.le_refl _
  have old : machine.store.scopes.size ≤ (entered machine env).store.scopes.size := by
    rw [size_entered]
    exact Nat.le_succ _
  obtain ⟨tidyAfter, retains⟩ := ((tidying limit fuel).header (within_entered within) above formed).of_store header_echoes
    (tidy.child env) (Nat.le_refl _) old ran
  have both := mirrors _ _ _ _ tidyAfter ((within_entered within).mono retains.size) twins
  rw [filterMap_some] at both
  exact both.weaken fun alike => alike.mono (old.trans retains.size)

end MiniGo.Running
