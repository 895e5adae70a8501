import MiniGo.Proofs.Running.Growth

/-!
# Names at run time

Where a resolved name leads in an environment that fits. `used_touches` is the meeting point of the
checker and the run: the scope that the checker found has the name, and the scope that is touched is
that one, or a captured block that got the name later.
-/

namespace MiniGo.Running

open Lexical

variable {program : Nat → Facts} {world : World} {package : Nat}

/-! ## Contexts -/

/-- The innermost scope of a context belongs to the code itself. -/
def Owned (context : Context) : Prop :=
  ∃ layer outer, context = layer :: outer ∧ layer.mode = .own ∧ layer.scope ≠ 0

theorem Owned.enter {facts : Facts} {context : Context} {scope : Nat}
    (enters : Enters facts context scope) (inner : Context) : Owned (inner.enter scope) :=
  ⟨_, _, rfl, rfl, enters.1⟩

theorem Owned.add {context : Context} (owned : Owned context) (name : String) :
    Owned (context.add name) := by
  obtain ⟨layer, outer, rfl, own, inside⟩ := owned
  exact ⟨layer.add name, outer, rfl, by rw [mode_add, own], by rw [scope_add]; exact inside⟩

theorem Owned.addAll {context : Context} (owned : Owned context) (names : List String) :
    Owned (context.addAll names) := by
  induction names generalizing context with
  | nil => exact owned
  | cons name names ih => exact ih (owned.add name)

theorem LayerFits.capture {layer : Layer} {id : ScopeId} {facts : Facts}
    (fits : LayerFits facts world package layer id) :
    LayerFits facts world package layer.capture id := by
  obtain ⟨scope, mode, names⟩ := layer
  cases mode with
  | own => exact ⟨fits.old, fits.place, fits.names, nofun⟩
  | captured => exact fits
  | outer => exact fits

theorem capture_not_own (context : Context) : ∀ layer ∈ context.capture, layer.mode ≠ .own := by
  intro layer member
  obtain ⟨⟨scope, mode, names⟩, _, rfl⟩ := List.mem_map.mp member
  cases mode <;> exact nofun

theorem capture_of_not_own {context : Context} (free : ∀ layer ∈ context, layer.mode ≠ .own) :
    context.capture = context := by
  refine (List.map_congr_left fun layer member => ?_).trans (List.map_id context)
  obtain ⟨scope, mode, names⟩ := layer
  cases mode with
  | own => exact absurd rfl (free _ member)
  | captured => rfl
  | outer => rfl

theorem Fits.capture {context : Context} {env : Env} (fits : Fits program world package context env) :
    Fits program world package context.capture env where
  layers := List.forall₂_map_left_iff.mpr (fits.layers.imp fun _ _ => LayerFits.capture)
  order := fits.order

/-! ## Scopes by their slots -/

theorem find?_of_first {env : Env} {name : String} {position : Nat} {id : ScopeId} {slot : Slot}
    (here : env[position]? = some id) (known : world.slot id name = some slot)
    (passed : ∀ nearer < position, ∀ other, env[nearer]? = some other → world.slot other name = none) :
    world.find? env name = some (id, slot) := by
  induction env generalizing position with
  | nil => simp at here
  | cons first env ih =>
      cases position with
      | zero =>
          obtain rfl : first = id := by simpa using here
          simp [World.find?, known]
      | succ position =>
          have skipped : world.slot first name = none := passed 0 (by omega) first rfl
          simp only [World.find?, skipped]
          exact ih (by simpa using here)
            (fun nearer less other found => passed (nearer + 1) (by omega) other (by simpa using found))

/-- A store has what its world has in an environment. -/
theorem Typed.find? {store : Store} (typed : Typed program world store) {env : Env} {name : String}
    {id : ScopeId} {slot : Slot} (found : world.find? env name = some (id, slot)) :
    ∃ binding, store.find? env name = some (id, binding) ∧ slot.Holds binding ∧
      (store.scope id).find? name = some binding ∧ world.slot id name = some slot := by
  induction env with
  | nil => exact nomatch found
  | cons first env ih =>
      cases known : world.slot first name with
      | none =>
          simp only [World.find?, known] at found
          obtain ⟨binding, same, rest⟩ := ih found
          refine ⟨binding, ?_, rest⟩
          rw [Store.find?, typed.find?_none known]
          exact same
      | some other =>
          simp only [World.find?, known, Option.some.injEq, Prod.mk.injEq] at found
          obtain ⟨rfl, rfl⟩ := found
          obtain ⟨binding, bound⟩ := typed.bound first name other known
          obtain ⟨slot, same, holds⟩ := typed.agrees.2 first name binding bound
          obtain rfl : other = slot := Option.some.inj (known.symm.trans same)
          refine ⟨binding, ?_, holds, bound, known⟩
          rw [Store.find?, bound]

theorem Grows.find? {later : World} (grows : Grows none world later) {env : Env}
    (old : ∀ id ∈ env, id < world.size) (name : String) :
    later.find? env name = world.find? env name := by
  induction env with
  | nil => rfl
  | cons first env ih =>
      have same : later.slot first = world.slot first := grows.fixed first (old first (by simp)) nofun
      simp only [World.find?, same, ih fun id member => old id (by simp [member])]

/-! ## Resolved names -/

/-- The scope that a resolved name leads to. -/
structure Reaches (program : Nat → Facts) (world : World) (package : Nat) (context : Context) (env : Env)
    (name : String) (meaning : Meaning) (depth position : Nat) (id : ScopeId) (slot : Slot) : Prop where
  here : env[position]? = some id
  known : world.slot id name = some slot
  passed : ∀ nearer < position, ∀ other, env[nearer]? = some other → world.slot other name = none
  resolved : ∃ other found, env[depth]? = some other ∧ world.slot other name = some found
  late : (position = depth ∧ world.ready id name ∧ Means (program package) world id name meaning) ∨
    (position < depth ∧ ∃ layer, context[position]? = some layer ∧ layer.mode = .captured ∧
      (program package).Declares layer.scope name ∧ world.place id = .of package layer.scope)

theorem declares_of_place {id : ScopeId} {name : String} {scope : Nat}
    (declares : (world.place id).Declares program name) (place : world.place id = .of package scope) :
    (program package).Declares scope name := by
  rw [place] at declares
  unfold Place.of at declares
  split at declares
  · rename_i zero
    rw [zero]
    exact declares package
  · exact declares

theorem resolves_reaches {name : String} {context : Context} {depth : Nat} {meaning : Meaning}
    {env : Env} (resolves : Resolves (program package) name context depth meaning)
    (layers : List.Forall₂ (LayerFits (program package) world package) context env)
    (sane : Sane program world) :
    ∃ position id slot, Reaches program world package context env name meaning depth position id slot := by
  induction resolves generalizing env with
  | @here layer outer meaning found =>
      cases layers with
      | @cons _ id _ outerEnv fits _ =>
          obtain ⟨ready, means⟩ := fits.names name meaning found
          obtain ⟨slot, known⟩ := sane.ready id name ready
          exact ⟨0, id, slot, rfl, known, nofun, ⟨id, slot, rfl, known⟩, Or.inl ⟨rfl, ready, means⟩⟩
  | @outward layer outer depth meaning free complete _ ih =>
      cases layers with
      | @cons _ id _ outerEnv fits rest =>
          obtain ⟨position, found, slot, reaches⟩ := ih rest
          have resolved : ∃ other found, (id :: outerEnv)[depth + 1]? = some other ∧
              world.slot other name = some found := reaches.resolved
          cases known : world.slot id name with
          | none =>
              refine ⟨position + 1, found, slot, reaches.here, reaches.known, ?_, resolved, ?_⟩
              · intro nearer less other at'
                cases nearer with
                | zero =>
                    obtain rfl : id = other := by simpa using at'
                    exact known
                | succ nearer => exact reaches.passed nearer (by omega) other (by simpa using at')
              · rcases reaches.late with ⟨same, rest⟩ | ⟨less, rest⟩
                · exact Or.inl ⟨by rw [same], rest⟩
                · exact Or.inr ⟨by omega, rest⟩
          | some here =>
              -- Only a captured block can have a name that its layer does not know.
              have declares := declares_of_place (sane.declared id name here known) fits.place
              refine ⟨0, id, here, rfl, known, nofun, resolved,
                Or.inr ⟨by omega, layer, rfl, ?_, declares, fits.place⟩⟩
              cases mode : layer.mode with
              | own =>
                  have named := fits.own mode name here known
                  rw [free] at named
                  exact nomatch named
              | captured => rfl
              | outer => exact absurd declares (complete mode)

theorem not_isFile_of_block {scope : Nat} {kind : BlockKind}
    (block : (program package).kind? scope = some kind) (inner : isOuter kind = false) :
    ¬(Place.of package scope).IsFile program := by
  unfold Place.of
  split
  · exact id
  · rintro ⟨path, same⟩
    rw [block] at same
    cases same
    exact nomatch inner

theorem not_isPackage_of_block {scope : Nat} {kind : BlockKind}
    (block : (program package).kind? scope = some kind) (inner : isOuter kind = false) :
    ¬(Place.of package scope).IsPackage program := by
  unfold Place.of
  split
  · exact id
  · rintro ⟨name, same⟩
    rw [block] at same
    cases same
    exact nomatch inner

theorem scopes_of_layers {facts : Facts} {context : Context} {env : Env}
    (layers : List.Forall₂ (LayerFits facts world package) context env) :
    env.map world.place = context.scopes.map (Place.of package) := by
  induction layers with
  | nil => rfl
  | cons fits _ ih =>
      simp only [Context.scopes, List.map_cons, fits.place] at ih ⊢
      rw [ih]

/-- A name that is used leads to the binding that the checker found, or to a captured block that got
the name later. -/
theorem used_touches {store : Store} {context : Context} {env : Env} {name : String}
    {location : Location} {meaning : Meaning} (typed : Typed program world store)
    (fits : Fits program world package context env)
    (used : Used (program package) context name location meaning) :
    ∃ use position id slot,
      Touches (program package) world package store env name location use position ∧
      world.find? env name = some (id, slot) ∧ world.ready id name ∧
      ((position = use.depth ∧ Means (program package) world id name meaning) ∨
        (position < use.depth ∧ ∃ kind mutable, slot = .value kind mutable)) := by
  obtain ⟨nested, depth, recorded, resolves⟩ := used
  obtain ⟨position, id, slot, reaches⟩ := resolves_reaches resolves fits.layers typed.sane
  have hasBinding : ∀ other found, world.slot other name = some found →
      ∃ binding, (store.scope other).find? name = some binding :=
    fun other found known => typed.bound other name found known
  -- The use is the recorded one; what is left is where the run finds the name.
  refine ⟨_, position, id, slot, ⟨recorded, rfl, rfl, fits.old, scopes_of_layers fits.layers, ?_, ?_, ?_, ?_⟩,
    find?_of_first reaches.here reaches.known reaches.passed, ?_⟩
  · obtain ⟨other, found, at', known⟩ := reaches.resolved
    obtain ⟨binding, bound⟩ := hasBinding other found known
    exact ⟨other, binding, at', bound⟩
  · obtain ⟨binding, bound⟩ := hasBinding id slot reaches.known
    exact ⟨id, binding, reaches.here, bound⟩
  · intro nearer less other at'
    exact typed.find?_none (reaches.passed nearer less other at')
  · rcases reaches.late with ⟨same, _⟩ | ⟨less, layer, at', mode, declares, _⟩
    · exact Or.inl same
    · obtain ⟨⟨kind, block, inner⟩, nearer, before, other, kind', at'', block', function⟩ :=
        nested position layer at' mode
      refine Or.inr ⟨less, ⟨layer.scope, kind, ?_, declares, block, inner⟩, nearer, before, other.scope,
        kind', ?_, block', function⟩
      · simp [Context.scopes, at']
      · simp [Context.scopes, at'']
  · rcases reaches.late with ⟨same, ready, means⟩ | ⟨less, layer, at', mode, _, place⟩
    · exact ⟨ready, Or.inl ⟨same, means⟩⟩
    · obtain ⟨⟨kind, block, inner⟩, _⟩ := nested position layer at' mode
      constructor
      · rcases typed.sane.awake id name slot reaches.known with ready | isPackage
        · exact ready
        · rw [place] at isPackage
          exact absurd isPackage (not_isPackage_of_block block inner)
      · refine Or.inr ⟨less, ?_⟩
        cases slot with
        | value kind mutable => exact ⟨kind, mutable, rfl⟩
        | package ref =>
            have isFile := typed.sane.imports id name ref reaches.known
            rw [place] at isFile
            exact absurd isFile (not_isFile_of_block block inner)

end MiniGo.Running
