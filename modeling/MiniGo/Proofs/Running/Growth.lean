import Mathlib.Data.List.Forall2
import MiniGo.Proofs.Running.Stores
import MiniGo.Proofs.Running.World

/-!
# Growing worlds

What is known in a world stays known in every later one, and the three steps of worlds keep stores
typed.
-/

namespace MiniGo.Running

open Lexical

/-! ## The order -/

theorem Grows.refl (top : Option ScopeId) (world : World) : Grows top world world where
  size := Nat.le_refl _
  place _ _ := rfl
  slot _ _ _ known := known
  fixed _ _ _ := rfl
  ready _ _ known := known
  constant _ _ _ known := known

theorem Grows.then {top other : Option ScopeId} {first second third : World}
    (grows : Grows top first second) (later : Grows other second third)
    (inside : ∀ id < first.size, other = some id → top = some id) : Grows top first third where
  size := Nat.le_trans grows.size later.size
  place id old := by
    rw [later.place id (Nat.lt_of_lt_of_le old grows.size), grows.place id old]
  slot id name slot known := later.slot id name slot (grows.slot id name slot known)
  fixed id old outside := by
    rw [later.fixed id (Nat.lt_of_lt_of_le old grows.size) (fun same => outside (inside id old same)),
      grows.fixed id old outside]
  ready id name known := later.ready id name (grows.ready id name known)
  constant id name value known := later.constant id name value (grows.constant id name value known)

theorem Grows.trans {top : Option ScopeId} {first second third : World}
    (grows : Grows top first second) (later : Grows top second third) : Grows top first third :=
  grows.then later fun _ _ same => same

theorem Grows.widen {before after : World} (top : Option ScopeId) (grows : Grows none before after) :
    Grows top before after :=
  (Grows.refl top before).then grows fun _ _ absurd => nomatch absurd

theorem grows_opened (world : World) (place : Place) : Grows none world (world.opened place) where
  size := Nat.le_succ _
  place id old := by simp [World.opened, Nat.ne_of_lt old]
  slot _ _ _ known := known
  fixed _ _ _ := rfl
  ready _ _ known := known
  constant _ _ _ known := known

theorem grows_bound {world : World} {id : ScopeId} {name : String} (slot : Slot) (awake : Prop)
    (new : world.slot id name = none) :
    Grows (some id) world (world.bound id name slot awake) where
  size := Nat.le_refl _
  place _ _ := rfl
  slot other x known' known := by
    have different : ¬(other = id ∧ x = name) := by
      rintro ⟨rfl, rfl⟩
      rw [new] at known
      exact nomatch known
    simpa [World.bound, different] using known
  fixed other _ outside := by
    funext x
    have different : ¬(other = id ∧ x = name) := fun both => outside (by rw [both.1])
    simp [World.bound, different]
  ready _ _ known := Or.inl known
  constant _ _ _ known := known

theorem grows_wake (world : World) (more : ScopeId → String → Prop) :
    Grows none world (world.wake more) where
  size := Nat.le_refl _
  place _ _ := rfl
  slot _ _ _ known := known
  fixed _ _ _ := rfl
  ready _ _ known := Or.inl known
  constant _ _ _ known := known

theorem grows_kept {world : World} {id : ScopeId} {name : String} (value : Value)
    (new : world.constant id name = none) : Grows none world (world.kept id name value) where
  size := Nat.le_refl _
  place _ _ := rfl
  slot _ _ _ known := known
  fixed _ _ _ := rfl
  ready _ _ known := known
  constant other x other' known := by
    have different : ¬(other = id ∧ x = name) := by
      rintro ⟨rfl, rfl⟩
      rw [new] at known
      exact nomatch known
    simpa [World.kept, different] using known

/-! ## What stays known -/

variable {program : Nat → Facts} {facts : Facts} {top : Option ScopeId} {before after : World}

theorem HasValue.grows (grows : Grows top before after) {id : ScopeId} {name : String}
    (has : HasValue before id name) : HasValue after id name := by
  obtain ⟨ready, kind, mutable, slot⟩ := has
  exact ⟨grows.ready _ _ ready, kind, mutable, grows.slot _ _ _ slot⟩

theorem Means.grows (grows : Grows top before after) {id : ScopeId} {name : String}
    {meaning : Meaning} (means : Means facts before id name meaning) :
    Means facts after id name meaning := by
  cases meaning with
  | value =>
      obtain ⟨kind, mutable, slot⟩ := means
      exact ⟨kind, mutable, grows.slot _ _ _ slot⟩
  | package path =>
      obtain ⟨ref, slot, members⟩ := means
      exact ⟨ref, grows.slot _ _ _ slot,
        fun member shown exported => (members member shown exported).grows grows⟩

theorem LayerFits.grows (grows : Grows top before after) {package : Nat} {layer : Layer} {id : ScopeId}
    (fits : LayerFits facts before package layer id)
    (apart : layer.mode = .own → top ≠ some id) : LayerFits facts after package layer id where
  old := Nat.lt_of_lt_of_le fits.old grows.size
  place := by rw [grows.place id fits.old, fits.place]
  names name meaning found := by
    obtain ⟨ready, means⟩ := fits.names name meaning found
    exact ⟨grows.ready _ _ ready, means.grows grows⟩
  own mode name slot known := by
    rw [grows.fixed id fits.old (apart mode)] at known
    exact fits.own mode name slot known

theorem Fits.grows (grows : Grows top before after) {package : Nat} {context : Context} {env : Env}
    (fits : Fits program before package context env)
    (apart : ∀ layer ∈ context, layer.mode = .own → ∀ id ∈ env, top ≠ some id) :
    Fits program after package context env where
  layers := by
    refine (List.forall₂_iff_zip.mpr ⟨fits.layers.length_eq, fun {layer id} member => ?_⟩)
    have inside := List.of_mem_zip member
    exact ((List.forall₂_iff_zip.mp fits.layers).2 member).grows grows
      (fun own => apart layer inside.1 own id inside.2)
  order := fits.order

theorem Fits.grows_none (grows : Grows none before after) {package : Nat} {context : Context}
    {env : Env} (fits : Fits program before package context env) :
    Fits program after package context env :=
  fits.grows grows fun _ _ _ _ _ absurd => nomatch absurd

theorem Fits.old {world : World} {package : Nat} {context : Context} {env : Env}
    (fits : Fits program world package context env) : ∀ id ∈ env, id < world.size := by
  have layers := fits.layers
  intro id member
  induction layers with
  | nil => cases member
  | cons fit _ ih =>
      cases member with
      | head => exact fit.old
      | tail _ member => exact ih ⟨by assumption, fits.order.tail⟩ member

theorem ClosureFits.grows (grows : Grows top before after) {closure : Closure}
    (fits : ClosureFits program before closure) : ClosureFits program after closure := by
  obtain ⟨package, context, layers, free, judged⟩ := fits
  exact ⟨package, context, layers.grows grows fun layer member own => absurd own (free layer member),
    free, judged⟩

theorem Offered.grows (grows : Grows top before after) {value : Value}
    (offered : Offered program before value) : Offered program after value :=
  fun closure same => (offered closure same).grows grows

theorem Valid.grows (grows : Grows top before after) {value : Value}
    (valid : Valid program before value) : Valid program after value :=
  ⟨valid.1, Offered.grows grows valid.2⟩

theorem Agrees.grows (grows : Grows top before after) {store : Store}
    (agrees : Agrees before store) : Agrees after store := by
  refine ⟨Nat.le_trans agrees.1 grows.size, fun id name binding bound => ?_⟩
  obtain ⟨slot, known, holds⟩ := agrees.2 id name binding bound
  exact ⟨slot, grows.slot _ _ _ known, holds⟩

theorem places_grow (grows : Grows top before after) {env : Env}
    (old : ∀ id ∈ env, id < before.size) : env.map after.place = env.map before.place :=
  List.map_congr_left fun id member => grows.place id (old id member)

theorem Touches.grows (grows : Grows top before after) {package : Nat} {store : Store} {env : Env}
    {name : String} {location : Location} {use : Use} {position : Nat}
    (touches : Touches facts before package store env name location use position) :
    Touches facts after package store env name location use position :=
  { touches with
    old := fun id member => Nat.lt_of_lt_of_le (touches.old id member) grows.size
    scopes := by rw [places_grow grows touches.old, touches.scopes] }

theorem Good.grows (grows : Grows top before after) {store : Store} {event : Event}
    (good : Good program before store event) : Good program after store event := by
  cases event with
  | opened env =>
      obtain ⟨new, old, package, scope, inside, same⟩ := good
      refine ⟨Nat.lt_of_lt_of_le new grows.size,
        fun id member => Nat.lt_of_lt_of_le (old id member) grows.size, package, scope, inside, ?_⟩
      rw [← same]
      refine places_grow grows fun id member => ?_
      cases member with
      | head => exact new
      | tail _ member => exact old id member
  | bound env name binding type? =>
      refine ⟨fun id here named => ?_, good.2⟩
      obtain ⟨free, slot, known, holds⟩ := good.1 id here named
      exact ⟨free, slot, grows.slot _ _ _ known, holds⟩
  | used env name location =>
      obtain ⟨package, use, position, touches⟩ := good
      exact ⟨package, use, position, touches.grows grows⟩
  | selected env package name location =>
      obtain ⟨index, use, position, touches, selects⟩ := good
      exact ⟨index, use, position, touches.grows grows, selects⟩
  | returned closure results => exact good
  | called call function results => exact good

/-! ## Typed stores -/

theorem Typed.find?_none {world : World} {store : Store} (typed : Typed program world store)
    {id : ScopeId} {name : String} (free : world.slot id name = none) :
    (store.scope id).find? name = none := by
  cases found : (store.scope id).find? name with
  | none => rfl
  | some binding =>
      obtain ⟨slot, known, _⟩ := typed.agrees.2 id name binding found
      rw [free] at known
      exact nomatch known

theorem Inv.bound_of_created {world : World} {machine : Machine} (inv : Inv program world machine)
    {id : ScopeId} {name : String} {event : Event} {store : Store} (creates : Creates id name event)
    (happened : machine.past store event) :
    ∃ binding, (machine.store.scope id).find? name = some binding := by
  cases event with
  | bound env other binding type? =>
      obtain ⟨here, rfl, named⟩ := creates
      obtain ⟨_, slot, known, _⟩ := (inv.past store _ happened).2.1 id here named
      exact inv.typed.bound id other slot known
  | _ => exact False.elim creates

theorem Good.unbound {world : World} {store : Store} {event : Event} {id : ScopeId} {name : String}
    (good : Good program world store event) (creates : Creates id name event) :
    ¬∃ binding, (store.scope id).find? name = some binding := by
  rintro ⟨binding, found⟩
  cases event with
  | bound env other _ type? =>
      obtain ⟨here, rfl, named⟩ := creates
      rw [(good.1 id here named).1] at found
      exact nomatch found
  | _ => exact creates

theorem Inv.later {machine : Machine} (inv : Inv program before machine) (grows : Grows top before after)
    (typed : Typed program after machine.store) : Inv program after machine where
  typed := typed
  past store event happened := by
    obtain ⟨agrees, good⟩ := inv.past store event happened
    exact ⟨agrees.grows grows, good.grows grows⟩
  once := inv.once

/-- The invariant behind an event, in a later world. -/
theorem Inv.step {machine next : Machine} (event : Event) (inv : Inv program before machine)
    (grows : Grows top before after) (typed : Typed program after next.store)
    (past : next.past = (machine.met event).past) (good : Good program after machine.store event) :
    Inv program after next where
  typed := typed
  past store other happened := by
    rw [past] at happened
    rcases happened with earlier | ⟨rfl, rfl⟩
    · obtain ⟨agrees, known⟩ := inv.past store other earlier
      exact ⟨agrees.grows grows, known.grows grows⟩
    · exact ⟨inv.typed.agrees.grows grows, good⟩
  once id name first second store later one two happened again := by
    rw [past] at happened again
    rcases happened with earlier | ⟨rfl, rfl⟩ <;> rcases again with before | ⟨rfl, rfl⟩
    · exact inv.once id name first second store later one two earlier before
    · exact absurd (inv.bound_of_created one earlier) (good.unbound two)
    · exact absurd (inv.bound_of_created two before) (good.unbound one)
    · exact ⟨rfl, rfl⟩

theorem Typed.child {world : World} {store : Store} (typed : Typed program world store) (env : Env)
    (place : Place) : Typed program (world.opened place) (store.child env).2 where
  sane :=
    { typed.sane with
      old := fun id name slot known => Nat.lt_succ_of_lt (typed.sane.old id name slot known)
      declared := fun id name slot known => by
        have old := typed.sane.old id name slot known
        rw [(grows_opened world place).place id old]
        exact typed.sane.declared id name slot known
      imports := fun id name ref known => by
        have old := typed.sane.old id name _ known
        rw [(grows_opened world place).place id old]
        exact typed.sane.imports id name ref known
      awake := fun id name slot known => by
        have old := typed.sane.old id name slot known
        rw [(grows_opened world place).place id old]
        exact typed.sane.awake id name slot known }
  size := by rw [Store.size_child, typed.size]; rfl
  agrees := by
    refine ⟨by rw [Store.size_child, typed.size]; exact Nat.le_refl _, fun id name binding => ?_⟩
    rw [Store.scope_child]
    exact typed.agrees.2 id name binding
  bound id name slot known := by
    rw [Store.scope_child]
    exact typed.bound id name slot known
  valid id name binding kind mutable found known ready := by
    rw [Store.scope_child] at found
    exact (typed.valid id name binding kind mutable found known ready).grows
      (grows_opened world place)
  constant id name value known := by
    rw [Store.scope_child]
    exact typed.constant id name value known

/-- A name is the one that was bound, or it keeps its slot. -/
theorem slot_bound_cases {world : World} (id : ScopeId) (name : String) (slot : Slot) (awake : Prop)
    (other : ScopeId) (x : String) :
    (other = id ∧ x = name) ∨ (world.bound id name slot awake).slot other x = world.slot other x := by
  by_cases same : other = id ∧ x = name
  · exact Or.inl same
  · exact Or.inr (if_neg same)

theorem slot_bound {world : World} {id : ScopeId} {name : String} {slot : Slot} {awake : Prop} :
    (world.bound id name slot awake).slot id name = some slot := if_pos ⟨rfl, rfl⟩

theorem Sane.bound {world : World} (sane : Sane program world) {id : ScopeId} {name : String}
    {slot : Slot} {awake : Prop} (named : name ≠ blankName) (old : id < world.size)
    (new : world.slot id name = none) (declared : (world.place id).Declares program name)
    (storable : ∀ kind mutable, slot = .value kind mutable → isStorable kind = true)
    (imports : ∀ ref, slot = .package ref → (world.place id).IsFile program)
    (rouse : awake ∨ (world.place id).IsPackage program) :
    Sane program (world.bound id name slot awake) where
  -- Every field is asked about the new slot and about one that was there before.
  old other x known found := by
    rcases slot_bound_cases id name slot awake other x with ⟨rfl, rfl⟩ | same
    · exact old
    · exact sane.old other x known (same ▸ found)
  declared other x known found := by
    rcases slot_bound_cases id name slot awake other x with ⟨rfl, rfl⟩ | same
    · exact declared
    · exact sane.declared other x known (same ▸ found)
  storable other x kind mutable found := by
    rcases slot_bound_cases id name slot awake other x with ⟨rfl, rfl⟩ | same
    · exact storable kind mutable (Option.some.inj (slot_bound.symm.trans found))
    · exact sane.storable other x kind mutable (same ▸ found)
  imports other x ref found := by
    rcases slot_bound_cases id name slot awake other x with ⟨rfl, rfl⟩ | same
    · exact imports ref (Option.some.inj (slot_bound.symm.trans found))
    · exact sane.imports other x ref (same ▸ found)
  blank other := by
    rcases slot_bound_cases id name slot awake other blankName with ⟨_, same⟩ | same
    · exact absurd same.symm named
    · exact same.trans (sane.blank other)
  ready other x ready := by
    rcases ready with earlier | ⟨_, rfl, rfl⟩
    · obtain ⟨found, known⟩ := sane.ready other x earlier
      exact ⟨found, (grows_bound slot awake new).slot other x found known⟩
    · exact ⟨slot, slot_bound⟩
  awake other x known found := by
    rcases slot_bound_cases id name slot awake other x with ⟨rfl, rfl⟩ | same
    · exact rouse.imp (fun now => Or.inr ⟨now, rfl, rfl⟩) id
    · exact (sane.awake other x known (same ▸ found)).imp Or.inl (fun place => place)

/-- Binding a new name, in the world and in the store alike. -/
theorem Typed.bind {world : World} {store : Store} (typed : Typed program world store) {id : ScopeId}
    (env : Env) {name : String} {binding : Binding} {slot : Slot} {awake : Prop}
    (named : name ≠ blankName) (old : id < world.size) (new : world.slot id name = none)
    (holds : slot.Holds binding) (declared : (world.place id).Declares program name)
    (storable : ∀ kind mutable, slot = .value kind mutable → isStorable kind = true)
    (imports : ∀ ref, slot = .package ref → (world.place id).IsFile program)
    (rouse : awake ∨ (world.place id).IsPackage program)
    (valid : ∀ kind mutable, awake → slot = .value kind mutable → Valid program world binding.value) :
    Typed program (world.bound id name slot awake) (store.bind (id :: env) name binding) := by
  have here : id < store.scopes.size := by rw [typed.size]; exact old
  have size : (store.bind (id :: env) name binding).scopes.size = world.size := by
    rw [Store.size_bind, typed.size]
  have asleep : ¬ world.ready id name := by
    intro ready
    obtain ⟨slot, known⟩ := typed.sane.ready id name ready
    rw [new] at known
    exact nomatch known
  have foundHere : ((store.bind (id :: env) name binding).scope id).find? name = some binding := by
    rw [Store.find?_bind _ _ _ named here, if_pos ⟨rfl, rfl⟩]
  -- Away from the new name neither the world nor the store changes.
  have hereOrKept : ∀ other x, (other = id ∧ x = name) ∨
      ((world.bound id name slot awake).slot other x = world.slot other x ∧
        ((store.bind (id :: env) name binding).scope other).find? x = (store.scope other).find? x) := by
    intro other x
    by_cases same : other = id ∧ x = name
    · exact Or.inl same
    · refine Or.inr ⟨if_neg same, ?_⟩
      rw [Store.find?_bind _ _ _ named here, if_neg same]
  refine ⟨typed.sane.bound named old new declared storable imports rouse, size, ⟨Nat.le_of_eq size, ?_⟩,
    ?_, ?_, ?_⟩
  · intro other x found bound
    rcases hereOrKept other x with ⟨rfl, rfl⟩ | ⟨same, kept⟩
    · rw [foundHere] at bound
      obtain rfl := Option.some.inj bound
      exact ⟨slot, slot_bound, holds⟩
    · rw [same]
      exact typed.agrees.2 other x found (kept ▸ bound)
  · intro other x known found
    rcases hereOrKept other x with ⟨rfl, rfl⟩ | ⟨same, kept⟩
    · exact ⟨binding, foundHere⟩
    · rw [kept]
      exact typed.bound other x known (same ▸ found)
  · intro other x found kind mutable bound known ready
    rcases hereOrKept other x with ⟨rfl, rfl⟩ | ⟨same, kept⟩
    · rcases ready with earlier | ⟨now, _⟩
      · exact absurd earlier asleep
      · rw [foundHere] at bound
        obtain rfl := Option.some.inj bound
        exact (valid kind mutable now (Option.some.inj (slot_bound.symm.trans known))).grows
          (grows_bound slot awake new)
    · rcases ready with earlier | ⟨_, this⟩
      · exact (typed.valid other x found kind mutable (kept ▸ bound) (same ▸ known) earlier).grows
          (grows_bound slot awake new)
      · exact absurd (same ▸ known) (by rw [this.1, this.2, new]; exact nofun)
  · intro other x value known
    have bound := typed.constant other x value known
    rcases hereOrKept other x with ⟨rfl, rfl⟩ | ⟨_, kept⟩
    · rw [typed.find?_none new] at bound
      exact nomatch bound
    · rw [kept]
      exact bound

theorem Typed.wake {world : World} {store : Store} (typed : Typed program world store)
    {more : ScopeId → String → Prop}
    (known : ∀ id name, more id name → ∃ slot, world.slot id name = some slot)
    (valid : ∀ id name binding, more id name → (store.scope id).find? name = some binding →
      isStorable binding.value.kind = true → Valid program (world.wake more) binding.value) :
    Typed program (world.wake more) store where
  sane :=
    { typed.sane with
      ready := fun id name ready => by
        rcases ready with earlier | now
        · exact typed.sane.ready id name earlier
        · exact known id name now
      awake := fun id name slot found =>
        (typed.sane.awake id name slot found).imp Or.inl (fun place => place) }
  size := typed.size
  agrees := typed.agrees
  bound := typed.bound
  valid id name binding kind mutable found slot ready := by
    rcases ready with earlier | now
    · exact (typed.valid id name binding kind mutable found slot earlier).grows
        (grows_wake world more)
    · refine valid id name binding now found ?_
      obtain ⟨other, same, holds⟩ := typed.agrees.2 id name binding found
      obtain rfl : Slot.value kind mutable = other := Option.some.inj (slot.symm.trans same)
      rw [holds.1]
      exact typed.sane.storable id name kind mutable slot
  constant := typed.constant

theorem Typed.kept {world : World} {store : Store} (typed : Typed program world store) {id : ScopeId}
    {name : String} {value : Value} (found : (store.scope id).find? name = some ⟨value, false⟩)
    (new : world.constant id name = none) : Typed program (world.kept id name value) store where
  sane := { typed.sane with }
  size := typed.size
  agrees := typed.agrees
  bound := typed.bound
  valid id name binding kind mutable found known ready :=
    (typed.valid id name binding kind mutable found known ready).grows (grows_kept value new)
  constant other x known same := by
    by_cases here : other = id ∧ x = name
    · simp only [World.kept, if_pos here, Option.some.injEq] at same
      rw [here.1, here.2, found, same]
    · simp only [World.kept, if_neg here] at same
      exact typed.constant other x known same

/-- Writing a value of the same kind into a variable keeps a store typed. -/
theorem Typed.write {world : World} {store : Store} (typed : Typed program world store) {id : ScopeId}
    {name : String} {value : Value} {kind : Kind} (slot : world.slot id name = some (.value kind true))
    (same : value.kind = kind) (valid : Valid program world value) :
    Typed program world (store.write id name value) := by
  have here : id < store.scopes.size := by
    rw [typed.size]
    exact typed.sane.old id name _ slot
  have split := store.find?_modify_insert name ⟨value, true⟩ here
  have size : (store.write id name value).scopes.size = store.scopes.size := store.size_modify id _
  -- A write changes one binding, to a value of the same kind; a constant is not that binding.
  refine ⟨typed.sane, size.trans typed.size, ⟨?_, ?_⟩, ?_, ?_, ?_⟩
  · rw [size]
    exact typed.agrees.1
  · intro other x binding found
    rw [Store.write, split] at found
    by_cases this : other = id ∧ x = name
    · rw [if_pos this] at found
      obtain rfl := Option.some.inj found
      refine ⟨.value kind true, ?_, same, rfl⟩
      rw [this.1, this.2]
      exact slot
    · rw [if_neg this] at found
      exact typed.agrees.2 other x binding found
  · intro other x found known
    rw [Store.write, split]
    by_cases this : other = id ∧ x = name
    · exact ⟨_, if_pos this⟩
    · rw [if_neg this]
      exact typed.bound other x found known
  · intro other x binding kind mutable found known ready
    rw [Store.write, split] at found
    by_cases this : other = id ∧ x = name
    · rw [if_pos this] at found
      obtain rfl := Option.some.inj found
      exact valid
    · rw [if_neg this] at found
      exact typed.valid other x binding kind mutable found known ready
  · intro other x known found
    have bound := typed.constant other x known found
    rw [Store.write, split]
    by_cases this : other = id ∧ x = name
    · obtain ⟨rfl, rfl⟩ := this
      obtain ⟨here, slot', holds⟩ := typed.agrees.2 _ _ _ bound
      obtain rfl := Option.some.inj (slot.symm.trans slot')
      exact nomatch holds.2
    · rw [if_neg this]
      exact bound

end MiniGo.Running
