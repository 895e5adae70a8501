import MiniGo.Proofs.Running.Names

/-!
# Computations that keep the invariant

`Keeps` is a triple about computations on machines: from a world and a machine that fit, a computation
leads to a later world that fits, and to a halt other than an undefined name if it halts. There is one
rule for each way to put computations together, and one for each primitive of the machine.
-/

namespace MiniGo.Running

open Lexical

/-- A halt that code with resolved names can come to. -/
def Excused : Halt → Prop
  | .fault (.undefined _ _) => False
  | _ => True

/-- A computation keeps the invariant and the active calls, adds names to the scope `top` only, and
has a result of which `post` holds in the later world. -/
def Keeps (program : Nat → Facts) (calls : CallStack) (top : Option ScopeId) (world : World)
    (action : Eval α) (post : World → α → Prop) : Prop :=
  ∀ machine, Inv program world machine → machine.calls = calls →
    match action machine with
    | .ok value next => next.calls = calls ∧
        ∃ later, Grows top world later ∧ Inv program later next ∧ post later value
    | .error halt next => Excused halt ∧ ∃ later, Grows top world later ∧ Inv program later next

variable {program : Nat → Facts} {calls : CallStack} {top : Option ScopeId} {world : World}

namespace Keeps

/-! ## Putting computations together -/

theorem pure {value : α} {post : World → α → Prop} (holds : post world value) :
    Keeps program calls top world (Pure.pure value) post :=
  fun _ inv same => ⟨same, world, Grows.refl top world, inv, holds⟩

theorem bind {action : Eval α} {next : α → Eval β} {middle : World → α → Prop}
    {post : World → β → Prop} (first : Keeps program calls top world action middle)
    (rest : ∀ later value, Grows top world later → middle later value →
      Keeps program calls top later (next value) post) :
    Keeps program calls top world (action >>= next) post := by
  intro machine inv same
  have ran := first machine inv same
  change match EStateM.bind action next machine with
    | .ok value after => _
    | .error halt after => _
  unfold EStateM.bind
  cases outcome : action machine with
  | error halt after =>
      rw [outcome] at ran
      exact ran
  | ok value after =>
      rw [outcome] at ran
      obtain ⟨kept, later, grows, invLater, holds⟩ := ran
      have tail := rest later value grows holds after invLater kept
      change match next value after with
        | .ok value after => _
        | .error halt after => _
      cases result : next value after with
      | error halt final =>
          rw [result] at tail
          obtain ⟨excused, last, growsLast, invLast⟩ := tail
          exact ⟨excused, last, grows.trans growsLast, invLast⟩
      | ok value final =>
          rw [result] at tail
          obtain ⟨keptLast, last, growsLast, invLast, holdsLast⟩ := tail
          exact ⟨keptLast, last, grows.trans growsLast, invLast, holdsLast⟩

/-- Names that come into scopes which are not there yet are no names of earlier scopes. -/
theorem inside {action : Eval α} {post : World → α → Prop} {other : Option ScopeId}
    {earlier : World} (grows : Grows top earlier world)
    (new : ∀ id < earlier.size, other = some id → top = some id)
    (keeps : Keeps program calls other world action post) :
    ∀ machine, Inv program world machine → machine.calls = calls →
      match action machine with
      | .ok value next => next.calls = calls ∧
          ∃ later, Grows top earlier later ∧ Inv program later next ∧ post later value
      | .error halt next => Excused halt ∧ ∃ later, Grows top earlier later ∧ Inv program later next := by
  intro machine inv same
  have ran := keeps machine inv same
  cases outcome : action machine with
  | error halt next =>
      rw [outcome] at ran
      obtain ⟨excused, later, growsLater, invLater⟩ := ran
      exact ⟨excused, later, grows.then growsLater new, invLater⟩
  | ok value next =>
      rw [outcome] at ran
      obtain ⟨kept, later, growsLater, invLater, holds⟩ := ran
      exact ⟨kept, later, grows.then growsLater new, invLater, holds⟩

theorem widen {action : Eval α} {post : World → α → Prop} (top : Option ScopeId)
    (keeps : Keeps program calls none world action post) :
    Keeps program calls top world action post :=
  keeps.inside (Grows.refl top world) fun _ _ impossible => by cases impossible

theorem weaken {action : Eval α} {post other : World → α → Prop}
    (keeps : Keeps program calls top world action post)
    (imp : ∀ later value, Grows top world later → post later value → other later value) :
    Keeps program calls top world action other := by
  intro machine inv same
  have ran := keeps machine inv same
  cases outcome : action machine with
  | error halt next =>
      rw [outcome] at ran
      exact ran
  | ok value next =>
      rw [outcome] at ran
      obtain ⟨kept, later, grows, invLater, holds⟩ := ran
      exact ⟨kept, later, grows, invLater, imp later value grows holds⟩

theorem seq {action : Eval α} {next : α → Eval β} {middle : World → α → Prop}
    {post : World → β → Prop} (first : Keeps program calls none world action middle)
    (rest : ∀ later value, Grows none world later → middle later value →
      Keeps program calls top later (next value) post) :
    Keeps program calls top world (action >>= next) post := by
  have stays : Keeps program calls none world action
      (fun later value => Grows none world later ∧ middle later value) :=
    first.weaken fun _ _ grows holds => ⟨grows, holds⟩
  exact (stays.widen top).bind fun later value _ both => rest later value both.1 both.2

theorem fail {error : RuntimeError} {post : World → α → Prop} (excused : Excused (.fault error)) :
    Keeps program calls top world (Eval.fail error) post :=
  fun _ inv _ => ⟨excused, world, Grows.refl top world, inv⟩

theorem exhausted {post : World → α → Prop} :
    Keeps program calls top world Eval.exhausted post :=
  fun _ inv _ => ⟨trivial, world, Grows.refl top world, inv⟩

theorem ofExcept {result : Except RuntimeError α} {post : World → α → Prop}
    (holds : ∀ value, result = .ok value → post world value)
    (excused : ∀ error, result = .error error → Excused (.fault error)) :
    Keeps program calls top world (Eval.ofExcept result) post := by
  intro machine inv same
  cases result with
  | ok value => exact ⟨same, world, Grows.refl top world, inv, holds value rfl⟩
  | error error => exact ⟨excused error rfl, world, Grows.refl top world, inv⟩

theorem inFrame {frame : Frame} {body : Eval α} {post : World → α → Prop}
    (keeps : Keeps program (calls.push frame) top world body post) :
    Keeps program calls top world (Eval.inFrame frame body) post := by
  intro machine inv same
  have ran := keeps { machine with calls := machine.calls.push frame } ⟨inv.typed, inv.past, inv.once⟩
    (by rw [same])
  unfold Eval.inFrame
  cases outcome : body { machine with calls := machine.calls.push frame } with
  | error halt after =>
      rw [outcome] at ran
      obtain ⟨excused, later, grows, invLater⟩ := ran
      exact ⟨excused, later, grows, invLater.typed, invLater.past, invLater.once⟩
  | ok value after =>
      rw [outcome] at ran
      obtain ⟨kept, later, grows, invLater, holds⟩ := ran
      exact ⟨by simp only [kept, CallStack.pop_push], later, grows, ⟨invLater.typed, invLater.past, invLater.once⟩, holds⟩

/-! ## Reading the machine -/

theorem depth {post : World → Nat → Prop} (holds : post world calls.depth) :
    Keeps program calls top world Eval.depth post := by
  intro machine inv same
  exact ⟨same, world, Grows.refl top world, inv, by rw [same]; exact holds⟩

theorem frame? {post : World → Option Frame → Prop} (holds : post world calls.frames.head?) :
    Keeps program calls top world Eval.frame? post := by
  intro machine inv same
  exact ⟨same, world, Grows.refl top world, inv, by rw [same]; exact holds⟩

theorem met {machine : Machine} {event : Event} (inv : Inv program world machine)
    (good : Good program world machine.store event) : Inv program world (machine.met event) :=
  inv.step event (Grows.refl none world) inv.typed rfl good

theorem meet {event : Event}
    (good : ∀ store, Typed program world store → Good program world store event) :
    Keeps program calls top world (Eval.meet event) (fun later _ => world = later) :=
  fun machine inv same => ⟨same, world, Grows.refl top world, met inv (good machine.store inv.typed), rfl⟩

theorem hasLocal {package : Nat} {context : Context} {env : Env}
    (fits : Fits program world package context env) (owned : Owned context) (name : String) :
    Keeps program calls top world (Eval.hasLocal env name)
      (fun later found => world = later ∧ found = (context.here name).isSome) := by
  intro machine inv same
  refine ⟨same, world, Grows.refl top world, inv, rfl, ?_⟩
  obtain ⟨layer, outer, rfl, own, _⟩ := owned
  have layers := fits.layers
  cases layers with
  | @cons _ id _ rest fit _ =>
      change ((machine.store.scope id).find? name).isSome = (layer.names name).isSome
      cases named : layer.names name with
      | some meaning =>
          obtain ⟨slot, known⟩ := inv.typed.sane.ready id name (fit.names name meaning named).1
          obtain ⟨binding, bound⟩ := inv.typed.bound id name slot known
          rw [bound]
          rfl
      | none =>
          have free : world.slot id name = none := by
            cases known : world.slot id name with
            | none => rfl
            | some slot =>
                have isNamed := fit.own own name slot known
                rw [named] at isNamed
                exact nomatch isNamed
          rw [inv.typed.find?_none free]
          rfl

theorem lookupLocal? {id : ScopeId} {env : Env} {name : String} {kind : Kind} {mutable : Bool}
    (known : world.slot id name = some (.value kind mutable)) (ready : world.ready id name) :
    Keeps program calls top world (Eval.lookupLocal? (id :: env) name)
      (fun later found => world = later ∧
        ∃ value, found = some value ∧ value.kind = kind ∧ Valid program later value) := by
  intro machine inv same
  obtain ⟨binding, bound⟩ := inv.typed.bound id name _ known
  obtain ⟨slot, knownToo, holds⟩ := inv.typed.agrees.2 id name binding bound
  obtain rfl : Slot.value kind mutable = slot := Option.some.inj (known.symm.trans knownToo)
  refine ⟨same, world, Grows.refl top world, inv, rfl, binding.value, ?_, holds.1,
    inv.typed.valid id name binding kind mutable bound known ready⟩
  rw [Store.getLocal?_cons, bound]
  rfl

theorem lookupLocal?_blank {id : ScopeId} {env : Env} :
    Keeps program calls top world (Eval.lookupLocal? (id :: env) blankName)
      (fun later found => world = later ∧ found = none) := by
  intro machine inv same
  refine ⟨same, world, Grows.refl top world, inv, rfl, ?_⟩
  rw [Store.getLocal?_cons, inv.typed.find?_none (inv.typed.sane.blank id)]
  rfl

/-! ## Scopes and names -/

/-- A scope that the checker entered is opened, and only the code inside it adds names to it. -/
theorem openScope {package : Nat} {context : Context} {env : Env} {scope : Nat}
    (fits : Fits program world package context env)
    (enters : Enters (program package) context scope) :
    Keeps program calls none world (Eval.openScope env)
      (fun later inner => inner = world.size :: env ∧
        Fits program later package (context.enter scope) inner) := by
  intro machine inv same
  have place : (Place.of package scope : Place) = .inside package scope := if_neg enters.1
  have grows := grows_opened world (Place.of package scope)
  have size := inv.typed.size
  have new : (world.opened (.of package scope)).place world.size = .of package scope := if_pos rfl
  have fitsLater := fits.grows_none grows
  refine ⟨same, world.opened (.of package scope), grows,
    inv.step (.opened env) grows (inv.typed.child env (.of package scope)) rfl ?_, ?_, ?_⟩
  · refine ⟨?_, fitsLater.old, package, scope, enters.1, ?_⟩
    · rw [size]
      exact Nat.lt_succ_self _
    · rw [enters.2, List.map_cons, List.map_cons, scopes_of_layers fitsLater.layers, size, new]
  · rw [← size]
  · refine ⟨?_, ?_⟩
    · simp only [size]
      refine .cons ⟨Nat.lt_succ_self _, new, nofun, fun _ name slot known => ?_⟩ fitsLater.layers
      exact absurd (inv.typed.sane.old _ name slot known) (Nat.lt_irrefl _)
    · simp only [size]
      exact List.pairwise_cons.mpr ⟨fun id member => fits.old id member, fits.order⟩

/-- Code in a scope of its own adds no names to the scopes around it. -/
theorem inScope {package : Nat} {context : Context} {env : Env} {scope : Nat}
    {next : Env → Eval β} {post : World → β → Prop} (fits : Fits program world package context env)
    (enters : Enters (program package) context scope)
    (rest : ∀ later inner, Grows none world later → inner.tail = env →
      Fits program later package (context.enter scope) inner →
      Keeps program calls inner.head? later (next inner) post) :
    Keeps program calls none world (Eval.openScope env >>= next) post := by
  intro machine inv same
  have opens : Keeps program calls none world (Eval.openScope env) _ := openScope fits enters
  have ran := opens machine inv same
  change match EStateM.bind (Eval.openScope env) next machine with
    | .ok value after => _
    | .error halt after => _
  unfold EStateM.bind
  cases outcome : Eval.openScope env machine with
  | error halt after =>
      rw [outcome] at ran
      exact ran
  | ok inner after =>
      rw [outcome] at ran
      obtain ⟨kept, later, grows, invLater, rfl, fitsLater⟩ := ran
      exact (rest later _ grows rfl fitsLater).inside grows
        (fun id old newest => absurd (Option.some.inj newest) (Nat.ne_of_gt old))
        after invLater kept

theorem fits_bound {package : Nat} {context : Context} {id : ScopeId} {env : Env} {name : String}
    {kind : Kind} {mutable : Bool} (fits : Fits program world package context (id :: env))
    (owned : Owned context) (free : world.slot id name = none) (named : name ≠ blankName) :
    Fits program (world.bound id name (.value kind mutable) True) package (context.add name)
      (id :: env) := by
  have grows := grows_bound (.value kind mutable) True free
  obtain ⟨⟨scope, mode, names⟩, outer, rfl, own, _⟩ := owned
  have order := List.pairwise_cons.mp fits.order
  -- The layer of the scope gets the name, and the layers around it are left as they are: their scopes are others.
  cases fits.layers with
  | cons fit rest =>
      have outerFits : Fits program world package outer env := ⟨rest, order.2⟩
      refine ⟨.cons ?_ (outerFits.grows grows fun layer _ _ other member same => ?_).layers, fits.order⟩
      · have added : Layer.add ⟨scope, mode, names⟩ name
            = ⟨scope, mode, fun other => if other = name then some .value else names other⟩ := if_neg named
        rw [added]
        refine ⟨fit.old, fit.place, fun other meaning found => ?_, fun _ other slot known => ?_⟩
        · by_cases this : other = name
          · simp only [if_pos this, Option.some.injEq] at found
            subst found
            exact ⟨Or.inr ⟨trivial, rfl, this⟩, kind, mutable, if_pos ⟨rfl, this⟩⟩
          · simp only [if_neg this] at found
            obtain ⟨ready, means⟩ := fit.names other meaning found
            exact ⟨Or.inl ready, means.grows grows⟩
        · by_cases this : other = name
          · simp only [if_pos this, Option.isSome_some]
          · simp only [if_neg this]
            refine fit.own own other slot ?_
            rw [← known]
            exact (if_neg fun both => this both.2).symm
      · obtain rfl : id = other := Option.some.inj same
        exact absurd (order.1 id member) (Nat.lt_irrefl _)

theorem bind_blank {env : Env} {type? : Option Ty} {value : Value} {mutable : Bool}
    (conforms : ∀ type, type? = some type → value.conformsTo type = true) :
    Keeps program calls top world (Eval.bindTyped env blankName type? value mutable)
      (fun later _ => world = later) := by
  intro machine inv same
  refine ⟨same, world, Grows.refl _ world, ?_, rfl⟩
  refine inv.step (.bound env blankName ⟨value, mutable⟩ type?)
    (Grows.refl none world) ?_ rfl ⟨fun _ _ named => absurd rfl named, conforms⟩
  rw [Store.bind_blank]
  exact inv.typed

/-- A new name is bound in a scope; what is bound to it has to be valid unless it is asleep. -/
theorem bindNew {id : ScopeId} {outer : Env} {name : String} {type? : Option Ty} {value : Value}
    {mutable : Bool} {slot : Slot} {awake : Prop} (named : name ≠ blankName) (old : id < world.size)
    (new : world.slot id name = none) (holds : slot.Holds ⟨value, mutable⟩)
    (declared : (world.place id).Declares program name)
    (storable : ∀ kind mutable, slot = .value kind mutable → isStorable kind = true)
    (imports : ∀ ref, slot = .package ref → (world.place id).IsFile program)
    (rouse : awake ∨ (world.place id).IsPackage program)
    (valid : ∀ kind mutable, awake → slot = .value kind mutable → Valid program world value)
    (conforms : ∀ type, type? = some type → value.conformsTo type = true) :
    Keeps program calls (some id) world (Eval.bindTyped (id :: outer) name type? value mutable)
      (fun later _ => world.bound id name slot awake = later) := by
  intro machine inv same
  have grows := grows_bound slot awake new
  refine ⟨same, _, grows, inv.step (.bound (id :: outer) name ⟨value, mutable⟩ type?) grows
    (inv.typed.bind outer named old new holds declared storable imports rouse valid) rfl
    ⟨fun other here _ => ?_, conforms⟩, rfl⟩
  obtain rfl : id = other := Option.some.inj here
  exact ⟨inv.typed.find?_none new, slot, if_pos ⟨rfl, rfl⟩, holds⟩

/-- A new name is bound in the innermost scope to a value of the type that it is declared with. -/
theorem bindTyped {package : Nat} {context : Context} {env : Env} {name : String} {type? : Option Ty}
    {value : Value} {mutable : Bool} (fits : Fits program world package context env)
    (owned : Owned context) (gets : Gets (program package) context name)
    (valid : Valid program world value)
    (conforms : ∀ type, type? = some type → value.conformsTo type = true) :
    Keeps program calls env.head? world (Eval.bindTyped env name type? value mutable)
      (fun later _ => Fits program later package (context.add name) env ∧
        ∀ id, env.head? = some id → name ≠ blankName →
          later.ready id name ∧ later.slot id name = some (.value value.kind mutable)) := by
  by_cases named : name = blankName
  · subst named
    refine (bind_blank conforms).weaken ?_
    rintro _ _ _ rfl
    exact ⟨by rw [add_blank]; exact fits, fun _ _ named => absurd rfl named⟩
  obtain ⟨free, layer, first, declares⟩ := gets.resolve_left named
  have ⟨layer', outer, same, own, inside⟩ := owned
  subst same
  obtain rfl : layer' = layer := Option.some.inj first
  cases env with
  | nil => exact nomatch fits.layers
  | cons id rest =>
      cases fits.layers with
      | cons fit _ =>
          -- The scope belongs to the code alone, so all slots it has are names of its layer.
          have new : world.slot id name = none := by
            cases known : world.slot id name with
            | none => rfl
            | some slot =>
                have isNamed := fit.own own name slot known
                rw [show layer'.names name = none from free] at isNamed
                exact nomatch isNamed
          have place : (world.place id).Declares program name := by
            rw [fit.place, Place.of, if_neg inside]
            exact declares
          have binds : Keeps program calls (some id) world
              (Eval.bindTyped (id :: rest) name type? value mutable)
              (fun later _ => world.bound id name (.value value.kind mutable) True = later) :=
            bindNew named fit.old new ⟨rfl, rfl⟩ place (by rintro _ _ ⟨⟩; exact valid.1) nofun
              (Or.inl trivial) (fun _ _ _ _ => valid) conforms
          refine binds.weaken ?_
          rintro _ _ _ rfl
          refine ⟨fits_bound fits owned new named, fun other here _ => ?_⟩
          obtain rfl : id = other := Option.some.inj here
          exact ⟨Or.inr ⟨trivial, rfl, rfl⟩, if_pos ⟨rfl, rfl⟩⟩

end Keeps

end MiniGo.Running
