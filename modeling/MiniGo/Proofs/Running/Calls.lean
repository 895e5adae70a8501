import MiniGo.Proofs.Running.Variables

/-!
# Declarations, arguments and results

What the steps of declarations and calls keep: converting values to types, binding names to values,
and gathering the results of a call.
-/

namespace MiniGo.Running

open Lexical

variable {program : Nat → Facts} {calls : CallStack} {top : Option ScopeId} {world : World}
  {package : Nat} {context : Context} {env : Env}

/-- Named results are bound to values of the kinds of their types. -/
def ResultsBound (world : World) (id : ScopeId) (names : List String) (types : List Ty) : Prop :=
  List.Forall₂ (fun name type => Inhabits type ∧ (name ≠ blankName → world.ready id name ∧
    world.slot id name = some (.value (Value.zero type).kind true))) names types

/-- The types of the results that the innermost active call gives. -/
def CallStack.expected (calls : CallStack) : List Ty :=
  (calls.frames.head?.getD ⟨"", []⟩).results

/-- A statement that returns does so with nothing, or with values that fit the results of the
innermost active call. -/
def FlowFits (program : Nat → Facts) (calls : CallStack) (world : World) : Flow → Prop
  | .return values =>
      values = [] ∨ (Conform values (CallStack.expected calls) ∧ AllValid program world values)
  | _ => True

theorem ResultsBound.grows {later : World} {id : ScopeId} {names : List String} {types : List Ty}
    (grows : Grows top world later) (bound : ResultsBound world id names types) :
    ResultsBound later id names types :=
  bound.imp fun _ _ result => ⟨result.1, fun named =>
    ⟨grows.ready _ _ (result.2 named).1, grows.slot _ _ _ (result.2 named).2⟩⟩

theorem getsAll_append {facts : Facts} (first second : List String) (gets : GetsAll facts context (first ++ second)) :
    GetsAll facts context first ∧ GetsAll facts (context.addAll first) second := by
  induction first generalizing context with
  | nil => exact ⟨trivial, gets⟩
  | cons name first ih =>
      obtain ⟨here, rest⟩ := gets
      exact ⟨⟨here, (ih rest).1⟩, (ih rest).2⟩

theorem addAll_append (context : Context) (first second : List String) :
    context.addAll (first ++ second) = (context.addAll first).addAll second :=
  List.foldl_append

/-- What conversions keep of values, arguments keep. -/
theorem coerceArguments_all {P : Value → Prop} {params : List Parameter}
    {received : List (Value × Option Expr)}
    (kept : ∀ {value} source type, P value → P (value.coerce source type))
    (all : ∀ pair ∈ received, P pair.1) : ∀ value ∈ Eval.coerceArguments params received, P value := by
  induction params generalizing received with
  | nil =>
      intro value member
      obtain ⟨pair, inside, rfl⟩ := List.mem_map.mp member
      exact all pair inside
  | cons param params ih =>
      cases received with
      | nil => exact fun value member => absurd member List.not_mem_nil
      | cons pair received =>
          obtain ⟨first, rest⟩ := List.forall_mem_cons.mp all
          exact List.forall_mem_cons.mpr ⟨kept pair.2 param.type first, ih rest⟩

namespace Keeps

/-! ## Conversions -/

theorem declaredValues {type? : Option Ty} {location : Location} {received : List (Value × Option Expr)}
    (valid : AllReceived program world received) :
    Keeps program calls top world (Eval.declaredValues type? location received)
      (fun later values => world = later ∧ values.length = received.length ∧
        AllValid program later values ∧
        ∀ type, type? = some type → ∀ value ∈ values, value.conformsTo type = true) := by
  induction received with
  | nil => exact .pure ⟨rfl, rfl, nofun, nofun⟩
  | cons pair received ih =>
      obtain ⟨value, source⟩ := pair
      have validFirst := valid (value, source) (by simp)
      have first : Keeps program calls top world (Eval.declaredValue type? location value source)
          (fun later value => world = later ∧ Valid program later value ∧
            ∀ type, type? = some type → value.conformsTo type = true) := by
        unfold Eval.declaredValue
        cases type? with
        | none => exact .pure ⟨rfl, validFirst, nofun⟩
        | some type =>
            dsimp only
            split
            · rename_i conforms
              refine .pure ⟨rfl, validFirst.coerce source type, ?_⟩
              rintro _ ⟨⟩
              exact conforms
            · exact .fail trivial
      refine first.bind ?_
      rintro _ value _ ⟨rfl, validValue, conforms⟩
      refine (ih fun pair member => valid pair (by simp [member])).bind ?_
      rintro _ values _ ⟨rfl, count, validValues, conform⟩
      refine .pure ⟨rfl, by simp [count], List.forall_mem_cons.mpr ⟨validValue, validValues⟩, ?_⟩
      exact fun type same => List.forall_mem_cons.mpr ⟨conforms type same, conform type same⟩

theorem returnedValues {location : Location} {types : List Ty} {received : List (Value × Option Expr)}
    (valid : AllReceived program world received) (count : received.length = types.length) :
    Keeps program calls top world (Eval.returnedValues location types received)
      (fun later values => world = later ∧ Conform values types ∧ AllValid program later values) := by
  induction types generalizing received with
  | nil =>
      cases received with
      | nil => exact .pure ⟨rfl, .nil, nofun⟩
      | cons => exact nomatch count
  | cons type types ih =>
      cases received with
      | nil => exact nomatch count
      | cons pair received =>
          obtain ⟨value, source⟩ := pair
          have validFirst := valid (value, source) (by simp)
          unfold Eval.returnedValues
          dsimp only
          split
          · rename_i conforms
            refine (ih (fun pair member => valid pair (by simp [member])) (Nat.succ.inj count)).bind ?_
            rintro _ values _ ⟨rfl, conform, validValues⟩
            exact .pure ⟨rfl, .cons conforms conform,
              List.forall_mem_cons.mpr ⟨validFirst.coerce source type, validValues⟩⟩
          · exact .fail trivial

theorem coerceArguments {params : List Parameter} {received : List (Value × Option Expr)}
    (valid : AllReceived program world received) :
    AllValid program world (Eval.coerceArguments params received) :=
  coerceArguments_all (fun source type valid => valid.coerce source type) valid

/-! ## Binding -/

theorem bindValues {names : List String} {values : List Value} {type? : Option Ty} {mutable : Bool}
    (fits : Fits program world package context env) (owned : Owned context)
    (gets : GetsAll (program package) context names) (count : values.length = names.length)
    (valid : AllValid program world values)
    (conform : ∀ type, type? = some type → ∀ value ∈ values, value.conformsTo type = true) :
    Keeps program calls env.head? world (Eval.bindValues env mutable type? names values)
      (fun later _ => Fits program later package (context.addAll names) env) := by
  induction names generalizing world context values with
  | nil => exact .pure fits
  | cons name names ih =>
      cases values with
      | nil => exact nomatch count
      | cons value values =>
          obtain ⟨first, rest⟩ := gets
          obtain ⟨validFirst, validRest⟩ := List.forall_mem_cons.mp valid
          have binds : Keeps program calls env.head? world
              (Eval.bindTyped env name type? value mutable) _ :=
            bindTyped fits owned first validFirst fun type same => conform type same value (by simp)
          refine binds.bind fun later _ grows bound => ?_
          exact ih bound.1 (owned.add name) rest (Nat.succ.inj count) (AllValid.grows grows validRest)
            fun type same other member => conform type same other (by simp [member])

theorem bindParameters {function : String} {location : Location} {params : List Parameter}
    {args : List Value} (fits : Fits program world package context env) (owned : Owned context)
    (gets : GetsAll (program package) context (params.map (·.name)))
    (count : args.length = params.length) (offered : AllOffered program world args) :
    Keeps program calls env.head? world (Eval.bindParameters env function location params args)
      (fun later _ => Fits program later package (context.addAll (params.map (·.name))) env) := by
  induction params generalizing world context args with
  | nil => exact .pure fits
  | cons param params ih =>
      cases args with
      | nil => exact nomatch count
      | cons arg args =>
          obtain ⟨first, rest⟩ := gets
          obtain ⟨offeredFirst, offeredRest⟩ := List.forall_mem_cons.mp offered
          unfold Eval.bindParameters
          dsimp only
          split
          · rename_i conforms
            have binds : Keeps program calls env.head? world
                (Eval.bindTyped env param.name (some param.type) arg true) _ :=
              bindTyped fits owned first ⟨storable_of_conformsTo conforms, offeredFirst⟩
                (by rintro _ ⟨⟩; exact conforms)
            refine binds.bind fun later _ grows bound => ?_
            exact ih bound.1 (owned.add param.name) rest (Nat.succ.inj count)
              (AllOffered.grows grows offeredRest)
          · intro machine inv _
            exact ⟨trivial, world, Grows.refl _ world, inv⟩

theorem bindResults {id : ScopeId} {outer : Env} {names : List String} {types : List Ty}
    (fits : Fits program world package context (id :: outer)) (owned : Owned context)
    (gets : GetsAll (program package) context names) (count : names.length = types.length)
    (inhabit : ∀ type ∈ types, Inhabits type) :
    Keeps program calls (some id) world (Eval.bindResults (id :: outer) names types)
      (fun later _ => Fits program later package (context.addAll names) (id :: outer) ∧
        ResultsBound later id names types) := by
  induction names generalizing world context types with
  | nil =>
      cases types with
      | nil => exact .pure ⟨fits, .nil⟩
      | cons => exact nomatch count
  | cons name names ih =>
      cases types with
      | nil => exact nomatch count
      | cons type types =>
          obtain ⟨first, rest⟩ := gets
          obtain ⟨here, others⟩ := List.forall_mem_cons.mp inhabit
          have binds : Keeps program calls (some id) world
              (Eval.bindTyped (id :: outer) name (some type) (.zero type) true) _ :=
            bindTyped fits owned first (valid_zero here)
              (by rintro _ ⟨⟩; exact zero_conformsTo here)
          refine binds.bind fun later _ _ bound => ?_
          refine (ih bound.1 (owned.add name) rest (Nat.succ.inj count) others).weaken
            fun last _ grows both => ⟨both.1, .cons ⟨here, fun named => ?_⟩ both.2⟩
          obtain ⟨ready, slot⟩ := bound.2 id rfl named
          exact ⟨grows.ready _ _ ready, grows.slot _ _ _ slot⟩

/-! ## Results -/

theorem namedResults {id : ScopeId} {outer : Env} {names : List String} {types : List Ty}
    (bound : ResultsBound world id names types) :
    Keeps program calls top world (Eval.namedResults (id :: outer) names types)
      (fun later values => world = later ∧ Conform values types ∧ AllValid program later values) := by
  induction bound with
  | nil => exact .pure ⟨rfl, .nil, nofun⟩
  | @cons name type names types first rest ih =>
      obtain ⟨inhabits, bound⟩ := first
      have value : Keeps program calls top world (Eval.lookupLocal? (id :: outer) name)
          (fun later found => world = later ∧ Valid program later (found.getD (.zero type)) ∧
            (found.getD (.zero type)).conformsTo type = true) := by
        -- A blank result is never bound and gives the zero value.
        by_cases named : name = blankName
        · subst named
          refine lookupLocal?_blank.weaken ?_
          rintro _ _ _ ⟨rfl, rfl⟩
          exact ⟨rfl, valid_zero inhabits, zero_conformsTo inhabits⟩
        · obtain ⟨ready, slot⟩ := bound named
          refine (lookupLocal? slot ready).weaken ?_
          rintro _ _ _ ⟨rfl, value, rfl, kind, valid⟩
          exact ⟨rfl, valid, conformsTo_of_kind kind (zero_conformsTo inhabits)⟩
      refine value.bind ?_
      rintro _ found _ ⟨rfl, valid, conforms⟩
      refine ih.bind ?_
      rintro _ values _ ⟨rfl, conform, validRest⟩
      exact .pure ⟨rfl, .cons conforms conform, List.forall_mem_cons.mpr ⟨valid, validRest⟩⟩

/-- The results of a call whose body finished; their number is checked afterwards. -/
theorem resultsOf {id : ScopeId} {outer : Env} {signature : Signature} {frame : Frame} {flow : Flow}
    (bound : ResultsBound world id signature.resultNames signature.results ∨ signature.resultNames = [])
    (frameResults : frame.results = signature.results)
    (flows : FlowFits program (calls.push frame) world flow) :
    Keeps program calls top world (Eval.resultsOf (id :: outer) signature flow)
      (fun later results => AllValid program later results ∧
        (results.length = signature.results.length → Conform results signature.results)) := by
  -- A body that returns nothing fits a signature without results only.
  have nothing : 0 = signature.results.length → Conform [] signature.results := by
    intro count
    cases types : signature.results with
    | nil => exact .nil
    | cons =>
        rw [types] at count
        exact nomatch count
  cases flow with
  | «return» values =>
      cases values with
      | nil =>
          unfold Eval.resultsOf
          dsimp only
          split
          · exact .pure ⟨nofun, nothing⟩
          · rename_i named
            have bound := bound.resolve_right fun empty => named (by rw [empty]; rfl)
            refine (namedResults bound).weaken ?_
            rintro _ results _ ⟨rfl, conform, valid⟩
            exact ⟨valid, fun _ => conform⟩
      | cons value values =>
          obtain ⟨conform, valid⟩ := flows.resolve_left nofun
          have expected : CallStack.expected (calls.push frame) = signature.results := frameResults
          rw [expected] at conform
          exact .pure ⟨valid, fun _ => conform⟩
  | _ => exact .pure ⟨nofun, nothing⟩

/-! ## Function values -/

theorem literalName :
    Keeps program calls top world Eval.literalName (fun later _ => world = later) := by
  have frame : Keeps program calls top world Eval.frame? (fun later _ => world = later) :=
    frame? rfl
  refine frame.bind ?_
  rintro _ found _ rfl
  cases found <;> exact .pure rfl

theorem judged_capture {facts : Facts} {literal : FunctionLiteral}
    (judged : Judged.function facts context literal) :
    Judged.function facts context.capture literal := by
  obtain ⟨signature, body, location⟩ := literal
  have twice : context.capture.capture = context.capture :=
    capture_of_not_own (capture_not_own context)
  have scopes : context.capture.scopes = context.scopes := by
    simp only [Context.scopes, Context.capture, List.map_map]
    refine List.map_congr_left fun layer _ => ?_
    obtain ⟨scope, mode, names⟩ := layer
    cases mode <;> rfl
  obtain ⟨typed, scope, enters, rest⟩ := judged
  refine ⟨typed, scope, ⟨enters.1, ?_⟩, ?_⟩
  · rw [scopes]
    exact enters.2
  · rw [twice]
    exact rest

theorem makeClosure {name : String} {literal : FunctionLiteral}
    (fits : Fits program world package context env)
    (judged : Judged.function (program package) context literal) :
    Keeps program calls top world (Eval.makeClosure name literal env)
      (fun later value => Valid program later value) := by
  intro machine inv same
  refine ⟨same, world, Grows.refl top world, ⟨inv.typed, inv.past, inv.once⟩, rfl, ?_⟩
  rintro closure ⟨⟩
  exact ⟨package, context.capture, fits.capture, capture_not_own context, judged_capture judged⟩

theorem callBuiltin {function : Builtin} {args : List Value} {location : Location} :
    Keeps program calls top world (Eval.callBuiltin function args location)
      (fun later results => AllValid program later results) := by
  intro machine inv same
  unfold Eval.callBuiltin
  cases result : function.call args location with
  | ok pair =>
      obtain ⟨results, text⟩ := pair
      exact ⟨same, world, Grows.refl top world, ⟨inv.typed, inv.past, inv.once⟩, fun value member => valid_of_scalar (builtin_scalar result value member)⟩
  | error error => exact ⟨(builtin_operational result).excused, world, Grows.refl top world, inv⟩

end Keeps

end MiniGo.Running
