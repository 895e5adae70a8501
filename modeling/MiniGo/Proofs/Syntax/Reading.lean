import MiniGo.Proofs.Syntax.Words

/-!
# What readers give

`Gives` is a triple about readers: on words of the language a reader that does not stop gives a result
of the promised form, and leaves words of the language. There is one rule for each way to put readers
together; a structure has one field for each of the readers that call each other, and holds for every
amount of fuel.
-/

namespace MiniGo.Syntax

theorem bind_ok {reader : Reader α} {next : α → Reader β} {tokens left : List Token} {value : β}
    (ran : (reader >>= next) tokens = .ok (value, left)) :
    ∃ found behind, reader tokens = .ok (found, behind) ∧ next found behind = .ok (value, left) := by
  change Except.bind (reader tokens) _ = _ at ran
  cases outcome : reader tokens with
  | error stop =>
      rw [outcome] at ran
      cases ran
  | ok both =>
      rw [outcome] at ran
      exact ⟨both.1, both.2, rfl, ran⟩

theorem bind_of_ok {reader : Reader α} {next : α → Reader β} {tokens left : List Token} {value : α}
    (gave : reader tokens = .ok (value, left)) :
    (reader >>= next) tokens = next value left := by
  change Except.bind (reader tokens) _ = _
  rw [gave]
  rfl

theorem bind_of_error {reader : Reader α} {next : α → Reader β} {tokens : List Token} {stop : Stop}
    (stopped : reader tokens = .error stop) :
    (reader >>= next) tokens = .error stop := by
  change Except.bind (reader tokens) _ = _
  rw [stopped]
  rfl

/-- On words of the language a reader gives a result of which `post` holds, unless it stops. -/
def Gives (reader : Reader α) (post : α → Prop) : Prop :=
  ∀ tokens value rest, Lexed tokens → reader tokens = .ok (value, rest) → post value ∧ Lexed rest

namespace Gives

variable {post : α → Prop}

theorem pure {value : α} (holds : post value) : Gives (Pure.pure value) post := by
  intro tokens found rest lexed ran
  obtain ⟨rfl, rfl⟩ := Prod.mk.inj (Except.ok.inj ran)
  exact ⟨holds, lexed⟩

theorem bind {middle : α → Prop} {last : β → Prop} {reader : Reader α} {next : α → Reader β}
    (first : Gives reader middle) (rest : ∀ value, middle value → Gives (next value) last) :
    Gives (reader >>= next) last := by
  intro tokens value left lexed ran
  obtain ⟨found, behind, read, ran⟩ := bind_ok ran
  obtain ⟨holds, lexedBehind⟩ := first tokens found behind lexed read
  exact rest found holds behind value left lexedBehind ran

theorem weaken {other : α → Prop} {reader : Reader α} (gives : Gives reader post)
    (imp : ∀ value, post value → other value) : Gives reader other :=
  fun tokens value rest lexed ran =>
    let ⟨holds, behind⟩ := gives tokens value rest lexed ran
    ⟨imp value holds, behind⟩

theorem fail {error : SyntaxError} : Gives (Reader.fail error) post := fun _ _ _ _ ran => nomatch ran

theorem refuse {expected : Expected} : Gives (Reader.refuse expected) post :=
  fun _ _ _ _ ran => nomatch ran

theorem exhausted : Gives Reader.exhausted post := fun _ _ _ _ ran => nomatch ran

/-! ## Tokens ahead -/

theorem head_formed {tokens : List Token} (lexed : Lexed tokens) : WordFormed (Reader.head tokens).word := by
  cases tokens with
  | nil => exact trivial
  | cons token tokens => exact lexed token List.mem_cons_self

theorem tail_lexed {tokens : List Token} (lexed : Lexed tokens) : Lexed (Reader.tail tokens) := by
  unfold Reader.tail
  split
  · exact lexed
  · split
    · exact lexed
    · exact fun other member => lexed other (List.mem_cons_of_mem _ member)

theorem peek {next : Token → Reader β} {last : β → Prop}
    (rest : ∀ token, WordFormed token.word → Gives (next token) last) : Gives (Reader.peek >>= next) last :=
  fun tokens value left lexed ran => rest (Reader.head tokens) (head_formed lexed) tokens value left lexed ran

theorem peekWord {next : Word → Reader β} {last : β → Prop}
    (rest : ∀ word, WordFormed word → Gives (next word) last) : Gives (Reader.peekWord >>= next) last :=
  fun tokens value left lexed ran =>
    rest (Reader.head tokens).word (head_formed lexed) tokens value left lexed ran

theorem peekSecond {next : Word → Reader β} {last : β → Prop}
    (rest : ∀ word, Gives (next word) last) : Gives (Reader.peekSecond >>= next) last :=
  fun tokens value left lexed ran => rest (Reader.second tokens).word tokens value left lexed ran

theorem advance {next : Token → Reader β} {last : β → Prop}
    (rest : ∀ token, Gives (next token) last) : Gives (Reader.advance >>= next) last :=
  fun tokens value left lexed ran =>
    rest (Reader.head tokens) (Reader.tail tokens) value left (tail_lexed lexed) ran

theorem look {found : List Token → α} {next : α → Reader β} {last : β → Prop}
    (rest : ∀ value, Gives (next value) last) :
    Gives ((fun tokens => .ok (found tokens, tokens) : Reader α) >>= next) last :=
  fun tokens value left lexed ran => rest (found tokens) tokens value left lexed ran

theorem atMark {mark : Mark} {next : Bool → Reader β} {last : β → Prop}
    (rest : ∀ found, Gives (next found) last) : Gives (Reader.atMark mark >>= next) last :=
  look rest

theorem atKeyword {keyword : Keyword} {next : Bool → Reader β} {last : β → Prop}
    (rest : ∀ found, Gives (next found) last) : Gives (Reader.atKeyword keyword >>= next) last :=
  look rest

theorem atSemicolon {next : Bool → Reader β} {last : β → Prop}
    (rest : ∀ found, Gives (next found) last) : Gives (Reader.atSemicolon >>= next) last :=
  look rest

theorem atWrittenSemicolon {next : Bool → Reader β} {last : β → Prop}
    (rest : ∀ found, Gives (next found) last) : Gives (Reader.atWrittenSemicolon >>= next) last :=
  look rest

theorem advanced : Gives Reader.advance (fun _ => True) := by
  intro tokens token rest lexed ran
  obtain ⟨_, rfl⟩ := Prod.mk.inj (Except.ok.inj ran)
  exact ⟨trivial, tail_lexed lexed⟩

theorem expectMark {mark : Mark} {expected : Expected} :
    Gives (Reader.expectMark mark expected) (fun _ => True) := by
  refine atMark fun found => ?_
  cases found
  · exact refuse
  · exact advanced

theorem expectKeyword {keyword : Keyword} {expected : Expected} :
    Gives (Reader.expectKeyword keyword expected) (fun _ => True) := by
  refine atKeyword fun found => ?_
  cases found
  · exact refuse
  · exact advanced

theorem expectSemicolon {expected : Expected} :
    Gives (Reader.expectSemicolon expected) (fun _ => True) := by
  refine atSemicolon fun found => ?_
  cases found
  · exact refuse
  · exact advanced

theorem expectName {expected : Expected} : Gives (Reader.expectName expected) IsName := by
  refine peekWord fun word formed => ?_
  cases word with
  | identifier name => exact advance fun _ => .pure formed
  | _ => exact refuse

theorem skipSemicolons : Gives Reader.skipSemicolons (fun _ => True) := by
  intro tokens _ rest lexed ran
  obtain ⟨_, rfl⟩ := Prod.mk.inj (Except.ok.inj ran)
  exact ⟨trivial, fun token member => lexed token ((List.dropWhile_suffix _).subset member)⟩

theorem terminate : Gives Reader.terminate (fun _ => True) := by
  refine peekWord fun word _ => ?_
  split
  · exact advance fun _ => .pure trivial
  · exact .pure trivial
  · exact .pure trivial
  · exact refuse

theorem separate : Gives Reader.separate (fun _ => True) := by
  refine atMark fun found => ?_
  cases found
  · exact expectSemicolon.bind fun _ _ => skipSemicolons
  · exact skipSemicolons

theorem nested {depth : Nat} {inner : Nat → Reader α} (gives : ∀ depth, Gives (inner depth) post) :
    Gives (Reader.nested depth inner) post := by
  unfold Reader.nested
  split
  · exact peek fun _ _ => fail
  · exact gives _

end Gives

/-! ## Types -/

theorem formed_types {types : List Ty} : Formed.types types ↔ ∀ type ∈ types, Formed.type type := by
  induction types with
  | nil => simp [Formed.types]
  | cons type types ih => simp [Formed.types, ih]

theorem formed_ofName {name : String} (named : IsName name) : Formed.type (Ty.ofName name) := by
  unfold Ty.ofName
  split
  · exact trivial
  split
  · exact trivial
  split
  · exact trivial
  split
  · exact trivial
  · rename_i int float string bool
    refine ⟨named, ?_⟩
    simp only [Ty.ofName, int, float, string, bool, Bool.false_eq_true, if_false]

/-- An entry of a list of parameters. -/
def EntryFormed : Reader.Entry → Prop
  | .bare name => IsName name
  | .named name type => IsName name ∧ Formed.type type
  | .unnamed type => Formed.type type

/-- Parameters that all have names, or none. -/
structure ParamsFormed (params : List (Option String × Ty)) : Prop where
  names : ∀ param ∈ params, ∀ name, param.1 = some name → IsName name
  types : ∀ param ∈ params, Formed.type param.2
  same : (∀ param ∈ params, param.1.isSome) ∨ ∀ param ∈ params, param.1 = none

/-- Results that all have names, or none. -/
structure ResultsFormed (results : List Ty × List String) : Prop where
  types : Formed.types results.1
  names : ∀ name ∈ results.2, IsName name
  same : results.2 = [] ∨ results.2.length = results.1.length

theorem formed_spreadTypes {entries : List Reader.Entry} {waiting : List String}
    {params : List (Option String × Ty)} (formed : ∀ entry ∈ entries, EntryFormed entry)
    (names : ∀ name ∈ waiting, IsName name)
    (spread : Reader.spreadTypes waiting entries = some params) :
    ∀ param ∈ params, (∃ name, param.1 = some name ∧ IsName name) ∧ Formed.type param.2 := by
  induction entries generalizing waiting params with
  | nil =>
      unfold Reader.spreadTypes at spread
      split at spread
      · obtain rfl := Option.some.inj spread
        exact nofun
      · exact nomatch spread
  | cons entry entries ih =>
      obtain ⟨here, rest⟩ := List.forall_mem_cons.mp formed
      cases entry with
      | bare name =>
          exact ih rest (List.forall_mem_cons.mpr ⟨here, names⟩) spread
      | unnamed type => exact nomatch spread
      | named name type =>
          obtain ⟨others, spreadRest, same⟩ := Option.bind_eq_some_iff.mp spread
          obtain rfl := Option.some.inj same
          obtain ⟨isName, typed⟩ := here
          intro param member
          rcases List.mem_append.mp member with grouped | behind
          · obtain ⟨other, inside, rfl⟩ := List.mem_map.mp grouped
            refine ⟨⟨other, rfl, ?_⟩, typed⟩
            rcases List.mem_append.mp inside with before | last
            · exact names other (List.mem_reverse.mp before)
            · exact List.mem_singleton.mp last ▸ isName
          · exact ih rest (fun _ member => absurd member List.not_mem_nil) spreadRest param behind

theorem formed_groupEntries {entries : List Reader.Entry} {params : List (Option String × Ty)}
    (formed : ∀ entry ∈ entries, EntryFormed entry) (grouped : Reader.groupEntries entries = some params) :
    ParamsFormed params := by
  unfold Reader.groupEntries at grouped
  split at grouped
  · have all := formed_spreadTypes formed (fun _ member => absurd member List.not_mem_nil) grouped
    refine ⟨fun param member name same => ?_, fun param member => (all param member).2, Or.inl fun param member => ?_⟩
    · obtain ⟨⟨other, here, named⟩, _⟩ := all param member
      rw [same] at here
      exact Option.some.inj here ▸ named
    · obtain ⟨⟨other, here, _⟩, _⟩ := all param member
      rw [here]
      rfl
  · rename_i unnamed
    obtain rfl := Option.some.inj grouped
    refine ⟨fun param member name same => ?_, fun param member => ?_, Or.inr fun param member => ?_⟩
    · obtain ⟨entry, _, rfl⟩ := List.mem_map.mp member
      exact nomatch same
    · obtain ⟨entry, inside, rfl⟩ := List.mem_map.mp member
      have formedHere := formed entry inside
      cases entry with
      | bare name => exact formed_ofName formedHere
      | named name type => exact formedHere.2
      | unnamed type => exact formedHere
    · obtain ⟨entry, _, rfl⟩ := List.mem_map.mp member
      rfl

/-- What the readers of types give. -/
structure TypesRead (fuel : Nat) : Prop where
  type : Gives (Reader.type fuel) Formed.type
  parameters : Gives (Reader.parameters fuel) ParamsFormed
  entries : Gives (Reader.entries fuel) (fun entries => ∀ entry ∈ entries, EntryFormed entry)
  entry : Gives (Reader.entry fuel) EntryFormed
  results : Gives (Reader.results fuel) ResultsFormed

theorem ParamsFormed.results {params : List (Option String × Ty)} (formed : ParamsFormed params) :
    ResultsFormed (params.map (·.2), params.filterMap (·.1)) where
  types := formed_types.mpr fun type member => by
    obtain ⟨param, inside, rfl⟩ := List.mem_map.mp member
    exact formed.types param inside
  names name member := by
    obtain ⟨param, inside, same⟩ := List.mem_filterMap.mp member
    exact formed.names param inside name same
  same := by
    rcases formed.same with all | none
    · right
      induction params with
      | nil => rfl
      | cons param params ih =>
          obtain ⟨here, rest⟩ := List.forall_mem_cons.mp all
          obtain ⟨name, same⟩ := Option.isSome_iff_exists.mp here
          have others : ParamsFormed params :=
            ⟨fun param member => formed.names param (List.mem_cons_of_mem _ member),
              fun param member => formed.types param (List.mem_cons_of_mem _ member), Or.inl rest⟩
          rw [List.filterMap_cons_some same]
          simpa using ih others rest
    · left
      rw [List.filterMap_eq_nil_iff]
      exact none

theorem TypesRead.succ {fuel : Nat} (reads : TypesRead fuel) : TypesRead (fuel + 1) where
  type := by
    unfold Reader.type
    refine .peekWord fun word formed => ?_
    split
    · exact .advance fun _ => .pure (formed_ofName formed)
    -- The parameters of a function type give up their names.
    · refine .advance fun _ => reads.parameters.bind fun params isParams => ?_
      refine reads.results.bind fun results isResults => .pure ?_
      exact ⟨formed_types.mpr fun type member => by
        obtain ⟨param, inside, rfl⟩ := List.mem_map.mp member
        exact isParams.types param inside, isResults.types⟩
    · exact .advance fun _ => reads.type.bind fun _ formed => Gives.expectMark.bind fun _ _ => .pure formed
    · exact .refuse
  parameters := by
    unfold Reader.parameters
    refine Gives.expectMark.bind fun _ _ => reads.entries.bind fun entries formed => ?_
    refine Gives.expectMark.bind fun _ _ => ?_
    split
    · rename_i params grouped
      exact .pure (formed_groupEntries formed grouped)
    · exact .fail
  entries := by
    unfold Reader.entries
    refine .atMark fun found => ?_
    split
    · exact .pure nofun
    · refine reads.entry.bind fun first formed => .atMark fun found => ?_
      split
      · refine .advance fun _ => reads.entries.bind fun rest all => .pure ?_
        exact List.forall_mem_cons.mpr ⟨formed, all⟩
      · exact .pure (List.forall_mem_singleton.mpr formed)
  entry := by
    unfold Reader.entry
    refine .peekWord fun word formed => .peekSecond fun next => ?_
    split
    · exact .advance fun _ => .pure formed
    · exact .advance fun _ => .pure formed
    · exact .advance fun _ => reads.type.bind fun _ typed => .pure ⟨formed, typed⟩
    · exact .advance fun _ => reads.type.bind fun _ typed => .pure ⟨formed, typed⟩
    · exact .advance fun _ => reads.type.bind fun _ typed => .pure ⟨formed, typed⟩
    · exact reads.type.bind fun _ typed => .pure typed
  results := by
    unfold Reader.results
    refine .peekWord fun word formed => ?_
    split
    · exact reads.parameters.bind fun params isParams => .pure isParams.results
    · exact reads.type.bind fun type typed => .pure ⟨⟨typed, trivial⟩, nofun, Or.inl rfl⟩
    · exact reads.type.bind fun type typed => .pure ⟨⟨typed, trivial⟩, nofun, Or.inl rfl⟩
    · exact .pure ⟨trivial, nofun, Or.inl rfl⟩

theorem typesRead (fuel : Nat) : TypesRead fuel := by
  induction fuel with
  | zero => exact ⟨.exhausted, .exhausted, .exhausted, .exhausted, .exhausted⟩
  | succ fuel ih => exact ih.succ

theorem namedParameters_eq {params : List (Option String × Ty)} {named : List Parameter} :
    Reader.namedParameters params = some named ↔
      params = named.map fun param => (some param.name, param.type) := by
  unfold Reader.namedParameters
  induction params generalizing named with
  | nil => cases named <;> simp
  | cons param params ih =>
      obtain ⟨name?, type⟩ := param
      rw [List.mapM_cons]
      cases name? with
      | none => cases named <;> simp
      | some name =>
          cases named with
          | nil => simp [Option.bind_eq_some_iff]
          | cons first named =>
              obtain ⟨other, found⟩ := first
              simp only [Option.map_some, Option.pure_def, Option.bind_eq_bind, Option.bind_some,
                Option.bind_eq_some_iff, Option.some.injEq, List.cons.injEq, Parameter.mk.injEq,
                List.map_cons, Prod.mk.injEq, ← ih]
              constructor
              · rintro ⟨rest, read, same, rfl⟩
                exact ⟨same, read⟩
              · rintro ⟨same, read⟩
                exact ⟨named, read, same, rfl⟩

theorem signature_gives (fuel : Nat) : Gives (Reader.signature fuel) Formed.signature := by
  have reads := typesRead fuel
  unfold Reader.signature
  refine .peek fun _ _ => reads.parameters.bind fun params isParams => ?_
  split
  · exact .fail
  · rename_i named found
    have same := namedParameters_eq.mp found
    refine reads.results.bind fun results isResults => .pure ⟨fun param member => ?_, isResults.types,
      isResults.names, isResults.same⟩
    have inside : (some param.name, param.type) ∈ params := by
      rw [same]
      exact List.mem_map.mpr ⟨param, member, rfl⟩
    exact ⟨isParams.names _ inside _ rfl, isParams.types _ inside⟩

end MiniGo.Syntax
