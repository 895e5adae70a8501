import MiniGo.Proofs.Syntax.Chains
import MiniGo.Proofs.Syntax.Entries
import MiniGo.Proofs.Syntax.Reading

/-!
# Lists of parameters

An entry of a list in parentheses is a lone name, a name with a type behind it, or another type; a function type has
a list of its own inside. `ListTokens` says which tokens are a list, without the reader. A list is read as its types
if no entry has both a name and a type; else each lone name has the type of the next named entry, unless some entry
is a type or the last is a lone name (`parameters_grouped`).
-/

namespace MiniGo.Syntax

open Reader (Entry)

variable {α β : Type} {fuel : Nat} {tokens read rest : List Token} {entries : List Entry}

/-! ## Tokens -/

mutual

/-- The tokens of a type: a name, a type in parentheses, or the keyword of functions with a list and results. -/
inductive TypeTokens : List Token → Ty → Prop where
  | name {token : Token} {name : String} : token.word = .identifier name → TypeTokens [token] (Ty.ofName name)
  | inParens {opening closing : Token} {inner : List Token} {found : Ty} : opening.word = .mark .leftParen →
      TypeTokens inner found → closing.word = .mark .rightParen → TypeTokens (opening :: (inner ++ [closing])) found
  | func {keyword : Token} {front behind : List Token} {entries : List Entry} {params : List (Option String × Ty)}
      {results : List Ty × List String} : keyword.word = .keyword .funcWord → ListTokens front entries →
      StandFor entries params → ResultsTokens behind results →
      TypeTokens (keyword :: (front ++ behind)) (.func ⟨params.map (·.2), results.1⟩)

/-- The tokens of an entry: a lone name, a name with a type behind it, or a type that is no lone name. -/
inductive EntryTokens : List Token → Entry → Prop where
  | bare {token : Token} {name : String} : token.word = .identifier name → EntryTokens [token] (.bare name)
  | named {token : Token} {name : String} {tokens : List Token} {found : Ty} : token.word = .identifier name →
      TypeTokens tokens found → EntryTokens (token :: tokens) (.named name found)
  | unnamed {tokens : List Token} {found : Ty} : TypeTokens tokens found → (∀ token, tokens ≠ [token]) →
      EntryTokens tokens (.unnamed found)

/-- The tokens of entries with commas between them; one more comma may stand behind the last. -/
inductive EntriesTokens : List Token → List Entry → Prop where
  | nil : EntriesTokens [] []
  | last {tokens : List Token} {entry : Entry} : EntryTokens tokens entry → EntriesTokens tokens [entry]
  | more {tokens others : List Token} {comma : Token} {entry : Entry} {entries : List Entry} :
      EntryTokens tokens entry → comma.word = .mark .comma → EntriesTokens others entries →
      EntriesTokens (tokens ++ comma :: others) (entry :: entries)

/-- The tokens of a list: entries in parentheses. -/
inductive ListTokens : List Token → List Entry → Prop where
  | inParens {opening closing : Token} {inner : List Token} {entries : List Entry} :
      opening.word = .mark .leftParen → EntriesTokens inner entries → closing.word = .mark .rightParen →
      ListTokens (opening :: (inner ++ [closing])) entries

/-- The tokens of results, and their names: nothing, one type that has no parenthesis in front, or a list. -/
inductive ResultsTokens : List Token → List Ty × List String → Prop where
  | nothing : ResultsTokens [] ([], [])
  | single {tokens : List Token} {found : Ty} : TypeTokens tokens found →
      (Reader.head tokens).word ≠ .mark .leftParen → ResultsTokens tokens ([found], [])
  | list {tokens : List Token} {entries : List Entry} {params : List (Option String × Ty)} :
      ListTokens tokens entries → StandFor entries params →
      ResultsTokens tokens (params.map (·.2), params.filterMap (·.1))

end

theorem ListTokens.ne_nil (list : ListTokens read entries) : read ≠ [] := by
  cases list with
  | inParens _ _ _ => exact List.cons_ne_nil _ _

theorem TypeTokens.begins {found : Ty} (type : TypeTokens read found) : ∃ token others, read = token :: others ∧
    ((∃ name, token.word = .identifier name ∧ others = []) ∨
      (token.word = .keyword .funcWord ∨ token.word = .mark .leftParen) ∧ others ≠ []) := by
  cases type with
  | name word => exact ⟨_, _, rfl, .inl ⟨_, word, rfl⟩⟩
  | inParens word _ _ => exact ⟨_, _, rfl, .inr ⟨.inr word, by simp⟩⟩
  | func word list _ _ => exact ⟨_, _, rfl, .inr ⟨.inl word, List.append_ne_nil_of_left_ne_nil list.ne_nil _⟩⟩

theorem second_of_endsEntry {token : Token} (ends : endsEntry (Reader.head rest).word = true) :
    Reader.second ([token] ++ rest) = Reader.head rest := by
  cases rest with
  | nil => cases ends
  | cons next others => rfl

theorem EntryTokens.begins {entry : Entry} (found : EntryTokens read entry) :
    isMark .rightParen (Reader.head (read ++ rest)).word = false := by
  cases found with
  | @bare token _ word | @named token _ _ _ word _ =>
      change isMark .rightParen token.word = false
      rw [word]
      rfl
  | unnamed type _ =>
      obtain ⟨token, others, rfl, begins⟩ := type.begins
      change isMark .rightParen token.word = false
      rcases begins with ⟨name, word, _⟩ | ⟨word | word, _⟩ <;> rw [word] <;> rfl

/-! ## Lists are read -/

/-- A reader gives a value for these tokens and leaves what stands behind them, unless it runs out of fuel. -/
def Consumes (reader : Reader α) (read : List Token) (value : α) (rest : List Token) : Prop :=
  Yields reader (read ++ rest) fun found left => found = value ∧ left = rest

theorem Consumes.bind {reader : Reader α} {next : α → Reader β} {value : α} {final : β → List Token → Prop}
    (first : Consumes reader read value rest) (others : Yields (next value) rest final) :
    Yields (reader >>= next) (read ++ rest) final := by
  refine Yields.bind first ?_
  rintro _ _ ⟨rfl, rfl⟩
  exact others

/-- What has the form is read, with some fuel. -/
structure ListsRead (fuel : Nat) : Prop where
  type : ∀ {read found rest}, TypeTokens read found → endsType (Reader.head rest).word = true →
    Consumes (Reader.type fuel) read found rest
  parameters : ∀ {read entries params rest}, ListTokens read entries → StandFor entries params →
    Consumes (Reader.parameters fuel) read params rest
  entries : ∀ {read entries rest}, EntriesTokens read entries → (Reader.head rest).word = .mark .rightParen →
    Consumes (Reader.entries fuel) read entries rest
  entry : ∀ {read entry rest}, EntryTokens read entry → endsEntry (Reader.head rest).word = true →
    Consumes (Reader.entry fuel) read entry rest
  results : ∀ {read results rest}, ResultsTokens read results → endsType (Reader.head rest).word = true →
    Consumes (Reader.results fuel) read results rest

namespace ListsRead

variable (reads : ListsRead fuel)
include reads

theorem type_succ {found : Ty} (type : TypeTokens read found) (ends : endsType (Reader.head rest).word = true) :
    Consumes (Reader.type (fuel + 1)) read found rest := by
  unfold Reader.type
  refine .peekWord ?_
  cases type with
  | @name token name word =>
      rw [List.singleton_append, head_cons, word]
      exact .advance (word ▸ ne_end rfl) (.pure ⟨rfl, rfl⟩)
  | @inParens opening closing inner found word inside closes =>
      rw [List.cons_append, head_cons, word, List.append_assoc]
      refine .advance (word ▸ ne_end rfl) ?_
      have stops : endsType (Reader.head ([closing] ++ rest)).word = true := by
        change endsType closing.word = true
        rw [closes]
        rfl
      exact (reads.type inside stops).bind (.expectMark closes (.pure ⟨rfl, rfl⟩))
  | @func keyword front behind entries params results word list stand given =>
      rw [List.cons_append, head_cons, word, List.append_assoc]
      refine .advance (word ▸ ne_end rfl) ?_
      exact (reads.parameters list stand).bind ((reads.results given ends).bind (.pure ⟨rfl, rfl⟩))

/-- A list is read as its entries are grouped, and refused at its parenthesis if they cannot be. -/
theorem parameters_list (list : ListTokens read entries) :
    Reader.parameters (fuel + 1) (read ++ rest) = .error .exhausted ∨
      Reader.parameters (fuel + 1) (read ++ rest) = match Reader.groupEntries entries with
        | some params => .ok (params, rest)
        | none => .error (.error (.invalid .mixedParameters (Reader.head read).location)) := by
  cases list with
  | @inParens opening closing inner _ opens inside closes =>
      have stops : (Reader.head ([closing] ++ rest)).word = .mark .rightParen := closes
      unfold Reader.parameters
      rw [List.cons_append, List.append_assoc, bind_of_ok (expectMark_ok opens)]
      rcases reads.entries inside stops with stopped | ⟨_, _, gave, rfl, rfl⟩
      · exact Or.inl (bind_of_error stopped)
      · right
        rw [bind_of_ok gave, List.singleton_append, bind_of_ok (expectMark_ok closes)]
        cases Reader.groupEntries _ <;> rfl

theorem parameters_succ {params : List (Option String × Ty)} (list : ListTokens read entries)
    (stand : StandFor entries params) : Consumes (Reader.parameters (fuel + 1)) read params rest := by
  rcases reads.parameters_list list with stopped | gave
  · exact Or.inl stopped
  · rw [groupEntries_eq_some.mpr stand] at gave
    exact Or.inr ⟨params, rest, gave, rfl, rfl⟩

theorem entries_succ (form : EntriesTokens read entries) (ends : (Reader.head rest).word = .mark .rightParen) :
    Consumes (Reader.entries (fuel + 1)) read entries rest := by
  unfold Reader.entries
  refine .atMark ?_
  have stops : endsEntry (Reader.head rest).word = true := by
    rw [ends]
    rfl
  cases form with
  | nil =>
      rw [List.nil_append, ends]
      exact .pure ⟨rfl, rfl⟩
  | last first =>
      rw [first.begins]
      refine (reads.entry first stops).bind (.atMark ?_)
      rw [ends]
      exact .pure ⟨rfl, rfl⟩
  | @more tokens others comma entry entries first word later =>
      -- The results of a function type would go on with a type, and the comma is none.
      have between : endsEntry (Reader.head (comma :: others ++ rest)).word = true := by
        change endsEntry comma.word = true
        rw [word]
        rfl
      rw [List.append_assoc, first.begins]
      refine (reads.entry first between).bind (.atMark ?_)
      rw [List.cons_append, head_cons, word]
      exact .advance (word ▸ ne_end rfl) ((reads.entries later ends).bind (.pure ⟨rfl, rfl⟩))

theorem entry_succ {entry : Entry} (form : EntryTokens read entry) (ends : endsEntry (Reader.head rest).word = true) :
    Consumes (Reader.entry (fuel + 1)) read entry rest := by
  unfold Reader.entry
  refine .peekWord (.peekSecond ?_)
  cases form with
  | @bare token name word =>
      have bare : Yields (do
          let _ ← Reader.advance
          pure (Entry.bare name)) (token :: rest) fun found left => found = .bare name ∧ left = rest :=
        .advance (word ▸ ne_end rfl) (.pure ⟨rfl, rfl⟩)
      rw [second_of_endsEntry ends, List.singleton_append, head_cons, word]
      rcases word_of_endsEntry ends with comma | closing
      · rw [comma]
        exact bare
      · rw [closing]
        exact bare
  | @named token name tokens found word type =>
      have named : Yields (do
          let _ ← Reader.advance
          let type ← Reader.type fuel
          pure (Entry.named name type)) (token :: tokens ++ rest) fun entry left =>
            entry = .named name found ∧ left = rest :=
        .advance (word ▸ ne_end rfl) ((reads.type type (endsType_of_endsEntry ends)).bind (.pure ⟨rfl, rfl⟩))
      obtain ⟨first, others, rfl, begins⟩ := type.begins
      have second : Reader.second (token :: first :: others ++ rest) = first := rfl
      rw [second, List.cons_append, head_cons, word]
      -- A type begins with a name or with one of two words; none of them ends an entry.
      rcases begins with ⟨_, begins, _⟩ | ⟨begins | begins, _⟩
      all_goals
        rw [begins]
        exact named
  | @unnamed _ found type other =>
      have unnamed : Yields (do
          let type ← Reader.type fuel
          pure (Entry.unnamed type)) (read ++ rest) fun entry left => entry = .unnamed found ∧ left = rest :=
        (reads.type type (endsType_of_endsEntry ends)).bind (.pure ⟨rfl, rfl⟩)
      obtain ⟨first, others, rfl, begins⟩ := type.begins
      rw [List.cons_append, head_cons]
      rcases begins with ⟨_, _, rfl⟩ | ⟨begins | begins, _⟩
      · exact absurd rfl (other first)
      all_goals
        rw [begins]
        exact unnamed

theorem results_succ {results : List Ty × List String} (form : ResultsTokens read results)
    (ends : endsType (Reader.head rest).word = true) : Consumes (Reader.results (fuel + 1)) read results rest := by
  unfold Reader.results
  refine .peekWord ?_
  cases form with
  | nothing =>
      rw [List.nil_append]
      -- What ends a type begins none.
      split
      case h_4 => exact .pure ⟨rfl, rfl⟩
      all_goals
        rename_i word
        rw [word] at ends
        cases ends
  | @single tokens found type other =>
      have single : Yields (do
          let result ← Reader.type fuel
          pure ([result], ([] : List String))) (read ++ rest) fun results left =>
            results = ([found], []) ∧ left = rest :=
        (reads.type type ends).bind (.pure ⟨rfl, rfl⟩)
      obtain ⟨first, others, rfl, begins⟩ := type.begins
      rw [List.cons_append, head_cons]
      rcases begins with ⟨_, begins, _⟩ | ⟨begins | begins, _⟩
      · rw [begins]
        exact single
      · rw [begins]
        exact single
      · exact absurd begins other
  | @list tokens entries params list stand =>
      have given : Yields (do
          let params ← Reader.parameters fuel
          pure (params.map (·.2), params.filterMap (·.1))) (read ++ rest) fun results left =>
            results = (params.map (·.2), params.filterMap (·.1)) ∧ left = rest :=
        (reads.parameters list stand).bind (.pure ⟨rfl, rfl⟩)
      cases list with
      | @inParens opening closing inner _ opens _ _ =>
          rw [List.cons_append, head_cons, opens]
          exact given

end ListsRead

theorem listsRead (fuel : Nat) : ListsRead fuel := by
  induction fuel with
  | zero => exact ⟨fun _ _ => .exhausted, fun _ _ => .exhausted, fun _ _ => .exhausted, fun _ _ => .exhausted,
      fun _ _ => .exhausted⟩
  | succ fuel ih =>
      exact ⟨ih.type_succ, ih.parameters_succ, ih.entries_succ, ih.entry_succ, ih.results_succ⟩

/-! ## What is read is a list -/

/-- What a reader takes in front of tokens has a form, if it gives a result. -/
def Took (reader : Reader α) (tokens : List Token) (form : List Token → α → List Token → Prop) : Prop :=
  ∀ value left, reader tokens = .ok (value, left) → ∃ read, tokens = read ++ left ∧ form read value left

namespace Took

variable {form : List Token → α → List Token → Prop} {last : List Token → β → List Token → Prop}

theorem pure {value : α} (holds : form [] value tokens) : Took (Pure.pure value) tokens form := by
  rintro _ _ ⟨⟩
  exact ⟨[], rfl, holds⟩

theorem exhausted : Took Reader.exhausted tokens form := nofun

theorem refuse {expected : Expected} : Took (Reader.refuse expected) tokens form := nofun

theorem fail {error : SyntaxError} : Took (Reader.fail error) tokens form := nofun

theorem bind {reader : Reader α} {next : α → Reader β} (first : Took reader tokens form)
    (others : ∀ read value left, tokens = read ++ left → form read value left →
      Took (next value) left fun more => last (read ++ more)) : Took (reader >>= next) tokens last := by
  intro value left ran
  obtain ⟨found, behind, gave, again⟩ := bind_ok ran
  obtain ⟨read, split, holds⟩ := first found behind gave
  obtain ⟨more, rfl, whole⟩ := others read found behind split holds value left again
  exact ⟨read ++ more, by rw [split, List.append_assoc], whole⟩

theorem peekWord {next : Word → Reader β} (others : Took (next (Reader.head tokens).word) tokens last) :
    Took (Reader.peekWord >>= next) tokens last := others

theorem peekSecond {next : Word → Reader β} (others : Took (next (Reader.second tokens).word) tokens last) :
    Took (Reader.peekSecond >>= next) tokens last := others

theorem atMark {mark : Mark} {next : Bool → Reader β}
    (others : Took (next (isMark mark (Reader.head tokens).word)) tokens last) :
    Took (Reader.atMark mark >>= next) tokens last := others

theorem advanced (inner : (Reader.head tokens).word ≠ .endOfInput) :
    Took Reader.advance tokens fun read token _ => read = [token] ∧ token = Reader.head tokens := by
  rintro _ _ ⟨⟩
  cases tokens with
  | nil => exact absurd rfl inner
  | cons token tokens => exact ⟨[token], congrArg (token :: ·) (tail_of_word inner).symm, rfl, rfl⟩

theorem advance {next : Token → Reader β} (inner : (Reader.head tokens).word ≠ .endOfInput)
    (others : ∀ token left, tokens = token :: left → Took (next token) left fun more => last (token :: more)) :
    Took (Reader.advance >>= next) tokens last := by
  refine (advanced inner).bind ?_
  rintro _ token left split ⟨rfl, _⟩
  exact others token left split

theorem expectMark {mark : Mark} {expected : Expected} {next : Token → Reader β}
    (others : ∀ token left, tokens = token :: left → token.word = .mark mark →
      Took (next token) left fun more => last (token :: more)) :
    Took (Reader.expectMark mark expected >>= next) tokens last := by
  have taken : Took (Reader.expectMark mark expected) tokens fun read token _ =>
      read = [token] ∧ token.word = .mark mark := by
    refine atMark ?_
    cases word : (Reader.head tokens).word with
    | mark sign =>
        rw [isMark]
        cases same : sign == mark with
        | true =>
            obtain rfl := beq_iff_eq.mp same
            intro token left ran
            obtain ⟨read, split, single, here⟩ := advanced (word ▸ ne_end rfl) token left ran
            exact ⟨read, split, single, here ▸ word⟩
        | false => exact refuse
    | _ => exact refuse
  refine taken.bind ?_
  rintro _ token left split ⟨rfl, word⟩
  exact others token left split word

end Took

/-- What is read has the form, with some fuel. A name alone is read as a type in front of any other word than those
that end an entry, so an entry has the form only if one of these stands behind it. -/
structure ListsTaken (fuel : Nat) : Prop where
  type : ∀ {tokens}, Took (Reader.type fuel) tokens fun read found _ => TypeTokens read found
  parameters : ∀ {tokens}, Took (Reader.parameters fuel) tokens fun read params _ =>
    ∃ entries, ListTokens read entries ∧ StandFor entries params
  entries : ∀ {tokens}, Took (Reader.entries fuel) tokens fun read entries left =>
    (Reader.head left).word = .mark .rightParen → EntriesTokens read entries
  entry : ∀ {tokens}, Took (Reader.entry fuel) tokens fun read entry left =>
    endsEntry (Reader.head left).word = true → EntryTokens read entry
  results : ∀ {tokens}, Took (Reader.results fuel) tokens fun read results _ => ResultsTokens read results

namespace ListsTaken

variable (takes : ListsTaken fuel)
include takes

theorem type_succ : Took (Reader.type (fuel + 1)) tokens fun read found _ => TypeTokens read found := by
  unfold Reader.type
  refine .peekWord ?_
  split
  · rename_i name word
    refine .advance (word ▸ ne_end rfl) fun token left split => .pure (.name ?_)
    rw [← word, split]
    rfl
  · rename_i word
    refine .advance (word ▸ ne_end rfl) fun keyword left split => ?_
    refine takes.parameters.bind fun front params _ _ list => ?_
    refine takes.results.bind fun behind results _ _ given => .pure ?_
    obtain ⟨entries, list, stand⟩ := list
    rw [List.append_nil]
    refine .func ?_ list stand given
    rw [← word, split]
    rfl
  · rename_i word
    refine .advance (word ▸ ne_end rfl) fun opening left split => ?_
    refine takes.type.bind fun inner found _ _ type => .expectMark fun closing _ _ closes => .pure ?_
    refine .inParens ?_ type closes
    rw [← word, split]
    rfl
  · exact .refuse

theorem parameters_succ : Took (Reader.parameters (fuel + 1)) tokens fun read params _ =>
    ∃ entries, ListTokens read entries ∧ StandFor entries params := by
  unfold Reader.parameters
  refine .expectMark fun opening _ _ opens => takes.entries.bind fun inner entries rest _ form => ?_
  refine .expectMark fun closing left split closes => ?_
  rw [split] at form
  split
  · rename_i params grouped
    exact .pure ⟨entries, .inParens opens (form closes) closes, groupEntries_eq_some.mp grouped⟩
  · exact .fail

theorem entries_succ : Took (Reader.entries (fuel + 1)) tokens fun read entries left =>
    (Reader.head left).word = .mark .rightParen → EntriesTokens read entries := by
  unfold Reader.entries
  refine .atMark ?_
  split
  · exact .pure fun _ => .nil
  · refine takes.entry.bind fun read first rest _ form => .atMark ?_
    split
    · rename_i comma
      have word := word_of_isMark comma
      refine .advance (word ▸ ne_end rfl) fun comma left split => ?_
      refine takes.entries.bind fun more others _ _ later => .pure fun closes => ?_
      rw [List.append_nil]
      subst split
      refine .more (form ?_) word (later closes)
      rw [word]
      rfl
    · refine .pure fun closes => ?_
      rw [List.append_nil]
      refine .last (form ?_)
      rw [closes]
      rfl

theorem entry_succ : Took (Reader.entry (fuel + 1)) tokens fun read entry left =>
    endsEntry (Reader.head left).word = true → EntryTokens read entry := by
  unfold Reader.entry
  refine .peekWord (.peekSecond ?_)
  have named : ∀ {name}, (Reader.head tokens).word = .identifier name →
      Took (do
        let _ ← Reader.advance
        let type ← Reader.type fuel
        pure (Entry.named name type)) tokens fun read entry left =>
          endsEntry (Reader.head left).word = true → EntryTokens read entry := by
    intro name word
    refine .advance (word ▸ ne_end rfl) fun token left split => ?_
    refine takes.type.bind fun read found _ _ type => .pure fun _ => ?_
    rw [List.append_nil]
    subst split
    exact .named word type
  have bare : ∀ {name}, (Reader.head tokens).word = .identifier name →
      Took (do
        let _ ← Reader.advance
        pure (Entry.bare name)) tokens fun read entry left =>
          endsEntry (Reader.head left).word = true → EntryTokens read entry := by
    intro name word
    refine .advance (word ▸ ne_end rfl) fun token left split => .pure fun _ => ?_
    subst split
    exact .bare word
  split
  · rename_i word _
    exact bare word
  · rename_i word _
    exact bare word
  · rename_i word _
    exact named word
  · rename_i word _
    exact named word
  · rename_i word _
    exact named word
  · rename_i comma closing _ _ _
    refine takes.type.bind fun read found left split type => .pure fun ends => ?_
    rw [List.append_nil]
    refine .unnamed type ?_
    -- A lone name in front of the end of an entry has one of the forms above.
    rintro token rfl
    subst split
    obtain ⟨_, _, ⟨⟩, ⟨name, word, _⟩ | ⟨_, more⟩⟩ := type.begins
    · have second := @second_of_endsEntry left token ends
      rcases word_of_endsEntry ends with here | here
      · exact comma name word (second ▸ here)
      · exact closing name word (second ▸ here)
    · exact more rfl

theorem results_succ : Took (Reader.results (fuel + 1)) tokens fun read results _ => ResultsTokens read results := by
  unfold Reader.results
  refine .peekWord ?_
  have single : (Reader.head tokens).word ≠ .mark .leftParen → Took (do
      let result ← Reader.type fuel
      pure ([result], ([] : List String))) tokens fun read results _ => ResultsTokens read results := by
    intro other
    refine takes.type.bind fun read found left split type => .pure ?_
    obtain ⟨first, more, rfl, _⟩ := type.begins
    rw [List.append_nil]
    subst split
    exact .single type other
  split
  · refine takes.parameters.bind fun read params _ _ list => .pure ?_
    obtain ⟨entries, list, stand⟩ := list
    rw [List.append_nil]
    exact .list list stand
  · rename_i word
    exact single (word ▸ nofun)
  · rename_i word
    exact single (word ▸ nofun)
  · exact .pure .nothing

end ListsTaken

theorem listsTaken (fuel : Nat) : ListsTaken fuel := by
  induction fuel with
  | zero => exact ⟨.exhausted, .exhausted, .exhausted, .exhausted, .exhausted⟩
  | succ fuel ih => exact ⟨ih.type_succ, ih.parameters_succ, ih.entries_succ, ih.entry_succ, ih.results_succ⟩

/-! ## Reading a list -/

theorem parameters_of_list (list : ListTokens read entries) (enough : 16 * (read ++ rest).length + 1 ≤ fuel) :
    Reader.parameters fuel (read ++ rest) = match Reader.groupEntries entries with
      | some params => .ok (params, rest)
      | none => .error (.error (.invalid .mixedParameters (Reader.head read).location)) := by
  obtain ⟨fuel, rfl⟩ : ∃ less, fuel = less + 1 := ⟨fuel - 1, by omega⟩
  have advances : Advances 0 1 (Reader.parameters (fuel + 1)) (read ++ rest) := (typesAdvance _).parameters _ enough
  rcases (listsRead fuel).parameters_list list with stopped | gave
  · unfold Advances at advances
    rw [stopped] at advances
    exact advances.elim
  · exact gave

/-- What is read as a list is a list of entries. It is read as their types if none of them has both a name and a type.
Else it is refused if and only if it is mixed, and otherwise each lone name has the type of the next named entry: the
list with these types written out gives the same parameters. -/
theorem parameters_grouped (enough : 16 * tokens.length + 1 ≤ fuel) :
    (∀ params left, Reader.parameters fuel tokens = .ok (params, left) →
      ∃ read entries, tokens = read ++ left ∧ ListTokens read entries) ∧
    ∀ read left entries, tokens = read ++ left → ListTokens read entries →
      (entries.any Entry.isNamed = false →
        Reader.parameters fuel tokens = .ok (entries.map fun entry => (none, entry.type), left)) ∧
      (entries.any Entry.isNamed = true →
        (Reader.parameters fuel tokens = .error (.error (.invalid .mixedParameters (Reader.head tokens).location)) ↔
          Mixed entries) ∧
        Flaw.text .mixedParameters = "mixed named and unnamed parameters" ∧
        (¬ Mixed entries → ∃ params, Reader.parameters fuel tokens = .ok (withNames params, left) ∧
          Spread entries params ∧
          ∀ others rest again, ListTokens others (params.map fun param => .named param.1 param.2) →
            16 * (others ++ rest).length + 1 ≤ again →
            Reader.parameters again (others ++ rest) = .ok (withNames params, rest))) := by
  refine ⟨fun params left gave => ?_, ?_⟩
  · obtain ⟨read, split, entries, list, _⟩ := (listsTaken fuel).parameters params left gave
    exact ⟨read, entries, split, list⟩
  rintro read left entries rfl list
  have run := parameters_of_list list enough
  have head : Reader.head (read ++ left) = Reader.head read := by
    cases list with
    | inParens _ _ _ => rfl
  -- No entry has a name with a type, the list is mixed, or its types are spread.
  refine ⟨fun plain => ?_, fun named => ⟨?_, rfl, fun unmixed => ?_⟩⟩
  · rw [run, groupEntries_eq_some.mpr (standFor_of_plain plain)]
  · rw [run, head, ← groupEntries_eq_none named]
    cases Reader.groupEntries entries <;> simp
  · obtain ⟨params, spread⟩ := spread_of_not_mixed unmixed
    refine ⟨params, ?_, spread, fun others rest again list enough => ?_⟩
    · rw [run, groupEntries_eq_some.mpr (spread.standFor named)]
    · have written : List.Forall₂ IsNamed params (params.map fun param => .named param.1 param.2) :=
        List.forall₂_map_right_iff.mpr (List.forall₂_same.mpr fun _ _ => rfl)
      rw [parameters_of_list list enough, groups_named written]
      rfl

def nameAt (column : Nat) (name : String) : Token := ⟨.identifier name, name, ⟨1, column⟩⟩

def markAt (column : Nat) (mark : Mark) (text : String) : Token := ⟨.mark mark, text, ⟨1, column⟩⟩

/-- The tokens of `func(int) bool`, with a column in front. -/
def functionTokens (column : Nat) : List Token :=
  [⟨.keyword .funcWord, "func", ⟨1, column + 1⟩⟩, markAt (column + 5) .leftParen "(", nameAt (column + 6) "int",
   markAt (column + 9) .rightParen ")", nameAt (column + 11) "bool"]

/-- The tokens of `(a, b int, f func(int) bool)`. -/
def groupedTokens : List Token :=
  markAt 1 .leftParen "(" :: (nameAt 2 "a" :: markAt 3 .comma "," :: nameAt 5 "b" :: nameAt 7 "int"
    :: markAt 10 .comma "," :: nameAt 12 "f" :: functionTokens 13 ++ [markAt 28 .rightParen ")"])

/-- The tokens of `(a int, b int, f func(int) bool)`. -/
def writtenTokens : List Token :=
  markAt 1 .leftParen "(" :: (nameAt 2 "a" :: nameAt 4 "int" :: markAt 7 .comma "," :: nameAt 9 "b" :: nameAt 11 "int"
    :: markAt 14 .comma "," :: nameAt 16 "f" :: functionTokens 17 ++ [markAt 32 .rightParen ")"])

def groupedParams : List (String × Ty) := [("a", .int), ("b", .int), ("f", .func ⟨[.int], [.bool]⟩)]

/-- The entries of the first list. -/
def groupedEntries : List Entry := [.bare "a", .named "b" .int, .named "f" (.func ⟨[.int], [.bool]⟩)]

theorem int_tokens (column : Nat) : TypeTokens [nameAt column "int"] .int :=
  @TypeTokens.name (nameAt column "int") "int" rfl

theorem function_tokens (column : Nat) : TypeTokens (functionTokens column) (.func ⟨[.int], [.bool]⟩) := by
  have list : ListTokens [markAt (column + 5) .leftParen "(", nameAt (column + 6) "int",
      markAt (column + 9) .rightParen ")"] [.bare "int"] := .inParens rfl (.last (.bare rfl)) rfl
  have stand : StandFor [.bare "int"] [(none, Ty.ofName "int")] := standFor_of_plain rfl
  have bool : TypeTokens [nameAt (column + 11) "bool"] (Ty.ofName "bool") := .name rfl
  exact .func rfl list stand (.single bool nofun)

theorem groupedTokens_list : ListTokens groupedTokens groupedEntries :=
  .inParens rfl (.more (.bare rfl) rfl
    (.more (.named rfl (int_tokens 7)) rfl (.last (.named rfl (function_tokens 13))))) rfl

theorem writtenTokens_list : ListTokens writtenTokens (groupedParams.map fun param => .named param.1 param.2) :=
  .inParens rfl (.more (.named rfl (int_tokens 4)) rfl
    (.more (.named rfl (int_tokens 11)) rfl (.last (.named rfl (function_tokens 17))))) rfl

theorem groupedEntries_spread : Spread groupedEntries groupedParams := .cons rfl (.cons rfl (.cons rfl .nil))

theorem parameters_grouped_nested :
    16 * groupedTokens.length + 1 ≤ Reader.fuelFor groupedTokens ∧ ListTokens groupedTokens groupedEntries ∧
    groupedEntries.any Entry.isNamed = true ∧ ¬ Mixed groupedEntries ∧
    ListTokens writtenTokens (groupedParams.map fun param => .named param.1 param.2) ∧
    16 * (writtenTokens ++ []).length + 1 ≤ Reader.fuelFor writtenTokens ∧
    Reader.parameters (Reader.fuelFor groupedTokens) groupedTokens = .ok (withNames groupedParams, []) ∧
    Reader.parameters (Reader.fuelFor writtenTokens) (writtenTokens ++ []) = .ok (withNames groupedParams, []) := by
  have enough : 16 * groupedTokens.length + 1 ≤ Reader.fuelFor groupedTokens := by decide
  have more : 16 * (writtenTokens ++ []).length + 1 ≤ Reader.fuelFor writtenTokens := by decide
  have unmixed := groupedEntries_spread.not_mixed
  obtain ⟨_, reads⟩ := parameters_grouped enough
  obtain ⟨_, _, gives⟩ := (reads groupedTokens [] groupedEntries (List.append_nil _).symm groupedTokens_list).2 rfl
  obtain ⟨params, gave, spread, same⟩ := gives unmixed
  obtain rfl := groupedEntries_spread.unique spread
  exact ⟨enough, groupedTokens_list, rfl, unmixed, writtenTokens_list, more, gave,
    same writtenTokens [] _ writtenTokens_list more⟩

end MiniGo.Syntax
