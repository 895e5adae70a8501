import MiniGo.Proofs.Syntax.ScriptedReaders
import MiniGo.Proofs.Syntax.Thrift
import MiniGo.Proofs.Tokens.Marks

/-!
# Reading with a cursor

The readers take tokens from the front of a list. Here the same scripts move a cursor along the tokens, as an index
that only grows: `advance?` moves it on unless the end of the input is ahead, and gives the token it has passed. A
cursor keeps a record of what was looked at, of each advance, and of each call with the calls around it. On tokens
that end with their only end of the input, a file is read in the way of the readers, and the record shows
progress (`reading_progresses`).
-/

namespace MiniGo.Syntax

/-! ## Cursors -/

/-- A routine at work, and the index of the token that was ahead when it started. -/
structure Activation where
  routine : Routine
  index : Nat
deriving DecidableEq, Repr

/-- What is done with a cursor: a look at the token ahead and the one behind it, an advance, and a call inside
others, the innermost first. -/
inductive Event where
  | looked (current : Nat)
  | advanced (before after : Nat)
  | called (call : Activation) (around : List Activation)
deriving DecidableEq, Repr

/-- A place among the tokens, and what was done so far, the latest first. -/
structure Cursor where
  current : Nat
  events : List Event
deriving DecidableEq, Repr

/-- In front of all tokens, and nothing done. -/
def Cursor.start : Cursor := ⟨0, []⟩

def Cursor.log (cursor : Cursor) (event : Event) : Cursor := { cursor with events := event :: cursor.events }

/-- Why reading with a cursor stops: an error in the text, a bound on the calls, or an index that no token has. -/
inductive Fault where
  | error (error : SyntaxError)
  | exhausted
  | outside

/-- The token at an index; the last token stands for those behind it. -/
def tokenAt? (tokens : List Token) (index : Nat) : Option Token := tokens[min index (tokens.length - 1)]?

/-- Moves on, unless the end of the input is ahead, and gives the token in front of the place that is reached. -/
def advance? (tokens : List Token) (current : Nat) : Option (Token × Nat) := do
  let ahead ← tokenAt? tokens current
  let after := if isEnd ahead.word then current else current + 1
  match after with
  | 0 => none
  | passed + 1 => do
      let token ← tokens[passed]?
      pure (token, after)

/-- Reading with a cursor. -/
abbrev Walk (α : Type) := Cursor → Except Fault α × Cursor

/-- Goes through a script with a cursor; `below` reads by the routines. -/
def Script.walk {α : Type} (tokens : List Token) (below : (routine : Routine) → routine.Args → Walk routine.Result) :
    Script α → Walk α
  | done value, cursor => (.ok value, cursor)
  | stop error, cursor => (.error (.error error), cursor)
  | look next, cursor =>
      match tokenAt? tokens cursor.current, tokenAt? tokens (cursor.current + 1) with
      | some token, some second => (next token second).walk tokens below (cursor.log (.looked cursor.current))
      | _, _ => (.error .outside, cursor)
  | take next, cursor =>
      match advance? tokens cursor.current with
      | some (token, after) =>
          (next token).walk tokens below ⟨after, .advanced cursor.current after :: cursor.events⟩
      | none => (.error .outside, cursor)
  | start routine args next, cursor =>
      match below routine args cursor with
      | (.ok value, after) => (next value).walk tokens below after
      | (.error fault, after) => (.error fault, after)

/-- Reads by a routine with a cursor; the bound is on the calls inside each other. -/
def walk (tokens : List Token) : Nat → List Activation → (routine : Routine) → routine.Args → Walk routine.Result
  | 0, _, _, _, cursor => (.error .exhausted, cursor)
  | fuel + 1, around, routine, args, cursor =>
      let call := ⟨routine, cursor.current⟩
      (script routine args).walk tokens (walk tokens fuel (call :: around)) (cursor.log (.called call around))

/-- Reads a file with a cursor. -/
def walkFile (tokens : List Token) : Except Fault Program × Cursor :=
  walk tokens (Reader.fuelFor tokens) [] .file () .start

/-! ## Tokens with one end -/

/-- The tokens end with their only end of the input, which has the index `last`. -/
structure Ended (tokens : List Token) (last : Nat) : Prop where
  length : tokens.length = last + 1
  ends : ∀ {index : Nat} {token : Token}, tokens[index]? = some token → (token.word = .endOfInput ↔ index = last)

namespace Ended

variable {tokens : List Token} {last index : Nat}

theorem append {front : List Token} {final : Token} (inner : ∀ token ∈ front, token.word ≠ .endOfInput)
    (ends : final.word = .endOfInput) : Ended (front ++ [final]) front.length where
  length := List.length_append
  ends {index token} found := by
    rcases Nat.lt_or_ge index front.length with before | behind
    · rw [List.getElem?_append_left before] at found
      exact iff_of_false (inner token (List.mem_of_getElem? found)) (Nat.ne_of_lt before)
    · have here := (List.getElem?_eq_some_iff.mp found).1
      rw [List.length_append, List.length_singleton] at here
      obtain rfl : index = front.length := by omega
      rw [List.getElem?_concat_length] at found
      exact iff_of_true (Option.some.inj found ▸ ends) rfl

theorem tokenize {source : String} (read : MiniGo.tokenize source = .ok tokens) :
    Ended tokens (tokens.length - 1) := by
  obtain ⟨front, inner, rfl⟩ := (Lexer.laid_tokenize read).ended
  simpa using append inner rfl

theorem token_ahead (ended : Ended tokens last) (inside : index ≤ last) :
    ∃ token, tokens[index]? = some token ∧ tokens.drop index = token :: tokens.drop (index + 1) := by
  have here : index < tokens.length := by
    rw [ended.length]
    exact Nat.lt_succ_of_le inside
  exact ⟨tokens[index], List.getElem?_eq_getElem here, List.drop_eq_getElem_cons here⟩

theorem tokenAt?_head (ended : Ended tokens last) (inside : index ≤ last) :
    tokenAt? tokens index = some (Reader.head (tokens.drop index)) := by
  obtain ⟨token, found, split⟩ := ended.token_ahead inside
  rw [tokenAt?, ended.length, Nat.add_sub_cancel, Nat.min_eq_left inside, split]
  exact found

theorem tokenAt?_second (ended : Ended tokens last) (inside : index ≤ last) :
    tokenAt? tokens (index + 1) = some (Reader.second (tokens.drop index)) := by
  rw [tokenAt?, ended.length, Nat.add_sub_cancel]
  obtain ⟨token, found, split⟩ := ended.token_ahead inside
  rcases Nat.lt_or_eq_of_le inside with more | rfl
  · obtain ⟨second, behind, split'⟩ := ended.token_ahead more
    rw [Nat.min_eq_left more, split, split']
    exact behind
  · have none : tokens.drop (index + 1) = [] := List.drop_eq_nil_of_le (Nat.le_of_eq ended.length)
    rw [Nat.min_eq_right (Nat.le_succ index), split, none]
    exact found

variable (inner : (Reader.head (tokens.drop index)).word ≠ .endOfInput)
include inner

theorem lt_of_inner (ended : Ended tokens last) (inside : index ≤ last) : index < last := by
  obtain ⟨token, found, split⟩ := ended.token_ahead inside
  rw [split] at inner
  exact Nat.lt_of_le_of_ne inside fun same => inner ((ended.ends found).mpr same)

theorem tail_drop (ended : Ended tokens last) (inside : index ≤ last) :
    Reader.tail (tokens.drop index) = tokens.drop (index + 1) := by
  obtain ⟨token, found, split⟩ := ended.token_ahead inside
  rw [split] at inner ⊢
  exact tail_of_word inner

theorem advance?_inner (ended : Ended tokens last) (inside : index ≤ last) :
    advance? tokens index = some (Reader.head (tokens.drop index), index + 1) := by
  obtain ⟨token, found, split⟩ := ended.token_ahead inside
  have notEnd : isEnd (Reader.head (tokens.drop index)).word = false := by
    cases same : (Reader.head (tokens.drop index)).word with
    | endOfInput => exact absurd same inner
    | _ => rfl
  rw [advance?, ended.tokenAt?_head inside]
  simp only [Option.bind_eq_bind, Option.bind_some, notEnd, Bool.false_eq_true, if_false, found]
  rw [split]
  rfl

end Ended

/-! ## What a cursor comes to -/

/-- What a routine at work has left before it must take a token: tokens first, then its rank. -/
def Activation.height (last : Nat) (call : Activation) : Nat := 16 * (last - call.index) + call.routine.rank

/-- An event makes progress: looks stay inside the tokens, an advance passes one token and not the last, and a call
is lower than those around it. -/
def Event.Proper (last : Nat) : Event → Prop
  | looked current => current ≤ last
  | advanced before after => after = before + 1 ∧ after ≤ last
  | called call around => call.index ≤ last ∧ ∀ outer ∈ around, call.height last < outer.height last

/-- From one cursor to a later one, with what was done in between. -/
structure Passed (last : Nat) (before after : Cursor) (added : List Event) : Prop where
  events : after.events = added ++ before.events
  onward : before.current ≤ after.current
  inside : after.current ≤ last
  proper : ∀ event ∈ added, event.Proper last

variable {α : Type} {tokens : List Token} {last origin count : Nat} {caller : Routine} {leaves : α → Token → Prop}

theorem Passed.refl {cursor : Cursor} (inside : cursor.current ≤ last) : Passed last cursor cursor [] :=
  ⟨rfl, Nat.le_refl _, inside, fun _ member => absurd member List.not_mem_nil⟩

theorem Passed.log {cursor : Cursor} {event : Event} (inside : cursor.current ≤ last) (proper : event.Proper last) :
    Passed last cursor (cursor.log event) [event] :=
  ⟨rfl, Nat.le_refl _, inside, fun _ member => List.mem_singleton.mp member ▸ proper⟩

theorem Passed.advance {cursor : Cursor} (inside : cursor.current < last) :
    Passed last cursor ⟨cursor.current + 1, .advanced cursor.current (cursor.current + 1) :: cursor.events⟩
      [.advanced cursor.current (cursor.current + 1)] :=
  ⟨rfl, Nat.le_succ _, inside, fun _ member => List.mem_singleton.mp member ▸ ⟨rfl, inside⟩⟩

theorem Passed.trans {before middle after : Cursor} {first second : List Event}
    (passed : Passed last before middle first) (later : Passed last middle after second) :
    Passed last before after (second ++ first) where
  events := by rw [later.events, passed.events, List.append_assoc]
  onward := Nat.le_trans passed.onward later.onward
  inside := later.inside
  proper event member := (List.mem_append.mp member).elim (later.proper event) (passed.proper event)

/-- What reading with a cursor comes to, beside what a reader of the tokens ahead comes to: the same result or the
same error. The routine has started at `origin`, and has made `count` steps when the cursor is at `before`; what it
may spend is reckoned with 64 for a token, the `tokenPrice`. -/
inductive Settles (tokens : List Token) (last : Nat) (caller : Routine) (leaves : α → Token → Prop) (origin count : Nat)
    (before : Cursor) : Except Stop (α × List Token) → Except Fault α × Cursor → Prop
  | ok {value : α} {after : Cursor} {added : List Event} (passed : Passed last before after added)
      (least : origin + caller.least ≤ after.current)
      (paid : count + added.length + 64 * (origin + caller.least) ≤ caller.cost + 64 * after.current)
      (fits : leaves value (Reader.head (tokens.drop after.current))) :
      Settles tokens last caller leaves origin count before (.ok (value, tokens.drop after.current)) (.ok value, after)
  | error {error : SyntaxError} {after : Cursor} {added : List Event} (passed : Passed last before after added)
      (paid : count + added.length + 64 * origin ≤ caller.cost + 64 * after.current) :
      Settles tokens last caller leaves origin count before (.error (.error error)) (.error (.error error), after)

theorem Settles.behind {before middle : Cursor} {added : List Event} {reader : Except Stop (α × List Token)}
    {walked : Except Fault α × Cursor} (passed : Passed last before middle added)
    (settles : Settles tokens last caller leaves origin (count + added.length) middle reader walked) :
    Settles tokens last caller leaves origin count before reader walked := by
  cases settles with
  | ok later least paid fits =>
      refine .ok (passed.trans later) least ?_ fits
      rw [List.length_append]
      omega
  | error later paid =>
      refine .error (passed.trans later) ?_
      rw [List.length_append]
      omega

/-! ## Runs -/

variable {ahead : Token → Prop} {taken spent height : Nat} {around : List Activation}
  {readBelow : (routine : Routine) → routine.Args → Reader routine.Result}
  {walkBelow : (routine : Routine) → routine.Args → Walk routine.Result}

/-- The routines below come to what the readers come to, if they start low enough. -/
def AllSettle (tokens : List Token) (last height : Nat) (around : List Activation)
    (readBelow : (routine : Routine) → routine.Args → Reader routine.Result)
    (walkBelow : (routine : Routine) → routine.Args → Walk routine.Result) : Prop :=
  ∀ routine args cursor, (⟨routine, cursor.current⟩ : Activation).height last < height → cursor.current ≤ last →
    routine.Needs (Reader.head (tokens.drop cursor.current)) →
    Settles tokens last routine routine.Leaves cursor.current 0 (cursor.log (.called ⟨routine, cursor.current⟩ around))
      (readBelow routine args (tokens.drop cursor.current)) (walkBelow routine args cursor)

/-- A thrifty script comes to what its reader comes to. -/
theorem Thrifty.settles (ended : Ended tokens last) {script : Script α}
    (thrifty : Thrifty caller leaves ahead taken spent script)
    (below : AllSettle tokens last (16 * (last - origin) + caller.rank) around readBelow walkBelow)
    (outside : ∀ outer ∈ around, 16 * (last - origin) + caller.rank ≤ outer.height last) {cursor : Cursor}
    (inside : cursor.current ≤ last) (moved : origin + taken ≤ cursor.current)
    (paid : count + 64 * (origin + taken) ≤ spent + 64 * cursor.current)
    (known : ahead (Reader.head (tokens.drop cursor.current))) :
    Settles tokens last caller leaves origin count cursor (script.perform readBelow (tokens.drop cursor.current))
      (script.walk tokens walkBelow cursor) := by
  -- Along the script: tokens that were taken pay for the events that are still to come.
  induction thrifty generalizing cursor count with
  | done enough fits =>
      unfold MayReturn Routine.tokenPrice at enough
      exact .ok (.refl inside) (by omega) (by simp only [List.length_nil]; omega) (fits _ known)
  | stop covered =>
      unfold Paid Routine.tokenPrice at covered
      exact .error (.refl inside) (by simp only [List.length_nil]; omega)
  | look rest ih =>
      have looked : (Event.looked cursor.current).Proper last := inside
      rw [Script.walk, ended.tokenAt?_head inside, ended.tokenAt?_second inside]
      refine .behind (.log inside looked) ?_
      exact ih _ _ known inside moved (by simp only [List.length_singleton, Cursor.log]; omega) rfl
  | take inner rest ih =>
      have inner := inner _ known
      have less := ended.lt_of_inner inner inside
      rw [Script.walk, ended.advance?_inner inner inside]
      refine .behind (.advance less) ?_
      change Settles _ _ _ _ _ _ _ ((_ : Script α).perform readBelow (Reader.tail (tokens.drop cursor.current))) _
      rw [ended.tail_drop inner inside]
      exact ih _ less (by dsimp only; omega) (by simp only [List.length_singleton]; omega) trivial
  | @start _ taken spent routine args next needs allowed rest ih =>
      unfold MayStart Paid Routine.tokenPrice at allowed
      -- A token that was taken outweighs every rank.
      have lower : (⟨routine, cursor.current⟩ : Activation).height last < 16 * (last - origin) + caller.rank := by
        have small := routine.rank_lt
        unfold Activation.height
        dsimp only
        rcases Nat.eq_zero_or_pos taken with none | some
        · have less := allowed.1 none
          omega
        · omega
      have proper : (Event.called ⟨routine, cursor.current⟩ around).Proper last :=
        ⟨inside, fun outer member => Nat.lt_of_lt_of_le lower (outside outer member)⟩
      have started := below routine args cursor lower inside (needs _ known)
      refine .behind (.log inside proper) ?_
      rw [Script.walk]
      change Settles _ _ _ _ _ _ _ (Except.bind (readBelow routine args (tokens.drop cursor.current)) _) _
      generalize readBelow routine args (tokens.drop cursor.current) = reader at started ⊢
      generalize walkBelow routine args cursor = walked at started ⊢
      cases started with
      | ok passed least paid fits =>
          refine .behind passed ?_
          exact ih _ passed.inside (by omega) (by simp only [List.length_singleton]; omega) fits
      | error passed paid => exact .error passed (by simp only [List.length_singleton]; omega)

/-- A run of a routine comes to what the reader of the routine comes to, if both have fuel for its height. -/
theorem walk_settles (ended : Ended tokens last) {fuel readFuel : Nat} {routine : Routine} (args : routine.Args)
    {cursor : Cursor} (enough : (⟨routine, cursor.current⟩ : Activation).height last < fuel)
    (given : (⟨routine, cursor.current⟩ : Activation).height last < readFuel) (inside : cursor.current ≤ last)
    (needs : routine.Needs (Reader.head (tokens.drop cursor.current)))
    (lowest : ∀ outer ∈ around, (⟨routine, cursor.current⟩ : Activation).height last < outer.height last) :
    Settles tokens last routine routine.Leaves cursor.current 0 (cursor.log (.called ⟨routine, cursor.current⟩ around))
      (read readFuel routine args (tokens.drop cursor.current)) (walk tokens fuel around routine args cursor) := by
  induction fuel generalizing readFuel routine cursor around with
  | zero => exact absurd enough (Nat.not_lt_zero _)
  | succ fuel ih =>
      obtain ⟨left, short, same⟩ := read_eq routine args (Nat.lt_of_le_of_lt (Nat.zero_le _) given)
      rw [same, walk]
      have lowerFuel : 16 * (last - cursor.current) + routine.rank < fuel + 1 := enough
      have lowerRead : 16 * (last - cursor.current) + routine.rank < readFuel := given
      have within : AllSettle tokens last (16 * (last - cursor.current) + routine.rank)
          (⟨routine, cursor.current⟩ :: around) (read left)
          (walk tokens fuel (⟨routine, cursor.current⟩ :: around)) := by
        intro next args behind lower inside needs
        refine ih args (by omega) (by omega) inside needs (List.forall_mem_cons.mpr ⟨lower, fun outer member => ?_⟩)
        exact Nat.lt_trans lower (lowest outer member)
      have outside : ∀ outer ∈ (⟨routine, cursor.current⟩ : Activation) :: around,
          16 * (last - cursor.current) + routine.rank ≤ outer.height last :=
        List.forall_mem_cons.mpr ⟨Nat.le_refl _, fun outer member => Nat.le_of_lt (lowest outer member)⟩
      exact (thrifty routine args).settles ended within outside inside (Nat.le_refl _) (Nat.le_refl _) needs

/-! ## Files -/

/-- The record of a cursor shows progress. -/
structure Progresses (tokens : List Token) (last : Nat) (cursor : Cursor) : Prop where
  /-- The end of the input is never passed. -/
  inside : cursor.current ≤ last
  looks : ∀ current, .looked current ∈ cursor.events → current ≤ last
  /-- An advance passes a token, and never the last one. -/
  advances : ∀ before after, .advanced before after ∈ cursor.events → after = before + 1 ∧ after ≤ last
  /-- A routine starts again inside itself, or goes on with its next round, only behind the place it started from. -/
  calls : ∀ call around, .called call around ∈ cursor.events →
    call.index ≤ last ∧ ∀ outer ∈ around, outer.routine = call.routine → outer.index < call.index
  few : cursor.events.length ≤ 64 * tokens.length

theorem progresses (ended : Ended tokens last) {cursor : Cursor} (inside : cursor.current ≤ last)
    (proper : ∀ event ∈ cursor.events, event.Proper last) (few : cursor.events.length ≤ 5 + 64 * cursor.current) :
    Progresses tokens last cursor where
  inside := inside
  looks _ member := proper _ member
  advances _ _ member := proper _ member
  calls call around member := by
    obtain ⟨within, lower⟩ := proper _ member
    refine ⟨within, fun outer found same => ?_⟩
    have less := lower outer found
    unfold Activation.height at less
    rw [same] at less
    omega
  few := by
    rw [ended.length]
    omega

/-- On tokens that end with their only end of the input, a cursor reads what the readers read, and its record shows
progress. -/
theorem reading_progresses (ended : Ended tokens last) :
    (walkFile tokens).1 = (parse tokens).mapError .error ∧ Progresses tokens last (walkFile tokens).2 := by
  have enough : (⟨.file, Cursor.start.current⟩ : Activation).height last < Reader.fuelFor tokens := by
    change 16 * (last - 0) + 1 < 16 * (tokens.length + 1)
    rw [ended.length]
    omega
  have settles := walk_settles ended () enough enough (Nat.zero_le _) trivial
    fun _ member => absurd member List.not_mem_nil
  have entered : (Event.called ⟨.file, 0⟩ []).Proper last :=
    ⟨Nat.zero_le _, fun _ member => absurd member List.not_mem_nil⟩
  change Settles _ _ _ _ _ _ _ (StateT.run (Reader.file (Reader.fuelFor tokens)) tokens) (walkFile tokens) at settles
  unfold parse Reader.run
  generalize StateT.run (Reader.file (Reader.fuelFor tokens)) tokens = reader at settles ⊢
  generalize walkFile tokens = walked at settles ⊢
  have whole {after : Cursor} {added : List Event}
      (passed : Passed last (Cursor.start.log (.called ⟨.file, 0⟩ [])) after added)
      (paid : added.length ≤ 4 + 64 * after.current) : Progresses tokens last after := by
    refine progresses ended passed.inside ?_ ?_
    · rw [passed.events]
      exact fun event member => (List.mem_append.mp member).elim (passed.proper event)
        fun found => List.mem_singleton.mp found ▸ entered
    · rw [passed.events, List.length_append]
      change added.length + 1 ≤ _
      omega
  cases settles with
  | @ok value after added passed least paid fits =>
      have covered : 0 + added.length + 64 * (0 + 0) ≤ 4 + 64 * after.current := paid
      have record := whole passed (by omega)
      exact ⟨rfl, record⟩
  | @error error after added passed paid =>
      have covered : 0 + added.length + 64 * 0 ≤ 4 + 64 * after.current := paid
      have record := whole passed (by omega)
      exact ⟨rfl, record⟩

/-! A file that breaks off in a list of parameters. -/

namespace BrokenOff

/-- `package p; func f(`. -/
def front : List Token :=
  [⟨.keyword .packageWord, "package", ⟨1, 1⟩⟩, ⟨.identifier "p", "p", ⟨1, 9⟩⟩, ⟨.semicolon false, ";", ⟨1, 10⟩⟩,
    ⟨.keyword .funcWord, "func", ⟨1, 12⟩⟩, ⟨.identifier "f", "f", ⟨1, 17⟩⟩, ⟨.mark .leftParen, "(", ⟨1, 18⟩⟩]

def final : Token := ⟨.endOfInput, "", ⟨1, 19⟩⟩

end BrokenOff

theorem broken_off_file_progresses :
    Ended (BrokenOff.front ++ [BrokenOff.final]) 6 ∧
    parse (BrokenOff.front ++ [BrokenOff.final]) = .error (.unexpected .type BrokenOff.final) ∧
    (walkFile (BrokenOff.front ++ [BrokenOff.final])).1 = .error (.error (.unexpected .type BrokenOff.final)) ∧
    (walkFile (BrokenOff.front ++ [BrokenOff.final])).2.current = 6 ∧
    Progresses (BrokenOff.front ++ [BrokenOff.final]) 6 (walkFile (BrokenOff.front ++ [BrokenOff.final])).2 := by
  have ended : Ended (BrokenOff.front ++ [BrokenOff.final]) 6 := .append (by simp [BrokenOff.front]) rfl
  have stopped : parse (BrokenOff.front ++ [BrokenOff.final]) = .error (.unexpected .type BrokenOff.final) := rfl
  obtain ⟨same, record⟩ := reading_progresses ended
  rw [stopped] at same
  exact ⟨ended, stopped, same, by decide, record⟩

end MiniGo.Syntax
