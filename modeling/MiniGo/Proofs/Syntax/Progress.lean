import MiniGo.Proofs.Syntax.Rereading

/-!
# Readers make progress

A reader never gives tokens back, and most take one at least. Between two tokens that are taken no more than
fifteen calls stand, so the fuel of a file is never used up; and every level of nesting takes a token, so only
a text with as many tokens as the limit can be nested too deeply (`advances_file`).
-/

namespace MiniGo.Syntax

variable {α β : Type} {fuel depth limit least : Nat} {tokens : List Token}

/-- Why a reader may stop: never because it runs out of fuel, and because the text is nested too deeply only
beyond a limit. -/
def MayStop (limit : Nat) : Stop → Prop
  | .exhausted => False
  | .error error =>
      (∃ place, error = .invalid (.nesting Reader.nestingLimit) place) → Reader.nestingLimit < limit

/-- What a run of a reader comes to: it leaves fewer tokens, by some number at least. -/
def ComesTo (limit least : Nat) (tokens : List Token) : Except Stop (α × List Token) → Prop
  | .ok (_, left) => left.length + least ≤ tokens.length
  | .error stop => MayStop limit stop

/-- A reader in front of tokens makes progress. -/
def Advances (limit least : Nat) (reader : Reader α) (tokens : List Token) : Prop :=
  ComesTo limit least tokens (reader tokens)

namespace Advances

theorem pure {value : α} : Advances limit 0 (Pure.pure value) tokens := Nat.le_refl tokens.length

theorem bind {reader : Reader α} {next : α → Reader β} {first : Nat} (reads : Advances limit first reader tokens)
    (others : ∀ value left, left.length + first ≤ tokens.length → Advances limit (least - first) (next value) left) :
    Advances limit least (reader >>= next) tokens := by
  change ComesTo limit least tokens (Except.bind (reader tokens) _)
  unfold Advances at reads
  cases ran : reader tokens with
  | ok result =>
      obtain ⟨value, left⟩ := result
      rw [ran] at reads
      have shorter : left.length + first ≤ tokens.length := reads
      have behind := others value left shorter
      change ComesTo limit least tokens (next value left)
      unfold Advances at behind
      cases again : next value left with
      | ok result =>
          obtain ⟨last, final⟩ := result
          rw [again] at behind
          have much : final.length + (least - first) ≤ left.length := behind
          change final.length + least ≤ tokens.length
          omega
      | error stop =>
          rw [again] at behind
          exact behind
  | error stop =>
      rw [ran] at reads
      exact reads

theorem weaken {more : Nat} {reader : Reader α} (reads : Advances limit more reader tokens) (le : least ≤ more) :
    Advances limit least reader tokens := by
  unfold Advances at reads ⊢
  cases ran : reader tokens with
  | ok result =>
      rw [ran] at reads
      exact (Nat.add_le_add_left le _).trans reads
  | error stop =>
      rw [ran] at reads
      exact reads

theorem fail {error : SyntaxError} (other : ∀ place, error ≠ .invalid (.nesting Reader.nestingLimit) place) :
    Advances limit least (Reader.fail error : Reader α) tokens := by
  rintro ⟨place, same⟩
  exact absurd same (other place)

theorem refuse {expected : Expected} : Advances limit least (Reader.refuse expected : Reader α) tokens := by
  rintro ⟨place, ⟨⟩⟩

theorem peek {next : Token → Reader β} (reads : Advances limit least (next (Reader.head tokens)) tokens) :
    Advances limit least (Reader.peek >>= next) tokens := reads

theorem peekWord {next : Word → Reader β} (reads : Advances limit least (next (Reader.head tokens).word) tokens) :
    Advances limit least (Reader.peekWord >>= next) tokens := reads

theorem peekSecond {next : Word → Reader β} (reads : ∀ word, Advances limit least (next word) tokens) :
    Advances limit least (Reader.peekSecond >>= next) tokens := reads _

theorem atMark {mark : Mark} {next : Bool → Reader β}
    (found : (Reader.head tokens).word ≠ .endOfInput → Advances limit least (next true) tokens)
    (other : Advances limit least (next false) tokens) : Advances limit least (Reader.atMark mark >>= next) tokens := by
  change Advances limit least (next (isMark mark (Reader.head tokens).word)) tokens
  cases same : (Reader.head tokens).word with
  | mark sign =>
      rw [isMark]
      cases sign == mark with
      | true => exact found (same ▸ ne_end rfl)
      | false => exact other
  | _ => exact other

theorem atKeyword {keyword : Keyword} {next : Bool → Reader β}
    (found : (Reader.head tokens).word ≠ .endOfInput → Advances limit least (next true) tokens)
    (other : Advances limit least (next false) tokens) :
    Advances limit least (Reader.atKeyword keyword >>= next) tokens := by
  change Advances limit least (next (isKeyword keyword (Reader.head tokens).word)) tokens
  cases same : (Reader.head tokens).word with
  | keyword word =>
      rw [isKeyword]
      cases word == keyword with
      | true => exact found (same ▸ ne_end rfl)
      | false => exact other
  | _ => exact other

theorem atSemicolon {next : Bool → Reader β}
    (found : (Reader.head tokens).word ≠ .endOfInput → Advances limit least (next true) tokens)
    (other : Advances limit least (next false) tokens) : Advances limit least (Reader.atSemicolon >>= next) tokens := by
  change Advances limit least (next (Reader.isSemicolon (Reader.head tokens))) tokens
  rw [isSemicolon_word]
  cases same : (Reader.head tokens).word with
  | semicolon implicit => exact found (same ▸ ne_end rfl)
  | _ => exact other

theorem atWrittenSemicolon {next : Bool → Reader β}
    (found : (Reader.head tokens).word ≠ .endOfInput → Advances limit least (next true) tokens)
    (other : Advances limit least (next false) tokens) :
    Advances limit least (Reader.atWrittenSemicolon >>= next) tokens := by
  change Advances limit least
    (next (Reader.isSemicolon (Reader.head tokens) && !(Reader.head tokens).isImplicit)) tokens
  rw [isWritten_word]
  cases same : (Reader.head tokens).word with
  | semicolon implicit =>
      cases implicit with
      | true => exact other
      | false => exact found (same ▸ ne_end rfl)
  | _ => exact other

theorem take (inner : (Reader.head tokens).word ≠ .endOfInput) : Advances limit 1 Reader.advance tokens := by
  cases tokens with
  | nil => exact absurd rfl inner
  | cons token tokens =>
      have inner : token.word ≠ .endOfInput := inner
      change (Reader.tail (token :: tokens)).length + 1 ≤ tokens.length + 1
      rw [tail_of_word inner]

theorem advance {next : Token → Reader β} (inner : (Reader.head tokens).word ≠ .endOfInput)
    (others : ∀ token left, left.length + 1 ≤ tokens.length → Advances limit (least - 1) (next token) left) :
    Advances limit least (Reader.advance >>= next) tokens := (take inner).bind others

theorem onward {next : Token → Reader β}
    (others : ∀ token left, left.length ≤ tokens.length → Advances limit least (next token) left) :
    Advances limit least (Reader.advance >>= next) tokens := by
  have stays : Advances limit 0 Reader.advance tokens := by
    change (Reader.tail tokens).length ≤ tokens.length
    unfold Reader.tail
    split
    · exact Nat.le_refl _
    · split
      · exact Nat.le_refl _
      · exact Nat.le_succ _
  exact stays.bind others

theorem expectMark {mark : Mark} {expected : Expected} : Advances limit 1 (Reader.expectMark mark expected) tokens :=
  atMark take refuse

theorem expectKeyword {keyword : Keyword} {expected : Expected} :
    Advances limit 1 (Reader.expectKeyword keyword expected) tokens := atKeyword take refuse

theorem expectSemicolon {expected : Expected} : Advances limit 1 (Reader.expectSemicolon expected) tokens :=
  atSemicolon take refuse

theorem expectName {expected : Expected} : Advances limit 1 (Reader.expectName expected) tokens := by
  refine peekWord ?_
  split
  · rename_i same
    exact advance (same ▸ ne_end rfl) fun _ _ _ => pure
  · exact refuse

theorem skipSemicolons : Advances limit 0 Reader.skipSemicolons tokens :=
  (List.dropWhile_suffix Reader.isSemicolon).length_le

theorem terminate : Advances limit 0 Reader.terminate tokens := by
  refine peekWord ?_
  split
  · rename_i same
    exact advance (same ▸ ne_end rfl) fun _ _ _ => pure
  · exact pure
  · exact pure
  · exact refuse

theorem separate : Advances limit 0 Reader.separate tokens :=
  atMark (fun _ => skipSemicolons) (expectSemicolon.bind fun _ _ _ => skipSemicolons)

theorem nested {inner : Nat → Reader α} (below : depth < limit) (reads : Advances limit least (inner (depth + 1)) tokens) :
    Advances limit least (Reader.nested depth inner) tokens := by
  unfold Reader.nested
  split
  · rename_i deep
    exact fun _ => Nat.lt_of_le_of_lt deep below
  · exact reads

end Advances

/-! ## Types -/

/-- The readers of types have enough fuel. -/
structure TypesAdvance (fuel : Nat) : Prop where
  type : ∀ {limit} tokens, 16 * tokens.length + 1 ≤ fuel → Advances limit 1 (Reader.type fuel) tokens
  parameters : ∀ {limit} tokens, 16 * tokens.length + 1 ≤ fuel → Advances limit 1 (Reader.parameters fuel) tokens
  entries : ∀ {limit} tokens, 16 * tokens.length + 3 ≤ fuel → Advances limit 0 (Reader.entries fuel) tokens
  entry : ∀ {limit} tokens, 16 * tokens.length + 2 ≤ fuel → Advances limit 1 (Reader.entry fuel) tokens
  results : ∀ {limit} tokens, 16 * tokens.length + 2 ≤ fuel → Advances limit 0 (Reader.results fuel) tokens

namespace TypesAdvance

theorem zero : TypesAdvance 0 where
  type _ enough := absurd enough (by omega)
  parameters _ enough := absurd enough (by omega)
  entries _ enough := absurd enough (by omega)
  entry _ enough := absurd enough (by omega)
  results _ enough := absurd enough (by omega)

variable (advances : TypesAdvance fuel)
include advances

theorem type_succ (enough : 16 * tokens.length + 1 ≤ fuel + 1) : Advances limit 1 (Reader.type (fuel + 1)) tokens := by
  unfold Reader.type
  refine .peekWord ?_
  split
  · rename_i same
    exact .advance (same ▸ ne_end rfl) fun _ _ _ => .pure
  · rename_i same
    refine .advance (same ▸ ne_end rfl) fun _ left shorter => ?_
    refine (advances.parameters left (by omega)).bind fun _ behind further => ?_
    exact (advances.results behind (by omega)).bind fun _ _ _ => .pure
  · rename_i same
    refine .advance (same ▸ ne_end rfl) fun _ left shorter => ?_
    refine (advances.type left (by omega)).bind fun _ _ _ => ?_
    exact Advances.expectMark.bind fun _ _ _ => .pure
  · exact .refuse

theorem parameters_succ (enough : 16 * tokens.length + 1 ≤ fuel + 1) :
    Advances limit 1 (Reader.parameters (fuel + 1)) tokens := by
  unfold Reader.parameters
  refine Advances.expectMark.bind fun opening left shorter => ?_
  refine (advances.entries left (by omega)).bind fun found _ _ => Advances.expectMark.bind fun _ _ _ => ?_
  split
  · exact .pure
  · exact .fail nofun

theorem entries_succ (enough : 16 * tokens.length + 3 ≤ fuel + 1) :
    Advances limit 0 (Reader.entries (fuel + 1)) tokens := by
  unfold Reader.entries
  refine .atMark (fun _ => .pure) ?_
  refine (advances.entry tokens (by omega)).bind fun first left shorter => .atMark (fun inner => ?_) .pure
  refine .advance inner fun _ behind further => ?_
  exact (advances.entries behind (by omega)).bind fun _ _ _ => .pure

theorem entry_succ (enough : 16 * tokens.length + 2 ≤ fuel + 1) :
    Advances limit 1 (Reader.entry (fuel + 1)) tokens := by
  unfold Reader.entry
  refine .peekWord (.peekSecond fun second => ?_)
  have named : ∀ {name}, (Reader.head tokens).word = .identifier name →
      Advances limit 1 (do let _ ← Reader.advance; let type ← Reader.type fuel; pure (Reader.Entry.named name type)) tokens := by
    intro name same
    refine .advance (same ▸ ne_end rfl) fun _ left shorter => ?_
    exact (advances.type left (by omega)).bind fun _ _ _ => .pure
  split
  · rename_i same
    exact .advance (same ▸ ne_end rfl) fun _ _ _ => .pure
  · rename_i same
    exact .advance (same ▸ ne_end rfl) fun _ _ _ => .pure
  · rename_i same
    exact named same
  · rename_i same
    exact named same
  · rename_i same
    exact named same
  · exact (advances.type tokens (by omega)).bind fun _ _ _ => .pure

theorem results_succ (enough : 16 * tokens.length + 2 ≤ fuel + 1) :
    Advances limit 0 (Reader.results (fuel + 1)) tokens := by
  unfold Reader.results
  refine .peekWord ?_
  split
  · exact (advances.parameters tokens (by omega)).bind fun _ _ _ => .pure
  · exact (advances.type tokens (by omega)).bind fun _ _ _ => .pure
  · exact (advances.type tokens (by omega)).bind fun _ _ _ => .pure
  · exact .pure

theorem succ : TypesAdvance (fuel + 1) where
  type _ enough := advances.type_succ enough
  parameters _ enough := advances.parameters_succ enough
  entries _ enough := advances.entries_succ enough
  entry _ enough := advances.entry_succ enough
  results _ enough := advances.results_succ enough

end TypesAdvance

theorem typesAdvance (fuel : Nat) : TypesAdvance fuel := by
  induction fuel with
  | zero => exact .zero
  | succ fuel ih => exact ih.succ

theorem advances_signature (enough : 16 * tokens.length + 2 ≤ fuel) : Advances limit 1 (Reader.signature fuel) tokens := by
  have types := typesAdvance fuel
  unfold Reader.signature
  refine .peek ((types.parameters tokens (by omega)).bind fun params left shorter => ?_)
  split
  · exact .fail nofun
  · exact (types.results left (by omega)).bind fun _ _ _ => .pure

theorem advances_optionalType (enough : 16 * tokens.length + 1 ≤ fuel) :
    Advances limit 0 (Reader.optionalType fuel) tokens := by
  have types := typesAdvance fuel
  unfold Reader.optionalType
  refine .peekWord ?_
  split
  · exact (types.type tokens enough).bind fun _ _ _ => .pure
  · exact (types.type tokens enough).bind fun _ _ _ => .pure
  · exact .pure

theorem advances_moreNames (enough : 16 * tokens.length + 1 ≤ fuel) : Advances limit 0 (Reader.moreNames fuel) tokens := by
  induction fuel generalizing tokens with
  | zero => exact absurd enough (by omega)
  | succ fuel ih =>
      unfold Reader.moreNames
      refine .atMark (fun inner => .advance inner fun _ left shorter => ?_) .pure
      refine Advances.expectName.bind fun _ behind further => ?_
      exact (ih (by omega)).bind fun _ _ _ => .pure

/-! ## Expressions and statements -/

theorem advances_assignable {mark : String} {exprs : List Expr} :
    Advances limit 0 (Reader.assignable mark exprs) tokens := by
  fun_induction Reader.assignable mark exprs generalizing tokens with
  | case1 => exact .pure
  | case2 name _ exprs ih => exact ih.bind fun _ _ _ => .pure
  | case3 expr _ _ => exact .peek (.fail nofun)

theorem advances_singleTarget {mark : String} {exprs : List Expr} :
    Advances limit 0 (Reader.singleTarget mark exprs) tokens := by
  unfold Reader.singleTarget
  have inner : Advances limit 0 (if exprs.length = 1 then Reader.assignable mark exprs else pure []) tokens := by
    split
    · exact advances_assignable
    · exact .pure
  refine inner.bind fun names left _ => ?_
  split
  · exact .pure
  · exact .peek (.fail nofun)

theorem advances_conditionOf {location : Location} {stmt : Stmt} :
    Advances limit 0 (Reader.conditionOf location stmt) tokens := by
  unfold Reader.conditionOf
  split
  · exact .pure
  · exact .fail nofun

/-- The readers of expressions and statements have enough fuel, and room for the nesting that the tokens allow. -/
structure TreesAdvance (fuel : Nat) : Prop where
  expression : ∀ {limit} depth tokens, 16 * tokens.length + 9 ≤ fuel → depth + tokens.length < limit →
    Advances limit 1 (Reader.expression fuel depth) tokens
  binary : ∀ {limit} depth level tokens, level ≤ 6 → 16 * tokens.length + (9 - level) ≤ fuel →
    depth + tokens.length ≤ limit → Advances limit 1 (Reader.binary fuel depth level) tokens
  binaryRest : ∀ {limit} depth level left tokens, level ≤ 5 → 16 * tokens.length + 1 ≤ fuel →
    depth + tokens.length ≤ limit → Advances limit 0 (Reader.binaryRest fuel depth level left) tokens
  unary : ∀ {limit} depth tokens, 16 * tokens.length + 2 ≤ fuel → depth + tokens.length ≤ limit →
    Advances limit 1 (Reader.unary fuel depth) tokens
  unaryOperand : ∀ {limit} depth op location tokens, 16 * tokens.length + 3 ≤ fuel → depth + tokens.length < limit →
    Advances limit 1 (Reader.unaryOperand fuel depth op location) tokens
  calls : ∀ {limit} depth callee tokens, 16 * tokens.length + 1 ≤ fuel → depth + tokens.length ≤ limit →
    Advances limit 0 (Reader.calls fuel depth callee) tokens
  arguments : ∀ {limit} depth tokens, 16 * tokens.length + 10 ≤ fuel → depth + tokens.length < limit →
    Advances limit 0 (Reader.arguments fuel depth) tokens
  primary : ∀ {limit} depth tokens, 16 * tokens.length + 1 ≤ fuel → depth + tokens.length ≤ limit →
    Advances limit 1 (Reader.primary fuel depth) tokens
  functionRest : ∀ {limit} depth location tokens, 16 * tokens.length + 3 ≤ fuel → depth + tokens.length < limit →
    Advances limit 1 (Reader.functionRest fuel depth location) tokens
  expressions : ∀ {limit} depth tokens, 16 * tokens.length + 10 ≤ fuel → depth + tokens.length < limit →
    Advances limit 1 (Reader.expressions fuel depth) tokens
  block : ∀ {limit} depth tokens, 16 * tokens.length + 1 ≤ fuel → depth + tokens.length < limit →
    Advances limit 1 (Reader.block fuel depth) tokens
  statements : ∀ {limit} depth inCase tokens, 16 * tokens.length + 14 ≤ fuel → depth + tokens.length < limit →
    Advances limit 0 (Reader.statements fuel depth inCase) tokens
  moreStatements : ∀ {limit} depth inCase tokens, 16 * tokens.length + 13 ≤ fuel → depth + tokens.length < limit →
    Advances limit 1 (Reader.moreStatements fuel depth inCase) tokens
  statement : ∀ {limit} depth tokens, 16 * tokens.length + 12 ≤ fuel → depth + tokens.length < limit →
    Advances limit 1 (Reader.statement fuel depth) tokens
  simple : ∀ {limit} depth tokens, 16 * tokens.length + 11 ≤ fuel → depth + tokens.length < limit →
    Advances limit 1 (Reader.simple fuel depth) tokens
  varDecl : ∀ {limit} depth tokens, (Reader.head tokens).word ≠ .endOfInput → 16 * tokens.length + 1 ≤ fuel →
    depth + tokens.length < limit → Advances limit 1 (Reader.varDecl fuel depth) tokens
  constDecl : ∀ {limit} depth tokens, (Reader.head tokens).word ≠ .endOfInput → 16 * tokens.length + 1 ≤ fuel →
    depth + tokens.length < limit → Advances limit 1 (Reader.constDecl fuel depth) tokens
  valueSpec : ∀ {limit} depth keyword tokens, 16 * tokens.length + 1 ≤ fuel → depth + tokens.length < limit →
    Advances limit 1 (Reader.valueSpec fuel depth keyword) tokens
  conditional : ∀ {limit} depth tokens, (Reader.head tokens).word ≠ .endOfInput → 16 * tokens.length + 1 ≤ fuel →
    depth + tokens.length < limit → Advances limit 1 (Reader.conditional fuel depth) tokens
  elseBranch : ∀ {limit} depth tokens, 16 * tokens.length + 1 ≤ fuel → depth + tokens.length < limit →
    Advances limit 0 (Reader.elseBranch fuel depth) tokens
  loop : ∀ {limit} depth tokens, (Reader.head tokens).word ≠ .endOfInput → 16 * tokens.length + 1 ≤ fuel →
    depth + tokens.length < limit → Advances limit 1 (Reader.loop fuel depth) tokens
  headerStart : ∀ {limit} depth tokens, 16 * tokens.length + 12 ≤ fuel → depth + tokens.length < limit →
    Advances limit 0 (Reader.headerStart fuel depth) tokens
  loopCondition : ∀ {limit} depth tokens, 16 * tokens.length + 10 ≤ fuel → depth + tokens.length < limit →
    Advances limit 0 (Reader.loopCondition fuel depth) tokens
  loopPost : ∀ {limit} depth tokens, 16 * tokens.length + 12 ≤ fuel → depth + tokens.length < limit →
    Advances limit 0 (Reader.loopPost fuel depth) tokens
  switch : ∀ {limit} depth tokens, (Reader.head tokens).word ≠ .endOfInput → 16 * tokens.length + 1 ≤ fuel →
    depth + tokens.length < limit → Advances limit 1 (Reader.switch fuel depth) tokens
  switchHeader : ∀ {limit} depth tokens, 16 * tokens.length + 13 ≤ fuel → depth + tokens.length < limit →
    Advances limit 0 (Reader.switchHeader fuel depth) tokens
  cases : ∀ {limit} depth sawDefault tokens, 16 * tokens.length + 1 ≤ fuel → depth + tokens.length < limit →
    Advances limit 0 (Reader.cases fuel depth sawDefault) tokens
  caseRest : ∀ {limit} depth sawDefault label location tokens, 16 * tokens.length + 1 ≤ fuel →
    depth + tokens.length < limit → Advances limit 1 (Reader.caseRest fuel depth sawDefault label location) tokens

namespace TreesAdvance

theorem zero : TreesAdvance 0 where
  expression _ _ enough := absurd enough (by omega)
  binary _ _ _ _ enough := absurd enough (by omega)
  binaryRest _ _ _ _ _ enough := absurd enough (by omega)
  unary _ _ enough := absurd enough (by omega)
  unaryOperand _ _ _ _ enough := absurd enough (by omega)
  calls _ _ _ enough := absurd enough (by omega)
  arguments _ _ enough := absurd enough (by omega)
  primary _ _ enough := absurd enough (by omega)
  functionRest _ _ _ enough := absurd enough (by omega)
  expressions _ _ enough := absurd enough (by omega)
  block _ _ enough := absurd enough (by omega)
  statements _ _ _ enough := absurd enough (by omega)
  moreStatements _ _ _ enough := absurd enough (by omega)
  statement _ _ enough := absurd enough (by omega)
  simple _ _ enough := absurd enough (by omega)
  varDecl _ _ _ enough := absurd enough (by omega)
  constDecl _ _ _ enough := absurd enough (by omega)
  valueSpec _ _ _ enough := absurd enough (by omega)
  conditional _ _ _ enough := absurd enough (by omega)
  elseBranch _ _ enough := absurd enough (by omega)
  loop _ _ _ enough := absurd enough (by omega)
  headerStart _ _ enough := absurd enough (by omega)
  loopCondition _ _ enough := absurd enough (by omega)
  loopPost _ _ enough := absurd enough (by omega)
  switch _ _ _ enough := absurd enough (by omega)
  switchHeader _ _ enough := absurd enough (by omega)
  cases _ _ _ enough := absurd enough (by omega)
  caseRest _ _ _ _ _ enough := absurd enough (by omega)

variable (advances : TreesAdvance fuel)
include advances

theorem expression_succ (enough : 16 * tokens.length + 9 ≤ fuel + 1) (room : depth + tokens.length < limit) :
    Advances limit 1 (Reader.expression (fuel + 1) depth) tokens := by
  unfold Reader.expression
  exact .nested (by omega) (advances.binary (depth + 1) 1 tokens (by omega) (by omega) (by omega))

theorem binary_succ {level : Nat} (weak : level ≤ 6) (enough : 16 * tokens.length + (9 - level) ≤ fuel + 1)
    (room : depth + tokens.length ≤ limit) : Advances limit 1 (Reader.binary (fuel + 1) depth level) tokens := by
  unfold Reader.binary Reader.strongest
  split
  · exact advances.unary depth tokens (by omega) room
  · refine (advances.binary depth (level + 1) tokens (by omega) (by omega) room).bind fun left behind shorter => ?_
    exact advances.binaryRest depth level left behind (by omega) (by omega) (by omega)

theorem binaryRest_succ {level : Nat} {left : Expr} (weak : level ≤ 5) (enough : 16 * tokens.length + 1 ≤ fuel + 1)
    (room : depth + tokens.length ≤ limit) :
    Advances limit 0 (Reader.binaryRest (fuel + 1) depth level left) tokens := by
  unfold Reader.binaryRest
  refine .peekWord ?_
  split
  · rename_i same
    split
    · refine .advance (same ▸ ne_end rfl) fun sign behind shorter => ?_
      refine (advances.binary depth (level + 1) behind (by omega) (by omega) (by omega)).bind fun right more further => ?_
      exact advances.binaryRest depth level _ more weak (by omega) (by omega)
    · exact .pure
  · exact .pure

theorem unary_succ (enough : 16 * tokens.length + 2 ≤ fuel + 1) (room : depth + tokens.length ≤ limit) :
    Advances limit 1 (Reader.unary (fuel + 1) depth) tokens := by
  -- A sign is taken first, so one token less is left for its operand.
  have operand : ∀ op (sign : Token) (left : List Token), left.length + 1 ≤ tokens.length →
      Advances limit (1 - 1) (Reader.unaryOperand fuel depth op sign.location) left := fun op sign left shorter =>
    (advances.unaryOperand depth op sign.location left (by omega) (by omega)).weaken (Nat.zero_le 1)
  unfold Reader.unary
  refine .peekWord ?_
  split
  · rename_i same
    refine .advance (same ▸ ne_end rfl) fun sign left shorter => .peekWord ?_
    split
    · rename_i number
      split
      · exact .advance (number ▸ ne_end rfl) fun _ _ _ => .pure
      · exact operand _ sign left shorter
    · exact operand _ sign left shorter
  · rename_i same
    exact .advance (same ▸ ne_end rfl) (operand _)
  · rename_i same
    exact .advance (same ▸ ne_end rfl) (operand _)
  · rename_i same
    exact .advance (same ▸ ne_end rfl) (operand _)
  · refine (advances.primary depth tokens (by omega) room).bind fun callee left shorter => ?_
    exact advances.calls depth callee left (by omega) (by omega)

theorem unaryOperand_succ {op : UnaryOp} {location : Location} (enough : 16 * tokens.length + 3 ≤ fuel + 1)
    (room : depth + tokens.length < limit) :
    Advances limit 1 (Reader.unaryOperand (fuel + 1) depth op location) tokens := by
  have inner : Advances limit 1 (Reader.nested depth fun depth => Reader.unary fuel depth) tokens :=
    .nested (by omega) (advances.unary (depth + 1) tokens (by omega) (by omega))
  unfold Reader.unaryOperand
  exact inner.bind fun _ _ _ => .pure

theorem calls_succ {callee : Expr} (enough : 16 * tokens.length + 1 ≤ fuel + 1) (room : depth + tokens.length ≤ limit) :
    Advances limit 0 (Reader.calls (fuel + 1) depth callee) tokens := by
  unfold Reader.calls
  refine .atMark (fun inner => .advance inner fun opening left shorter => ?_) .pure
  refine (advances.arguments depth left (by omega) (by omega)).bind fun args behind further => ?_
  refine Advances.expectMark.bind fun _ more last => ?_
  exact advances.calls depth _ more (by omega) (by omega)

theorem arguments_succ (enough : 16 * tokens.length + 10 ≤ fuel + 1) (room : depth + tokens.length < limit) :
    Advances limit 0 (Reader.arguments (fuel + 1) depth) tokens := by
  unfold Reader.arguments
  refine .atMark (fun _ => .pure) ?_
  refine (advances.expression depth tokens (by omega) room).bind fun first left shorter => ?_
  refine .atMark (fun inner => .advance inner fun _ behind further => ?_) .pure
  exact (advances.arguments depth behind (by omega) (by omega)).bind fun _ _ _ => .pure

theorem primary_succ (enough : 16 * tokens.length + 1 ≤ fuel + 1) (room : depth + tokens.length ≤ limit) :
    Advances limit 1 (Reader.primary (fuel + 1) depth) tokens := by
  unfold Reader.primary
  refine .peek ?_
  split
  · rename_i same
    refine .advance (same ▸ ne_end rfl) fun _ _ _ => ?_
    split
    · exact .pure
    · exact .fail nofun
  · rename_i same
    exact .advance (same ▸ ne_end rfl) fun _ _ _ => .pure
  · rename_i same
    exact .advance (same ▸ ne_end rfl) fun _ _ _ => .pure
  · rename_i same
    refine .advance (same ▸ ne_end rfl) fun _ _ _ => .atMark (fun inner => ?_) .pure
    exact .advance inner fun _ _ _ => Advances.expectName.bind fun _ _ _ => .pure
  · rename_i same
    refine .advance (same ▸ ne_end rfl) fun _ left shorter => ?_
    refine (advances.expression depth left (by omega) (by omega)).bind fun _ _ _ => ?_
    exact Advances.expectMark.bind fun _ _ _ => .pure
  · rename_i same
    refine .advance (same ▸ ne_end rfl) fun _ left shorter => ?_
    exact (advances.functionRest depth _ left (by omega) (by omega)).bind fun _ _ _ => .pure
  · exact .refuse

theorem functionRest_succ {location : Location} (enough : 16 * tokens.length + 3 ≤ fuel + 1)
    (room : depth + tokens.length < limit) :
    Advances limit 1 (Reader.functionRest (fuel + 1) depth location) tokens := by
  unfold Reader.functionRest
  refine (advances_signature (by omega)).bind fun signature left shorter => ?_
  exact (advances.block depth left (by omega) (by omega)).bind fun _ _ _ => .pure

theorem expressions_succ (enough : 16 * tokens.length + 10 ≤ fuel + 1) (room : depth + tokens.length < limit) :
    Advances limit 1 (Reader.expressions (fuel + 1) depth) tokens := by
  unfold Reader.expressions
  refine (advances.expression depth tokens (by omega) room).bind fun first left shorter => ?_
  refine .atMark (fun inner => .advance inner fun _ behind further => ?_) .pure
  exact (advances.expressions depth behind (by omega) (by omega)).bind fun _ _ _ => .pure

theorem block_succ (enough : 16 * tokens.length + 1 ≤ fuel + 1) (room : depth + tokens.length < limit) :
    Advances limit 1 (Reader.block (fuel + 1) depth) tokens := by
  unfold Reader.block
  refine .nested (by omega) (Advances.expectMark.bind fun _ left shorter => ?_)
  refine Advances.skipSemicolons.bind fun _ behind further => ?_
  refine (advances.statements (depth + 1) false behind (by omega) (by omega)).bind fun _ _ _ => ?_
  exact Advances.expectMark.bind fun _ _ _ => .pure

theorem statements_succ {inCase : Bool} (enough : 16 * tokens.length + 14 ≤ fuel + 1)
    (room : depth + tokens.length < limit) :
    Advances limit 0 (Reader.statements (fuel + 1) depth inCase) tokens := by
  have more := (advances.moreStatements depth inCase tokens (by omega) room).weaken (Nat.zero_le 1)
  unfold Reader.statements
  refine .peekWord ?_
  split
  · exact .pure
  · exact .pure
  · split
    · exact .pure
    · exact more
  · split
    · exact .pure
    · exact more
  · exact more

theorem moreStatements_succ {inCase : Bool} (enough : 16 * tokens.length + 13 ≤ fuel + 1)
    (room : depth + tokens.length < limit) :
    Advances limit 1 (Reader.moreStatements (fuel + 1) depth inCase) tokens := by
  unfold Reader.moreStatements
  refine (advances.statement depth tokens (by omega) room).bind fun first left shorter => ?_
  refine Advances.separate.bind fun _ behind further => ?_
  exact (advances.statements depth inCase behind (by omega) (by omega)).bind fun _ _ _ => .pure

theorem statement_succ (enough : 16 * tokens.length + 12 ≤ fuel + 1) (room : depth + tokens.length < limit) :
    Advances limit 1 (Reader.statement (fuel + 1) depth) tokens := by
  unfold Reader.statement
  refine .peek ?_
  split
  · rename_i same
    exact (advances.varDecl depth tokens (same ▸ ne_end rfl) (by omega) room).bind fun _ _ _ => .pure
  · rename_i same
    exact (advances.constDecl depth tokens (same ▸ ne_end rfl) (by omega) room).bind fun _ _ _ => .pure
  · rename_i same
    exact (advances.conditional depth tokens (same ▸ ne_end rfl) (by omega) room).bind fun _ _ _ => .pure
  · rename_i same
    exact advances.loop depth tokens (same ▸ ne_end rfl) (by omega) room
  · rename_i same
    exact advances.switch depth tokens (same ▸ ne_end rfl) (by omega) room
  · rename_i same
    refine .advance (same ▸ ne_end rfl) fun _ left shorter => .peekWord ?_
    split
    · exact .pure
    · exact .pure
    · refine ((advances.expressions depth left (by omega) (by omega)).weaken (Nat.zero_le 1)).bind fun _ _ _ => ?_
      exact .pure
  · rename_i same
    exact .advance (same ▸ ne_end rfl) fun _ _ _ => .pure
  · rename_i same
    exact .advance (same ▸ ne_end rfl) fun _ _ _ => .pure
  · exact (advances.block depth tokens (by omega) room).bind fun _ _ _ => .pure
  · refine (advances.simple depth tokens (by omega) room).bind fun stmt _ _ => ?_
    split
    · split
      · exact .pure
      · exact .fail nofun
    · exact .pure

theorem simple_succ (enough : 16 * tokens.length + 11 ≤ fuel + 1) (room : depth + tokens.length < limit) :
    Advances limit 1 (Reader.simple (fuel + 1) depth) tokens := by
  unfold Reader.simple
  refine .peek ((advances.expressions depth tokens (by omega) room).bind fun exprs left shorter => .peek ?_)
  split
  · refine advances_assignable.bind fun _ _ _ => .onward fun _ behind _ => ?_
    refine ((advances.expressions depth behind (by omega) (by omega)).weaken (Nat.zero_le 1)).bind fun _ _ _ => ?_
    exact .pure
  · refine advances_assignable.bind fun _ _ _ => .onward fun _ behind _ => ?_
    refine ((advances.expressions depth behind (by omega) (by omega)).weaken (Nat.zero_le 1)).bind fun _ _ _ => ?_
    exact .pure
  · exact advances_singleTarget.bind fun _ _ _ => .onward fun _ _ _ => .pure
  · exact advances_singleTarget.bind fun _ _ _ => .onward fun _ _ _ => .pure
  · refine advances_singleTarget.bind fun _ _ _ => .onward fun _ behind _ => ?_
    refine ((advances.expression depth behind (by omega) (by omega)).weaken (Nat.zero_le 1)).bind fun _ _ _ => ?_
    exact .pure
  · split
    · exact .pure
    · exact .refuse

theorem varDecl_succ (inner : (Reader.head tokens).word ≠ .endOfInput) (enough : 16 * tokens.length + 1 ≤ fuel + 1)
    (room : depth + tokens.length < limit) : Advances limit 1 (Reader.varDecl (fuel + 1) depth) tokens := by
  unfold Reader.varDecl
  refine .advance inner fun _ left shorter => ?_
  refine ((advances.valueSpec depth "var" left (by omega) (by omega)).weaken (Nat.zero_le 1)).bind fun spec _ _ => ?_
  change Advances _ _ (if spec.2.1.isNone && spec.2.2.isEmpty then _ else _) _
  split
  · exact .refuse
  · exact .pure

theorem constDecl_succ (inner : (Reader.head tokens).word ≠ .endOfInput) (enough : 16 * tokens.length + 1 ≤ fuel + 1)
    (room : depth + tokens.length < limit) : Advances limit 1 (Reader.constDecl (fuel + 1) depth) tokens := by
  unfold Reader.constDecl
  refine .advance inner fun _ left shorter => ?_
  refine ((advances.valueSpec depth "const" left (by omega) (by omega)).weaken (Nat.zero_le 1)).bind fun spec _ _ => ?_
  change Advances _ _ (if spec.2.2.isEmpty then _ else _) _
  split
  · exact .fail nofun
  · exact .pure

theorem valueSpec_succ {keyword : String} (enough : 16 * tokens.length + 1 ≤ fuel + 1)
    (room : depth + tokens.length < limit) :
    Advances limit 1 (Reader.valueSpec (fuel + 1) depth keyword) tokens := by
  unfold Reader.valueSpec
  refine Advances.expectName.bind fun first left shorter => ?_
  refine (advances_moreNames (by omega)).bind fun more behind further => ?_
  refine (advances_optionalType (by omega)).bind fun type? last least => .atMark (fun inner => ?_) .pure
  refine .advance inner fun _ final fewer => ?_
  refine ((advances.expressions depth final (by omega) (by omega)).weaken (Nat.zero_le 1)).bind fun _ _ _ => ?_
  exact .pure

theorem conditional_succ (inner : (Reader.head tokens).word ≠ .endOfInput)
    (enough : 16 * tokens.length + 1 ≤ fuel + 1) (room : depth + tokens.length < limit) :
    Advances limit 1 (Reader.conditional (fuel + 1) depth) tokens := by
  unfold Reader.conditional
  refine .advance inner fun token left shorter => .peek ?_
  refine ((advances.simple depth left (by omega) (by omega)).weaken (Nat.zero_le 1)).bind fun first behind further => ?_
  -- The header may end where its first part does.
  have header : Advances limit 0 (do
      if ← Reader.atWrittenSemicolon then do
        let _ ← Reader.advance
        let condition ← Reader.expression fuel depth
        pure (some first, condition)
      else do
        let condition ← Reader.conditionOf (Reader.head left).location first
        pure (none, condition)) behind := by
    refine .atWrittenSemicolon (fun inner => .advance inner fun _ more fewer => ?_)
      (advances_conditionOf.bind fun _ _ _ => .pure)
    refine ((advances.expression depth more (by omega) (by omega)).weaken (Nat.zero_le 1)).bind fun _ _ _ => ?_
    exact .pure
  refine header.bind fun parts more fewer => ?_
  refine ((advances.block depth more (by omega) (by omega)).weaken (Nat.zero_le 1)).bind fun body last fewest => ?_
  exact (advances.elseBranch depth last (by omega) (by omega)).bind fun _ _ _ => .pure

theorem elseBranch_succ (enough : 16 * tokens.length + 1 ≤ fuel + 1) (room : depth + tokens.length < limit) :
    Advances limit 0 (Reader.elseBranch (fuel + 1) depth) tokens := by
  unfold Reader.elseBranch
  refine .atKeyword (fun inner => .advance inner fun _ left shorter => .peekWord ?_) .pure
  split
  · rename_i same
    refine ((advances.conditional depth left (same ▸ ne_end rfl) (by omega) (by omega)).weaken
      (Nat.zero_le 1)).bind fun _ _ _ => ?_
    exact .pure
  · refine ((advances.block depth left (by omega) (by omega)).weaken (Nat.zero_le 1)).bind fun _ _ _ => ?_
    exact .pure
  · exact .refuse

theorem loop_succ (inner : (Reader.head tokens).word ≠ .endOfInput) (enough : 16 * tokens.length + 1 ≤ fuel + 1)
    (room : depth + tokens.length < limit) : Advances limit 1 (Reader.loop (fuel + 1) depth) tokens := by
  unfold Reader.loop
  refine .advance inner fun token left shorter => .peek ?_
  have body : ∀ (more : List Token) (form : List Stmt → Stmt), more.length ≤ left.length →
      Advances limit 0 (do let body ← Reader.block fuel depth; pure (form body)) more := fun more form fewer =>
    ((advances.block depth more (by omega) (by omega)).weaken (Nat.zero_le 1)).bind fun _ _ _ => .pure
  refine .atMark (fun _ => body left _ (Nat.le_refl _)) ?_
  refine (advances.headerStart depth left (by omega) (by omega)).bind fun first behind further => ?_
  -- The header with three parts, whatever its first part is.
  have classic : ∀ init, Advances limit 0 (do
      let _ ← Reader.advance
      let condition ← Reader.loopCondition fuel depth
      let _ ← Reader.expectSemicolon .semicolon
      let post ← Reader.loopPost fuel depth
      let body ← Reader.block fuel depth
      pure (Stmt.loop init condition post body token.location)) behind := by
    refine fun init => .onward fun _ more fewer => ?_
    refine (advances.loopCondition depth more (by omega) (by omega)).bind fun condition last fewest => ?_
    refine (Advances.expectSemicolon.weaken (Nat.zero_le 1)).bind fun _ next _ => ?_
    refine (advances.loopPost depth next (by omega) (by omega)).bind fun post final _ => ?_
    exact body final _ (by omega)
  refine .atSemicolon (fun _ => ?_) ?_
  · cases first <;> exact classic _
  · cases first with
    | none => exact classic none
    | some statement => exact advances_conditionOf.bind fun _ more _ => body more _ (by omega)

theorem headerStart_succ (enough : 16 * tokens.length + 12 ≤ fuel + 1) (room : depth + tokens.length < limit) :
    Advances limit 0 (Reader.headerStart (fuel + 1) depth) tokens := by
  unfold Reader.headerStart
  refine .atSemicolon (fun _ => .pure) ?_
  exact ((advances.simple depth tokens (by omega) room).weaken (Nat.zero_le 1)).bind fun _ _ _ => .pure

theorem loopCondition_succ (enough : 16 * tokens.length + 10 ≤ fuel + 1) (room : depth + tokens.length < limit) :
    Advances limit 0 (Reader.loopCondition (fuel + 1) depth) tokens := by
  unfold Reader.loopCondition
  refine .atSemicolon (fun _ => .pure) ?_
  exact ((advances.expression depth tokens (by omega) room).weaken (Nat.zero_le 1)).bind fun _ _ _ => .pure

theorem loopPost_succ (enough : 16 * tokens.length + 12 ≤ fuel + 1) (room : depth + tokens.length < limit) :
    Advances limit 0 (Reader.loopPost (fuel + 1) depth) tokens := by
  unfold Reader.loopPost
  refine .atMark (fun _ => .pure) (.peek ?_)
  refine ((advances.simple depth tokens (by omega) room).weaken (Nat.zero_le 1)).bind fun stmt _ _ => ?_
  split
  · exact .fail nofun
  · exact .pure

theorem switch_succ (inner : (Reader.head tokens).word ≠ .endOfInput) (enough : 16 * tokens.length + 1 ≤ fuel + 1)
    (room : depth + tokens.length < limit) : Advances limit 1 (Reader.switch (fuel + 1) depth) tokens := by
  unfold Reader.switch
  refine .advance inner fun token left shorter => ?_
  refine (advances.switchHeader depth left (by omega) (by omega)).bind fun header behind further => ?_
  refine (Advances.expectMark.weaken (Nat.zero_le 1)).bind fun _ more fewer => ?_
  refine Advances.skipSemicolons.bind fun _ last fewest => ?_
  refine (advances.cases depth false last (by omega) (by omega)).bind fun _ _ _ => ?_
  exact (Advances.expectMark.weaken (Nat.zero_le 1)).bind fun _ _ _ => .pure

theorem switchHeader_succ (enough : 16 * tokens.length + 13 ≤ fuel + 1) (room : depth + tokens.length < limit) :
    Advances limit 0 (Reader.switchHeader (fuel + 1) depth) tokens := by
  unfold Reader.switchHeader
  refine .atMark (fun _ => .pure) (.peek ?_)
  refine (advances.headerStart depth tokens (by omega) room).bind fun first left shorter => ?_
  have tagged : ∀ init, Advances limit 0 (do
      let _ ← Reader.advance
      if ← Reader.atMark .leftBrace then pure (init, none)
      else do
        let tag ← Reader.expression fuel depth
        pure (init, some tag) : Reader (Option Stmt × Option Expr)) left := by
    refine fun init => .onward fun _ behind further => .atMark (fun _ => .pure) ?_
    refine ((advances.expression depth behind (by omega) (by omega)).weaken (Nat.zero_le 1)).bind fun _ _ _ => ?_
    exact .pure
  refine .atSemicolon (fun _ => ?_) ?_
  · cases first <;> exact tagged _
  · cases first with
    | none => exact tagged none
    | some statement => exact advances_conditionOf.bind fun _ _ _ => .pure

theorem cases_succ {sawDefault : Bool} (enough : 16 * tokens.length + 1 ≤ fuel + 1)
    (room : depth + tokens.length < limit) : Advances limit 0 (Reader.cases (fuel + 1) depth sawDefault) tokens := by
  unfold Reader.cases
  refine .peek ?_
  split
  · exact .pure
  · rename_i same
    refine .advance (same ▸ ne_end rfl) fun _ left shorter => ?_
    refine ((advances.expressions depth left (by omega) (by omega)).weaken (Nat.zero_le 1)).bind fun _ behind _ => ?_
    exact (advances.caseRest depth sawDefault _ _ behind (by omega) (by omega)).weaken (Nat.zero_le 1)
  · rename_i same
    split
    · exact .fail nofun
    · refine .advance (same ▸ ne_end rfl) fun _ left shorter => ?_
      exact (advances.caseRest depth true _ _ left (by omega) (by omega)).weaken (Nat.zero_le 1)
  · exact .refuse

theorem caseRest_succ {sawDefault : Bool} {label : CaseLabel} {location : Location}
    (enough : 16 * tokens.length + 1 ≤ fuel + 1) (room : depth + tokens.length < limit) :
    Advances limit 1 (Reader.caseRest (fuel + 1) depth sawDefault label location) tokens := by
  unfold Reader.caseRest
  refine Advances.expectMark.bind fun _ left shorter => Advances.skipSemicolons.bind fun _ behind further => ?_
  refine (advances.statements depth true behind (by omega) (by omega)).bind fun body more fewer => ?_
  exact (advances.cases depth sawDefault more (by omega) (by omega)).bind fun _ _ _ => .pure

theorem succ : TreesAdvance (fuel + 1) where
  expression _ _ := advances.expression_succ
  binary _ _ _ := advances.binary_succ
  binaryRest _ _ _ _ := advances.binaryRest_succ
  unary _ _ := advances.unary_succ
  unaryOperand _ _ _ _ := advances.unaryOperand_succ
  calls _ _ _ := advances.calls_succ
  arguments _ _ := advances.arguments_succ
  primary _ _ := advances.primary_succ
  functionRest _ _ _ := advances.functionRest_succ
  expressions _ _ := advances.expressions_succ
  block _ _ := advances.block_succ
  statements _ _ _ := advances.statements_succ
  moreStatements _ _ _ := advances.moreStatements_succ
  statement _ _ := advances.statement_succ
  simple _ _ := advances.simple_succ
  varDecl _ _ := advances.varDecl_succ
  constDecl _ _ := advances.constDecl_succ
  valueSpec _ _ _ := advances.valueSpec_succ
  conditional _ _ := advances.conditional_succ
  elseBranch _ _ := advances.elseBranch_succ
  loop _ _ := advances.loop_succ
  headerStart _ _ := advances.headerStart_succ
  loopCondition _ _ := advances.loopCondition_succ
  loopPost _ _ := advances.loopPost_succ
  switch _ _ := advances.switch_succ
  switchHeader _ _ := advances.switchHeader_succ
  cases _ _ _ := advances.cases_succ
  caseRest _ _ _ _ _ := advances.caseRest_succ

end TreesAdvance

theorem treesAdvance (fuel : Nat) : TreesAdvance fuel := by
  induction fuel with
  | zero => exact .zero
  | succ fuel ih => exact ih.succ

/-! ## Files -/

theorem advances_importSpec : Advances limit 1 Reader.importSpec tokens := by
  unfold Reader.importSpec
  refine .peek (Advances.bind (?_ : Advances limit 0 _ _) fun alias? left shorter => .peekWord ?_)
  · split
    · rename_i same
      exact .advance (same ▸ ne_end rfl) fun _ _ _ => .pure
    · exact .pure
  · split
    · rename_i same
      exact .advance (same ▸ ne_end rfl) fun _ _ _ => .pure
    · exact .refuse

theorem advances_importSpecs (enough : tokens.length < fuel) : Advances limit 0 (Reader.importSpecs fuel) tokens := by
  induction fuel generalizing tokens with
  | zero => exact absurd enough (Nat.not_lt_zero _)
  | succ fuel ih =>
      unfold Reader.importSpecs
      refine .atMark (fun _ => .pure) (advances_importSpec.bind fun first left shorter => ?_)
      have rest : ∀ (behind : List Token), behind.length ≤ left.length →
          Advances limit 0 (do let rest ← Reader.importSpecs fuel; pure (first :: rest)) behind := fun behind further =>
        (ih (by omega)).bind fun _ _ _ => .pure
      refine .atMark (fun _ => Advances.skipSemicolons.bind fun _ behind further => rest behind further) ?_
      refine (Advances.expectSemicolon.weaken (Nat.zero_le 1)).bind fun _ more fewer => ?_
      exact Advances.skipSemicolons.bind fun _ behind further => rest behind (by omega)

theorem advances_importDecl (inner : (Reader.head tokens).word ≠ .endOfInput) (enough : tokens.length ≤ fuel) :
    Advances limit 1 (Reader.importDecl fuel) tokens := by
  unfold Reader.importDecl
  refine .advance inner fun _ left shorter => .atMark (fun inner => ?_) ?_
  · refine .advance inner fun _ behind further => Advances.skipSemicolons.bind fun _ more fewer => ?_
    refine (advances_importSpecs (by omega)).bind fun _ _ _ => ?_
    exact (Advances.expectMark.weaken (Nat.zero_le 1)).bind fun _ _ _ => .pure
  · exact (advances_importSpec.weaken (Nat.zero_le 1)).bind fun _ _ _ => .pure

theorem advances_imports (enough : tokens.length < fuel) : Advances limit 0 (Reader.imports fuel) tokens := by
  induction fuel generalizing tokens with
  | zero => exact absurd enough (Nat.not_lt_zero _)
  | succ fuel ih =>
      unfold Reader.imports
      refine .atKeyword (fun inner => ?_) .pure
      refine (advances_importDecl inner (by omega)).bind fun first left shorter => ?_
      refine Advances.terminate.bind fun _ behind further => Advances.skipSemicolons.bind fun _ more fewer => ?_
      exact (ih (by omega)).bind fun _ _ _ => .pure

theorem advances_functionDecl (inner : (Reader.head tokens).word ≠ .endOfInput)
    (enough : 16 * tokens.length + 1 ≤ fuel) (room : tokens.length < limit) :
    Advances limit 1 (Reader.functionDecl fuel) tokens := by
  unfold Reader.functionDecl
  refine .advance inner fun _ left shorter => ?_
  refine (Advances.expectName.weaken (Nat.zero_le 1)).bind fun _ behind further => ?_
  refine (((treesAdvance fuel).functionRest 0 _ behind (by omega) (by omega)).weaken (Nat.zero_le 1)).bind fun _ _ _ => ?_
  exact .pure

theorem advances_declaration (enough : 16 * tokens.length + 1 ≤ fuel) (room : tokens.length < limit) :
    Advances limit 1 (Reader.declaration fuel) tokens := by
  have trees := treesAdvance fuel
  unfold Reader.declaration
  refine .peek ?_
  split
  · exact .fail nofun
  · rename_i same
    exact advances_functionDecl (same ▸ ne_end rfl) enough room
  · rename_i same
    exact (trees.varDecl 0 tokens (same ▸ ne_end rfl) enough (by omega)).bind fun _ _ _ => .pure
  · rename_i same
    exact (trees.constDecl 0 tokens (same ▸ ne_end rfl) enough (by omega)).bind fun _ _ _ => .pure
  · exact .refuse

theorem advances_declarations (enough : 16 * tokens.length + 2 ≤ fuel) (room : tokens.length < limit) :
    Advances limit 0 (Reader.declarations fuel) tokens := by
  induction fuel generalizing tokens with
  | zero => exact absurd enough (by omega)
  | succ fuel ih =>
      unfold Reader.declarations
      refine .peekWord ?_
      split
      · exact .pure
      · refine (advances_declaration (by omega) room).bind fun first left shorter => ?_
        refine Advances.terminate.bind fun _ behind further => Advances.skipSemicolons.bind fun _ more fewer => ?_
        exact (ih (by omega) (by omega)).bind fun _ _ _ => .pure

/-- A file is read with the fuel that its tokens give, and is nested too deeply only if it has as many tokens as
the nesting may have levels. -/
theorem advances_file (tokens : List Token) :
    Advances (tokens.length + 1) 0 (Reader.file (Reader.fuelFor tokens)) tokens := by
  have enough : 16 * tokens.length + 2 ≤ Reader.fuelFor tokens := by unfold Reader.fuelFor; omega
  unfold Reader.file
  refine Advances.skipSemicolons.bind fun _ first _ => ?_
  refine (Advances.expectKeyword.weaken (Nat.zero_le 1)).bind fun _ second _ => ?_
  refine (Advances.expectName.weaken (Nat.zero_le 1)).bind fun _ third _ => ?_
  refine Advances.terminate.bind fun _ fourth _ => Advances.skipSemicolons.bind fun _ fifth _ => ?_
  refine (advances_imports (by omega)).bind fun _ sixth _ => ?_
  exact (advances_declarations (by omega) (by omega)).bind fun _ _ _ => .pure

theorem mayStop_file {stop : Stop} (ran : StateT.run (Reader.file (Reader.fuelFor tokens)) tokens = .error stop) :
    MayStop (tokens.length + 1) stop := by
  have advances : ComesTo _ _ _ (StateT.run (Reader.file (Reader.fuelFor tokens)) tokens) := advances_file tokens
  rwa [ran] at advances

end MiniGo.Syntax
