import MiniGo.Proofs.Syntax.Expressions
import MiniGo.Proofs.Syntax.Progress
import MiniGo.Proofs.Tokens.Marks

/-!
# Chains of operations

A chain is an operand and any number of operators with an operand behind each. Many trees have the tokens of a
chain in order, but in only one of them no operation has a weaker one on its left, or one that is not stronger on
its right; this is the tree that the reader of expressions gives (`chain_read`).
-/

namespace MiniGo.Syntax

/-- The operand that a token is on its own: a literal or a name. An integer has to be below the limit of those
without a sign. -/
def operand? (token : Token) : Option Expr :=
  match token.word with
  | .integer magnitude =>
      if magnitude < Reader.smallestMagnitude then some (.integer (Int64.ofNat magnitude)) else none
  | .float value => some (.float value)
  | .string value => some (.string value)
  | .identifier name => some (.identifier name token.location)
  | _ => none

/-- An operand, and operators with an operand behind each. -/
inductive Chain : List Token → Prop where
  | operand {token : Token} {value : Expr} : operand? token = some value → Chain [token]
  | operation {token sign : Token} {value : Expr} {op : BinaryOp} {rest : List Token} : operand? token = some value →
      sign.word = .operator op → Chain rest → Chain (token :: sign :: rest)

/-- The tokens of a tree in order: operands, and operators between those of their two sides. -/
inductive InOrder : Expr → List Token → Prop where
  | operand {token : Token} {value : Expr} : operand? token = some value → InOrder value [token]
  | operation {left right : Expr} {op : BinaryOp} {sign : Token} {front behind : List Token} :
      sign.word = .operator op → InOrder left front → InOrder right behind →
      InOrder (.binary left op right sign.location) (front ++ sign :: behind)

/-- No operation has a weaker one on its left, or one that is not stronger on its right. -/
def Grouped : Expr → Prop
  | .binary left op right _ =>
      Grouped left ∧ Grouped right ∧ op.precedence ≤ strength left ∧ op.precedence < strength right
  | _ => True

variable {α β : Type} {fuel depth level : Nat} {tokens read rest : List Token} {token sign last : Token} {op : BinaryOp}
  {value tree other : Expr}

/-! ## Trees of a chain -/

theorem strength_operand (found : operand? token = some value) : strength value = Reader.strongest + 1 ∧ Grouped value := by
  unfold operand? at found
  split at found
  · split at found
    · cases found
      exact ⟨rfl, trivial⟩
    · cases found
  all_goals cases found
  all_goals exact ⟨rfl, trivial⟩

theorem operand_ne_operator (found : operand? token = some value) : token.word ≠ .operator op := by
  intro same
  unfold operand? at found
  rw [same] at found
  cases found

theorem operand_ne_end (found : operand? token = some value) : token.word ≠ .endOfInput := by
  intro same
  unfold operand? at found
  rw [same] at found
  cases found

/-- No operator of a tree is weaker than the tree. -/
theorem InOrder.strength_le (inOrder : InOrder tree tokens) (grouped : Grouped tree) (member : sign ∈ tokens)
    (word : sign.word = .operator op) : strength tree ≤ op.precedence := by
  induction inOrder with
  | operand found =>
      obtain rfl := List.mem_singleton.mp member
      exact absurd word (operand_ne_operator found)
  | operation same _ _ left right =>
      obtain ⟨groupedLeft, groupedRight, weaker, stronger⟩ := grouped
      rcases List.mem_append.mp member with front | behind
      · exact Nat.le_trans weaker (left groupedLeft front)
      · rcases List.mem_cons.mp behind with rfl | behind
        · obtain rfl := Word.operator.inj (same.symm.trans word)
          exact Nat.le_refl _
        · exact Nat.le_trans (Nat.le_of_lt stronger) (right groupedRight behind)

theorem InOrder.ne_nil (inOrder : InOrder tree tokens) : tokens ≠ [] := by
  cases inOrder <;> simp

theorem InOrder.not_single {front behind : List Token} (left : InOrder tree front) (right : InOrder other behind) :
    front ++ sign :: behind ≠ [token] := by
  intro same
  have first := List.length_pos_iff.mpr left.ne_nil
  have second := List.length_pos_iff.mpr right.ne_nil
  have lengths := congrArg List.length same
  rw [List.length_append, List.length_cons, List.length_singleton] at lengths
  omega

/-- The operation at the root of a tree in which a part of the left side stands to the right of another operator,
and that operator in front of it, cannot both be grouped. -/
theorem InOrder.not_split {left right : Expr} {between behind : List Token} {first second : Token} {op weaker : BinaryOp}
    {front : List Token} (inLeft : InOrder left (front ++ first :: between)) (groupedLeft : Grouped left)
    (inRight : InOrder right (between ++ second :: behind)) (groupedRight : Grouped right)
    (sign : second.word = .operator op) (other : first.word = .operator weaker)
    (bounds : op.precedence ≤ strength left) (strict : weaker.precedence < strength right) : False := by
  have high := inLeft.strength_le groupedLeft (List.mem_append_right front List.mem_cons_self) other
  have low := inRight.strength_le groupedRight (List.mem_append_right between List.mem_cons_self) sign
  omega

/-- At most one tree of a chain is grouped by strength. -/
theorem InOrder.unique (inOrder : InOrder tree tokens) (grouped : Grouped tree) (again : InOrder other tokens)
    (regrouped : Grouped other) : tree = other := by
  induction inOrder generalizing other with
  | @operand token value found =>
      generalize same : [token] = listed at again
      cases again with
      | operand found' =>
          obtain rfl := (List.cons.inj same).1
          exact Option.some.inj (found.symm.trans found')
      | operation _ front behind => exact absurd same.symm (front.not_single behind)
  | @operation left right op sign front behind word inLeft inRight ihLeft ihRight =>
      obtain ⟨groupedLeft, groupedRight, bounds, strict⟩ := grouped
      generalize same : front ++ sign :: behind = listed at again
      cases again with
      | operand => exact absurd same (inLeft.not_single inRight)
      | @operation left' right' op' sign' front' behind' word' inLeft' inRight' =>
          obtain ⟨groupedLeft', groupedRight', bounds', strict'⟩ := regrouped
          rcases Lexer.split_cases same with ⟨between, middle, split⟩ | ⟨rfl, rfl, rfl⟩ | ⟨between, middle, split⟩
          · rw [middle] at inLeft
            rw [split] at inRight'
            exact (inLeft.not_split groupedLeft inRight' groupedRight' word word' bounds strict').elim
          · obtain rfl := Word.operator.inj (word.symm.trans word')
            rw [ihLeft groupedLeft inLeft' groupedLeft', ihRight groupedRight inRight' groupedRight']
          · rw [middle] at inLeft'
            rw [split] at inRight
            exact (inLeft'.not_split groupedLeft' inRight groupedRight word' word bounds' strict).elim

/-! ## Reading a chain -/

theorem advance_ok (inner : token.word ≠ .endOfInput) : Reader.advance (token :: tokens) = .ok (token, tokens) := by
  unfold Reader.advance
  rw [tail_of_word inner]
  rfl

theorem expectMark_ok {mark : Mark} {expected : Expected} (word : token.word = .mark mark) :
    Reader.expectMark mark expected (token :: tokens) = .ok (token, tokens) := by
  change (if isMark mark token.word then Reader.advance else Reader.refuse expected) (token :: tokens) = _
  rw [word, isMark, beq_self_eq_true, if_pos rfl]
  exact advance_ok (word ▸ ne_end rfl)

/-- A reader gives a result of the promised form, unless it runs out of fuel. -/
def Yields (reader : Reader α) (tokens : List Token) (post : α → List Token → Prop) : Prop :=
  reader tokens = .error .exhausted ∨ ∃ value left, reader tokens = .ok (value, left) ∧ post value left

namespace Yields

variable {post : α → List Token → Prop} {final : β → List Token → Prop}

theorem pure {value : α} (holds : post value tokens) : Yields (Pure.pure value) tokens post :=
  Or.inr ⟨value, tokens, rfl, holds⟩

theorem exhausted : Yields Reader.exhausted tokens post := Or.inl rfl

theorem bind {reader : Reader α} {next : α → Reader β} (first : Yields reader tokens post)
    (others : ∀ value left, post value left → Yields (next value) left final) : Yields (reader >>= next) tokens final := by
  change Except.bind (reader tokens) _ = _ ∨ ∃ value left, Except.bind (reader tokens) _ = _ ∧ _
  rcases first with stop | ⟨value, left, gave, holds⟩
  · exact Or.inl (by rw [stop]; rfl)
  · rw [gave]
    exact others value left holds

theorem weaken {other : α → List Token → Prop} {reader : Reader α} (yields : Yields reader tokens post)
    (imp : ∀ value left, post value left → other value left) : Yields reader tokens other :=
  yields.imp id fun ⟨value, left, gave, holds⟩ => ⟨value, left, gave, imp value left holds⟩

theorem peek {next : Token → Reader β} (others : Yields (next (Reader.head tokens)) tokens final) :
    Yields (Reader.peek >>= next) tokens final := others

theorem peekWord {next : Word → Reader β} (others : Yields (next (Reader.head tokens).word) tokens final) :
    Yields (Reader.peekWord >>= next) tokens final := others

theorem atMark {mark : Mark} {next : Bool → Reader β}
    (others : Yields (next (isMark mark (Reader.head tokens).word)) tokens final) :
    Yields (Reader.atMark mark >>= next) tokens final := others

theorem peekSecond {next : Word → Reader β} (others : Yields (next (Reader.second tokens).word) tokens final) :
    Yields (Reader.peekSecond >>= next) tokens final := others

theorem ok {reader : Reader α} {next : α → Reader β} {value : α} (gave : reader tokens = .ok (value, rest))
    (others : Yields (next value) rest final) : Yields (reader >>= next) tokens final := by
  unfold Yields
  rw [bind_of_ok gave]
  exact others

theorem advance {next : Token → Reader β} (inner : token.word ≠ .endOfInput)
    (others : Yields (next token) tokens final) : Yields (Reader.advance >>= next) (token :: tokens) final :=
  ok (advance_ok inner) others

theorem expectMark {mark : Mark} {expected : Expected} {next : Token → Reader β} (word : token.word = .mark mark)
    (others : Yields (next token) tokens final) :
    Yields (Reader.expectMark mark expected >>= next) (token :: tokens) final :=
  ok (expectMark_ok word) others

end Yields

/-- What is left behind the operations of a level: nothing, or a weaker operator with a chain behind it. -/
inductive Below (level : Nat) : List Token → Prop where
  | nil : Below level []
  | operator {sign : Token} {op : BinaryOp} {rest : List Token} : sign.word = .operator op → op.precedence < level →
      Chain rest → Below level (sign :: rest)

/-- A grouped tree of the first tokens is given, which is as strong as a level, and only weaker operators are left
in front of the last token. -/
def Given (level : Nat) (last : Token) (tokens : List Token) (tree : Expr) (left : List Token) : Prop :=
  ∃ read rest, tokens = read ++ rest ∧ left = rest ++ [last] ∧ InOrder tree read ∧ Grouped tree ∧ level ≤ strength tree ∧
    Below level rest

theorem Chain.cases (chain : Chain tokens) : ∃ token value rest, tokens = token :: rest ∧ operand? token = some value ∧
    Below (Reader.strongest + 1) rest := by
  cases chain with
  | operand found => exact ⟨_, _, [], rfl, found, .nil⟩
  | @operation _ _ _ op _ found word chain =>
      exact ⟨_, _, _, rfl, found, .operator word (Nat.lt_succ_of_le op.precedence_le) chain⟩

theorem Below.no_mark {mark : Mark} (below : Below level rest) (ends : last.word = .endOfInput) :
    isMark mark (Reader.head (rest ++ [last])).word = false := by
  cases below with
  | nil =>
      change isMark mark last.word = false
      rw [ends]
      rfl
  | @operator sign op rest word _ _ =>
      change isMark mark sign.word = false
      rw [word]
      rfl

theorem yields_primary (found : operand? token = some value) (below : Below level rest) (ends : last.word = .endOfInput) :
    Yields (Reader.primary fuel depth) (token :: (rest ++ [last])) fun read left => read = value ∧ left = rest ++ [last] := by
  cases fuel with
  | zero => exact .exhausted
  | succ fuel =>
      have head : Reader.head (token :: (rest ++ [last])) = token := rfl
      unfold Reader.primary
      refine .peek ?_
      rw [head]
      have inner := operand_ne_end found
      unfold operand? at found
      split at found
      · rename_i magnitude word
        rw [word]
        split at found
        · rename_i small
          cases found
          refine .advance inner ?_
          rw [if_pos small]
          exact .pure ⟨rfl, rfl⟩
        · cases found
      · rename_i number word
        cases found
        rw [word]
        exact .advance inner (.pure ⟨rfl, rfl⟩)
      · rename_i text word
        cases found
        rw [word]
        exact .advance inner (.pure ⟨rfl, rfl⟩)
      · rename_i name word
        cases found
        rw [word]
        refine .advance inner (.atMark ?_)
        rw [below.no_mark ends]
        exact .pure ⟨rfl, rfl⟩
      · cases found

theorem yields_calls (below : Below level rest) (ends : last.word = .endOfInput) :
    Yields (Reader.calls fuel depth value) (rest ++ [last]) fun read left => read = value ∧ left = rest ++ [last] := by
  cases fuel with
  | zero => exact .exhausted
  | succ fuel =>
      unfold Reader.calls
      refine .atMark ?_
      rw [below.no_mark ends]
      exact .pure ⟨rfl, rfl⟩

theorem yields_unary (found : operand? token = some value) (below : Below level rest) (ends : last.word = .endOfInput) :
    Yields (Reader.unary fuel depth) (token :: (rest ++ [last])) fun read left => read = value ∧ left = rest ++ [last] := by
  cases fuel with
  | zero => exact .exhausted
  | succ fuel =>
      have chain : Yields (do let callee ← Reader.primary fuel depth; Reader.calls fuel depth callee)
          (token :: (rest ++ [last])) fun read left => read = value ∧ left = rest ++ [last] := by
        refine (yields_primary found below ends).bind ?_
        rintro _ _ ⟨rfl, rfl⟩
        exact yields_calls below ends
      have head : Reader.head (token :: (rest ++ [last])) = token := rfl
      unfold Reader.unary
      refine .peekWord ?_
      rw [head]
      unfold operand? at found
      -- No word that is an operand is an operator as well.
      split at found
      case h_5 => cases found
      all_goals
        rename_i word
        rw [word]
        exact chain

/-- What the readers of operations give, with some fuel. -/
structure ChainsRead (last : Token) (fuel : Nat) : Prop where
  binary : ∀ {tokens level} depth, level ≤ Reader.strongest + 1 → Chain tokens →
    Yields (Reader.binary fuel depth level) (tokens ++ [last]) (Given level last tokens)
  binaryRest : ∀ {left front rest level} depth, level ≤ Reader.strongest → InOrder left front → Grouped left →
    level ≤ strength left → Below (level + 1) rest →
    Yields (Reader.binaryRest fuel depth level left) (rest ++ [last]) (Given level last (front ++ rest))

namespace ChainsRead

variable (reads : ChainsRead last fuel)
include reads

theorem binary_succ (bound : level ≤ Reader.strongest + 1) (chain : Chain tokens) (ends : last.word = .endOfInput) :
    Yields (Reader.binary (fuel + 1) depth level) (tokens ++ [last]) (Given level last tokens) := by
  unfold Reader.binary
  split
  · rename_i top
    obtain rfl : level = Reader.strongest + 1 := Nat.le_antisymm bound top
    obtain ⟨token, value, rest, rfl, found, below⟩ := chain.cases
    refine (yields_unary found below ends).weaken ?_
    rintro _ _ ⟨rfl, rfl⟩
    obtain ⟨strong, grouped⟩ := strength_operand found
    exact ⟨[token], rest, rfl, rfl, .operand found, grouped, Nat.le_of_eq strong.symm, below⟩
  · rename_i weak
    refine (reads.binary depth (by omega) chain).bind ?_
    rintro left _ ⟨front, rest, rfl, rfl, inOrder, grouped, strong, below⟩
    exact reads.binaryRest depth (by omega) inOrder grouped (by omega) below

theorem binaryRest_succ {left : Expr} {front : List Token} (bound : level ≤ Reader.strongest) (inOrder : InOrder left front)
    (grouped : Grouped left) (strong : level ≤ strength left) (below : Below (level + 1) rest)
    (ends : last.word = .endOfInput) :
    Yields (Reader.binaryRest (fuel + 1) depth level left) (rest ++ [last]) (Given level last (front ++ rest)) := by
  unfold Reader.binaryRest
  refine .peekWord ?_
  cases below with
  | nil =>
      have head : (Reader.head ([] ++ [last])).word = .endOfInput := ends
      rw [head]
      exact .pure ⟨front, [], rfl, rfl, inOrder, grouped, strong, .nil⟩
  | @operator sign op rest word weak chain =>
      have head : (Reader.head (sign :: rest ++ [last])).word = .operator op := word
      rw [head]
      dsimp only
      split
      · rename_i inside
        obtain rfl := Reader.mem_operatorsOf.mp inside
        refine .advance (word ▸ ne_end rfl) ((reads.binary depth (by omega) chain).bind ?_)
        rintro right _ ⟨behind, rest, rfl, rfl, inOrder', grouped', strong', below'⟩
        have whole : front ++ sign :: (behind ++ rest) = (front ++ sign :: behind) ++ rest := by simp
        rw [whole]
        exact reads.binaryRest depth bound (.operation word inOrder inOrder') ⟨grouped, grouped', strong, strong'⟩
          (Nat.le_refl _) below'
      · rename_i outside
        have other : op.precedence ≠ level := fun same => outside (Reader.mem_operatorsOf.mpr same)
        exact .pure ⟨front, sign :: rest, rfl, rfl, inOrder, grouped, strong, .operator word (by omega) chain⟩

end ChainsRead

theorem chainsRead (ends : last.word = .endOfInput) (fuel : Nat) : ChainsRead last fuel := by
  induction fuel with
  | zero => exact ⟨fun _ _ _ => .exhausted, fun _ _ _ _ _ _ => .exhausted⟩
  | succ fuel ih =>
      exact ⟨fun _ bound chain => ih.binary_succ bound chain ends,
        fun _ bound inOrder grouped strong below => ih.binaryRest_succ bound inOrder grouped strong below ends⟩

/-- In front of the end of the input, a chain is read as a whole. -/
theorem expression_chain (chain : Chain tokens) (ends : last.word = .endOfInput) :
    ∃ tree, Reader.expression (Reader.fuelFor (tokens ++ [last])) 0 (tokens ++ [last]) = .ok (tree, [last]) ∧
      InOrder tree tokens ∧ Grouped tree := by
  obtain ⟨fuel, enough⟩ : ∃ fuel, Reader.fuelFor (tokens ++ [last]) = fuel + 1 := ⟨_, rfl⟩
  have advances : Advances ((tokens ++ [last]).length + 1) 1 (Reader.expression (Reader.fuelFor (tokens ++ [last])) 0)
      (tokens ++ [last]) :=
    (treesAdvance _).expression 0 _ (by unfold Reader.fuelFor; omega) (by omega)
  unfold Advances at advances
  rw [enough] at advances ⊢
  have yields : Yields (Reader.expression (fuel + 1) 0) (tokens ++ [last]) (Given 1 last tokens) :=
    (chainsRead ends fuel).binary 1 (by decide) chain
  rcases yields with stop | ⟨tree, _, gave, read, rest, rfl, rfl, inOrder, grouped, _, below⟩
  · rw [stop] at advances
    exact advances.elim
  · cases below with
    | nil =>
        rw [List.append_nil] at gave ⊢
        exact ⟨tree, gave, inOrder, grouped⟩
    | @operator sign op rest _ weak _ => exact absurd op.precedence_pos (by omega)

/-- A chain in front of the end of the input is read as a whole, and as the one tree of its tokens in which no
operation has a weaker one on its left or one that is not stronger on its right. -/
theorem chain_read (chain : Chain tokens) (ends : last.word = .endOfInput) :
    ∃ tree, Reader.expression (Reader.fuelFor (tokens ++ [last])) 0 (tokens ++ [last]) = .ok (tree, [last]) ∧
      parseExpression (tokens ++ [last]) = .ok tree ∧ InOrder tree tokens ∧ Grouped tree ∧
      ∀ other, InOrder other tokens → Grouped other → other = tree := by
  obtain ⟨tree, read, inOrder, grouped⟩ := expression_chain chain ends
  refine ⟨tree, read, ?_, inOrder, grouped, fun other again regrouped => again.unique regrouped inOrder grouped⟩
  unfold parseExpression Reader.run StateT.run
  rw [read]

/-- The operands and operators of `a - b - 2 * c == d`. -/
def mixedChain : List Token :=
  [⟨.identifier "a", "a", ⟨1, 1⟩⟩, ⟨.operator .subtract, "-", ⟨1, 3⟩⟩, ⟨.identifier "b", "b", ⟨1, 5⟩⟩,
   ⟨.operator .subtract, "-", ⟨1, 7⟩⟩, ⟨.integer 2, "2", ⟨1, 9⟩⟩, ⟨.operator .multiply, "*", ⟨1, 11⟩⟩,
   ⟨.identifier "c", "c", ⟨1, 13⟩⟩, ⟨.operator .equal, "==", ⟨1, 15⟩⟩, ⟨.identifier "d", "d", ⟨1, 18⟩⟩]

theorem chain_read_mixed :
    Chain mixedChain ∧ Reader.endToken.word = .endOfInput ∧
    ∃ tree, Reader.expression (Reader.fuelFor (mixedChain ++ [Reader.endToken])) 0 (mixedChain ++ [Reader.endToken]) =
        .ok (tree, [Reader.endToken]) ∧
      parseExpression (mixedChain ++ [Reader.endToken]) = .ok tree ∧ InOrder tree mixedChain ∧ Grouped tree ∧
      ∀ other, InOrder other mixedChain → Grouped other → other = tree := by
  have chain : Chain mixedChain :=
    .operation rfl rfl (.operation rfl rfl (.operation rfl rfl (.operation rfl rfl (.operand rfl))))
  exact ⟨chain, rfl, chain_read chain rfl⟩

end MiniGo.Syntax
