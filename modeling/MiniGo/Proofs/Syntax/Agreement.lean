import Mathlib.Data.List.Forall2
import MiniGo.Proofs.Syntax.Files
import MiniGo.Proofs.Syntax.Places
import MiniGo.Proofs.Syntax.Trees
import MiniGo.Proofs.Tokens.Readings

/-!
# Readers in front of the same words

A reader looks at the words of tokens only: in front of tokens with the same words it gives the same tree up to
places (`Agree`). There is one rule for each way to put readers together; two structures have one field for each
of the readers that call each other.
-/

namespace MiniGo.Syntax

variable {α β γ δ : Type} {fuel depth : Nat} {tokens others : List Token}

/-- The tokens have the same words. -/
def SameWords (tokens others : List Token) : Prop := List.Forall₂ (fun token other => other.word = token.word) tokens others

/-- If one reader gives a result then so does the other in front of the same words: it gives something that looks the
same, and leaves the same words. -/
def Agree (view : α → γ) (reader other : Reader α) : Prop :=
  ∀ tokens others, SameWords tokens others → ∀ value rest, reader tokens = .ok (value, rest) →
    ∃ again left, other others = .ok (again, left) ∧ view again = view value ∧ SameWords rest left

namespace SameWords

theorem of_map (same : others.map (·.word) = tokens.map (·.word)) : SameWords tokens others := by
  rw [eq_comm, ← List.forall₂_eq_eq_eq, List.forall₂_map_left_iff, List.forall₂_map_right_iff] at same
  exact same.imp fun _ _ => Eq.symm

theorem length (same : SameWords tokens others) : others.length = tokens.length := (List.Forall₂.length_eq same).symm

theorem head (same : SameWords tokens others) : (Reader.head others).word = (Reader.head tokens).word := by
  cases same with
  | nil => rfl
  | cons here _ => exact here

theorem second (same : SameWords tokens others) : (Reader.second others).word = (Reader.second tokens).word := by
  cases same with
  | nil => rfl
  | cons here behind =>
      cases behind with
      | nil => exact here
      | cons next _ => exact next

theorem tail (same : SameWords tokens others) : SameWords (Reader.tail tokens) (Reader.tail others) := by
  cases same with
  | nil => exact .nil
  | cons here behind =>
      unfold Reader.tail
      dsimp only
      rw [here]
      split
      · exact .cons here behind
      · exact behind

theorem dropSemicolons (same : SameWords tokens others) :
    SameWords (tokens.dropWhile Reader.isSemicolon) (others.dropWhile Reader.isSemicolon) := by
  induction same with
  | nil => exact .nil
  | @cons token other _ _ here behind ih =>
      rw [List.dropWhile_cons, List.dropWhile_cons, isSemicolon_word, isSemicolon_word, here]
      split
      · exact ih
      · exact .cons here behind

end SameWords

namespace Agree

variable {view : α → γ} {last : β → δ} {mark : Mark} {expected : Expected}

theorem pure {value again : α} (same : view again = view value) : Agree view (Pure.pure value) (Pure.pure again) := by
  intro tokens others words found rest ran
  obtain ⟨rfl, rfl⟩ := Prod.mk.inj (Except.ok.inj ran)
  exact ⟨again, others, rfl, same, words⟩

theorem bind {reader other : Reader α} {next following : α → Reader β} (first : Agree view reader other)
    (rest : ∀ value again, view again = view value → Agree last (next value) (following again)) :
    Agree last (reader >>= next) (other >>= following) := by
  intro tokens others words value left ran
  obtain ⟨found, behind, read, ran⟩ := bind_ok ran
  obtain ⟨again, more, gave, same, words⟩ := first _ _ words _ _ read
  obtain ⟨final, after, ended, result, words⟩ := rest found again same _ _ words _ _ ran
  refine ⟨final, after, ?_, result, words⟩
  change Except.bind (other others) _ = _
  rw [gave]
  exact ended

theorem also {reader other : Reader α} {next following : α → Reader β} (first : Agree id reader other)
    (rest : ∀ value, Agree last (next value) (following value)) : Agree last (reader >>= next) (other >>= following) :=
  first.bind fun value _ same => by cases same; exact rest value

theorem fail {error : SyntaxError} {other : Reader α} : Agree view (Reader.fail error) other :=
  fun _ _ _ _ _ ran => nomatch ran

theorem refuse {other : Reader α} : Agree view (Reader.refuse expected) other := fun _ _ _ _ _ ran => nomatch ran

theorem exhausted {other : Reader α} : Agree view Reader.exhausted other := fun _ _ _ _ _ ran => nomatch ran

theorem peekFail {error : Token → SyntaxError} {other : Reader α} :
    Agree view (do let here ← Reader.peek; Reader.fail (error here)) other := fun _ _ _ _ _ ran => nomatch ran

theorem peek {next following : Token → Reader β}
    (rest : ∀ token again : Token, again.word = token.word → Agree last (next token) (following again)) :
    Agree last (Reader.peek >>= next) (Reader.peek >>= following) :=
  fun _ _ words _ _ ran => rest _ _ words.head _ _ words _ _ ran

theorem peekWord {next following : Word → Reader β} (rest : ∀ word, Agree last (next word) (following word)) :
    Agree last (Reader.peekWord >>= next) (Reader.peekWord >>= following) := by
  intro tokens others words value left ran
  have gave := rest (Reader.head tokens).word _ _ words _ _ ran
  rwa [← words.head] at gave

theorem peekSecond {next following : Word → Reader β} (rest : ∀ word, Agree last (next word) (following word)) :
    Agree last (Reader.peekSecond >>= next) (Reader.peekSecond >>= following) := by
  intro tokens others words value left ran
  have gave := rest (Reader.second tokens).word _ _ words _ _ ran
  rwa [← words.second] at gave

theorem ask {found : List Token → Bool} {next following : Bool → Reader β}
    (same : ∀ {tokens others}, SameWords tokens others → found others = found tokens)
    (rest : ∀ found, Agree last (next found) (following found)) :
    Agree last ((fun tokens => .ok (found tokens, tokens) : Reader Bool) >>= next)
      ((fun tokens => .ok (found tokens, tokens) : Reader Bool) >>= following) := by
  intro tokens others words value left ran
  have gave := rest (found tokens) _ _ words _ _ ran
  rwa [← same words] at gave

theorem atMark {next following : Bool → Reader β} (rest : ∀ found, Agree last (next found) (following found)) :
    Agree last (Reader.atMark mark >>= next) (Reader.atMark mark >>= following) :=
  ask (fun words => congrArg (isMark mark) words.head) rest

theorem atKeyword {keyword : Keyword} {next following : Bool → Reader β}
    (rest : ∀ found, Agree last (next found) (following found)) :
    Agree last (Reader.atKeyword keyword >>= next) (Reader.atKeyword keyword >>= following) :=
  ask (fun words => congrArg (isKeyword keyword) words.head) rest

theorem atSemicolon {next following : Bool → Reader β} (rest : ∀ found, Agree last (next found) (following found)) :
    Agree last (Reader.atSemicolon >>= next) (Reader.atSemicolon >>= following) :=
  ask (fun words => by rw [isSemicolon_word, isSemicolon_word, words.head]) rest

theorem atWrittenSemicolon {next following : Bool → Reader β}
    (rest : ∀ found, Agree last (next found) (following found)) :
    Agree last (Reader.atWrittenSemicolon >>= next) (Reader.atWrittenSemicolon >>= following) :=
  ask (fun words => by rw [isWritten_word, isWritten_word, words.head]) rest

theorem advance {next following : Token → Reader β}
    (rest : ∀ token again : Token, again.word = token.word → Agree last (next token) (following again)) :
    Agree last (Reader.advance >>= next) (Reader.advance >>= following) :=
  fun _ _ words _ _ ran => rest _ _ words.head _ _ words.tail _ _ ran

theorem advanced : Agree Token.word Reader.advance Reader.advance := by
  intro tokens others words value left ran
  obtain ⟨rfl, rfl⟩ := Prod.mk.inj (Except.ok.inj ran)
  exact ⟨_, _, rfl, words.head, words.tail⟩

theorem expectMark : Agree Token.word (Reader.expectMark mark expected) (Reader.expectMark mark expected) := by
  refine atMark fun found => ?_
  cases found
  · exact refuse
  · exact advanced

theorem expectKeyword {keyword : Keyword} :
    Agree Token.word (Reader.expectKeyword keyword expected) (Reader.expectKeyword keyword expected) := by
  refine atKeyword fun found => ?_
  cases found
  · exact refuse
  · exact advanced

theorem expectSemicolon : Agree Token.word (Reader.expectSemicolon expected) (Reader.expectSemicolon expected) := by
  refine atSemicolon fun found => ?_
  cases found
  · exact refuse
  · exact advanced

theorem expectName : Agree id (Reader.expectName expected) (Reader.expectName expected) := by
  refine peekWord fun word => ?_
  cases word with
  | identifier name => exact advance fun _ _ _ => pure rfl
  | _ => exact refuse

theorem skipSemicolons : Agree id Reader.skipSemicolons Reader.skipSemicolons := by
  intro tokens others words value left ran
  obtain ⟨rfl, rfl⟩ := Prod.mk.inj (Except.ok.inj ran)
  exact ⟨(), _, rfl, rfl, words.dropSemicolons⟩

theorem terminate : Agree id Reader.terminate Reader.terminate := by
  refine peekWord fun word => ?_
  split
  · exact advance fun _ _ _ => pure rfl
  · exact pure rfl
  · exact pure rfl
  · exact refuse

theorem separate : Agree id Reader.separate Reader.separate := by
  refine atMark fun found => ?_
  cases found
  · exact expectSemicolon.bind fun _ _ _ => skipSemicolons
  · exact skipSemicolons

theorem nested {inner other : Nat → Reader α} (agree : ∀ depth, Agree view (inner depth) (other depth)) :
    Agree view (Reader.nested depth inner) (Reader.nested depth other) := by
  unfold Reader.nested
  split
  · exact peekFail
  · exact agree _

end Agree

/-! ## Types -/

/-- The readers of types give the same in front of the same words. -/
structure TypesAgree (fuel : Nat) : Prop where
  type : Agree id (Reader.type fuel) (Reader.type fuel)
  parameters : Agree id (Reader.parameters fuel) (Reader.parameters fuel)
  entries : Agree id (Reader.entries fuel) (Reader.entries fuel)
  entry : Agree id (Reader.entry fuel) (Reader.entry fuel)
  results : Agree id (Reader.results fuel) (Reader.results fuel)

theorem TypesAgree.succ (agree : TypesAgree fuel) : TypesAgree (fuel + 1) where
  type := by
    unfold Reader.type
    refine .peekWord fun word => ?_
    split
    · exact .advance fun _ _ _ => .pure rfl
    · exact .advance fun _ _ _ => agree.parameters.also fun _ => agree.results.also fun _ => .pure rfl
    · exact .advance fun _ _ _ => agree.type.also fun _ => Agree.expectMark.bind fun _ _ _ => .pure rfl
    · exact .refuse
  parameters := by
    unfold Reader.parameters
    refine Agree.expectMark.bind fun _ _ _ => agree.entries.also fun entries => Agree.expectMark.bind fun _ _ _ => ?_
    split
    · exact .pure rfl
    · exact .fail
  entries := by
    unfold Reader.entries
    refine .atMark fun found => ?_
    split
    · exact .pure rfl
    · refine agree.entry.also fun first => .atMark fun found => ?_
      split
      · exact .advance fun _ _ _ => agree.entries.also fun _ => .pure rfl
      · exact .pure rfl
  entry := by
    unfold Reader.entry
    refine .peekWord fun word => .peekSecond fun next => ?_
    split
    · exact .advance fun _ _ _ => .pure rfl
    · exact .advance fun _ _ _ => .pure rfl
    · exact .advance fun _ _ _ => agree.type.also fun _ => .pure rfl
    · exact .advance fun _ _ _ => agree.type.also fun _ => .pure rfl
    · exact .advance fun _ _ _ => agree.type.also fun _ => .pure rfl
    · exact agree.type.also fun _ => .pure rfl
  results := by
    unfold Reader.results
    refine .peekWord fun word => ?_
    split
    · exact agree.parameters.also fun _ => .pure rfl
    · exact agree.type.also fun _ => .pure rfl
    · exact agree.type.also fun _ => .pure rfl
    · exact .pure rfl

theorem typesAgree (fuel : Nat) : TypesAgree fuel := by
  induction fuel with
  | zero => exact ⟨.exhausted, .exhausted, .exhausted, .exhausted, .exhausted⟩
  | succ fuel ih => exact ih.succ

theorem signature_agree (fuel : Nat) : Agree id (Reader.signature fuel) (Reader.signature fuel) := by
  unfold Reader.signature
  refine .peek fun _ _ _ => (typesAgree fuel).parameters.also fun params => ?_
  split
  · exact .fail
  · exact (typesAgree fuel).results.also fun _ => .pure rfl

/-! ## Names -/

theorem assignable_agree {mark one : String} {exprs again : List Expr}
    (same : Unplaced.exprs .float again = Unplaced.exprs .float exprs) :
    Agree id (Reader.assignable mark exprs) (Reader.assignable one again) := by
  induction exprs generalizing again with
  | nil =>
      cases again with
      | nil => exact .pure rfl
      | cons other again => cases same
  | cons expr exprs ih =>
      cases again with
      | nil => cases same
      | cons other again =>
          obtain ⟨here, behind⟩ := List.cons.inj same
          cases expr with
          | identifier name location =>
              cases other with
              | identifier found place =>
                  obtain rfl : found = name := (Expr.identifier.inj here).1
                  exact (ih behind).also fun _ => .pure rfl
              | _ => cases here
          | _ => exact .peekFail

theorem length_exprs {literal : Float → Expr} (exprs : List Expr) :
    (Unplaced.exprs literal exprs).length = exprs.length := by
  induction exprs with
  | nil => rfl
  | cons expr exprs ih => exact congrArg (· + 1) ih

theorem singleTarget_agree {mark one : String} {exprs again : List Expr}
    (same : Unplaced.exprs .float again = Unplaced.exprs .float exprs) :
    Agree id (Reader.singleTarget mark exprs) (Reader.singleTarget one again) := by
  have length : again.length = exprs.length := by rw [← length_exprs, same, length_exprs]
  have targets : Agree id (if exprs.length = 1 then Reader.assignable mark exprs else Pure.pure [])
      (if again.length = 1 then Reader.assignable one again else Pure.pure []) := by
    rw [length]
    split
    · exact assignable_agree same
    · exact .pure rfl
  refine targets.also fun names => ?_
  split
  · exact .pure rfl
  · exact .peekFail

theorem moreNames_agree (fuel : Nat) : Agree id (Reader.moreNames fuel) (Reader.moreNames fuel) := by
  induction fuel with
  | zero => exact .exhausted
  | succ fuel ih =>
      unfold Reader.moreNames
      refine .atMark fun found => ?_
      split
      · exact .advance fun _ _ _ => Agree.expectName.also fun _ => ih.also fun _ => .pure rfl
      · exact .pure rfl

theorem optionalType_agree (fuel : Nat) : Agree id (Reader.optionalType fuel) (Reader.optionalType fuel) := by
  unfold Reader.optionalType
  refine .peekWord fun word => ?_
  split
  · exact (typesAgree fuel).type.also fun _ => .pure rfl
  · exact (typesAgree fuel).type.also fun _ => .pure rfl
  · exact .pure rfl

/-! ## Expressions and statements -/

theorem expression_of_unplaced {stmt : Stmt} {expr : Expr}
    (same : Unplaced.stmt .float stmt = Unplaced.stmt .float (.expression expr)) :
    ∃ found, stmt = .expression found ∧ Unplaced.expr .float found = Unplaced.expr .float expr := by
  cases stmt with
  | expression found => exact ⟨found, rfl, Stmt.expression.inj same⟩
  | _ => cases same

theorem define_of_unplaced {stmt : Stmt} {names : List String} {values : List Expr} {location : Location}
    (same : Unplaced.stmt .float stmt = Unplaced.stmt .float (.define names values location)) :
    ∃ names values location, stmt = .define names values location := by
  cases stmt with
  | define names values location => exact ⟨names, values, location, rfl⟩
  | _ => cases same

theorem single_of_unplaced {exprs : List Expr} {expr : Expr}
    (same : Unplaced.exprs .float exprs = Unplaced.exprs .float [expr]) :
    ∃ found, exprs = [found] ∧ Unplaced.expr .float found = Unplaced.expr .float expr := by
  cases exprs with
  | nil => cases same
  | cons found exprs =>
      obtain ⟨here, behind⟩ := List.cons.inj same
      cases exprs with
      | nil => exact ⟨found, rfl, here⟩
      | cons => cases behind

theorem isEmpty_unplaced (exprs : List Expr) : (Unplaced.exprs .float exprs).isEmpty = exprs.isEmpty := by
  cases exprs <;> rfl

theorem isCall_unplaced (expr : Expr) : (Unplaced.expr .float expr).isCall = expr.isCall := by
  cases expr <;> rfl

theorem conditionOf_agree {location place : Location} {stmt again : Stmt}
    (same : Unplaced.stmt .float again = Unplaced.stmt .float stmt) :
    Agree (Unplaced.expr .float) (Reader.conditionOf location stmt) (Reader.conditionOf place again) := by
  cases stmt with
  | expression expr =>
      obtain ⟨found, rfl, looks⟩ := expression_of_unplaced same
      exact .pure looks
  | _ => exact .fail

def unplacedSpec (spec : List String × Option Ty × List Expr) : List String × Option Ty × List Expr :=
  (spec.1, spec.2.1, Unplaced.exprs .float spec.2.2)

theorem spec_of_unplaced {names others : List String} {type? other? : Option Ty} {values again : List Expr}
    (same : unplacedSpec (others, other?, again) = unplacedSpec (names, type?, values)) :
    others = names ∧ other? = type? ∧ Unplaced.exprs .float again = Unplaced.exprs .float values := by
  obtain ⟨sameNames, sameRest⟩ := Prod.mk.inj same
  exact ⟨sameNames, Prod.mk.inj sameRest⟩

def unplacedHeader (header : Option Stmt × Option Expr) : Option Stmt × Option Expr :=
  (Unplaced.optionalStmt .float header.1, Unplaced.optionalExpr .float header.2)

/-- The readers of expressions and statements give the same up to places in front of the same words. -/
structure TreesAgree (fuel : Nat) : Prop where
  expression : ∀ depth, Agree (Unplaced.expr .float) (Reader.expression fuel depth) (Reader.expression fuel depth)
  binary : ∀ depth level, Agree (Unplaced.expr .float) (Reader.binary fuel depth level) (Reader.binary fuel depth level)
  binaryRest : ∀ depth level {left again}, Unplaced.expr .float again = Unplaced.expr .float left →
    Agree (Unplaced.expr .float) (Reader.binaryRest fuel depth level left) (Reader.binaryRest fuel depth level again)
  unary : ∀ depth, Agree (Unplaced.expr .float) (Reader.unary fuel depth) (Reader.unary fuel depth)
  unaryOperand : ∀ depth op location place, Agree (Unplaced.expr .float) (Reader.unaryOperand fuel depth op location)
    (Reader.unaryOperand fuel depth op place)
  calls : ∀ depth {callee again}, Unplaced.expr .float again = Unplaced.expr .float callee →
    Agree (Unplaced.expr .float) (Reader.calls fuel depth callee) (Reader.calls fuel depth again)
  arguments : ∀ depth, Agree (Unplaced.exprs .float) (Reader.arguments fuel depth) (Reader.arguments fuel depth)
  primary : ∀ depth, Agree (Unplaced.expr .float) (Reader.primary fuel depth) (Reader.primary fuel depth)
  functionRest : ∀ depth location place, Agree (Unplaced.function .float) (Reader.functionRest fuel depth location)
    (Reader.functionRest fuel depth place)
  expressions : ∀ depth, Agree (Unplaced.exprs .float) (Reader.expressions fuel depth) (Reader.expressions fuel depth)
  block : ∀ depth, Agree (Unplaced.stmts .float) (Reader.block fuel depth) (Reader.block fuel depth)
  statements : ∀ depth inCase, Agree (Unplaced.stmts .float) (Reader.statements fuel depth inCase)
    (Reader.statements fuel depth inCase)
  moreStatements : ∀ depth inCase, Agree (Unplaced.stmts .float) (Reader.moreStatements fuel depth inCase)
    (Reader.moreStatements fuel depth inCase)
  statement : ∀ depth, Agree (Unplaced.stmt .float) (Reader.statement fuel depth) (Reader.statement fuel depth)
  simple : ∀ depth, Agree (Unplaced.stmt .float) (Reader.simple fuel depth) (Reader.simple fuel depth)
  varDecl : ∀ depth, Agree (Unplaced.valueDecl .float) (Reader.varDecl fuel depth) (Reader.varDecl fuel depth)
  constDecl : ∀ depth, Agree (Unplaced.valueDecl .float) (Reader.constDecl fuel depth) (Reader.constDecl fuel depth)
  valueSpec : ∀ depth keyword, Agree unplacedSpec (Reader.valueSpec fuel depth keyword)
    (Reader.valueSpec fuel depth keyword)
  conditional : ∀ depth, Agree (Unplaced.ifStmt .float) (Reader.conditional fuel depth) (Reader.conditional fuel depth)
  elseBranch : ∀ depth, Agree (Unplaced.elseBranch .float) (Reader.elseBranch fuel depth)
    (Reader.elseBranch fuel depth)
  loop : ∀ depth, Agree (Unplaced.stmt .float) (Reader.loop fuel depth) (Reader.loop fuel depth)
  headerStart : ∀ depth, Agree (Unplaced.optionalStmt .float) (Reader.headerStart fuel depth)
    (Reader.headerStart fuel depth)
  loopCondition : ∀ depth, Agree (Unplaced.optionalExpr .float) (Reader.loopCondition fuel depth)
    (Reader.loopCondition fuel depth)
  loopPost : ∀ depth, Agree (Unplaced.optionalStmt .float) (Reader.loopPost fuel depth) (Reader.loopPost fuel depth)
  switch : ∀ depth, Agree (Unplaced.stmt .float) (Reader.switch fuel depth) (Reader.switch fuel depth)
  switchHeader : ∀ depth, Agree unplacedHeader (Reader.switchHeader fuel depth) (Reader.switchHeader fuel depth)
  cases : ∀ depth sawDefault, Agree (Unplaced.cases .float) (Reader.cases fuel depth sawDefault)
    (Reader.cases fuel depth sawDefault)
  caseRest : ∀ depth sawDefault {label again} location place,
    Unplaced.caseLabel .float again = Unplaced.caseLabel .float label →
    Agree (Unplaced.cases .float) (Reader.caseRest fuel depth sawDefault label location)
      (Reader.caseRest fuel depth sawDefault again place)

namespace TreesAgree

theorem zero : TreesAgree 0 where
  expression _ := .exhausted
  binary _ _ := .exhausted
  binaryRest _ _ _ _ _ := .exhausted
  unary _ := .exhausted
  unaryOperand _ _ _ _ := .exhausted
  calls _ _ _ _ := .exhausted
  arguments _ := .exhausted
  primary _ := .exhausted
  functionRest _ _ _ := .exhausted
  expressions _ := .exhausted
  block _ := .exhausted
  statements _ _ := .exhausted
  moreStatements _ _ := .exhausted
  statement _ := .exhausted
  simple _ := .exhausted
  varDecl _ := .exhausted
  constDecl _ := .exhausted
  valueSpec _ _ := .exhausted
  conditional _ := .exhausted
  elseBranch _ := .exhausted
  loop _ := .exhausted
  headerStart _ := .exhausted
  loopCondition _ := .exhausted
  loopPost _ := .exhausted
  switch _ := .exhausted
  switchHeader _ := .exhausted
  cases _ _ := .exhausted
  caseRest _ _ _ _ _ _ _ := .exhausted

variable (agree : TreesAgree fuel)
include agree

theorem binaryRest_succ {depth level : Nat} {left again : Expr}
    (same : Unplaced.expr .float again = Unplaced.expr .float left) :
    Agree (Unplaced.expr .float) (Reader.binaryRest (fuel + 1) depth level left)
      (Reader.binaryRest (fuel + 1) depth level again) := by
  unfold Reader.binaryRest
  refine .peekWord fun word => ?_
  split
  · split
    · refine .advance fun _ _ _ => (agree.binary depth (level + 1)).bind fun right other sameRight => ?_
      refine agree.binaryRest depth level ?_
      rw [Unplaced.expr, Unplaced.expr, same, sameRight]
    · exact .pure same
  · exact .pure same

theorem unary_succ : Agree (Unplaced.expr .float) (Reader.unary (fuel + 1) depth) (Reader.unary (fuel + 1) depth) := by
  unfold Reader.unary
  refine .peekWord fun word => ?_
  split
  · refine .advance fun _ _ _ => .peekWord fun next => ?_
    split
    · split
      · exact .advance fun _ _ _ => .pure rfl
      · exact agree.unaryOperand depth .negate _ _
    · exact agree.unaryOperand depth .negate _ _
  · exact .advance fun _ _ _ => agree.unaryOperand depth .plus _ _
  · exact .advance fun _ _ _ => agree.unaryOperand depth .not _ _
  · exact .advance fun _ _ _ => agree.unaryOperand depth .bitNot _ _
  · exact (agree.primary depth).bind fun _ _ same => agree.calls depth same

theorem calls_succ {callee again : Expr} (same : Unplaced.expr .float again = Unplaced.expr .float callee) :
    Agree (Unplaced.expr .float) (Reader.calls (fuel + 1) depth callee) (Reader.calls (fuel + 1) depth again) := by
  unfold Reader.calls
  refine .atMark fun found => ?_
  split
  · refine .advance fun _ _ _ => (agree.arguments depth).bind fun _ _ sameArgs => ?_
    refine Agree.expectMark.bind fun _ _ _ => agree.calls depth ?_
    rw [Unplaced.expr, Unplaced.expr, same, sameArgs]
  · exact .pure same

theorem primary_succ :
    Agree (Unplaced.expr .float) (Reader.primary (fuel + 1) depth) (Reader.primary (fuel + 1) depth) := by
  unfold Reader.primary
  refine .peek fun token again same => ?_
  rw [same]
  split
  · refine .advance fun _ _ _ => ?_
    split
    · exact .pure rfl
    · exact .fail
  · exact .advance fun _ _ _ => .pure rfl
  · exact .advance fun _ _ _ => .pure rfl
  · refine .advance fun _ _ _ => .atMark fun found => ?_
    split
    · exact .advance fun _ _ _ => Agree.expectName.also fun _ => .pure rfl
    · exact .pure rfl
  · refine .advance fun _ _ _ => (agree.expression depth).bind fun _ _ sameInner => ?_
    exact Agree.expectMark.bind fun _ _ _ => .pure sameInner
  · exact .advance fun _ _ _ => (agree.functionRest depth _ _).bind fun _ _ same => .pure (congrArg Expr.function same)
  · exact .refuse

theorem arguments_succ :
    Agree (Unplaced.exprs .float) (Reader.arguments (fuel + 1) depth) (Reader.arguments (fuel + 1) depth) := by
  unfold Reader.arguments
  refine .atMark fun found => ?_
  split
  · exact .pure rfl
  · refine (agree.expression depth).bind fun _ _ same => .atMark fun found => ?_
    split
    · refine .advance fun _ _ _ => (agree.arguments depth).bind fun _ _ sameRest => ?_
      exact .pure (congrArg₂ List.cons same sameRest)
    · exact .pure (congrArg₂ List.cons same rfl)

theorem expressions_succ :
    Agree (Unplaced.exprs .float) (Reader.expressions (fuel + 1) depth) (Reader.expressions (fuel + 1) depth) := by
  unfold Reader.expressions
  refine (agree.expression depth).bind fun _ _ same => .atMark fun found => ?_
  split
  · refine .advance fun _ _ _ => (agree.expressions depth).bind fun _ _ sameRest => ?_
    exact .pure (congrArg₂ List.cons same sameRest)
  · exact .pure (congrArg₂ List.cons same rfl)

theorem functionRest_succ {location place : Location} : Agree (Unplaced.function .float)
    (Reader.functionRest (fuel + 1) depth location) (Reader.functionRest (fuel + 1) depth place) := by
  unfold Reader.functionRest
  refine (signature_agree fuel).also fun signature => (agree.block depth).bind fun _ _ same => .pure ?_
  rw [Unplaced.function, Unplaced.function, same]

theorem block_succ : Agree (Unplaced.stmts .float) (Reader.block (fuel + 1) depth) (Reader.block (fuel + 1) depth) := by
  unfold Reader.block
  refine .nested fun depth => Agree.expectMark.bind fun _ _ _ => Agree.skipSemicolons.also fun _ => ?_
  exact (agree.statements depth false).bind fun _ _ same => Agree.expectMark.bind fun _ _ _ => .pure same

theorem statements_succ {inCase : Bool} : Agree (Unplaced.stmts .float) (Reader.statements (fuel + 1) depth inCase)
    (Reader.statements (fuel + 1) depth inCase) := by
  unfold Reader.statements
  refine .peekWord fun word => ?_
  split
  · exact .pure rfl
  · exact .pure rfl
  · split
    · exact .pure rfl
    · exact agree.moreStatements depth inCase
  · split
    · exact .pure rfl
    · exact agree.moreStatements depth inCase
  · exact agree.moreStatements depth inCase

theorem moreStatements_succ {inCase : Bool} : Agree (Unplaced.stmts .float)
    (Reader.moreStatements (fuel + 1) depth inCase) (Reader.moreStatements (fuel + 1) depth inCase) := by
  unfold Reader.moreStatements
  refine (agree.statement depth).bind fun _ _ same => Agree.separate.also fun _ => ?_
  exact (agree.statements depth inCase).bind fun _ _ sameRest => .pure (congrArg₂ List.cons same sameRest)

theorem statement_succ :
    Agree (Unplaced.stmt .float) (Reader.statement (fuel + 1) depth) (Reader.statement (fuel + 1) depth) := by
  unfold Reader.statement
  refine .peek fun token again same => ?_
  rw [same]
  split
  · exact (agree.varDecl depth).bind fun _ _ same => .pure (congrArg Stmt.declare same)
  · exact (agree.constDecl depth).bind fun _ _ same => .pure (congrArg Stmt.declare same)
  · exact (agree.conditional depth).bind fun _ _ same => .pure (congrArg Stmt.ifElse same)
  · exact agree.loop depth
  · exact agree.switch depth
  · refine .advance fun _ _ _ => .peekWord fun next => ?_
    split
    · exact .pure rfl
    · exact .pure rfl
    · refine (agree.expressions depth).bind fun _ _ same => .pure ?_
      rw [Unplaced.stmt, Unplaced.stmt, same]
  · exact .advance fun _ _ _ => .pure rfl
  · exact .advance fun _ _ _ => .pure rfl
  · exact (agree.block depth).bind fun _ _ same => .pure (congrArg Stmt.block same)
  · refine (agree.simple depth).bind fun stmt other same => ?_
    split
    -- An expression is a statement if it is a call, and that does not depend on its places.
    · rename_i expr
      obtain ⟨found, rfl, looks⟩ := expression_of_unplaced same
      dsimp only
      rw [← isCall_unplaced found, looks, isCall_unplaced]
      split
      · exact .pure same
      · exact .fail
    · rename_i plain
      split
      · obtain ⟨found, rfl, _⟩ := expression_of_unplaced same.symm
        exact absurd rfl (plain found)
      · exact .pure same

theorem simple_succ :
    Agree (Unplaced.stmt .float) (Reader.simple (fuel + 1) depth) (Reader.simple (fuel + 1) depth) := by
  unfold Reader.simple
  refine .peek fun _ _ _ => (agree.expressions depth).bind fun exprs others same => .peek fun token again word => ?_
  rw [word]
  split
  · refine (assignable_agree same).also fun names => .advance fun _ _ _ => ?_
    refine (agree.expressions depth).bind fun _ _ sameValues => .pure ?_
    rw [Unplaced.stmt, Unplaced.stmt, sameValues]
  · refine (assignable_agree same).also fun names => .advance fun _ _ _ => ?_
    refine (agree.expressions depth).bind fun _ _ sameValues => .pure ?_
    rw [Unplaced.stmt, Unplaced.stmt, sameValues]
  · exact (singleTarget_agree same).also fun _ => .advance fun _ _ _ => .pure rfl
  · exact (singleTarget_agree same).also fun _ => .advance fun _ _ _ => .pure rfl
  · refine (singleTarget_agree same).also fun _ => .advance fun _ _ _ => ?_
    refine (agree.expression depth).bind fun _ _ sameValue => .pure ?_
    rw [Unplaced.stmt, Unplaced.stmt, sameValue]
  · split
    · obtain ⟨found, rfl, looks⟩ := single_of_unplaced same
      exact .pure (congrArg Stmt.expression looks)
    · exact .refuse

theorem valueSpec_succ {keyword : String} : Agree unplacedSpec (Reader.valueSpec (fuel + 1) depth keyword)
    (Reader.valueSpec (fuel + 1) depth keyword) := by
  unfold Reader.valueSpec
  refine Agree.expectName.also fun first => (moreNames_agree fuel).also fun more => ?_
  refine (optionalType_agree fuel).also fun type? => .atMark fun found => ?_
  split
  · refine .advance fun _ _ _ => (agree.expressions depth).bind fun _ _ same => .pure ?_
    rw [unplacedSpec, unplacedSpec, same]
  · exact .pure rfl

theorem varDecl_succ :
    Agree (Unplaced.valueDecl .float) (Reader.varDecl (fuel + 1) depth) (Reader.varDecl (fuel + 1) depth) := by
  unfold Reader.varDecl
  refine .advance fun _ _ _ => (agree.valueSpec depth "var").bind fun spec again same => ?_
  obtain ⟨names, type?, values⟩ := spec
  obtain ⟨_, _, others⟩ := again
  obtain ⟨rfl, rfl, sameValues⟩ := spec_of_unplaced same
  dsimp only
  rw [← isEmpty_unplaced others, sameValues, isEmpty_unplaced]
  split
  · exact .refuse
  · refine .pure ?_
    rw [Unplaced.valueDecl, Unplaced.valueDecl, sameValues]

theorem constDecl_succ :
    Agree (Unplaced.valueDecl .float) (Reader.constDecl (fuel + 1) depth) (Reader.constDecl (fuel + 1) depth) := by
  unfold Reader.constDecl
  refine .advance fun _ _ _ => (agree.valueSpec depth "const").bind fun spec again same => ?_
  obtain ⟨names, type?, values⟩ := spec
  obtain ⟨_, _, others⟩ := again
  obtain ⟨rfl, rfl, sameValues⟩ := spec_of_unplaced same
  dsimp only
  rw [← isEmpty_unplaced others, sameValues, isEmpty_unplaced]
  split
  · exact .fail
  · refine .pure ?_
    rw [Unplaced.valueDecl, Unplaced.valueDecl, sameValues]

theorem conditional_succ :
    Agree (Unplaced.ifStmt .float) (Reader.conditional (fuel + 1) depth) (Reader.conditional (fuel + 1) depth) := by
  unfold Reader.conditional
  refine .advance fun _ _ _ => .peek fun here there _ => (agree.simple depth).bind fun first again same => ?_
  -- What stands before a semicolon is the statement of the header; with no semicolon it is the condition itself.
  have header : Agree (fun header : Option Stmt × Expr => (Unplaced.optionalStmt .float header.1, Unplaced.expr .float header.2))
      (do
        if ← Reader.atWrittenSemicolon then do
          let _ ← Reader.advance
          let condition ← Reader.expression fuel depth
          Pure.pure (some first, condition)
        else do
          let condition ← Reader.conditionOf here.location first
          Pure.pure (none, condition))
      (do
        if ← Reader.atWrittenSemicolon then do
          let _ ← Reader.advance
          let condition ← Reader.expression fuel depth
          Pure.pure (some again, condition)
        else do
          let condition ← Reader.conditionOf there.location again
          Pure.pure (none, condition)) := by
    refine .atWrittenSemicolon fun found => ?_
    split
    · refine .advance fun _ _ _ => (agree.expression depth).bind fun _ _ sameCondition => .pure ?_
      exact congrArg₂ Prod.mk (congrArg some same) sameCondition
    · exact (conditionOf_agree same).bind fun _ _ sameCondition => .pure (congrArg₂ Prod.mk rfl sameCondition)
  refine header.bind fun both others sameHeader => ?_
  obtain ⟨init, condition⟩ := both
  obtain ⟨init', condition'⟩ := others
  obtain ⟨sameInit, sameCondition⟩ := Prod.mk.inj sameHeader
  dsimp only at sameInit sameCondition
  refine (agree.block depth).bind fun _ _ sameBody => (agree.elseBranch depth).bind fun _ _ sameElse => .pure ?_
  rw [Unplaced.ifStmt, Unplaced.ifStmt, sameInit, sameCondition, sameBody, sameElse]

theorem elseBranch_succ : Agree (Unplaced.elseBranch .float) (Reader.elseBranch (fuel + 1) depth)
    (Reader.elseBranch (fuel + 1) depth) := by
  unfold Reader.elseBranch
  refine .atKeyword fun found => ?_
  split
  · refine .advance fun _ _ _ => .peekWord fun word => ?_
    split
    · exact (agree.conditional depth).bind fun _ _ same => .pure (congrArg ElseBranch.chain same)
    · exact (agree.block depth).bind fun _ _ same => .pure (congrArg ElseBranch.block same)
    · exact .refuse
  · exact .pure rfl

theorem headerStart_succ : Agree (Unplaced.optionalStmt .float) (Reader.headerStart (fuel + 1) depth)
    (Reader.headerStart (fuel + 1) depth) := by
  unfold Reader.headerStart
  refine .atSemicolon fun found => ?_
  split
  · exact .pure rfl
  · exact (agree.simple depth).bind fun _ _ same => .pure (congrArg some same)

theorem loopCondition_succ : Agree (Unplaced.optionalExpr .float) (Reader.loopCondition (fuel + 1) depth)
    (Reader.loopCondition (fuel + 1) depth) := by
  unfold Reader.loopCondition
  refine .atSemicolon fun found => ?_
  split
  · exact .pure rfl
  · exact (agree.expression depth).bind fun _ _ same => .pure (congrArg some same)

theorem loopPost_succ : Agree (Unplaced.optionalStmt .float) (Reader.loopPost (fuel + 1) depth)
    (Reader.loopPost (fuel + 1) depth) := by
  unfold Reader.loopPost
  refine .atMark fun found => ?_
  split
  · exact .pure rfl
  · refine .peek fun _ _ _ => (agree.simple depth).bind fun stmt other same => ?_
    split
    · exact .fail
    · rename_i plain
      split
      · obtain ⟨names, values, location, rfl⟩ := define_of_unplaced same.symm
        exact absurd rfl (plain names values location)
      · exact .pure (congrArg some same)

theorem loop_succ : Agree (Unplaced.stmt .float) (Reader.loop (fuel + 1) depth) (Reader.loop (fuel + 1) depth) := by
  unfold Reader.loop
  refine .advance fun token other _ => .peek fun _ _ _ => .atMark fun found => ?_
  split
  · refine (agree.block depth).bind fun _ _ same => .pure ?_
    rw [Unplaced.stmt, Unplaced.stmt, same]
  · refine (agree.headerStart depth).bind fun first again same => .atSemicolon fun found => ?_
    -- A header in parts, which is read alike whether its first part is missing or ends in a semicolon.
    have parts : Agree (Unplaced.stmt .float)
        (do
          let _ ← Reader.advance
          let condition ← Reader.loopCondition fuel depth
          let _ ← Reader.expectSemicolon .semicolon
          let post ← Reader.loopPost fuel depth
          let body ← Reader.block fuel depth
          Pure.pure (Stmt.loop first condition post body token.location))
        (do
          let _ ← Reader.advance
          let condition ← Reader.loopCondition fuel depth
          let _ ← Reader.expectSemicolon .semicolon
          let post ← Reader.loopPost fuel depth
          let body ← Reader.block fuel depth
          Pure.pure (Stmt.loop again condition post body other.location)) := by
      refine .advance fun _ _ _ => (agree.loopCondition depth).bind fun _ _ sameCondition => ?_
      refine Agree.expectSemicolon.bind fun _ _ _ => (agree.loopPost depth).bind fun _ _ samePost => ?_
      refine (agree.block depth).bind fun _ _ sameBody => .pure ?_
      rw [Unplaced.stmt, Unplaced.stmt, same, sameCondition, samePost, sameBody]
    cases first with
    | none =>
        cases again with
        | none => exact parts
        | some => cases same
    | some stmt =>
        cases again with
        | none => cases same
        | some again =>
            cases found with
            | true => exact parts
            | false =>
                refine (conditionOf_agree (Option.some.inj same)).bind fun _ _ sameCondition => ?_
                refine (agree.block depth).bind fun _ _ sameBody => .pure ?_
                rw [Unplaced.stmt, Unplaced.stmt, sameBody, Unplaced.optionalExpr, Unplaced.optionalExpr, sameCondition]

theorem switch_succ :
    Agree (Unplaced.stmt .float) (Reader.switch (fuel + 1) depth) (Reader.switch (fuel + 1) depth) := by
  unfold Reader.switch
  refine .advance fun _ _ _ => (agree.switchHeader depth).bind fun header again same => ?_
  obtain ⟨init, tag⟩ := header
  obtain ⟨init', tag'⟩ := again
  obtain ⟨sameInit, sameTag⟩ := Prod.mk.inj same
  dsimp only at sameInit sameTag
  refine Agree.expectMark.bind fun _ _ _ => Agree.skipSemicolons.also fun _ => ?_
  refine (agree.cases depth false).bind fun _ _ sameCases => Agree.expectMark.bind fun _ _ _ => .pure ?_
  rw [Unplaced.stmt, Unplaced.stmt, sameInit, sameTag, sameCases]

theorem switchHeader_succ :
    Agree unplacedHeader (Reader.switchHeader (fuel + 1) depth) (Reader.switchHeader (fuel + 1) depth) := by
  unfold Reader.switchHeader
  refine .atMark fun found => ?_
  split
  · exact .pure rfl
  · refine .peek fun here there _ => (agree.headerStart depth).bind fun first again same => .atSemicolon fun found => ?_
    -- A statement and a semicolon, with or without a tag behind them.
    have parts : Agree unplacedHeader
        (do
          let _ ← Reader.advance
          if ← Reader.atMark .leftBrace then Pure.pure (first, none)
          else do
            let tag ← Reader.expression fuel depth
            Pure.pure (first, some tag))
        (do
          let _ ← Reader.advance
          if ← Reader.atMark .leftBrace then Pure.pure (again, none)
          else do
            let tag ← Reader.expression fuel depth
            Pure.pure (again, some tag)) := by
      refine .advance fun _ _ _ => .atMark fun found => ?_
      split
      · exact .pure (congrArg₂ Prod.mk same rfl)
      · exact (agree.expression depth).bind fun _ _ sameTag => .pure (congrArg₂ Prod.mk same (congrArg some sameTag))
    cases first with
    | none =>
        cases again with
        | none => exact parts
        | some => cases same
    | some stmt =>
        cases again with
        | none => cases same
        | some again =>
            cases found with
            | true => exact parts
            | false =>
                refine (conditionOf_agree (Option.some.inj same)).bind fun _ _ sameTag => .pure ?_
                exact congrArg₂ Prod.mk rfl (congrArg some sameTag)

theorem cases_succ {sawDefault : Bool} : Agree (Unplaced.cases .float) (Reader.cases (fuel + 1) depth sawDefault)
    (Reader.cases (fuel + 1) depth sawDefault) := by
  unfold Reader.cases
  refine .peek fun token again word => ?_
  rw [word]
  split
  · exact .pure rfl
  · refine .advance fun _ _ _ => (agree.expressions depth).bind fun _ _ same => ?_
    exact agree.caseRest depth sawDefault _ _ (congrArg CaseLabel.values same)
  · split
    · exact .fail
    · exact .advance fun _ _ _ => agree.caseRest depth true _ _ rfl
  · exact .refuse

theorem caseRest_succ {sawDefault : Bool} {label again : CaseLabel} {location place : Location}
    (same : Unplaced.caseLabel .float again = Unplaced.caseLabel .float label) :
    Agree (Unplaced.cases .float) (Reader.caseRest (fuel + 1) depth sawDefault label location)
      (Reader.caseRest (fuel + 1) depth sawDefault again place) := by
  unfold Reader.caseRest
  refine Agree.expectMark.bind fun _ _ _ => Agree.skipSemicolons.also fun _ => ?_
  refine (agree.statements depth true).bind fun _ _ sameBody => ?_
  refine (agree.cases depth sawDefault).bind fun _ _ sameRest => .pure (congrArg₂ List.cons ?_ sameRest)
  rw [Unplaced.switchCase, Unplaced.switchCase, same, sameBody]

theorem succ : TreesAgree (fuel + 1) where
  expression _ := by
    unfold Reader.expression
    exact .nested fun depth => agree.binary depth 1
  binary depth level := by
    unfold Reader.binary
    split
    · exact agree.unary depth
    · exact (agree.binary depth (level + 1)).bind fun _ _ same => agree.binaryRest depth level same
  binaryRest _ _ _ _ := agree.binaryRest_succ
  unary _ := agree.unary_succ
  unaryOperand _ op _ _ := by
    unfold Reader.unaryOperand
    refine (Agree.nested fun depth => agree.unary depth).bind fun _ _ same => .pure ?_
    rw [Unplaced.expr, Unplaced.expr, same]
  calls _ _ _ := agree.calls_succ
  arguments _ := agree.arguments_succ
  primary _ := agree.primary_succ
  functionRest _ _ _ := agree.functionRest_succ
  expressions _ := agree.expressions_succ
  block _ := agree.block_succ
  statements _ _ := agree.statements_succ
  moreStatements _ _ := agree.moreStatements_succ
  statement _ := agree.statement_succ
  simple _ := agree.simple_succ
  varDecl _ := agree.varDecl_succ
  constDecl _ := agree.constDecl_succ
  valueSpec _ _ := agree.valueSpec_succ
  conditional _ := agree.conditional_succ
  elseBranch _ := agree.elseBranch_succ
  loop _ := agree.loop_succ
  headerStart _ := agree.headerStart_succ
  loopCondition _ := agree.loopCondition_succ
  loopPost _ := agree.loopPost_succ
  switch _ := agree.switch_succ
  switchHeader _ := agree.switchHeader_succ
  cases _ _ := agree.cases_succ
  caseRest _ _ _ _ _ _ := agree.caseRest_succ

end TreesAgree

theorem treesAgree (fuel : Nat) : TreesAgree fuel := by
  induction fuel with
  | zero => exact .zero
  | succ fuel ih => exact ih.succ

/-! ## Files -/

theorem importSpec_agree : Agree Unplaced.importSpec Reader.importSpec Reader.importSpec := by
  unfold Reader.importSpec
  refine .peek fun here there word => ?_
  rw [word]
  refine Agree.also ?_ fun alias? => .peekWord fun word => ?_
  · split
    · exact .advance fun _ _ _ => .pure rfl
    · exact .pure rfl
  · split
    · exact .advance fun _ _ _ => .pure rfl
    · exact .refuse

theorem importSpecs_agree (fuel : Nat) :
    Agree (List.map Unplaced.importSpec) (Reader.importSpecs fuel) (Reader.importSpecs fuel) := by
  induction fuel with
  | zero => exact .exhausted
  | succ fuel ih =>
      unfold Reader.importSpecs
      refine .atMark fun found => ?_
      split
      · exact .pure rfl
      · refine importSpec_agree.bind fun first again same => .atMark fun found => ?_
        have behind : Agree (List.map Unplaced.importSpec)
            (do let rest ← Reader.importSpecs fuel; Pure.pure (first :: rest))
            (do let rest ← Reader.importSpecs fuel; Pure.pure (again :: rest)) :=
          ih.bind fun _ _ sameRest => .pure (congrArg₂ List.cons same sameRest)
        split
        · exact Agree.skipSemicolons.also fun _ => behind
        · exact Agree.expectSemicolon.bind fun _ _ _ => Agree.skipSemicolons.also fun _ => behind

theorem importDecl_agree (fuel : Nat) :
    Agree (List.map Unplaced.importSpec) (Reader.importDecl fuel) (Reader.importDecl fuel) := by
  unfold Reader.importDecl
  refine .advance fun _ _ _ => .atMark fun found => ?_
  split
  · refine .advance fun _ _ _ => Agree.skipSemicolons.also fun _ => (importSpecs_agree fuel).bind fun _ _ same => ?_
    exact Agree.expectMark.bind fun _ _ _ => .pure same
  · exact importSpec_agree.bind fun _ _ same => .pure (congrArg (fun spec => [spec]) same)

theorem imports_agree (fuel : Nat) :
    Agree (List.map Unplaced.importSpec) (Reader.imports fuel) (Reader.imports fuel) := by
  induction fuel with
  | zero => exact .exhausted
  | succ fuel ih =>
      unfold Reader.imports
      refine .atKeyword fun found => ?_
      split
      · refine (importDecl_agree fuel).bind fun _ _ same => Agree.terminate.also fun _ => ?_
        refine Agree.skipSemicolons.also fun _ => ih.bind fun _ _ sameRest => .pure ?_
        rw [List.map_append, List.map_append, same, sameRest]
      · exact .pure rfl

theorem declaration_agree (fuel : Nat) :
    Agree (Unplaced.decl .float) (Reader.declaration fuel) (Reader.declaration fuel) := by
  have agree := treesAgree fuel
  unfold Reader.declaration
  refine .peek fun token again word => ?_
  rw [word]
  split
  · exact .fail
  · unfold Reader.functionDecl
    refine .advance fun _ _ _ => Agree.expectName.also fun name => (agree.functionRest 0 _ _).bind fun _ _ same => ?_
    exact .pure (congrArg (Decl.function name) same)
  · exact (agree.varDecl 0).bind fun _ _ same => .pure (congrArg Decl.values same)
  · exact (agree.constDecl 0).bind fun _ _ same => .pure (congrArg Decl.values same)
  · exact .refuse

theorem declarations_agree (fuel : Nat) :
    Agree (List.map (Unplaced.decl .float)) (Reader.declarations fuel) (Reader.declarations fuel) := by
  induction fuel with
  | zero => exact .exhausted
  | succ fuel ih =>
      unfold Reader.declarations
      refine .peekWord fun word => ?_
      split
      · exact .pure rfl
      · refine (declaration_agree fuel).bind fun _ _ same => Agree.terminate.also fun _ => ?_
        refine Agree.skipSemicolons.also fun _ => ih.bind fun _ _ sameRest => ?_
        exact .pure (congrArg₂ List.cons same sameRest)

theorem file_agree (fuel : Nat) : Agree unplaced (Reader.file fuel) (Reader.file fuel) := by
  unfold Reader.file
  refine Agree.skipSemicolons.also fun _ => Agree.expectKeyword.bind fun _ _ _ => ?_
  refine Agree.expectName.also fun package => Agree.terminate.also fun _ => Agree.skipSemicolons.also fun _ => ?_
  refine (imports_agree fuel).bind fun _ _ sameImports => (declarations_agree fuel).bind fun _ _ sameDecls => .pure ?_
  rw [unplaced, Unplaced.program, Unplaced.program, sameImports, sameDecls]

theorem parse_agree {program : Program} (same : others.map (·.word) = tokens.map (·.word))
    (read : parse tokens = .ok program) :
    ∃ again, parse others = .ok again ∧ unplaced again = unplaced program := by
  have words := SameWords.of_map same
  have fuel : Reader.fuelFor others = Reader.fuelFor tokens := by
    unfold Reader.fuelFor
    rw [words.length]
  obtain ⟨rest, gave⟩ := parse_ok read
  obtain ⟨again, left, other, looks, _⟩ := file_agree _ _ _ words _ _ gave
  refine ⟨again, ?_, looks⟩
  unfold parse Reader.run StateT.run
  rw [fuel, other]

/-! ## Texts -/

/-- A gap that is inserted behind a token, and begins with a blank, leaves the file that a text stands for as it is up
to places, unless the token ends a statement and the gap has a line break. -/
theorem parseText_widened {source : String} {program : Program} {tokens : List Token} {token : Token} {run : List Char}
    (read : parseText source = .ok program) (lexed : tokenize source = .ok tokens) (member : token ∈ tokens)
    (written : Lexer.isExplicit token = true) (isGap : Lexer.IsGap run) (blank : run.head? = some ' ')
    (flat : token.word.endsStatement = true → '\n' ∉ run) :
    ∃ again, parseText (Lexer.widened source token run) = .ok again ∧ unplaced again = unplaced program := by
  obtain ⟨found, lexed', parsed⟩ := parseText_ok read
  obtain rfl := Except.ok.inj (lexed.symm.trans lexed')
  obtain ⟨others, widened, same⟩ := Lexer.tokenize_widened lexed member written isGap blank flat
  obtain ⟨again, reread, looks⟩ := parse_agree same parsed
  refine ⟨again, ?_, looks⟩
  rw [parseText_eq widened, reread]
  rfl

def variableTokens : List Token :=
  [⟨.keyword .packageWord, "package", ⟨1, 1⟩⟩, ⟨.identifier "p", "p", ⟨1, 9⟩⟩, ⟨.semicolon true, "\n", ⟨1, 10⟩⟩,
   ⟨.keyword .varWord, "var", ⟨2, 1⟩⟩, ⟨.identifier "x", "x", ⟨2, 5⟩⟩, ⟨.mark .assign, "=", ⟨2, 7⟩⟩,
   ⟨.identifier "y", "y", ⟨2, 9⟩⟩, ⟨.semicolon true, "\n", ⟨2, 10⟩⟩, ⟨.endOfInput, "", ⟨3, 1⟩⟩]

def commentGap : List Char := [' ', '/', '/', 'c', '\n', '/', '*', '\n', '*', '/', ' ']

theorem isGap_commentGap : Lexer.IsGap commentGap :=
  .blank (by decide) (@Lexer.IsGap.lineComment ['c'] _ (by decide)
    (@Lexer.IsGap.blockComment ['\n'] _ (by decide) (.blank (by decide) .nil)))

/-- Both comments may stand behind the mark of an assignment. -/
theorem parseText_widened_assign :
    parseText "package p\nvar x = y\n" = .ok ⟨"p", [], [.values ⟨false, ["x"], none, [.identifier "y" ⟨2, 9⟩], ⟨2, 1⟩⟩]⟩ ∧
    tokenize "package p\nvar x = y\n" = .ok variableTokens ∧
    ⟨.mark .assign, "=", ⟨2, 7⟩⟩ ∈ variableTokens ∧ Lexer.IsGap commentGap ∧
    ∃ again, parseText (Lexer.widened "package p\nvar x = y\n" ⟨.mark .assign, "=", ⟨2, 7⟩⟩ commentGap) = .ok again ∧
      unplaced again = unplaced ⟨"p", [], [.values ⟨false, ["x"], none, [.identifier "y" ⟨2, 9⟩], ⟨2, 1⟩⟩]⟩ := by
  have read : parseText "package p\nvar x = y\n"
      = .ok ⟨"p", [], [.values ⟨false, ["x"], none, [.identifier "y" ⟨2, 9⟩], ⟨2, 1⟩⟩]⟩ := by
    cbv
  have lexed : tokenize "package p\nvar x = y\n" = .ok variableTokens := by
    unfold variableTokens
    cbv
  have member : ⟨.mark .assign, "=", ⟨2, 7⟩⟩ ∈ variableTokens := by simp [variableTokens]
  have flat : (Word.mark .assign).endsStatement = true → '\n' ∉ commentGap := fun ends => absurd ends (by decide)
  exact ⟨read, lexed, member, isGap_commentGap, parseText_widened read lexed member rfl isGap_commentGap rfl flat⟩

end MiniGo.Syntax
