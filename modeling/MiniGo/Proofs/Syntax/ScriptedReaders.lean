import MiniGo.Proofs.Syntax.Scripts

/-!
# The readers follow their scripts

Going through the script of a routine, with the readers below for the routines that it starts, is what the reader
of the routine does (`read_eq`).
-/

namespace MiniGo.Syntax

variable {α β : Type} {below : (routine : Routine) → routine.Args → Reader routine.Result} {fuel : Nat}

attribute [local simp] read Script.sub Script.perform

namespace Script

@[simp] theorem perform_pure (value : α) : (pure value : Script α).perform below = pure value := rfl

@[simp] theorem perform_stop (error : SyntaxError) : (stop error : Script α).perform below = Reader.fail error := rfl

@[simp] theorem perform_bind (script : Script α) (next : α → Script β) :
    (script >>= next).perform below = script.perform below >>= fun value => (next value).perform below := by
  -- Each step but a look is a reader with a script behind it, of which the induction knows.
  have later {γ : Type} (front : Reader γ) (behind : γ → Script α)
      (ih : ∀ value, (behind value >>= next).perform below
        = (behind value).perform below >>= fun value => (next value).perform below) :
      (front >>= fun value => (behind value >>= next).perform below)
        = (front >>= fun value => (behind value).perform below) >>= fun value => (next value).perform below :=
    (congrArg (front >>= ·) (funext ih)).trans (bind_assoc front _ _).symm
  induction script with
  | done value => exact (pure_bind value fun value => (next value).perform below).symm
  | stop error => rfl
  | look behind ih =>
      funext tokens
      exact congrFun (ih (Reader.head tokens) (Reader.second tokens)) tokens
  | take behind ih => exact later Reader.advance behind ih
  | start routine args behind ih => exact later (below routine args) behind ih

@[simp] theorem perform_ite {condition : Prop} [Decidable condition] (yes no : Script α) :
    (if condition then yes else no).perform below = if condition then yes.perform below else no.perform below :=
  apply_ite (perform below) condition yes no

@[simp] theorem perform_peek : peek.perform below = Reader.peek := rfl

@[simp] theorem perform_peekWord : peekWord.perform below = Reader.peekWord := rfl

@[simp] theorem perform_peekSecond : peekSecond.perform below = Reader.peekSecond := rfl

@[simp] theorem perform_advance : advance.perform below = Reader.advance := rfl

@[simp] theorem perform_refuse (expected : Expected) :
    (refuse expected : Script α).perform below = Reader.refuse expected := rfl

@[simp] theorem perform_atMark (mark : Mark) : (atMark mark).perform below = Reader.atMark mark := rfl

@[simp] theorem perform_atKeyword (keyword : Keyword) :
    (atKeyword keyword).perform below = Reader.atKeyword keyword := rfl

@[simp] theorem perform_atSemicolon : atSemicolon.perform below = Reader.atSemicolon := rfl

@[simp] theorem perform_atWrittenSemicolon : atWrittenSemicolon.perform below = Reader.atWrittenSemicolon := rfl

@[simp] theorem perform_expectMark (mark : Mark) (expected : Expected) :
    (expectMark mark expected).perform below = Reader.expectMark mark expected := by
  simp [expectMark, Reader.expectMark]

@[simp] theorem perform_expectKeyword (keyword : Keyword) (expected : Expected) :
    (expectKeyword keyword expected).perform below = Reader.expectKeyword keyword expected := by
  simp [expectKeyword, Reader.expectKeyword]

@[simp] theorem perform_expectSemicolon (expected : Expected) :
    (expectSemicolon expected).perform below = Reader.expectSemicolon expected := by
  simp [expectSemicolon, Reader.expectSemicolon]

@[simp] theorem perform_expectName (expected : Expected) :
    (expectName expected).perform below = Reader.expectName expected := by
  simp only [expectName, Reader.expectName, perform_bind, perform_peekWord]
  refine bind_congr fun word => ?_
  cases word <;> rfl

@[simp] theorem perform_terminate : terminate.perform below = Reader.terminate := by
  simp only [terminate, Reader.terminate, perform_bind, perform_peekWord]
  refine bind_congr fun word => ?_
  cases word with
  | mark mark => cases mark <;> rfl
  | _ => rfl

@[simp] theorem perform_separate : separate.perform (read fuel) = Reader.separate := by
  simp [separate, Reader.separate]

@[simp] theorem perform_nested (depth : Nat) (inner : Nat → Script α) :
    (nested depth inner).perform below = Reader.nested depth fun depth => (inner depth).perform below := by
  simp [nested, Reader.nested]

@[simp] theorem perform_assignable (mark : String) (exprs : List Expr) :
    (assignable mark exprs).perform below = Reader.assignable mark exprs := by
  induction exprs with
  | nil => rfl
  | cons expr exprs ih =>
      cases expr with
      | identifier name location =>
          change (assignable mark exprs >>= fun names => pure (name :: names)).perform below = _
          rw [perform_bind, ih]
          rfl
      | _ => rfl

@[simp] theorem perform_singleTarget (mark : String) (exprs : List Expr) :
    (singleTarget mark exprs).perform below = Reader.singleTarget mark exprs := by
  simp only [singleTarget, Reader.singleTarget, perform_bind, perform_ite, perform_assignable, perform_pure]
  refine bind_congr fun names => ?_
  rcases names with _ | ⟨name, _ | ⟨second, rest⟩⟩ <;> rfl

@[simp] theorem perform_conditionOf (location : Location) (stmt : Stmt) :
    (conditionOf location stmt).perform below = Reader.conditionOf location stmt := by
  cases stmt <;> rfl

end Script

theorem read_skip : Reader.skipSemicolons = (script .skip ()).perform (read fuel) := by
  funext tokens
  cases tokens with
  | nil => rfl
  | cons token tokens =>
      simp only [script, Script.perform_bind, Script.perform_atSemicolon, Script.perform_ite]
      change Except.ok ((), (token :: tokens).dropWhile Reader.isSemicolon)
        = (if Reader.isSemicolon token then _ else _ : Reader Unit) (token :: tokens)
      rw [List.dropWhile_cons]
      cases ahead : Reader.isSemicolon token with
      | true =>
          change _ = Reader.skipSemicolons (Reader.tail (token :: tokens))
          rw [tail_of_word (inner_of_isSemicolon ahead)]
          rfl
      | false => rfl

/-! ## Types -/

theorem read_type : Reader.type (fuel + 1) = (script .type ()).perform (read fuel) := by
  simp only [Reader.type, script, Script.perform_bind, Script.perform_peekWord]
  refine bind_congr fun word => ?_
  split <;> simp

theorem read_parameters : Reader.parameters (fuel + 1) = (script .parameters ()).perform (read fuel) := by
  simp only [Reader.parameters, script, Script.perform_bind, Script.perform_expectMark]
  refine bind_congr fun opening => ?_
  simp only [Script.sub, Script.perform, bind_pure, read]
  refine bind_congr fun found => bind_congr fun _ => ?_
  cases Reader.groupEntries found <;> rfl

theorem read_entry : Reader.entry (fuel + 1) = (script .entry ()).perform (read fuel) := by
  simp only [Reader.entry, script, Script.perform_bind, Script.perform_peekWord, Script.perform_peekSecond]
  refine bind_congr fun word => bind_congr fun second => ?_
  split <;> simp

theorem read_results : Reader.results (fuel + 1) = (script .results ()).perform (read fuel) := by
  simp only [Reader.results, script, Script.perform_bind, Script.perform_peekWord]
  refine bind_congr fun word => ?_
  split <;> simp

theorem read_signature : Reader.signature fuel = (script .signature ()).perform (read fuel) := by
  simp only [Reader.signature, script, Script.perform_bind, Script.perform_peek, Script.sub, Script.perform, bind_pure,
    read]
  refine bind_congr fun here => bind_congr fun params => ?_
  cases Reader.namedParameters params <;> simp

theorem read_optionalType : Reader.optionalType fuel = (script .optionalType ()).perform (read fuel) := by
  simp only [Reader.optionalType, script, Script.perform_bind, Script.perform_peekWord]
  refine bind_congr fun word => ?_
  split <;> simp

/-! ## Expressions -/

theorem read_binaryRest (depth level : Nat) (left : Expr) :
    Reader.binaryRest (fuel + 1) depth level left = (script (.binaryRest level) (depth, left)).perform (read fuel) := by
  simp only [Reader.binaryRest, script, Script.perform_bind, Script.perform_peekWord]
  refine bind_congr fun word => ?_
  split <;> simp

theorem read_unary (depth : Nat) : Reader.unary (fuel + 1) depth = (script .unary depth).perform (read fuel) := by
  simp only [Reader.unary, script, Script.perform_bind, Script.perform_peekWord]
  refine bind_congr fun word => ?_
  split
  · simp only [Script.perform_bind, Script.perform_advance, Script.perform_peekWord]
    refine bind_congr fun sign => bind_congr fun behind => ?_
    split <;> simp
  all_goals simp

theorem read_primary (depth : Nat) :
    Reader.primary (fuel + 1) depth = (script .primary depth).perform (read fuel) := by
  simp only [Reader.primary, script, Script.perform_bind, Script.perform_peek]
  refine bind_congr fun token => ?_
  generalize token.word = word
  split <;> simp

/-! ## Statements -/

theorem read_statements (depth : Nat) (inCase : Bool) :
    Reader.statements (fuel + 1) depth inCase = (script .statements (depth, inCase)).perform (read fuel) := by
  simp only [Reader.statements, script, Script.perform_bind, Script.perform_peekWord]
  refine bind_congr fun word => ?_
  split <;> simp

theorem read_statement (depth : Nat) :
    Reader.statement (fuel + 1) depth = (script .statement depth).perform (read fuel) := by
  simp only [Reader.statement, script, Script.perform_bind, Script.perform_peek]
  refine bind_congr fun token => ?_
  generalize token.word = word
  split
  case h_6 =>
    simp only [Script.perform_bind, Script.perform_advance, Script.perform_peekWord]
    refine bind_congr fun _ => bind_congr fun behind => ?_
    split <;> simp
  case h_10 =>
    simp only [Script.perform_bind, Script.sub, Script.perform, bind_pure, read]
    refine bind_congr fun found => ?_
    split <;> simp
  all_goals simp

theorem read_simple (depth : Nat) : Reader.simple (fuel + 1) depth = (script .simple depth).perform (read fuel) := by
  simp only [Reader.simple, script, Script.perform_bind, Script.perform_peek, Script.sub, Script.perform, bind_pure,
    read]
  refine bind_congr fun here => bind_congr fun exprs => bind_congr fun token => ?_
  generalize token.word = word
  split
  case h_6 => split <;> simp
  all_goals simp

theorem read_elseBranch (depth : Nat) :
    Reader.elseBranch (fuel + 1) depth = (script .elseBranch depth).perform (read fuel) := by
  simp only [Reader.elseBranch, script, Script.perform_bind, Script.perform_atKeyword, Script.perform_ite,
    Script.perform_advance, Script.perform_peekWord, Script.perform_pure]
  refine bind_congr fun found => ?_
  split
  · refine bind_congr fun _ => bind_congr fun word => ?_
    split <;> simp
  · rfl

theorem read_loop (depth : Nat) : Reader.loop (fuel + 1) depth = (script .loop depth).perform (read fuel) := by
  simp only [Reader.loop, script, Script.perform_bind, Script.perform_advance, Script.perform_peek,
    Script.perform_atMark, Script.perform_atSemicolon, Script.perform_ite, Script.sub, Script.perform, bind_pure, read]
  refine bind_congr fun token => bind_congr fun here => bind_congr fun found => ?_
  split
  · simp
  · refine bind_congr fun first => bind_congr fun ends => ?_
    split <;> simp

theorem read_loopPost (depth : Nat) :
    Reader.loopPost (fuel + 1) depth = (script .loopPost depth).perform (read fuel) := by
  simp only [Reader.loopPost, script, Script.perform_bind, Script.perform_peek, Script.perform_atMark,
    Script.perform_ite, Script.perform_pure, Script.sub, Script.perform, bind_pure, read]
  refine bind_congr fun found => ?_
  split
  · rfl
  · refine bind_congr fun here => bind_congr fun post => ?_
    cases post <;> rfl

theorem read_switchHeader (depth : Nat) :
    Reader.switchHeader (fuel + 1) depth = (script .switchHeader depth).perform (read fuel) := by
  simp only [Reader.switchHeader, script, Script.perform_bind, Script.perform_peek, Script.perform_pure,
    Script.perform_atMark, Script.perform_atSemicolon, Script.perform_ite, Script.sub, Script.perform, bind_pure, read]
  refine bind_congr fun found => ?_
  split
  · rfl
  · refine bind_congr fun here => bind_congr fun first => bind_congr fun ends => ?_
    split <;> simp

theorem read_cases (depth : Nat) (sawDefault : Bool) :
    Reader.cases (fuel + 1) depth sawDefault = (script .cases (depth, sawDefault)).perform (read fuel) := by
  simp only [Reader.cases, script, Script.perform_bind, Script.perform_peek]
  refine bind_congr fun token => ?_
  generalize token.word = word
  split <;> simp

/-! ## Files -/

theorem read_importSpec : Reader.importSpec = (script .importSpec ()).perform (read fuel) := by
  simp only [Reader.importSpec, script, Script.perform_bind, Script.perform_peek]
  refine bind_congr fun here => ?_
  simp only [Script.perform_peekWord]
  generalize here.word = word
  refine Eq.trans (bind_congr fun alias? => bind_congr fun behind => ?_) (congrArg (· >>= _) ?_)
  · cases behind <;> rfl
  · cases word <;> rfl

theorem read_declaration : Reader.declaration fuel = (script .declaration ()).perform (read fuel) := by
  simp only [Reader.declaration, script, Script.perform_bind, Script.perform_peek]
  refine bind_congr fun token => ?_
  generalize token.word = word
  split <;> simp

theorem read_declarations : Reader.declarations (fuel + 1) = (script .declarations ()).perform (read fuel) := by
  simp only [Reader.declarations, script, Script.perform_bind, Script.perform_peekWord]
  refine bind_congr fun word => ?_
  split <;> simp

/-- A reader with fuel follows its script; it gives the readers below it no less than one unit short of its own. -/
theorem read_eq (routine : Routine) (args : routine.Args) (given : 0 < fuel) :
    ∃ left, fuel ≤ left + 1 ∧ read fuel routine args = (script routine args).perform (read left) := by
  obtain ⟨left, rfl⟩ := Nat.exists_eq_add_of_lt given
  rw [Nat.zero_add]
  -- Readers that only pass on to another spend no fuel of their own.
  cases routine with
  | skip => exact ⟨left, Nat.le_refl _, read_skip⟩
  | type => exact ⟨left, Nat.le_refl _, read_type⟩
  | parameters => exact ⟨left, Nat.le_refl _, read_parameters⟩
  | entries => exact ⟨left, Nat.le_refl _, by simp [Reader.entries, script]⟩
  | entry => exact ⟨left, Nat.le_refl _, read_entry⟩
  | results => exact ⟨left, Nat.le_refl _, read_results⟩
  | signature => exact ⟨left + 1, Nat.le_succ _, read_signature⟩
  | moreNames => exact ⟨left, Nat.le_refl _, by simp [Reader.moreNames, script]⟩
  | optionalType => exact ⟨left + 1, Nat.le_succ _, read_optionalType⟩
  | expression => exact ⟨left, Nat.le_refl _, by simp [Reader.expression, script]⟩
  | binary level => exact ⟨left, Nat.le_refl _, by simp [Reader.binary, script]⟩
  | binaryRest level => exact ⟨left, Nat.le_refl _, read_binaryRest args.1 level args.2⟩
  | unary => exact ⟨left, Nat.le_refl _, read_unary args⟩
  | unaryOperand => exact ⟨left, Nat.le_refl _, by simp [Reader.unaryOperand, script]⟩
  | calls => exact ⟨left, Nat.le_refl _, by simp [Reader.calls, script]⟩
  | arguments => exact ⟨left, Nat.le_refl _, by simp [Reader.arguments, script]⟩
  | primary => exact ⟨left, Nat.le_refl _, read_primary args⟩
  | functionRest => exact ⟨left, Nat.le_refl _, by simp [Reader.functionRest, script]⟩
  | expressions => exact ⟨left, Nat.le_refl _, by simp [Reader.expressions, script]⟩
  | block => exact ⟨left, Nat.le_refl _, by simp [Reader.block, script]⟩
  | statements => exact ⟨left, Nat.le_refl _, read_statements args.1 args.2⟩
  | moreStatements => exact ⟨left, Nat.le_refl _, by simp [Reader.moreStatements, script]⟩
  | statement => exact ⟨left, Nat.le_refl _, read_statement args⟩
  | simple => exact ⟨left, Nat.le_refl _, read_simple args⟩
  | varDecl => exact ⟨left, Nat.le_refl _, by simp [Reader.varDecl, script]⟩
  | constDecl => exact ⟨left, Nat.le_refl _, by simp [Reader.constDecl, script]⟩
  | valueSpec => exact ⟨left, Nat.le_refl _, by simp [Reader.valueSpec, script]⟩
  | conditional => exact ⟨left, Nat.le_refl _, by simp [Reader.conditional, script]⟩
  | elseBranch => exact ⟨left, Nat.le_refl _, read_elseBranch args⟩
  | loop => exact ⟨left, Nat.le_refl _, read_loop args⟩
  | headerStart => exact ⟨left, Nat.le_refl _, by simp [Reader.headerStart, script]⟩
  | loopCondition => exact ⟨left, Nat.le_refl _, by simp [Reader.loopCondition, script]⟩
  | loopPost => exact ⟨left, Nat.le_refl _, read_loopPost args⟩
  | switch => exact ⟨left, Nat.le_refl _, by simp [Reader.switch, script]⟩
  | switchHeader => exact ⟨left, Nat.le_refl _, read_switchHeader args⟩
  | cases => exact ⟨left, Nat.le_refl _, read_cases args.1 args.2⟩
  | caseRest => exact ⟨left, Nat.le_refl _, by simp [Reader.caseRest, script]⟩
  | importSpec => exact ⟨left, Nat.le_refl _, read_importSpec⟩
  | importSpecs => exact ⟨left, Nat.le_refl _, by simp [Reader.importSpecs, script]⟩
  | importDecl => exact ⟨left + 1, Nat.le_succ _, by simp [Reader.importDecl, script]⟩
  | imports => exact ⟨left, Nat.le_refl _, by simp [Reader.imports, script]⟩
  | functionDecl => exact ⟨left + 1, Nat.le_succ _, by simp [Reader.functionDecl, script]⟩
  | declaration => exact ⟨left + 1, Nat.le_succ _, read_declaration⟩
  | declarations => exact ⟨left, Nat.le_refl _, read_declarations⟩
  | file => exact ⟨left + 1, Nat.le_succ _, by simp [Reader.file, script]⟩

end MiniGo.Syntax
