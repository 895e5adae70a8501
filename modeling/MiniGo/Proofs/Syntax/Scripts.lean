import MiniGo.Proofs.Syntax.Rereading

/-!
# What the readers of a file do next

Each reader looks at tokens, takes them, and starts other readers (`Routine`) with less fuel. A script says
which, in which order, and `script` gives the scripts of all readers. So statements about the moments that
reading passes through need one case for each kind of step and not one for each place in the grammar.
-/

namespace MiniGo.Syntax

/-! ## Tokens before the end -/

theorem inner_of_isMark {mark : Mark} {token : Token} (found : isMark mark token.word = true) :
    token.word ≠ .endOfInput := by
  intro final
  rw [final] at found
  cases found

theorem inner_of_isKeyword {keyword : Keyword} {token : Token} (found : isKeyword keyword token.word = true) :
    token.word ≠ .endOfInput := by
  intro final
  rw [final] at found
  cases found

theorem inner_of_isSemicolon {token : Token} (found : Reader.isSemicolon token = true) :
    token.word ≠ .endOfInput := by
  intro final
  rw [isSemicolon_word, final] at found
  cases found

/-! ## Routines -/

/-- A reader of a part of a file. A loop of the grammar is a routine that reads one round and starts itself for
the next one. -/
inductive Routine where
  | skip
  | type
  | parameters
  | entries
  | entry
  | results
  | signature
  | moreNames
  | optionalType
  | expression
  | binary (level : Nat)
  | binaryRest (level : Nat)
  | unary
  | unaryOperand
  | calls
  | arguments
  | primary
  | functionRest
  | expressions
  | block
  | statements
  | moreStatements
  | statement
  | simple
  | varDecl
  | constDecl
  | valueSpec
  | conditional
  | elseBranch
  | loop
  | headerStart
  | loopCondition
  | loopPost
  | switch
  | switchHeader
  | cases
  | caseRest
  | importSpec
  | importSpecs
  | importDecl
  | imports
  | functionDecl
  | declaration
  | declarations
  | file
deriving DecidableEq, Repr

namespace Routine

/-- What a routine is given: the depth of nesting first, if it reads expressions or statements. -/
abbrev Args : Routine → Type
  | expression | binary _ | unary | arguments | primary | expressions | block | statement | simple | varDecl
  | constDecl | conditional | elseBranch | loop | headerStart | loopCondition | loopPost | switch
  | switchHeader => Nat
  | binaryRest _ | calls => Nat × Expr
  | unaryOperand => Nat × UnaryOp × Location
  | functionRest => Nat × Location
  | statements | moreStatements | cases => Nat × Bool
  | valueSpec => Nat × String
  | caseRest => Nat × Bool × CaseLabel × Location
  | _ => Unit

/-- What a routine gives. -/
abbrev Result : Routine → Type
  | skip => Unit
  | type => Ty
  | parameters => List (Option String × Ty)
  | entries => List Reader.Entry
  | entry => Reader.Entry
  | results => List Ty × List String
  | signature => Signature
  | moreNames => List String
  | optionalType => Option Ty
  | expression | binary _ | binaryRest _ | unary | unaryOperand | calls | primary => Expr
  | arguments | expressions => List Expr
  | functionRest => FunctionLiteral
  | block | statements | moreStatements => List Stmt
  | statement | simple | loop | switch => Stmt
  | varDecl | constDecl => ValueDecl
  | valueSpec => List String × Option Ty × List Expr
  | conditional => IfStmt
  | elseBranch => ElseBranch
  | headerStart | loopPost => Option Stmt
  | loopCondition => Option Expr
  | switchHeader => Option Stmt × Option Expr
  | cases | caseRest => List SwitchCase
  | importSpec => Import
  | importSpecs | importDecl | imports => List Import
  | functionDecl | declaration => Decl
  | declarations => List Decl
  | file => Program

end Routine

/-- Reads by a routine. -/
def read (fuel : Nat) : (routine : Routine) → routine.Args → Reader routine.Result
  | .skip, _ => Reader.skipSemicolons
  | .type, _ => Reader.type fuel
  | .parameters, _ => Reader.parameters fuel
  | .entries, _ => Reader.entries fuel
  | .entry, _ => Reader.entry fuel
  | .results, _ => Reader.results fuel
  | .signature, _ => Reader.signature fuel
  | .moreNames, _ => Reader.moreNames fuel
  | .optionalType, _ => Reader.optionalType fuel
  | .expression, depth => Reader.expression fuel depth
  | .binary level, depth => Reader.binary fuel depth level
  | .binaryRest level, (depth, left) => Reader.binaryRest fuel depth level left
  | .unary, depth => Reader.unary fuel depth
  | .unaryOperand, (depth, op, location) => Reader.unaryOperand fuel depth op location
  | .calls, (depth, callee) => Reader.calls fuel depth callee
  | .arguments, depth => Reader.arguments fuel depth
  | .primary, depth => Reader.primary fuel depth
  | .functionRest, (depth, location) => Reader.functionRest fuel depth location
  | .expressions, depth => Reader.expressions fuel depth
  | .block, depth => Reader.block fuel depth
  | .statements, (depth, inCase) => Reader.statements fuel depth inCase
  | .moreStatements, (depth, inCase) => Reader.moreStatements fuel depth inCase
  | .statement, depth => Reader.statement fuel depth
  | .simple, depth => Reader.simple fuel depth
  | .varDecl, depth => Reader.varDecl fuel depth
  | .constDecl, depth => Reader.constDecl fuel depth
  | .valueSpec, (depth, keyword) => Reader.valueSpec fuel depth keyword
  | .conditional, depth => Reader.conditional fuel depth
  | .elseBranch, depth => Reader.elseBranch fuel depth
  | .loop, depth => Reader.loop fuel depth
  | .headerStart, depth => Reader.headerStart fuel depth
  | .loopCondition, depth => Reader.loopCondition fuel depth
  | .loopPost, depth => Reader.loopPost fuel depth
  | .switch, depth => Reader.switch fuel depth
  | .switchHeader, depth => Reader.switchHeader fuel depth
  | .cases, (depth, sawDefault) => Reader.cases fuel depth sawDefault
  | .caseRest, (depth, sawDefault, label, location) => Reader.caseRest fuel depth sawDefault label location
  | .importSpec, _ => Reader.importSpec
  | .importSpecs, _ => Reader.importSpecs fuel
  | .importDecl, _ => Reader.importDecl fuel
  | .imports, _ => Reader.imports fuel
  | .functionDecl, _ => Reader.functionDecl fuel
  | .declaration, _ => Reader.declaration fuel
  | .declarations, _ => Reader.declarations fuel
  | .file, _ => Reader.file fuel

/-! ## Scripts -/

/-- The steps of a routine: it looks at the token ahead and the one behind it, takes the token ahead, or starts
another routine. -/
inductive Script (α : Type) : Type where
  | done (value : α)
  | stop (error : SyntaxError)
  | look (next : Token → Token → Script α)
  | take (next : Token → Script α)
  | start (routine : Routine) (args : routine.Args) (next : routine.Result → Script α)

namespace Script

variable {α β : Type}

def bind (next : α → Script β) : Script α → Script β
  | done value => next value
  | stop error => stop error
  | look behind => look fun token second => (behind token second).bind next
  | take behind => take fun token => (behind token).bind next
  | start routine args behind => start routine args fun value => (behind value).bind next

instance : Monad Script where
  pure := done
  bind script next := script.bind next

theorem bind_bind {γ : Type} (script : Script α) (first : α → Script β) (second : β → Script γ) :
    script >>= first >>= second = script >>= fun value => first value >>= second := by
  induction script with
  | done value => rfl
  | stop error => rfl
  | look behind ih => exact congrArg look (funext fun token => funext fun other => ih token other)
  | take behind ih => exact congrArg take (funext fun token => ih token)
  | start routine args behind ih => exact congrArg (start routine args) (funext fun value => ih value)

/-- Goes through a script in front of a list of tokens; `below` reads by the routines. -/
def perform (below : (routine : Routine) → routine.Args → Reader routine.Result) : Script α → Reader α
  | done value => pure value
  | stop error => Reader.fail error
  | look next => fun tokens => (next (Reader.head tokens) (Reader.second tokens)).perform below tokens
  | take next => do (next (← Reader.advance)).perform below
  | start routine args next => do (next (← below routine args)).perform below

/-! ## Readers of one token -/

/-- Starts a routine. -/
def sub (routine : Routine) (args : routine.Args) : Script routine.Result := start routine args done

def peek : Script Token := look fun token _ => done token

def peekWord : Script Word := look fun token _ => done token.word

def peekSecond : Script Word := look fun _ second => done second.word

def advance : Script Token := take done

def refuse (expected : Expected) : Script α := look fun token _ => stop (.unexpected expected token)

def atMark (mark : Mark) : Script Bool := look fun token _ => done (isMark mark token.word)

def atKeyword (keyword : Keyword) : Script Bool := look fun token _ => done (isKeyword keyword token.word)

def atSemicolon : Script Bool := look fun token _ => done (Reader.isSemicolon token)

def atWrittenSemicolon : Script Bool :=
  look fun token _ => done (Reader.isSemicolon token && !token.isImplicit)

def expectMark (mark : Mark) (expected : Expected) : Script Token := do
  if ← atMark mark then advance else refuse expected

def expectKeyword (keyword : Keyword) (expected : Expected) : Script Token := do
  if ← atKeyword keyword then advance else refuse expected

def expectSemicolon (expected : Expected) : Script Token := do
  if ← atSemicolon then advance else refuse expected

def expectName (expected : Expected) : Script String := do
  match ← peekWord with
  | .identifier name => do
      let _ ← advance
      pure name
  | _ => refuse expected

def terminate : Script Unit := do
  match ← peekWord with
  | .semicolon _ => do
      let _ ← advance
  | .mark .rightBrace | .endOfInput => pure ()
  | _ => refuse .terminator

def separate : Script Unit := do
  if ← atMark .rightBrace then sub .skip ()
  else do
    let _ ← expectSemicolon .terminator
    sub .skip ()

def nested (depth : Nat) (inner : Nat → Script α) : Script α := do
  if Reader.nestingLimit ≤ depth then do
    let here ← peek
    stop (.invalid (.nesting Reader.nestingLimit) here.location)
  else inner (depth + 1)

def assignable (mark : String) : List Expr → Script (List String)
  | [] => pure []
  | .identifier name _ :: exprs => do
      let names ← assignable mark exprs
      pure (name :: names)
  | expr :: _ => do
      let here ← peek
      stop (.invalid (.nonName mark) (expr.location?.getD here.location))

def singleTarget (mark : String) (exprs : List Expr) : Script String := do
  match ← (if exprs.length = 1 then assignable mark exprs else pure []) with
  | [name] => pure name
  | _ => do
      let here ← peek
      stop (.invalid (.severalTargets mark) here.location)

def conditionOf (location : Location) : Stmt → Script Expr
  | .expression expr => pure expr
  | _ => stop (.invalid .statementAsValue location)

end Script

/-! ## The scripts of the routines -/

section

open Script

/-- What each routine does. -/
def script : (routine : Routine) → routine.Args → Script routine.Result
  | .skip, _ => do
      if ← atSemicolon then do
        let _ ← advance
        sub .skip ()
      else pure ()
  | .type, _ => do
      match ← peekWord with
      | .identifier name => do
          let _ ← advance
          pure (Ty.ofName name)
      | .keyword .funcWord => do
          let _ ← advance
          let params ← sub .parameters ()
          let (results, _) ← sub .results ()
          pure (.func ⟨params.map (·.2), results⟩)
      | .mark .leftParen => do
          let _ ← advance
          let inner ← sub .type ()
          let _ ← expectMark .rightParen .closeParen
          pure inner
      | _ => refuse .type
  | .parameters, _ => do
      let opening ← expectMark .leftParen .openParen
      let found ← sub .entries ()
      let _ ← expectMark .rightParen .closeParen
      match Reader.groupEntries found with
      | some params => pure params
      | none => stop (.invalid .mixedParameters opening.location)
  | .entries, _ => do
      if ← atMark .rightParen then pure []
      else do
        let first ← sub .entry ()
        if ← atMark .comma then do
          let _ ← advance
          let rest ← sub .entries ()
          pure (first :: rest)
        else pure [first]
  | .entry, _ => do
      match ← peekWord, ← peekSecond with
      | .identifier name, .mark .comma | .identifier name, .mark .rightParen => do
          let _ ← advance
          pure (.bare name)
      | .identifier name, .identifier _ | .identifier name, .keyword .funcWord
      | .identifier name, .mark .leftParen => do
          let _ ← advance
          let type ← sub .type ()
          pure (.named name type)
      | _, _ => do
          let type ← sub .type ()
          pure (.unnamed type)
  | .results, _ => do
      match ← peekWord with
      | .mark .leftParen => do
          let params ← sub .parameters ()
          pure (params.map (·.2), params.filterMap (·.1))
      | .identifier _ | .keyword .funcWord => do
          let result ← sub .type ()
          pure ([result], [])
      | _ => pure ([], [])
  | .signature, _ => do
      let here ← peek
      let params ← sub .parameters ()
      match Reader.namedParameters params with
      | none => stop (.invalid .missingParameterName here.location)
      | some params => do
          let (results, resultNames) ← sub .results ()
          pure ⟨params, results, resultNames⟩
  | .moreNames, _ => do
      if ← atMark .comma then do
        let _ ← advance
        let name ← expectName .name
        let names ← sub .moreNames ()
        pure (name :: names)
      else pure []
  | .optionalType, _ => do
      match ← peekWord with
      | .identifier _ | .keyword .funcWord => do
          let type ← sub .type ()
          pure (some type)
      | _ => pure none
  | .expression, depth => nested depth fun depth => sub (.binary 1) depth
  | .binary level, depth =>
      if Reader.strongest < level then sub .unary depth
      else do
        let left ← sub (.binary (level + 1)) depth
        sub (.binaryRest level) (depth, left)
  | .binaryRest level, (depth, left) => do
      match ← peekWord with
      | .operator op =>
          if op ∈ Reader.operatorsOf level then do
            let sign ← advance
            let right ← sub (.binary (level + 1)) depth
            sub (.binaryRest level) (depth, .binary left op right sign.location)
          else pure left
      | _ => pure left
  | .unary, depth => do
      match ← peekWord with
      | .operator .subtract => do
          let sign ← advance
          match ← peekWord with
          | .integer magnitude =>
              if magnitude = Reader.smallestMagnitude then do
                let _ ← advance
                pure (.integer Int64.minValue)
              else sub .unaryOperand (depth, .negate, sign.location)
          | _ => sub .unaryOperand (depth, .negate, sign.location)
      | .operator .add => do
          let sign ← advance
          sub .unaryOperand (depth, .plus, sign.location)
      | .mark .bang => do
          let sign ← advance
          sub .unaryOperand (depth, .not, sign.location)
      | .operator .bitXor => do
          let sign ← advance
          sub .unaryOperand (depth, .bitNot, sign.location)
      | _ => do
          let callee ← sub .primary depth
          sub .calls (depth, callee)
  | .unaryOperand, (depth, op, location) => do
      let operand ← nested depth fun depth => sub .unary depth
      pure (.unary op operand location)
  | .calls, (depth, callee) => do
      if ← atMark .leftParen then do
        let opening ← advance
        let args ← sub .arguments depth
        let _ ← expectMark .rightParen .closeArguments
        sub .calls (depth, .call callee args opening.location)
      else pure callee
  | .arguments, depth => do
      if ← atMark .rightParen then pure []
      else do
        let first ← sub .expression depth
        if ← atMark .comma then do
          let _ ← advance
          let rest ← sub .arguments depth
          pure (first :: rest)
        else pure [first]
  | .primary, depth => do
      let token ← peek
      match token.word with
      | .integer magnitude => do
          let _ ← advance
          if magnitude < Reader.smallestMagnitude then pure (.integer (Int64.ofNat magnitude))
          else stop (.invalid (.overflow magnitude) token.location)
      | .float value => do
          let _ ← advance
          pure (.float value)
      | .string value => do
          let _ ← advance
          pure (.string value)
      | .identifier name => do
          let _ ← advance
          if ← atMark .dot then do
            let _ ← advance
            let selected ← expectName (.nameAfter ".")
            pure (.qualified name selected token.location)
          else pure (.identifier name token.location)
      | .mark .leftParen => do
          let _ ← advance
          let inner ← sub .expression depth
          let _ ← expectMark .rightParen .closeExpression
          pure inner
      | .keyword .funcWord => do
          let _ ← advance
          let literal ← sub .functionRest (depth, token.location)
          pure (.function literal)
      | _ => refuse .expression
  | .functionRest, (depth, location) => do
      let signature ← sub .signature ()
      let body ← sub .block depth
      pure ⟨signature, body, location⟩
  | .expressions, depth => do
      let first ← sub .expression depth
      if ← atMark .comma then do
        let _ ← advance
        let rest ← sub .expressions depth
        pure (first :: rest)
      else pure [first]
  | .block, depth => nested depth fun depth => do
      let _ ← expectMark .leftBrace .openBrace
      sub .skip ()
      let body ← sub .statements (depth, false)
      let _ ← expectMark .rightBrace .closeBrace
      pure body
  | .statements, (depth, inCase) => do
      match ← peekWord with
      | .mark .rightBrace | .endOfInput => pure []
      | .keyword .caseWord | .keyword .defaultWord =>
          if inCase then pure [] else sub .moreStatements (depth, inCase)
      | _ => sub .moreStatements (depth, inCase)
  | .moreStatements, (depth, inCase) => do
      let first ← sub .statement depth
      separate
      let rest ← sub .statements (depth, inCase)
      pure (first :: rest)
  | .statement, depth => do
      let token ← peek
      match token.word with
      | .keyword .varWord => do
          let decl ← sub .varDecl depth
          pure (.declare decl)
      | .keyword .constWord => do
          let decl ← sub .constDecl depth
          pure (.declare decl)
      | .keyword .ifWord => do
          let statement ← sub .conditional depth
          pure (.ifElse statement)
      | .keyword .forWord => sub .loop depth
      | .keyword .switchWord => sub .switch depth
      | .keyword .returnWord => do
          let _ ← advance
          match ← peekWord with
          | .semicolon _ | .mark .rightBrace => pure (.return [] token.location)
          | _ => do
              let values ← sub .expressions depth
              pure (.return values token.location)
      | .keyword .breakWord => do
          let _ ← advance
          pure (.break token.location)
      | .keyword .continueWord => do
          let _ ← advance
          pure (.continue token.location)
      | .mark .leftBrace => do
          let body ← sub .block depth
          pure (.block body)
      | _ => do
          match ← sub .simple depth with
          | .expression expr =>
              if expr.isCall then pure (.expression expr)
              else stop (.invalid .unusedExpression token.location)
          | statement => pure statement
  | .simple, depth => do
      let here ← peek
      let exprs ← sub .expressions depth
      let token ← peek
      match token.word with
      | .mark .define => do
          let names ← assignable ":=" exprs
          let _ ← advance
          let values ← sub .expressions depth
          pure (.define names values here.location)
      | .mark .assign => do
          let targets ← assignable "=" exprs
          let _ ← advance
          let values ← sub .expressions depth
          pure (.assign targets values here.location)
      | .mark .increment => do
          let target ← singleTarget "++" exprs
          let _ ← advance
          pure (.step target true here.location)
      | .mark .decrement => do
          let target ← singleTarget "--" exprs
          let _ ← advance
          pure (.step target false here.location)
      | .compound op => do
          let target ← singleTarget token.lexeme exprs
          let _ ← advance
          let value ← sub .expression depth
          pure (.compound target op value here.location)
      | _ =>
          match exprs with
          | [expr] => pure (.expression expr)
          | _ => refuse .assignment
  | .varDecl, depth => do
      let token ← advance
      let (names, type?, values) ← sub .valueSpec (depth, "var")
      if type?.isNone && values.isEmpty then refuse .typeOrInitializer
      else pure ⟨false, names, type?, values, token.location⟩
  | .constDecl, depth => do
      let token ← advance
      let (names, type?, values) ← sub .valueSpec (depth, "const")
      if values.isEmpty then stop (.invalid .missingInitializer token.location)
      else pure ⟨true, names, type?, values, token.location⟩
  | .valueSpec, (depth, keyword) => do
      let first ← expectName (.nameAfter keyword)
      let more ← sub .moreNames ()
      let type? ← sub .optionalType ()
      if ← atMark .assign then do
        let _ ← advance
        let values ← sub .expressions depth
        pure (first :: more, type?, values)
      else pure (first :: more, type?, [])
  | .conditional, depth => do
      let token ← advance
      let here ← peek
      let first ← sub .simple depth
      let (init, condition) ← (do
        if ← atWrittenSemicolon then do
          let _ ← advance
          let condition ← sub .expression depth
          pure (some first, condition)
        else do
          let condition ← conditionOf here.location first
          pure (none, condition))
      let body ← sub .block depth
      let orElse ← sub .elseBranch depth
      pure ⟨init, condition, body, orElse, token.location⟩
  | .elseBranch, depth => do
      if ← atKeyword .elseWord then do
        let _ ← advance
        match ← peekWord with
        | .keyword .ifWord => do
            let next ← sub .conditional depth
            pure (.chain next)
        | .mark .leftBrace => do
            let body ← sub .block depth
            pure (.block body)
        | _ => refuse .elseBody
      else pure .absent
  | .loop, depth => do
      let token ← advance
      let here ← peek
      if ← atMark .leftBrace then do
        let body ← sub .block depth
        pure (.loop none none none body token.location)
      else do
        let first ← sub .headerStart depth
        match first, ← atSemicolon with
        | some statement, false => do
            let condition ← conditionOf here.location statement
            let body ← sub .block depth
            pure (.loop none (some condition) none body token.location)
        | init, _ => do
            let _ ← advance
            let condition ← sub .loopCondition depth
            let _ ← expectSemicolon .semicolon
            let post ← sub .loopPost depth
            let body ← sub .block depth
            pure (.loop init condition post body token.location)
  | .headerStart, depth => do
      if ← atSemicolon then pure none
      else do
        let statement ← sub .simple depth
        pure (some statement)
  | .loopCondition, depth => do
      if ← atSemicolon then pure none
      else do
        let condition ← sub .expression depth
        pure (some condition)
  | .loopPost, depth => do
      if ← atMark .leftBrace then pure none
      else do
        let here ← peek
        match ← sub .simple depth with
        | .define .. => stop (.invalid .declarationAfterLoop here.location)
        | statement => pure (some statement)
  | .switch, depth => do
      let token ← advance
      let (init, tag) ← sub .switchHeader depth
      let _ ← expectMark .leftBrace .openBrace
      sub .skip ()
      let found ← sub .cases (depth, false)
      let _ ← expectMark .rightBrace .closeBrace
      pure (.switch init tag found token.location)
  | .switchHeader, depth => do
      if ← atMark .leftBrace then pure (none, none)
      else do
        let here ← peek
        let first ← sub .headerStart depth
        match first, ← atSemicolon with
        | some statement, false => do
            let tag ← conditionOf here.location statement
            pure (none, some tag)
        | init, _ => do
            let _ ← advance
            if ← atMark .leftBrace then pure (init, none)
            else do
              let tag ← sub .expression depth
              pure (init, some tag)
  | .cases, (depth, sawDefault) => do
      let token ← peek
      match token.word with
      | .mark .rightBrace => pure []
      | .keyword .caseWord => do
          let _ ← advance
          let values ← sub .expressions depth
          sub .caseRest (depth, sawDefault, .values values, token.location)
      | .keyword .defaultWord =>
          if sawDefault then stop (.invalid .secondDefault token.location)
          else do
            let _ ← advance
            sub .caseRest (depth, true, .otherwise, token.location)
      | _ => refuse .caseOrDefault
  | .caseRest, (depth, sawDefault, label, location) => do
      let _ ← expectMark .colon .colon
      sub .skip ()
      let body ← sub .statements (depth, true)
      let rest ← sub .cases (depth, sawDefault)
      pure (⟨label, body, location⟩ :: rest)
  | .importSpec, _ => do
      let here ← peek
      let alias? ← (do
        match here.word with
        | .identifier name => do
            let _ ← advance
            pure (some name)
        | _ => pure none)
      match ← peekWord with
      | .string path => do
          let _ ← advance
          pure ⟨alias?, path, here.location⟩
      | _ => refuse .importPath
  | .importSpecs, _ => do
      if ← atMark .rightParen then pure []
      else do
        let first ← sub .importSpec ()
        if ← atMark .rightParen then sub .skip ()
        else do
          let _ ← expectSemicolon .terminator
          sub .skip ()
        let rest ← sub .importSpecs ()
        pure (first :: rest)
  | .importDecl, _ => do
      let _ ← advance
      if ← atMark .leftParen then do
        let _ ← advance
        sub .skip ()
        let specs ← sub .importSpecs ()
        let _ ← expectMark .rightParen .closeParen
        pure specs
      else do
        let spec ← sub .importSpec ()
        pure [spec]
  | .imports, _ => do
      if ← atKeyword .importWord then do
        let first ← sub .importDecl ()
        terminate
        sub .skip ()
        let rest ← sub .imports ()
        pure (first ++ rest)
      else pure []
  | .functionDecl, _ => do
      let token ← advance
      let name ← expectName .functionName
      let literal ← sub .functionRest (0, token.location)
      pure (.function name literal)
  | .declaration, _ => do
      let token ← peek
      match token.word with
      | .keyword .importWord => stop (.invalid .lateImport token.location)
      | .keyword .funcWord => sub .functionDecl ()
      | .keyword .varWord => do
          let decl ← sub .varDecl 0
          pure (.values decl)
      | .keyword .constWord => do
          let decl ← sub .constDecl 0
          pure (.values decl)
      | _ => refuse .declaration
  | .declarations, _ => do
      match ← peekWord with
      | .endOfInput => pure []
      | _ => do
          let first ← sub .declaration ()
          terminate
          sub .skip ()
          let rest ← sub .declarations ()
          pure (first :: rest)
  | .file, _ => do
      sub .skip ()
      let _ ← expectKeyword .packageWord .packageClause
      let package ← expectName .packageName
      terminate
      sub .skip ()
      let imports ← sub .imports ()
      let declarations ← sub .declarations ()
      pure ⟨package, imports, declarations⟩

end

end MiniGo.Syntax
