import MiniGo.Tree.TypeReader
import MiniGo.Token.Lexer

/-!
# Reading programs

Expressions, statements and files. Binary operators are read by strength: a level reads operands of
the next stronger level and joins them from the left. Blocks, expressions and operands of unary
operators count towards the nesting limit.

`parse` reads a whole file and `parseExpression` one expression from the front of a list of tokens.
-/

namespace MiniGo.Reader

def strongest : Nat := 5

def operatorsOf : Nat → List BinaryOp
  | 1 => [.or]
  | 2 => [.and]
  | 3 => [.equal, .notEqual, .less, .lessEqual, .greater, .greaterEqual]
  | 4 => [.add, .subtract, .bitOr, .bitXor]
  | 5 => [.multiply, .divide, .remainder, .shiftLeft, .shiftRight, .bitAnd, .bitClear]
  | _ => []

theorem mem_operatorsOf {op : BinaryOp} : {level : Nat} → (op ∈ operatorsOf level ↔ op.precedence = level)
  | 0 | 1 | 2 | 3 | 4 | 5 => by cases op <;> decide
  | level + 6 => by
      have strong := op.precedence_le
      have none : operatorsOf (level + 6) = [] := rfl
      rw [none]
      exact ⟨nofun, fun same => absurd same (by omega)⟩

/-- The magnitude of the smallest integer, which no positive literal reaches. -/
def smallestMagnitude : Nat := UInt64.size / 2

def assignable (mark : String) : List Expr → Reader (List String)
  | [] => pure []
  | .identifier name _ :: exprs => do
      let names ← assignable mark exprs
      pure (name :: names)
  | expr :: _ => do
      let here ← peek
      fail (.invalid (.nonName mark) (expr.location?.getD here.location))

def singleTarget (mark : String) (exprs : List Expr) : Reader String := do
  match ← (if exprs.length = 1 then assignable mark exprs else pure []) with
  | [name] => pure name
  | _ => do
      let here ← peek
      fail (.invalid (.severalTargets mark) here.location)

/-- The expression that a statement in the place of a condition consists of. -/
def conditionOf (location : Location) : Stmt → Reader Expr
  | .expression expr => pure expr
  | _ => fail (.invalid .statementAsValue location)

/-- Reads the names of a declaration behind the first comma. -/
def moreNames : Nat → Reader (List String)
  | 0 => exhausted
  | fuel + 1 => do
      if ← atMark .comma then do
        let _ ← advance
        let name ← expectName .name
        let names ← moreNames fuel
        pure (name :: names)
      else pure []

/-- Reads the type of a declaration, if there is one. -/
def optionalType (fuel : Nat) : Reader (Option Ty) := do
  match ← peekWord with
  | .identifier _ | .keyword .funcWord => do
      let type ← type fuel
      pure (some type)
  | _ => pure none

mutual

/-- Reads an expression, one level deeper. -/
def expression : Nat → Nat → Reader Expr
  | 0, _ => exhausted
  | fuel + 1, depth => nested depth fun depth => binary fuel depth 1
termination_by structural fuel => fuel

/-- Reads operands joined by operators of one level or stronger ones. -/
def binary : Nat → Nat → Nat → Reader Expr
  | 0, _, _ => exhausted
  | fuel + 1, depth, level =>
      if strongest < level then unary fuel depth
      else do
        let left ← binary fuel depth (level + 1)
        binaryRest fuel depth level left
termination_by structural fuel => fuel

def binaryRest : Nat → Nat → Nat → Expr → Reader Expr
  | 0, _, _, _ => exhausted
  | fuel + 1, depth, level, left => do
      match ← peekWord with
      | .operator op =>
          if op ∈ operatorsOf level then do
            let sign ← advance
            -- One level stronger on the right, so operators of one level join from the left.
            let right ← binary fuel depth (level + 1)
            binaryRest fuel depth level (.binary left op right sign.location)
          else pure left
      | _ => pure left
termination_by structural fuel => fuel

/-- Reads an operand with unary operators in front. The magnitude of the smallest integer is read
together with its sign. -/
def unary : Nat → Nat → Reader Expr
  | 0, _ => exhausted
  | fuel + 1, depth => do
      match ← peekWord with
      | .operator .subtract => do
          let sign ← advance
          match ← peekWord with
          | .integer magnitude =>
              -- Too great for a positive literal, so the sign is read with it.
              if magnitude = smallestMagnitude then do
                let _ ← advance
                pure (.integer Int64.minValue)
              else unaryOperand fuel depth .negate sign.location
          | _ => unaryOperand fuel depth .negate sign.location
      | .operator .add => do
          let sign ← advance
          unaryOperand fuel depth .plus sign.location
      | .mark .bang => do
          let sign ← advance
          unaryOperand fuel depth .not sign.location
      | .operator .bitXor => do
          let sign ← advance
          unaryOperand fuel depth .bitNot sign.location
      | _ => do
          let callee ← primary fuel depth
          calls fuel depth callee
termination_by structural fuel => fuel

def unaryOperand : Nat → Nat → UnaryOp → Location → Reader Expr
  | 0, _, _, _ => exhausted
  | fuel + 1, depth, op, location => do
      let operand ← nested depth fun depth => unary fuel depth
      pure (.unary op operand location)
termination_by structural fuel => fuel

def calls : Nat → Nat → Expr → Reader Expr
  | 0, _, _ => exhausted
  | fuel + 1, depth, callee => do
      if ← atMark .leftParen then do
        let opening ← advance
        let args ← arguments fuel depth
        let _ ← expectMark .rightParen .closeArguments
        -- The result may be called again, without counting towards the nesting limit.
        calls fuel depth (.call callee args opening.location)
      else pure callee
termination_by structural fuel => fuel

/-- Reads arguments up to the closing parenthesis; a comma may stand before it. -/
def arguments : Nat → Nat → Reader (List Expr)
  | 0, _ => exhausted
  | fuel + 1, depth => do
      if ← atMark .rightParen then pure []
      else do
        let first ← expression fuel depth
        if ← atMark .comma then do
          let _ ← advance
          let rest ← arguments fuel depth
          pure (first :: rest)
        else pure [first]
termination_by structural fuel => fuel

/-- Reads a literal, a name, a function or an expression in parentheses. -/
def primary : Nat → Nat → Reader Expr
  | 0, _ => exhausted
  | fuel + 1, depth => do
      let token ← peek
      match token.word with
      | .integer magnitude => do
          let _ ← advance
          -- The smallest integer was read with its sign; its magnitude alone is out of range.
          if magnitude < smallestMagnitude then pure (.integer (Int64.ofNat magnitude))
          else fail (.invalid (.overflow magnitude) token.location)
      | .float value => do
          let _ ← advance
          pure (.float value)
      | .string value => do
          let _ ← advance
          pure (.string value)
      | .identifier name => do
          let _ ← advance
          if ← atMark .dot then do
            let _ ← advance
            let selected ← expectName (.nameAfter ".")
            pure (.qualified name selected token.location)
          else pure (.identifier name token.location)
      | .mark .leftParen => do
          let _ ← advance
          let inner ← expression fuel depth
          let _ ← expectMark .rightParen .closeExpression
          pure inner
      | .keyword .funcWord => do
          let _ ← advance
          let literal ← functionRest fuel depth token.location
          pure (.function literal)
      | _ => refuse .expression
termination_by structural fuel => fuel

def functionRest : Nat → Nat → Location → Reader FunctionLiteral
  | 0, _, _ => exhausted
  | fuel + 1, depth, location => do
      let signature ← signature fuel
      let body ← block fuel depth
      pure ⟨signature, body, location⟩
termination_by structural fuel => fuel

def expressions : Nat → Nat → Reader (List Expr)
  | 0, _ => exhausted
  | fuel + 1, depth => do
      let first ← expression fuel depth
      if ← atMark .comma then do
        let _ ← advance
        let rest ← expressions fuel depth
        pure (first :: rest)
      else pure [first]
termination_by structural fuel => fuel

def block : Nat → Nat → Reader (List Stmt)
  | 0, _ => exhausted
  | fuel + 1, depth => nested depth fun depth => do
      let _ ← expectMark .leftBrace .openBrace
      skipSemicolons
      let body ← statements fuel depth false
      let _ ← expectMark .rightBrace .closeBrace
      pure body
termination_by structural fuel => fuel

/-- Reads statements up to a closing brace or the end, and in a switch up to the next case. -/
def statements : Nat → Nat → Bool → Reader (List Stmt)
  | 0, _, _ => exhausted
  | fuel + 1, depth, inCase => do
      match ← peekWord with
      | .mark .rightBrace | .endOfInput => pure []
      | .keyword .caseWord | .keyword .defaultWord =>
          if inCase then pure [] else moreStatements fuel depth inCase
      | _ => moreStatements fuel depth inCase
termination_by structural fuel => fuel

def moreStatements : Nat → Nat → Bool → Reader (List Stmt)
  | 0, _, _ => exhausted
  | fuel + 1, depth, inCase => do
      let first ← statement fuel depth
      -- `separate` leaves a closing brace where it is, so the last statement needs no semicolon.
      separate
      let rest ← statements fuel depth inCase
      pure (first :: rest)
termination_by structural fuel => fuel

/-- Reads a statement. An expression on its own has to be a call. -/
def statement : Nat → Nat → Reader Stmt
  | 0, _ => exhausted
  | fuel + 1, depth => do
      let token ← peek
      match token.word with
      | .keyword .varWord => do
          let decl ← varDecl fuel depth
          pure (.declare decl)
      | .keyword .constWord => do
          let decl ← constDecl fuel depth
          pure (.declare decl)
      | .keyword .ifWord => do
          let statement ← conditional fuel depth
          pure (.ifElse statement)
      | .keyword .forWord => loop fuel depth
      | .keyword .switchWord => switch fuel depth
      | .keyword .returnWord => do
          let _ ← advance
          match ← peekWord with
          -- Nothing is returned when the line ends behind the keyword.
          | .semicolon _ | .mark .rightBrace => pure (.return [] token.location)
          | _ => do
              let values ← expressions fuel depth
              pure (.return values token.location)
      | .keyword .breakWord => do
          let _ ← advance
          pure (.break token.location)
      | .keyword .continueWord => do
          let _ ← advance
          pure (.continue token.location)
      | .mark .leftBrace => do
          let body ← block fuel depth
          pure (.block body)
      | _ => do
          match ← simple fuel depth with
          | .expression expr =>
              if expr.isCall then pure (.expression expr)
              else fail (.invalid .unusedExpression token.location)
          | statement => pure statement
termination_by structural fuel => fuel

/-- Reads a statement that may stand in a header: an expression, an assignment of any form or a
short declaration. -/
def simple : Nat → Nat → Reader Stmt
  | 0, _ => exhausted
  | fuel + 1, depth => do
      let here ← peek
      -- Only the mark behind them tells targets from values, so targets are read as expressions and
      -- turned into names afterwards.
      let exprs ← expressions fuel depth
      let token ← peek
      match token.word with
      | .mark .define => do
          let names ← assignable ":=" exprs
          let _ ← advance
          let values ← expressions fuel depth
          pure (.define names values here.location)
      | .mark .assign => do
          let targets ← assignable "=" exprs
          let _ ← advance
          let values ← expressions fuel depth
          pure (.assign targets values here.location)
      | .mark .increment => do
          let target ← singleTarget "++" exprs
          let _ ← advance
          pure (.step target true here.location)
      | .mark .decrement => do
          let target ← singleTarget "--" exprs
          let _ ← advance
          pure (.step target false here.location)
      | .compound op => do
          let target ← singleTarget token.lexeme exprs
          let _ ← advance
          let value ← expression fuel depth
          pure (.compound target op value here.location)
      | _ =>
          match exprs with
          | [expr] => pure (.expression expr)
          | _ => refuse .assignment
termination_by structural fuel => fuel

/-- Reads a declaration of variables; it has a type or values. -/
def varDecl : Nat → Nat → Reader ValueDecl
  | 0, _ => exhausted
  | fuel + 1, depth => do
      let token ← advance
      let (names, type?, values) ← valueSpec fuel depth "var"
      if type?.isNone && values.isEmpty then refuse .typeOrInitializer
      else pure ⟨false, names, type?, values, token.location⟩
termination_by structural fuel => fuel

/-- Reads a declaration of constants; it has values. -/
def constDecl : Nat → Nat → Reader ValueDecl
  | 0, _ => exhausted
  | fuel + 1, depth => do
      let token ← advance
      let (names, type?, values) ← valueSpec fuel depth "const"
      if values.isEmpty then fail (.invalid .missingInitializer token.location)
      else pure ⟨true, names, type?, values, token.location⟩
termination_by structural fuel => fuel

/-- Reads the names, the type and the values of a declaration. -/
def valueSpec : Nat → Nat → String → Reader (List String × Option Ty × List Expr)
  | 0, _, _ => exhausted
  | fuel + 1, depth, keyword => do
      let first ← expectName (.nameAfter keyword)
      let more ← moreNames fuel
      let type? ← optionalType fuel
      if ← atMark .assign then do
        let _ ← advance
        let values ← expressions fuel depth
        pure (first :: more, type?, values)
      else pure (first :: more, type?, [])
termination_by structural fuel => fuel

/-- Reads a conditional statement with all that follows its body. -/
def conditional : Nat → Nat → Reader IfStmt
  | 0, _ => exhausted
  | fuel + 1, depth => do
      let token ← advance
      let here ← peek
      -- The first part may turn out to be the condition: that is known at the semicolon.
      let first ← simple fuel depth
      let (init, condition) ← (do
        -- A line break does not separate the parts of this header.
        if ← atWrittenSemicolon then do
          let _ ← advance
          let condition ← expression fuel depth
          pure (some first, condition)
        else do
          let condition ← conditionOf here.location first
          pure (none, condition))
      let body ← block fuel depth
      let orElse ← elseBranch fuel depth
      pure ⟨init, condition, body, orElse, token.location⟩
termination_by structural fuel => fuel

def elseBranch : Nat → Nat → Reader ElseBranch
  | 0, _ => exhausted
  | fuel + 1, depth => do
      if ← atKeyword .elseWord then do
        let _ ← advance
        match ← peekWord with
        | .keyword .ifWord => do
            let next ← conditional fuel depth
            pure (.chain next)
        | .mark .leftBrace => do
            let body ← block fuel depth
            pure (.block body)
        | _ => refuse .elseBody
      else pure .absent
termination_by structural fuel => fuel

/-- Reads a loop: without a header, with a condition, or with three parts. -/
def loop : Nat → Nat → Reader Stmt
  | 0, _ => exhausted
  | fuel + 1, depth => do
      let token ← advance
      let here ← peek
      if ← atMark .leftBrace then do
        let body ← block fuel depth
        pure (.loop none none none body token.location)
      else do
        let first ← headerStart fuel depth
        match first, ← atSemicolon with
        -- Without a semicolon behind it, the first part was the condition.
        | some statement, false => do
            let condition ← conditionOf here.location statement
            let body ← block fuel depth
            pure (.loop none (some condition) none body token.location)
        -- With one, there are three parts, each of which may be empty.
        | init, _ => do
            let _ ← advance
            let condition ← loopCondition fuel depth
            let _ ← expectSemicolon .semicolon
            let post ← loopPost fuel depth
            let body ← block fuel depth
            pure (.loop init condition post body token.location)
termination_by structural fuel => fuel

/-- Reads the first part of a header, which may be empty. -/
def headerStart : Nat → Nat → Reader (Option Stmt)
  | 0, _ => exhausted
  | fuel + 1, depth => do
      if ← atSemicolon then pure none
      else do
        let statement ← simple fuel depth
        pure (some statement)
termination_by structural fuel => fuel

/-- Reads the condition of a header with three parts, which may be empty. -/
def loopCondition : Nat → Nat → Reader (Option Expr)
  | 0, _ => exhausted
  | fuel + 1, depth => do
      if ← atSemicolon then pure none
      else do
        let condition ← expression fuel depth
        pure (some condition)
termination_by structural fuel => fuel

/-- Reads the statement that ends each round of a loop; it declares nothing. -/
def loopPost : Nat → Nat → Reader (Option Stmt)
  | 0, _ => exhausted
  | fuel + 1, depth => do
      if ← atMark .leftBrace then pure none
      else do
        let here ← peek
        match ← simple fuel depth with
        | .define .. => fail (.invalid .declarationAfterLoop here.location)
        | statement => pure (some statement)
termination_by structural fuel => fuel

def switch : Nat → Nat → Reader Stmt
  | 0, _ => exhausted
  | fuel + 1, depth => do
      let token ← advance
      let (init, tag) ← switchHeader fuel depth
      let _ ← expectMark .leftBrace .openBrace
      skipSemicolons
      let found ← cases fuel depth false
      let _ ← expectMark .rightBrace .closeBrace
      pure (.switch init tag found token.location)
termination_by structural fuel => fuel

/-- Reads the header of a switch statement: nothing, a tag, or a statement and perhaps a tag. -/
def switchHeader : Nat → Nat → Reader (Option Stmt × Option Expr)
  | 0, _ => exhausted
  | fuel + 1, depth => do
      if ← atMark .leftBrace then pure (none, none)
      else do
        let here ← peek
        let first ← headerStart fuel depth
        match first, ← atSemicolon with
        -- Without a semicolon behind it, the first part was the tag.
        | some statement, false => do
            let tag ← conditionOf here.location statement
            pure (none, some tag)
        | init, _ => do
            let _ ← advance
            if ← atMark .leftBrace then pure (init, none)
            else do
              let tag ← expression fuel depth
              pure (init, some tag)
termination_by structural fuel => fuel

/-- Reads the cases of a switch statement; at most one has no values. -/
def cases : Nat → Nat → Bool → Reader (List SwitchCase)
  | 0, _, _ => exhausted
  | fuel + 1, depth, sawDefault => do
      let token ← peek
      match token.word with
      | .mark .rightBrace => pure []
      | .keyword .caseWord => do
          let _ ← advance
          let values ← expressions fuel depth
          caseRest fuel depth sawDefault (.values values) token.location
      -- A second one is refused at its keyword, before its body is read.
      | .keyword .defaultWord =>
          if sawDefault then fail (.invalid .secondDefault token.location)
          else do
            let _ ← advance
            caseRest fuel depth true .otherwise token.location
      | _ => refuse .caseOrDefault
termination_by structural fuel => fuel

def caseRest : Nat → Nat → Bool → CaseLabel → Location → Reader (List SwitchCase)
  | 0, _, _, _, _ => exhausted
  | fuel + 1, depth, sawDefault, label, location => do
      let _ ← expectMark .colon .colon
      skipSemicolons
      let body ← statements fuel depth true
      let rest ← cases fuel depth sawDefault
      pure (⟨label, body, location⟩ :: rest)
termination_by structural fuel => fuel

end

/-! ## Files -/

/-- Reads the path of an import, behind another name if one is given. -/
def importSpec : Reader Import := do
  let here ← peek
  let alias? ← (do
    match here.word with
    | .identifier name => do
        let _ ← advance
        pure (some name)
    | _ => pure none)
  match ← peekWord with
  | .string path => do
      let _ ← advance
      pure ⟨alias?, path, here.location⟩
  | _ => refuse .importPath

def importSpecs : Nat → Reader (List Import)
  | 0 => exhausted
  | fuel + 1 => do
      if ← atMark .rightParen then pure []
      else do
        let first ← importSpec
        -- The last path of a group may stand in front of the parenthesis without a semicolon.
        if ← atMark .rightParen then skipSemicolons
        else do
          let _ ← expectSemicolon .terminator
          skipSemicolons
        let rest ← importSpecs fuel
        pure (first :: rest)

def importDecl (fuel : Nat) : Reader (List Import) := do
  let _ ← advance
  if ← atMark .leftParen then do
    let _ ← advance
    skipSemicolons
    let specs ← importSpecs fuel
    let _ ← expectMark .rightParen .closeParen
    pure specs
  else do
    let spec ← importSpec
    pure [spec]

def imports : Nat → Reader (List Import)
  | 0 => exhausted
  | fuel + 1 => do
      if ← atKeyword .importWord then do
        let first ← importDecl fuel
        terminate
        skipSemicolons
        let rest ← imports fuel
        pure (first ++ rest)
      else pure []

def functionDecl (fuel : Nat) : Reader Decl := do
  let token ← advance
  let name ← expectName .functionName
  let literal ← functionRest fuel 0 token.location
  pure (.function name literal)

def declaration (fuel : Nat) : Reader Decl := do
  let token ← peek
  match token.word with
  | .keyword .importWord => fail (.invalid .lateImport token.location)
  | .keyword .funcWord => functionDecl fuel
  | .keyword .varWord => do
      let decl ← varDecl fuel 0
      pure (.values decl)
  | .keyword .constWord => do
      let decl ← constDecl fuel 0
      pure (.values decl)
  | _ => refuse .declaration

def declarations : Nat → Reader (List Decl)
  | 0 => exhausted
  | fuel + 1 => do
      match ← peekWord with
      | .endOfInput => pure []
      | _ => do
          let first ← declaration fuel
          terminate
          skipSemicolons
          let rest ← declarations fuel
          pure (first :: rest)

def file (fuel : Nat) : Reader Program := do
  skipSemicolons
  let _ ← expectKeyword .packageWord .packageClause
  let package ← expectName .packageName
  terminate
  skipSemicolons
  let imports ← imports fuel
  let declarations ← declarations fuel
  pure ⟨package, imports, declarations⟩

end MiniGo.Reader

namespace MiniGo

def parse (tokens : List Token) : Except SyntaxError Program :=
  (Reader.file (Reader.fuelFor tokens)).run tokens

def parseExpression (tokens : List Token) : Except SyntaxError Expr :=
  (Reader.expression (Reader.fuelFor tokens) 0).run tokens

def parseType (tokens : List Token) : Except SyntaxError Ty :=
  (Reader.type (Reader.fuelFor tokens)).run tokens

/-- The program of a source text. -/
def parseText (source : String) : Except Error Program := do
  let tokens ← match tokenize source with
    | .ok tokens => .ok tokens
    | .error error => .error (Error.lex error)
  -- All tokens are there before the first one is read, so an error in a word wins over those in the
  -- grammar, wherever they are.
  match parse tokens with
  | .ok program => .ok program
  | .error error => .error (Error.parse error)

end MiniGo
