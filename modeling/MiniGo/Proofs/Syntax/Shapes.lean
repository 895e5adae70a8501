import MiniGo.Proofs.Syntax.Reading

/-!
# The shapes of trees

What the printer, the checker and the evaluator take for granted of a tree without looking: a switch
has one default at most, a loop does not end its rounds with a declaration, a declaration has names.
`Shaped` says so of a whole tree. Unlike `Formed` it does not look into words, so every list of tokens
that is read gives a tree of this shape, whether or not a lexer gave the tokens.

Two more facts hold by the types of trees: an assignment that is joined with an operator has one target
and one value, and functions are declared at the top of a file only.
-/

namespace MiniGo.Syntax

namespace Shaped

/-- The results of a function are all named, or none is. -/
def signature (found : Signature) : Prop :=
  found.resultNames = [] ∨ found.resultNames.length = found.results.length

mutual

/-- An expression whose integers are literals and whose functions are shaped. -/
def expr : Expr → Prop
  | .integer value => IsLiteral value
  | .float _ | .string _ | .identifier _ _ | .qualified _ _ _ => True
  | .binary left _ right _ => expr left ∧ expr right
  | .unary _ operand _ => expr operand
  | .call callee args _ => expr callee ∧ exprs args
  | .function literal => function literal

def exprs : List Expr → Prop
  | [] => True
  | first :: rest => expr first ∧ exprs rest

/-- An expression that is shaped, if there is one. -/
def optionalExpr : Option Expr → Prop
  | none => True
  | some found => expr found

/-- A function with a shaped signature and body. -/
def function : FunctionLiteral → Prop
  | ⟨found, body, _⟩ => signature found ∧ stmts body

/-- A declaration of one name or more; only variables with a type have no values. -/
def valueDecl : ValueDecl → Prop
  | ⟨isConst, names, type?, values, _⟩ =>
      names ≠ [] ∧ exprs values ∧ (values = [] → isConst = false ∧ type?.isSome)

def ifStmt : IfStmt → Prop
  | ⟨init, condition, body, orElse, _⟩ =>
      header init ∧ expr condition ∧ stmts body ∧ elseBranch orElse

def elseBranch : ElseBranch → Prop
  | .absent => True
  | .block body => stmts body
  | .chain next => ifStmt next

/-- The label of a case; it has a value. -/
def caseLabel : CaseLabel → Prop
  | .values values => values ≠ [] ∧ exprs values
  | .otherwise => True

def cases : List SwitchCase → Prop
  | [] => True
  | ⟨label, body, _⟩ :: rest => caseLabel label ∧ stmts body ∧ cases rest

/-- A shaped statement. Nothing is asked of the number of values that a `return` gives: it may stand
alone. -/
def stmt : Stmt → Prop
  | .declare decl => valueDecl decl
  | .define names values _ => names ≠ [] ∧ values ≠ [] ∧ exprs values
  | .assign targets values _ => targets ≠ [] ∧ values ≠ [] ∧ exprs values
  | .compound _ _ value _ => expr value
  | .step _ _ _ | .break _ | .continue _ => True
  | .ifElse found => ifStmt found
  | .loop init condition post body _ =>
      header init ∧ optionalExpr condition ∧ header post ∧
        (∀ last, post = some last → isSilent last = true) ∧ stmts body
  | .switch init tag found _ =>
      header init ∧ optionalExpr tag ∧ cases found ∧
        (found.filter SwitchCase.isDefault).length ≤ 1
  | .return values _ => exprs values
  | .block body => stmts body
  | .expression found => expr found

/-- Statements of a body; an expression among them is a call. -/
def stmts : List Stmt → Prop
  | [] => True
  | first :: rest =>
      stmt first ∧ (∀ found, first = .expression found → found.isCall = true) ∧ stmts rest

/-- A statement in a header, if there is one. -/
def header : Option Stmt → Prop
  | none => True
  | some found => stmt found ∧ isSimple found = true

end

/-- A declaration of a file. -/
def decl : Decl → Prop
  | .function _ literal => function literal
  | .values found => valueDecl found

/-- A file whose declarations are shaped. -/
def program (found : Program) : Prop := ∀ declared ∈ found.declarations, decl declared

end Shaped

/-! ## Readers -/

/-- A reader gives a result of which `post` holds, unless it stops. -/
def Makes (reader : Reader α) (post : α → Prop) : Prop :=
  ∀ tokens value rest, reader tokens = .ok (value, rest) → post value

namespace Makes

variable {post : α → Prop} {last : β → Prop}

theorem pure {value : α} (holds : post value) : Makes (Pure.pure value) post := by
  intro tokens found rest ran
  obtain ⟨rfl, _⟩ := Prod.mk.inj (Except.ok.inj ran)
  exact holds

theorem bind {reader : Reader α} {next : α → Reader β} (first : Makes reader post)
    (rest : ∀ value, post value → Makes (next value) last) : Makes (reader >>= next) last := by
  intro tokens value left ran
  obtain ⟨found, behind, read, ran⟩ := bind_ok ran
  exact rest found (first tokens found behind read) behind value left ran

theorem seq {reader : Reader α} {next : α → Reader β} (rest : ∀ value, Makes (next value) last) :
    Makes (reader >>= next) last :=
  bind (fun _ _ _ _ => trivial : Makes reader fun _ => True) fun value _ => rest value

theorem weaken {other : α → Prop} {reader : Reader α} (makes : Makes reader post)
    (imp : ∀ value, post value → other value) : Makes reader other :=
  fun tokens value rest ran => imp value (makes tokens value rest ran)

theorem fail {error : SyntaxError} : Makes (Reader.fail error) post := fun _ _ _ ran => nomatch ran

theorem refuse {expected : Expected} : Makes (Reader.refuse expected) post := fun _ _ _ ran => nomatch ran

theorem exhausted : Makes Reader.exhausted post := fun _ _ _ ran => nomatch ran

theorem nested {depth : Nat} {inner : Nat → Reader α} (makes : ∀ depth, Makes (inner depth) post) :
    Makes (Reader.nested depth inner) post := by
  unfold Reader.nested
  split
  · exact .seq fun _ => .fail
  · exact makes _

end Makes

/-! ## Names -/

theorem assignable_makes {mark : String} {exprs : List Expr} :
    Makes (Reader.assignable mark exprs) (fun names => names.length = exprs.length) := by
  induction exprs with
  | nil => exact .pure rfl
  | cons expr exprs ih =>
      cases expr with
      | identifier name location => exact ih.bind fun names same => .pure (by simp [same])
      | _ => exact .seq fun _ => .fail

theorem names_make {mark : String} {exprs : List Expr} (some : exprs ≠ []) :
    Makes (Reader.assignable mark exprs) (· ≠ []) :=
  assignable_makes.weaken fun names same => by
    rintro rfl
    exact some (List.length_eq_zero_iff.mp same.symm)

theorem spreadTypes_named {entries : List Reader.Entry} {waiting : List String}
    {params : List (Option String × Ty)} (spread : Reader.spreadTypes waiting entries = some params) :
    ∀ param ∈ params, param.1.isSome := by
  fun_induction Reader.spreadTypes waiting entries generalizing params with
  | case1 waiting none =>
      obtain rfl := Option.some.inj spread
      exact nofun
  | case2 waiting some => exact nomatch spread
  | case3 waiting name entries ih => exact ih spread
  | case4 waiting name type entries ih =>
      obtain ⟨others, spreadRest, same⟩ := Option.bind_eq_some_iff.mp spread
      obtain rfl := Option.some.inj same
      refine List.forall_mem_append.mpr ⟨fun param member => ?_, ih spreadRest⟩
      obtain ⟨_, _, rfl⟩ := List.mem_map.mp member
      rfl
  | case5 waiting type entries => exact nomatch spread

theorem groupEntries_same {entries : List Reader.Entry} {params : List (Option String × Ty)}
    (grouped : Reader.groupEntries entries = some params) :
    (∀ param ∈ params, param.1.isSome) ∨ ∀ param ∈ params, param.1 = none := by
  unfold Reader.groupEntries at grouped
  split at grouped
  · exact .inl (spreadTypes_named grouped)
  · obtain rfl := Option.some.inj grouped
    refine .inr fun param member => ?_
    obtain ⟨_, _, rfl⟩ := List.mem_map.mp member
    rfl

theorem parameters_make (fuel : Nat) : Makes (Reader.parameters fuel)
    (fun params => (∀ param ∈ params, param.1.isSome) ∨ ∀ param ∈ params, param.1 = none) := by
  cases fuel with
  | zero => exact .exhausted
  | succ fuel =>
      unfold Reader.parameters
      refine .seq fun _ => .seq fun entries => .seq fun _ => ?_
      split
      · rename_i params grouped
        exact .pure (groupEntries_same grouped)
      · exact .fail

theorem results_make (fuel : Nat) : Makes (Reader.results fuel)
    (fun results => results.2 = [] ∨ results.2.length = results.1.length) := by
  cases fuel with
  | zero => exact .exhausted
  | succ fuel =>
      unfold Reader.results
      refine .seq fun word => ?_
      split
      · refine (parameters_make fuel).bind fun params same => .pure ?_
        rcases same with all | none
        · right
          rw [List.length_map]
          exact List.filterMap_length_eq_length.mpr all
        · left
          exact List.filterMap_eq_nil_iff.mpr none
      · exact .seq fun type => .pure (.inl rfl)
      · exact .seq fun type => .pure (.inl rfl)
      · exact .pure (.inl rfl)

theorem signature_makes (fuel : Nat) : Makes (Reader.signature fuel) Shaped.signature := by
  unfold Reader.signature
  refine .seq fun _ => .seq fun params => ?_
  split
  · exact .fail
  · exact (results_make fuel).bind fun results same => .pure same

theorem conditionOf_makes {location : Location} {stmt : Stmt} (shaped : Shaped.stmt stmt) :
    Makes (Reader.conditionOf location stmt) Shaped.expr := by
  cases stmt with
  | expression expr =>
      rw [Shaped.stmt] at shaped
      exact .pure shaped
  | _ => exact .fail

/-! ## Expressions and statements -/

/-- A statement that a body may have. -/
def BodyShaped (stmt : Stmt) : Prop :=
  Shaped.stmt stmt ∧ ∀ found, stmt = .expression found → found.isCall = true

/-- The cases of a switch, of which none is a default if there was one. -/
def CasesShaped (sawDefault : Bool) (cases : List SwitchCase) : Prop :=
  Shaped.cases cases ∧ (cases.filter SwitchCase.isDefault).length + (if sawDefault then 1 else 0) ≤ 1

/-- What the readers of expressions and statements make. -/
structure TreesMade (fuel : Nat) : Prop where
  expression : ∀ depth, Makes (Reader.expression fuel depth) Shaped.expr
  binary : ∀ depth level, Makes (Reader.binary fuel depth level) Shaped.expr
  binaryRest : ∀ depth level left, Shaped.expr left →
    Makes (Reader.binaryRest fuel depth level left) Shaped.expr
  unary : ∀ depth, Makes (Reader.unary fuel depth) Shaped.expr
  unaryOperand : ∀ depth op location, Makes (Reader.unaryOperand fuel depth op location) Shaped.expr
  calls : ∀ depth callee, Shaped.expr callee → Makes (Reader.calls fuel depth callee) Shaped.expr
  arguments : ∀ depth, Makes (Reader.arguments fuel depth) Shaped.exprs
  primary : ∀ depth, Makes (Reader.primary fuel depth) Shaped.expr
  functionRest : ∀ depth location, Makes (Reader.functionRest fuel depth location) Shaped.function
  expressions : ∀ depth, Makes (Reader.expressions fuel depth)
    (fun exprs => exprs ≠ [] ∧ Shaped.exprs exprs)
  block : ∀ depth, Makes (Reader.block fuel depth) Shaped.stmts
  statements : ∀ depth inCase, Makes (Reader.statements fuel depth inCase) Shaped.stmts
  moreStatements : ∀ depth inCase, Makes (Reader.moreStatements fuel depth inCase) Shaped.stmts
  statement : ∀ depth, Makes (Reader.statement fuel depth) BodyShaped
  simple : ∀ depth, Makes (Reader.simple fuel depth)
    (fun stmt => Shaped.stmt stmt ∧ isSimple stmt = true)
  varDecl : ∀ depth, Makes (Reader.varDecl fuel depth) Shaped.valueDecl
  constDecl : ∀ depth, Makes (Reader.constDecl fuel depth) Shaped.valueDecl
  valueSpec : ∀ depth keyword, Makes (Reader.valueSpec fuel depth keyword)
    (fun spec => spec.1 ≠ [] ∧ Shaped.exprs spec.2.2)
  conditional : ∀ depth, Makes (Reader.conditional fuel depth) Shaped.ifStmt
  elseBranch : ∀ depth, Makes (Reader.elseBranch fuel depth) Shaped.elseBranch
  loop : ∀ depth, Makes (Reader.loop fuel depth) BodyShaped
  headerStart : ∀ depth, Makes (Reader.headerStart fuel depth) Shaped.header
  loopCondition : ∀ depth, Makes (Reader.loopCondition fuel depth) Shaped.optionalExpr
  loopPost : ∀ depth, Makes (Reader.loopPost fuel depth)
    (fun post => Shaped.header post ∧ ∀ last, post = some last → isSilent last = true)
  switch : ∀ depth, Makes (Reader.switch fuel depth) BodyShaped
  switchHeader : ∀ depth, Makes (Reader.switchHeader fuel depth)
    (fun header => Shaped.header header.1 ∧ Shaped.optionalExpr header.2)
  cases : ∀ depth sawDefault, Makes (Reader.cases fuel depth sawDefault) (CasesShaped sawDefault)
  caseRest : ∀ depth sawDefault label location, Shaped.caseLabel label →
    Makes (Reader.caseRest fuel depth sawDefault label location)
      (fun cases => Shaped.cases cases ∧ ∃ first rest, cases = first :: rest ∧ first.label = label ∧
        CasesShaped sawDefault rest)

theorem treesMade_zero : TreesMade 0 where
  expression _ := .exhausted
  binary _ _ := .exhausted
  binaryRest _ _ _ _ := .exhausted
  unary _ := .exhausted
  unaryOperand _ _ _ := .exhausted
  calls _ _ _ := .exhausted
  arguments _ := .exhausted
  primary _ := .exhausted
  functionRest _ _ := .exhausted
  expressions _ := .exhausted
  block _ := .exhausted
  statements _ _ := .exhausted
  moreStatements _ _ := .exhausted
  statement _ := .exhausted
  simple _ := .exhausted
  varDecl _ := .exhausted
  constDecl _ := .exhausted
  valueSpec _ _ := .exhausted
  conditional _ := .exhausted
  elseBranch _ := .exhausted
  loop _ := .exhausted
  headerStart _ := .exhausted
  loopCondition _ := .exhausted
  loopPost _ := .exhausted
  switch _ := .exhausted
  switchHeader _ := .exhausted
  cases _ _ := .exhausted
  caseRest _ _ _ _ _ := .exhausted

namespace TreesMade

variable {fuel : Nat} (made : TreesMade fuel)
include made

attribute [local simp] Shaped.expr Shaped.exprs Shaped.optionalExpr Shaped.function Shaped.valueDecl Shaped.ifStmt
  Shaped.elseBranch Shaped.caseLabel Shaped.cases Shaped.stmt Shaped.stmts Shaped.header

theorem expression_succ (depth : Nat) : Makes (Reader.expression (fuel + 1) depth) Shaped.expr := by
  unfold Reader.expression
  exact .nested fun depth => made.binary depth 1

theorem binary_succ (depth level : Nat) : Makes (Reader.binary (fuel + 1) depth level) Shaped.expr := by
  unfold Reader.binary
  split
  · exact made.unary depth
  · exact (made.binary depth (level + 1)).bind fun left shaped => made.binaryRest depth level left shaped

theorem binaryRest_succ (depth level : Nat) (left : Expr) (shaped : Shaped.expr left) :
    Makes (Reader.binaryRest (fuel + 1) depth level left) Shaped.expr := by
  unfold Reader.binaryRest
  refine .seq fun word => ?_
  split
  · split
    · refine .seq fun sign => (made.binary depth (level + 1)).bind fun right shapedRight => ?_
      refine made.binaryRest depth level _ ?_
      rw [Shaped.expr]
      exact ⟨shaped, shapedRight⟩
    · exact .pure shaped
  · exact .pure shaped

theorem unary_succ (depth : Nat) : Makes (Reader.unary (fuel + 1) depth) Shaped.expr := by
  unfold Reader.unary
  refine .seq fun word => ?_
  split
  · refine .seq fun sign => .seq fun next => ?_
    split
    · split
      · -- the magnitude of the smallest integer is read with its sign
        refine .seq fun _ => .pure ?_
        rw [Shaped.expr]
        exact .inr rfl
      · exact made.unaryOperand depth .negate sign.location
    · exact made.unaryOperand depth .negate sign.location
  · exact .seq fun sign => made.unaryOperand depth .plus sign.location
  · exact .seq fun sign => made.unaryOperand depth .not sign.location
  · exact .seq fun sign => made.unaryOperand depth .bitNot sign.location
  · exact (made.primary depth).bind fun callee shaped => made.calls depth callee shaped

theorem unaryOperand_succ (depth : Nat) (op : UnaryOp) (location : Location) :
    Makes (Reader.unaryOperand (fuel + 1) depth op location) Shaped.expr := by
  unfold Reader.unaryOperand
  refine (Makes.nested fun depth => made.unary depth).bind fun operand shaped => .pure ?_
  rw [Shaped.expr]
  exact shaped

theorem calls_succ (depth : Nat) (callee : Expr) (shaped : Shaped.expr callee) :
    Makes (Reader.calls (fuel + 1) depth callee) Shaped.expr := by
  unfold Reader.calls
  refine .seq fun found => ?_
  split
  · refine .seq fun opening => (made.arguments depth).bind fun args shapedArgs => .seq fun _ => ?_
    refine made.calls depth _ ?_
    rw [Shaped.expr]
    exact ⟨shaped, shapedArgs⟩
  · exact .pure shaped

theorem arguments_succ (depth : Nat) : Makes (Reader.arguments (fuel + 1) depth) Shaped.exprs := by
  unfold Reader.arguments
  refine .seq fun found => ?_
  split
  · exact .pure (by simp)
  · refine (made.expression depth).bind fun first shaped => .seq fun found => ?_
    split
    · refine .seq fun _ => (made.arguments depth).bind fun rest shapedRest => .pure ?_
      rw [Shaped.exprs]
      exact ⟨shaped, shapedRest⟩
    · refine .pure ?_
      rw [Shaped.exprs, Shaped.exprs]
      exact ⟨shaped, trivial⟩

theorem primary_succ (depth : Nat) : Makes (Reader.primary (fuel + 1) depth) Shaped.expr := by
  unfold Reader.primary
  refine .seq fun token => ?_
  split
  · rename_i magnitude _
    refine .seq fun _ => ?_
    split
    · rename_i below
      refine .pure ?_
      rw [Shaped.expr]
      have small : magnitude < 2 ^ 63 := below
      refine .inl (Int64.le_iff_toInt_le.mpr ?_)
      rw [Int64.toInt_ofNat_of_lt small]
      exact Int.natCast_nonneg magnitude
    · exact .fail
  · exact .seq fun _ => .pure (by simp)
  · exact .seq fun _ => .pure (by simp)
  · refine .seq fun _ => .seq fun found => ?_
    split
    · exact .seq fun _ => .seq fun selected => .pure (by simp)
    · exact .pure (by simp)
  · exact .seq fun _ => (made.expression depth).bind fun inner shaped => .seq fun _ => .pure shaped
  · refine .seq fun _ => (made.functionRest depth token.location).bind fun literal shaped => .pure ?_
    rw [Shaped.expr]
    exact shaped
  · exact .refuse

theorem functionRest_succ (depth : Nat) (location : Location) :
    Makes (Reader.functionRest (fuel + 1) depth location) Shaped.function := by
  unfold Reader.functionRest
  refine (signature_makes fuel).bind fun signature shaped => (made.block depth).bind fun body shapedBody => ?_
  refine .pure ?_
  rw [Shaped.function]
  exact ⟨shaped, shapedBody⟩

theorem expressions_succ (depth : Nat) :
    Makes (Reader.expressions (fuel + 1) depth) (fun exprs => exprs ≠ [] ∧ Shaped.exprs exprs) := by
  unfold Reader.expressions
  refine (made.expression depth).bind fun first shaped => .seq fun found => ?_
  split
  · refine .seq fun _ => (made.expressions depth).bind fun rest both => .pure ⟨nofun, ?_⟩
    rw [Shaped.exprs]
    exact ⟨shaped, both.2⟩
  · refine .pure ⟨nofun, ?_⟩
    rw [Shaped.exprs, Shaped.exprs]
    exact ⟨shaped, trivial⟩

theorem block_succ (depth : Nat) : Makes (Reader.block (fuel + 1) depth) Shaped.stmts := by
  unfold Reader.block
  refine .nested fun depth => .seq fun _ => .seq fun _ => ?_
  exact (made.statements depth false).bind fun body shaped => .seq fun _ => .pure shaped

theorem statements_succ (depth : Nat) (inCase : Bool) :
    Makes (Reader.statements (fuel + 1) depth inCase) Shaped.stmts := by
  have none : Shaped.stmts [] := by
    simp
  unfold Reader.statements
  refine .seq fun word => ?_
  split
  · exact .pure none
  · exact .pure none
  · split
    · exact .pure none
    · exact made.moreStatements depth inCase
  · split
    · exact .pure none
    · exact made.moreStatements depth inCase
  · exact made.moreStatements depth inCase

theorem moreStatements_succ (depth : Nat) (inCase : Bool) :
    Makes (Reader.moreStatements (fuel + 1) depth inCase) Shaped.stmts := by
  unfold Reader.moreStatements
  refine (made.statement depth).bind fun first shaped => .seq fun _ => ?_
  refine (made.statements depth inCase).bind fun rest shapedRest => .pure ?_
  rw [Shaped.stmts]
  exact ⟨shaped.1, shaped.2, shapedRest⟩

theorem statement_succ (depth : Nat) : Makes (Reader.statement (fuel + 1) depth) BodyShaped := by
  unfold Reader.statement
  refine .seq fun token => ?_
  split
  · refine (made.varDecl depth).bind fun decl shaped => .pure ⟨?_, nofun⟩
    rw [Shaped.stmt]
    exact shaped
  · refine (made.constDecl depth).bind fun decl shaped => .pure ⟨?_, nofun⟩
    rw [Shaped.stmt]
    exact shaped
  · refine (made.conditional depth).bind fun found shaped => .pure ⟨?_, nofun⟩
    rw [Shaped.stmt]
    exact shaped
  · exact made.loop depth
  · exact made.switch depth
  · have nothing : BodyShaped (.return [] token.location) := by
      refine ⟨?_, nofun⟩
      rw [Shaped.stmt, Shaped.exprs]
      exact trivial
    refine .seq fun _ => .seq fun next => ?_
    split
    · exact .pure nothing
    · exact .pure nothing
    · refine (made.expressions depth).bind fun values shaped => .pure ⟨?_, nofun⟩
      rw [Shaped.stmt]
      exact shaped.2
  · refine .seq fun _ => .pure ⟨?_, nofun⟩
    simp
  · refine .seq fun _ => .pure ⟨?_, nofun⟩
    simp
  · refine (made.block depth).bind fun body shaped => .pure ⟨?_, nofun⟩
    rw [Shaped.stmt]
    exact shaped
  · refine (made.simple depth).bind fun stmt shaped => ?_
    split
    · split
      · rename_i isCall
        exact .pure ⟨shaped.1, by rintro _ ⟨⟩; exact isCall⟩
      · exact .fail
    · rename_i other
      exact .pure ⟨shaped.1, fun found same => absurd same (other found)⟩

theorem simple_succ (depth : Nat) : Makes (Reader.simple (fuel + 1) depth)
    (fun stmt => Shaped.stmt stmt ∧ isSimple stmt = true) := by
  unfold Reader.simple
  refine .seq fun here => (made.expressions depth).bind fun exprs shaped => .seq fun token => ?_
  split
  · refine (names_make shaped.1).bind fun names some => .seq fun _ => ?_
    refine (made.expressions depth).bind fun values shapedValues => .pure ⟨?_, rfl⟩
    rw [Shaped.stmt]
    exact ⟨some, shapedValues.1, shapedValues.2⟩
  · refine (names_make shaped.1).bind fun names some => .seq fun _ => ?_
    refine (made.expressions depth).bind fun values shapedValues => .pure ⟨?_, rfl⟩
    rw [Shaped.stmt]
    exact ⟨some, shapedValues.1, shapedValues.2⟩
  · exact .seq fun name => .seq fun _ => .pure ⟨by simp, rfl⟩
  · exact .seq fun name => .seq fun _ => .pure ⟨by simp, rfl⟩
  · refine .seq fun name => .seq fun _ => (made.expression depth).bind fun value shapedValue => ?_
    refine .pure ⟨?_, rfl⟩
    rw [Shaped.stmt]
    exact shapedValue
  · split
    · rename_i expr
      refine .pure ⟨?_, rfl⟩
      rw [Shaped.stmt]
      rw [Shaped.exprs] at shaped
      exact shaped.2.1
    · exact .refuse

theorem valueSpec_succ (depth : Nat) (keyword : String) :
    Makes (Reader.valueSpec (fuel + 1) depth keyword)
      (fun spec => spec.1 ≠ [] ∧ Shaped.exprs spec.2.2) := by
  unfold Reader.valueSpec
  refine .seq fun first => .seq fun more => .seq fun type? => .seq fun found => ?_
  split
  · exact .seq fun _ => (made.expressions depth).bind fun values shaped => .pure ⟨nofun, shaped.2⟩
  · refine .pure ⟨nofun, ?_⟩
    simp

theorem varDecl_succ (depth : Nat) : Makes (Reader.varDecl (fuel + 1) depth) Shaped.valueDecl := by
  unfold Reader.varDecl
  refine .seq fun token => (made.valueSpec depth "var").bind fun spec shaped => ?_
  obtain ⟨names, type?, values⟩ := spec
  dsimp only
  split
  · exact .refuse
  · rename_i given
    refine .pure ?_
    rw [Shaped.valueDecl]
    refine ⟨shaped.1, shaped.2, ?_⟩
    rintro rfl
    cases type? with
    | none => exact absurd rfl given
    | some type => exact ⟨rfl, rfl⟩

theorem constDecl_succ (depth : Nat) : Makes (Reader.constDecl (fuel + 1) depth) Shaped.valueDecl := by
  unfold Reader.constDecl
  refine .seq fun token => (made.valueSpec depth "const").bind fun spec shaped => ?_
  obtain ⟨names, type?, values⟩ := spec
  dsimp only
  split
  · exact .fail
  · rename_i given
    refine .pure ?_
    rw [Shaped.valueDecl]
    exact ⟨shaped.1, shaped.2, fun none => absurd (List.isEmpty_iff.mpr none) given⟩

theorem conditional_succ (depth : Nat) : Makes (Reader.conditional (fuel + 1) depth) Shaped.ifStmt := by
  unfold Reader.conditional
  refine .seq fun token => .seq fun here => (made.simple depth).bind fun first shaped => ?_
  have header : Makes (do
      if ← Reader.atWrittenSemicolon then do
        let _ ← Reader.advance
        let condition ← Reader.expression fuel depth
        Pure.pure (some first, condition)
      else do
        let condition ← Reader.conditionOf here.location first
        Pure.pure (none, condition))
      (fun header => Shaped.header header.1 ∧ Shaped.expr header.2) := by
    refine .seq fun found => ?_
    split
    · refine .seq fun _ => (made.expression depth).bind fun condition shapedCondition => ?_
      refine .pure ⟨?_, shapedCondition⟩
      rw [Shaped.header]
      exact shaped
    · refine (conditionOf_makes shaped.1).bind fun condition shapedCondition => ?_
      refine .pure ⟨?_, shapedCondition⟩
      simp
  refine header.bind fun both shapedHeader => ?_
  obtain ⟨init, condition⟩ := both
  refine (made.block depth).bind fun body shapedBody => (made.elseBranch depth).bind fun orElse shapedElse => ?_
  refine .pure ?_
  rw [Shaped.ifStmt]
  exact ⟨shapedHeader.1, shapedHeader.2, shapedBody, shapedElse⟩

theorem elseBranch_succ (depth : Nat) : Makes (Reader.elseBranch (fuel + 1) depth) Shaped.elseBranch := by
  unfold Reader.elseBranch
  refine .seq fun found => ?_
  split
  · refine .seq fun _ => .seq fun word => ?_
    split
    · refine (made.conditional depth).bind fun next shaped => .pure ?_
      rw [Shaped.elseBranch]
      exact shaped
    · refine (made.block depth).bind fun body shaped => .pure ?_
      rw [Shaped.elseBranch]
      exact shaped
    · exact .refuse
  · refine .pure ?_
    simp

omit made in
theorem header_none : Shaped.header none := by
  simp

omit made in
theorem optionalExpr_none : Shaped.optionalExpr none := by
  simp

theorem loop_succ (depth : Nat) : Makes (Reader.loop (fuel + 1) depth) BodyShaped := by
  unfold Reader.loop
  refine .seq fun token => .seq fun here => .seq fun found => ?_
  split
  · refine (made.block depth).bind fun body shapedBody => .pure ⟨?_, nofun⟩
    rw [Shaped.stmt]
    exact ⟨header_none, optionalExpr_none, header_none, nofun, shapedBody⟩
  · refine (made.headerStart depth).bind fun first shaped => .seq fun found => ?_
    split
    · rw [Shaped.header] at shaped
      refine (conditionOf_makes shaped.1).bind fun condition shapedCondition => ?_
      refine (made.block depth).bind fun body shapedBody => .pure ⟨?_, nofun⟩
      rw [Shaped.stmt, Shaped.optionalExpr]
      exact ⟨header_none, shapedCondition, header_none, nofun, shapedBody⟩
    · refine .seq fun _ => (made.loopCondition depth).bind fun condition shapedCondition => ?_
      refine .seq fun _ => (made.loopPost depth).bind fun post shapedPost => ?_
      refine (made.block depth).bind fun body shapedBody => .pure ⟨?_, nofun⟩
      rw [Shaped.stmt]
      exact ⟨shaped, shapedCondition, shapedPost.1, shapedPost.2, shapedBody⟩

theorem headerStart_succ (depth : Nat) : Makes (Reader.headerStart (fuel + 1) depth) Shaped.header := by
  unfold Reader.headerStart
  refine .seq fun found => ?_
  split
  · exact .pure header_none
  · refine (made.simple depth).bind fun stmt shaped => .pure ?_
    rw [Shaped.header]
    exact shaped

theorem loopCondition_succ (depth : Nat) :
    Makes (Reader.loopCondition (fuel + 1) depth) Shaped.optionalExpr := by
  unfold Reader.loopCondition
  refine .seq fun found => ?_
  split
  · exact .pure optionalExpr_none
  · refine (made.expression depth).bind fun condition shaped => .pure ?_
    rw [Shaped.optionalExpr]
    exact shaped

theorem loopPost_succ (depth : Nat) : Makes (Reader.loopPost (fuel + 1) depth)
    (fun post => Shaped.header post ∧ ∀ last, post = some last → isSilent last = true) := by
  unfold Reader.loopPost
  refine .seq fun found => ?_
  split
  · exact .pure ⟨header_none, nofun⟩
  · refine .seq fun here => (made.simple depth).bind fun stmt shaped => ?_
    split
    · exact .fail
    · rename_i other
      refine .pure ⟨by rw [Shaped.header]; exact shaped, ?_⟩
      rintro _ ⟨⟩
      cases stmt with
      | define names values location => exact absurd rfl (other names values location)
      | declare decl => exact absurd shaped.2 Bool.false_ne_true
      | _ => rfl

theorem switch_succ (depth : Nat) : Makes (Reader.switch (fuel + 1) depth) BodyShaped := by
  unfold Reader.switch
  refine .seq fun token => (made.switchHeader depth).bind fun header shaped => ?_
  obtain ⟨init, tag⟩ := header
  refine .seq fun _ => .seq fun _ => (made.cases depth false).bind fun found shapedCases => .seq fun _ => ?_
  refine .pure ⟨?_, nofun⟩
  rw [Shaped.stmt]
  exact ⟨shaped.1, shaped.2, shapedCases⟩

theorem switchHeader_succ (depth : Nat) : Makes (Reader.switchHeader (fuel + 1) depth)
    (fun header => Shaped.header header.1 ∧ Shaped.optionalExpr header.2) := by
  unfold Reader.switchHeader
  refine .seq fun found => ?_
  split
  · exact .pure ⟨header_none, optionalExpr_none⟩
  · refine .seq fun here => (made.headerStart depth).bind fun first shaped => .seq fun found => ?_
    split
    · rw [Shaped.header] at shaped
      refine (conditionOf_makes shaped.1).bind fun tag shapedTag => .pure ⟨header_none, ?_⟩
      rw [Shaped.optionalExpr]
      exact shapedTag
    · refine .seq fun _ => .seq fun found => ?_
      split
      · exact .pure ⟨shaped, optionalExpr_none⟩
      · refine (made.expression depth).bind fun tag shapedTag => .pure ⟨shaped, ?_⟩
        rw [Shaped.optionalExpr]
        exact shapedTag

theorem cases_succ (depth : Nat) (sawDefault : Bool) :
    Makes (Reader.cases (fuel + 1) depth sawDefault) (CasesShaped sawDefault) := by
  unfold Reader.cases
  refine .seq fun token => ?_
  split
  · refine .pure ⟨?_, by cases sawDefault <;> decide⟩
    simp
  · refine .seq fun _ => (made.expressions depth).bind fun values shaped => ?_
    have labelled : Shaped.caseLabel (.values values) := by
      rw [Shaped.caseLabel]
      exact shaped
    refine (made.caseRest depth sawDefault _ token.location labelled).weaken fun cases both => ?_
    obtain ⟨shapedCases, first, rest, rfl, label, counted⟩ := both
    have plain : first.isDefault = false := by
      rw [SwitchCase.isDefault, label]
    refine ⟨shapedCases, ?_⟩
    rw [List.filter_cons_of_neg (by simp [plain])]
    exact counted.2
  · split
    · exact .fail
    · rename_i unseen
      have labelled : Shaped.caseLabel .otherwise := by
        simp
      refine .seq fun _ => (made.caseRest depth true _ token.location labelled).weaken fun cases both => ?_
      obtain ⟨shapedCases, first, rest, rfl, label, counted⟩ := both
      have default : first.isDefault = true := by
        rw [SwitchCase.isDefault, label]
      refine ⟨shapedCases, ?_⟩
      rw [List.filter_cons_of_pos default, Bool.eq_false_iff.mpr unseen]
      exact counted.2
  · exact .refuse

theorem caseRest_succ (depth : Nat) (sawDefault : Bool) (label : CaseLabel) (location : Location)
    (labelled : Shaped.caseLabel label) :
    Makes (Reader.caseRest (fuel + 1) depth sawDefault label location)
      (fun cases => Shaped.cases cases ∧ ∃ first rest, cases = first :: rest ∧ first.label = label ∧
        CasesShaped sawDefault rest) := by
  unfold Reader.caseRest
  refine .seq fun _ => .seq fun _ => (made.statements depth true).bind fun body shapedBody => ?_
  refine (made.cases depth sawDefault).bind fun rest shapedRest => .pure ⟨?_, _, rest, rfl, rfl, shapedRest⟩
  rw [Shaped.cases]
  exact ⟨labelled, shapedBody, shapedRest.1⟩

theorem succ : TreesMade (fuel + 1) where
  expression := made.expression_succ
  binary := made.binary_succ
  binaryRest := made.binaryRest_succ
  unary := made.unary_succ
  unaryOperand := made.unaryOperand_succ
  calls := made.calls_succ
  arguments := made.arguments_succ
  primary := made.primary_succ
  functionRest := made.functionRest_succ
  expressions := made.expressions_succ
  block := made.block_succ
  statements := made.statements_succ
  moreStatements := made.moreStatements_succ
  statement := made.statement_succ
  simple := made.simple_succ
  varDecl := made.varDecl_succ
  constDecl := made.constDecl_succ
  valueSpec := made.valueSpec_succ
  conditional := made.conditional_succ
  elseBranch := made.elseBranch_succ
  loop := made.loop_succ
  headerStart := made.headerStart_succ
  loopCondition := made.loopCondition_succ
  loopPost := made.loopPost_succ
  switch := made.switch_succ
  switchHeader := made.switchHeader_succ
  cases := made.cases_succ
  caseRest := made.caseRest_succ

end TreesMade

theorem treesMade (fuel : Nat) : TreesMade fuel := by
  induction fuel with
  | zero => exact treesMade_zero
  | succ fuel ih => exact ih.succ

/-! ## Files -/

theorem declaration_makes (fuel : Nat) : Makes (Reader.declaration fuel) Shaped.decl := by
  have made := treesMade fuel
  unfold Reader.declaration
  refine .seq fun token => ?_
  split
  · exact .fail
  · unfold Reader.functionDecl
    refine .seq fun token => .seq fun name => ?_
    exact (made.functionRest 0 token.location).bind fun literal shaped => .pure shaped
  · exact (made.varDecl 0).bind fun decl shaped => .pure shaped
  · exact (made.constDecl 0).bind fun decl shaped => .pure shaped
  · exact .refuse

theorem declarations_make (fuel : Nat) :
    Makes (Reader.declarations fuel) (fun decls => ∀ decl ∈ decls, Shaped.decl decl) := by
  induction fuel with
  | zero => exact .exhausted
  | succ fuel ih =>
      unfold Reader.declarations
      refine .seq fun word => ?_
      split
      · exact .pure fun _ member => absurd member List.not_mem_nil
      · refine (declaration_makes fuel).bind fun first shaped => .seq fun _ => .seq fun _ => ?_
        exact ih.bind fun rest all => .pure (List.forall_mem_cons.mpr ⟨shaped, all⟩)

theorem file_makes (fuel : Nat) : Makes (Reader.file fuel) Shaped.program := by
  unfold Reader.file
  refine .seq fun _ => .seq fun _ => .seq fun package => .seq fun _ => .seq fun _ => .seq fun imports => ?_
  exact (declarations_make fuel).bind fun declarations shaped => .pure shaped

/-- Whatever tokens are read as a file, the tree is shaped: in all of it, a switch has at most one
default; headers hold simple statements, and a loop does not end its rounds with a declaration; an
expression in a body is a call; names are given, and so are values, save for a variable with a type and
a `return` that stands alone; the names of results are none or as many as the results; and an integer is
not negative or is the smallest one. -/
theorem parse_shaped {tokens : List Token} {program : Program} (read : parse tokens = .ok program) :
    Shaped.program program := by
  unfold parse Reader.run at read
  split at read
  · rename_i rest same
    cases read
    exact file_makes _ tokens _ rest same
  · cases read
  · cases read

/-! A file whose only switch has its default in front. -/

namespace DefaultInFront

def token (word : Word) : Token := ⟨word, "", Location.nowhere⟩

def tokens : List Token := [
  token (.keyword .packageWord), token (.identifier "p"), token (.semicolon true),
  token (.keyword .funcWord), token (.identifier "f"), token (.mark .leftParen),
  token (.mark .rightParen), token (.mark .leftBrace), token (.keyword .switchWord),
  token (.mark .leftBrace), token (.keyword .defaultWord), token (.mark .colon),
  token (.keyword .caseWord), token (.identifier "c"), token (.mark .colon),
  token (.keyword .breakWord), token (.mark .rightBrace), token (.mark .rightBrace),
  token .endOfInput]

def program : Program :=
  ⟨"p", [], [.function "f" ⟨⟨[], [], []⟩, [
    .switch none none [
      ⟨.otherwise, [], Location.nowhere⟩,
      ⟨.values [.identifier "c" Location.nowhere], [.break Location.nowhere], Location.nowhere⟩]
      Location.nowhere], Location.nowhere⟩]⟩

theorem read : parse tokens = .ok program := by
  unfold tokens program token
  cbv

end DefaultInFront

theorem default_in_front_shaped : Shaped.program DefaultInFront.program :=
  parse_shaped DefaultInFront.read

/-- A `return` may stand alone, and then its list of values is empty: `func f() { return }`. -/
theorem lone_return_read :
    parse [⟨.keyword .packageWord, "package", ⟨1, 1⟩⟩, ⟨.identifier "p", "p", ⟨1, 9⟩⟩,
      ⟨.semicolon false, ";", ⟨1, 10⟩⟩, ⟨.keyword .funcWord, "func", ⟨1, 12⟩⟩,
      ⟨.identifier "f", "f", ⟨1, 17⟩⟩, ⟨.mark .leftParen, "(", ⟨1, 18⟩⟩,
      ⟨.mark .rightParen, ")", ⟨1, 19⟩⟩, ⟨.mark .leftBrace, "\x7b", ⟨1, 21⟩⟩,
      ⟨.keyword .returnWord, "return", ⟨1, 23⟩⟩, ⟨.mark .rightBrace, "\x7d", ⟨1, 30⟩⟩,
      ⟨.endOfInput, "", ⟨1, 31⟩⟩] =
    .ok ⟨"p", [], [.function "f" ⟨⟨[], [], []⟩, [.return [] ⟨1, 23⟩], ⟨1, 12⟩⟩]⟩ := by
  cbv

end MiniGo.Syntax
