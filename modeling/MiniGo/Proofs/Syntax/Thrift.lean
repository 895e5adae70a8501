import MiniGo.Proofs.Syntax.Scripts

/-!
# Routines are thrifty

What a routine may spend is paid by the tokens that it takes. `Thrifty` follows a script with what is known of the
token ahead, how many tokens the routine has taken at least, and how many steps it has made at most: it takes no
token that may be the end of the input, and before it has taken one it starts routines of a lower rank only. Every
script is thrifty (`thrifty`); what follows for whole runs is one case for each kind of step.
-/

namespace MiniGo.Syntax

namespace Routine

/-- A routine starts only routines of a lower rank before it has taken a token. -/
def rank : Routine → Nat
  | skip => 0
  | type | parameters | moreNames | binaryRest _ | calls | primary | block | varDecl | constDecl | valueSpec
  | conditional | elseBranch | loop | switch | cases | caseRest | importSpec | importDecl | functionDecl | file => 1
  | entry | results | signature | optionalType | unary | importSpecs | imports | declaration => 2
  | entries | unaryOperand | functionRest | declarations => 3
  | binary level => 3 + (6 - level)
  | expression => 9
  | arguments | expressions | loopCondition => 10
  | simple => 11
  | statement | headerStart | loopPost => 12
  | moreStatements | switchHeader => 13
  | statements => 14

theorem rank_lt (routine : Routine) : routine.rank < 16 := by
  cases routine with
  | binary level =>
      change 3 + (6 - level) < 16
      omega
  | _ => simp [rank]

/-- The tokens that a routine takes at least if it does not fail. -/
def least : Routine → Nat
  | type | parameters | entry | signature | expression | binary _ | unary | unaryOperand | primary | functionRest
  | expressions | block | statement | simple | varDecl | constDecl | valueSpec | conditional | loop | switch
  | importSpec | importDecl | functionDecl | declaration => 1
  | _ => 0

def tokenPrice : Nat := 64

/-- The steps of a routine that no token pays for. -/
def cost : Routine → Nat
  | skip | moreNames | binaryRest _ | calls | varDecl | constDecl | conditional | elseBranch | loop | switch
  | importDecl | functionDecl => 1
  | type | parameters | block | cases | caseRest => 2
  | primary | importSpec | imports | declaration => 3
  | results | optionalType | file => 4
  | entry | importSpecs | declarations => 5
  | entries | unary => 7
  | unaryOperand => 8
  | signature => 9
  | functionRest | valueSpec => 10
  | binary level => 8 + 3 * (6 - level)
  | expression => 24
  | arguments | expressions | loopCondition => 26
  | simple => 29
  | statement | headerStart => 31
  | moreStatements | loopPost => 32
  | statements => 34
  | switchHeader => 35

/-- What has to be ahead when a routine starts: the keyword of a declaration or a statement is taken unseen. -/
def Needs : Routine → Token → Prop
  | varDecl | constDecl | conditional | loop | switch | importDecl | functionDecl => fun token =>
      token.word ≠ .endOfInput
  | _ => fun _ => True

/-- What is ahead when a routine has given a result: a header without a first part goes on with a semicolon. -/
def Leaves : (routine : Routine) → routine.Result → Token → Prop
  | headerStart, none => fun token => Reader.isSemicolon token = true
  | _, _ => fun _ => True

end Routine

open Routine (tokenPrice)

/-- Tokens have paid for what was spent. -/
def Paid (caller : Routine) (taken spent : Nat) : Prop := spent ≤ caller.cost + tokenPrice * taken

/-- Enough tokens are taken for a result, and those above the least number have paid. -/
def MayReturn (caller : Routine) (taken spent : Nat) : Prop :=
  caller.least ≤ taken ∧ spent + tokenPrice * caller.least ≤ caller.cost + tokenPrice * taken

/-- A routine may be started: it is of a lower rank if no token is taken yet, and it can be paid. -/
def MayStart (caller routine : Routine) (taken spent : Nat) : Prop :=
  (taken = 0 → routine.rank < caller.rank) ∧ Paid caller taken (spent + 1 + routine.cost)

instance (caller : Routine) (taken spent : Nat) : Decidable (Paid caller taken spent) := Nat.decLe _ _

instance (caller : Routine) (taken spent : Nat) : Decidable (MayReturn caller taken spent) :=
  inferInstanceAs (Decidable (_ ∧ _))

instance (caller routine : Routine) (taken spent : Nat) : Decidable (MayStart caller routine taken spent) :=
  inferInstanceAs (Decidable (_ ∧ _))

variable {α β : Type} {caller : Routine} {leaves : α → Token → Prop} {ahead : Token → Prop} {taken spent : Nat}

/-- What is left of a script of `caller` is thrifty, with a token of some kind ahead, if at least so many
tokens are taken and at most so many steps are spent. -/
inductive Thrifty (caller : Routine) (leaves : α → Token → Prop) : (Token → Prop) → Nat → Nat → Script α → Prop
  | done {ahead : Token → Prop} {taken spent : Nat} {value : α} (enough : MayReturn caller taken spent)
      (fits : ∀ token, ahead token → leaves value token) : Thrifty caller leaves ahead taken spent (.done value)
  | stop {ahead : Token → Prop} {taken spent : Nat} {error : SyntaxError}
      (paid : Paid caller taken spent) : Thrifty caller leaves ahead taken spent (.stop error)
  | look {ahead : Token → Prop} {taken spent : Nat} {next : Token → Token → Script α}
      (rest : ∀ token second, ahead token → Thrifty caller leaves (· = token) taken (spent + 1) (next token second)) :
      Thrifty caller leaves ahead taken spent (.look next)
  | take {ahead : Token → Prop} {taken spent : Nat} {next : Token → Script α}
      (inner : ∀ token, ahead token → token.word ≠ .endOfInput)
      (rest : ∀ token, Thrifty caller leaves (fun _ => True) (taken + 1) (spent + 1) (next token)) :
      Thrifty caller leaves ahead taken spent (.take next)
  | start {ahead : Token → Prop} {taken spent : Nat} {routine : Routine} {args : routine.Args}
      {next : routine.Result → Script α} (needs : ∀ token, ahead token → routine.Needs token)
      (allowed : MayStart caller routine taken spent)
      (rest : ∀ value, Thrifty caller leaves (routine.Leaves value) (taken + routine.least) (spent + 1 + routine.cost)
        (next value)) :
      Thrifty caller leaves ahead taken spent (.start routine args next)

namespace Thrifty

/-- More may be known of the token ahead, more tokens may be taken, and steps may be spent for these. -/
theorem ease {script : Script α} (thrifty : Thrifty caller leaves ahead taken spent script) {ahead' : Token → Prop}
    {taken' spent' : Nat} (known : ∀ token, ahead' token → ahead token) (more : taken ≤ taken')
    (covered : spent' + tokenPrice * taken ≤ spent + tokenPrice * taken') :
    Thrifty caller leaves ahead' taken' spent' script := by
  unfold tokenPrice at covered
  induction thrifty generalizing ahead' taken' spent' with
  | done enough fits =>
      refine .done ?_ fun token here => fits token (known token here)
      unfold MayReturn tokenPrice at enough ⊢
      omega
  | stop paid =>
      refine .stop ?_
      unfold Paid tokenPrice at paid ⊢
      omega
  | look rest ih =>
      refine .look fun token second here => ?_
      exact ih token second (known token here) (fun _ same => same) more (by omega)
  | take inner rest ih =>
      refine .take (fun token here => inner token (known token here)) fun token => ?_
      exact ih token (fun _ _ => trivial) (by omega) (by omega)
  | start needs allowed rest ih =>
      refine .start (fun token here => needs token (known token here)) ?_ fun value => ?_
      · unfold MayStart Paid tokenPrice at allowed ⊢
        exact ⟨fun none => allowed.1 (by omega), by omega⟩
      · exact ih value (fun _ here => here) (by omega) (by omega)

/-! ## Rules -/

theorem pure {value : α} (enough : MayReturn caller taken spent) (fits : ∀ token, ahead token → leaves value token) :
    Thrifty caller leaves ahead taken spent (Pure.pure value) :=
  .done enough fits

theorem ends {value : α} (enough : MayReturn caller taken spent) :
    Thrifty caller (fun _ _ => True) ahead taken spent (Pure.pure value) :=
  .done enough fun _ _ => trivial

theorem sub {routine : Routine} {args : routine.Args} {next : routine.Result → Script α}
    (needs : ∀ token, ahead token → routine.Needs token) (allowed : MayStart caller routine taken spent)
    (rest : ∀ value, Thrifty caller leaves (routine.Leaves value) (taken + routine.least) (spent + 1 + routine.cost)
      (next value)) : Thrifty caller leaves ahead taken spent (Script.sub routine args >>= next) :=
  .start needs allowed rest

theorem peek {next : Token → Script α}
    (rest : ∀ token, Thrifty caller leaves (fun other => other.word = token.word) taken (spent + 1) (next token)) :
    Thrifty caller leaves ahead taken spent (Script.peek >>= next) :=
  .look fun token _ _ => (rest token).ease (fun _ same => congrArg Token.word same) (Nat.le_refl _) (Nat.le_refl _)

theorem peekWord {next : Word → Script α}
    (rest : ∀ word, Thrifty caller leaves (fun token => token.word = word) taken (spent + 1) (next word)) :
    Thrifty caller leaves ahead taken spent (Script.peekWord >>= next) :=
  .look fun token _ _ => (rest token.word).ease (fun _ same => congrArg Token.word same) (Nat.le_refl _) (Nat.le_refl _)

theorem peekSecond {next : Word → Script α}
    (rest : ∀ word, Thrifty caller leaves ahead taken (spent + 1) (next word)) :
    Thrifty caller leaves ahead taken spent (Script.peekSecond >>= next) :=
  .look fun _ second known => (rest second.word).ease (fun _ same => same ▸ known) (Nat.le_refl _) (Nat.le_refl _)

theorem advance {next : Token → Script α} (inner : ∀ token, ahead token → token.word ≠ .endOfInput)
    (rest : ∀ token, Thrifty caller leaves (fun _ => True) (taken + 1) (spent + 1) (next token)) :
    Thrifty caller leaves ahead taken spent (Script.advance >>= next) :=
  .take inner rest

theorem advanceWord {found : Word} {next : Token → Script α} (inner : isEnd found = false)
    (rest : ∀ token, Thrifty caller leaves (fun _ => True) (taken + 1) (spent + 1) (next token)) :
    Thrifty caller leaves (fun token => token.word = found) taken spent (Script.advance >>= next) :=
  .take (fun _ same => ne_end (same ▸ inner)) rest

theorem refuse {expected : Expected} (paid : Paid caller taken (spent + 1)) :
    Thrifty caller leaves ahead taken spent (Script.refuse expected) :=
  .look fun _ _ _ => .stop paid

theorem asks {question : Token → Bool} {next : Bool → Script α}
    (inner : ∀ token, question token = true → token.word ≠ .endOfInput)
    (yes : Thrifty caller leaves (fun token => token.word ≠ .endOfInput) taken (spent + 1) (next true))
    (no : Thrifty caller leaves (fun _ => True) taken (spent + 1) (next false)) :
    Thrifty caller leaves ahead taken spent (.look fun token _ => next (question token)) := by
  refine .look fun token _ _ => ?_
  cases found : question token with
  | true => exact yes.ease (fun _ same => same ▸ inner token found) (Nat.le_refl _) (Nat.le_refl _)
  | false => exact no.ease (fun _ _ => trivial) (Nat.le_refl _) (Nat.le_refl _)

theorem atMark {mark : Mark} {next : Bool → Script α}
    (yes : Thrifty caller leaves (fun token => token.word ≠ .endOfInput) taken (spent + 1) (next true))
    (no : Thrifty caller leaves (fun _ => True) taken (spent + 1) (next false)) :
    Thrifty caller leaves ahead taken spent (Script.atMark mark >>= next) :=
  asks (fun _ => inner_of_isMark) yes no

theorem atKeyword {keyword : Keyword} {next : Bool → Script α}
    (yes : Thrifty caller leaves (fun token => token.word ≠ .endOfInput) taken (spent + 1) (next true))
    (no : Thrifty caller leaves (fun _ => True) taken (spent + 1) (next false)) :
    Thrifty caller leaves ahead taken spent (Script.atKeyword keyword >>= next) :=
  asks (fun _ => inner_of_isKeyword) yes no

theorem atSemicolon {next : Bool → Script α}
    (rest : ∀ found, Thrifty caller leaves (fun token => ahead token ∧ Reader.isSemicolon token = found) taken
      (spent + 1) (next found)) : Thrifty caller leaves ahead taken spent (Script.atSemicolon >>= next) :=
  .look fun token _ known => (rest (Reader.isSemicolon token)).ease
    (fun other same => by rw [same]; exact ⟨known, rfl⟩) (Nat.le_refl _) (Nat.le_refl _)

theorem atWrittenSemicolon {next : Bool → Script α}
    (yes : Thrifty caller leaves (fun token => token.word ≠ .endOfInput) taken (spent + 1) (next true))
    (no : Thrifty caller leaves (fun _ => True) taken (spent + 1) (next false)) :
    Thrifty caller leaves ahead taken spent (Script.atWrittenSemicolon >>= next) :=
  asks (fun _ found => inner_of_isSemicolon (Bool.and_eq_true_iff.mp found).1) yes no

theorem expectMark {mark : Mark} {expected : Expected} {next : Token → Script α}
    (paid : Paid caller taken (spent + 2))
    (rest : ∀ token, Thrifty caller leaves (fun _ => True) (taken + 1) (spent + 2) (next token)) :
    Thrifty caller leaves ahead taken spent (Script.expectMark mark expected >>= next) := by
  change Thrifty _ _ _ _ _ (Script.atMark mark >>= fun found =>
    (if found then Script.advance else Script.refuse expected) >>= next)
  exact atMark (.take (fun _ inner => inner) rest) (.refuse paid)

theorem expectKeyword {keyword : Keyword} {expected : Expected} {next : Token → Script α}
    (paid : Paid caller taken (spent + 2))
    (rest : ∀ token, Thrifty caller leaves (fun _ => True) (taken + 1) (spent + 2) (next token)) :
    Thrifty caller leaves ahead taken spent (Script.expectKeyword keyword expected >>= next) := by
  change Thrifty _ _ _ _ _ (Script.atKeyword keyword >>= fun found =>
    (if found then Script.advance else Script.refuse expected) >>= next)
  exact atKeyword (.take (fun _ inner => inner) rest) (.refuse paid)

theorem expectSemicolon {expected : Expected} {next : Token → Script α}
    (paid : Paid caller taken (spent + 2))
    (rest : ∀ token, Thrifty caller leaves (fun _ => True) (taken + 1) (spent + 2) (next token)) :
    Thrifty caller leaves ahead taken spent (Script.expectSemicolon expected >>= next) := by
  change Thrifty _ _ _ _ _ (Script.atSemicolon >>= fun found =>
    (if found then Script.advance else Script.refuse expected) >>= next)
  refine atSemicolon fun found => ?_
  cases found with
  | true => exact .take (fun _ known => inner_of_isSemicolon known.2) rest
  | false => exact .refuse paid

theorem expectName {expected : Expected} {next : String → Script α}
    (paid : Paid caller taken (spent + 2))
    (rest : ∀ name, Thrifty caller leaves (fun _ => True) (taken + 1) (spent + 2) (next name)) :
    Thrifty caller leaves ahead taken spent (Script.expectName expected >>= next) := by
  unfold Script.expectName
  rw [Script.bind_bind]
  refine .peekWord fun word => ?_
  cases word with
  | identifier name => exact .take (fun _ same => same ▸ ne_end rfl) fun _ => rest name
  | _ => exact .look fun _ _ _ => .stop paid

theorem terminate {next : Unit → Script α} (paid : Paid caller taken (spent + 2))
    (rest : ∀ value, Thrifty caller leaves (fun _ => True) taken (spent + 1) (next value)) :
    Thrifty caller leaves ahead taken spent (Script.terminate >>= next) := by
  have stays (other : Token → Prop) (value : Unit) : Thrifty caller leaves other taken (spent + 1) (next value) :=
    (rest value).ease (fun _ _ => trivial) (Nat.le_refl _) (Nat.le_refl _)
  unfold Script.terminate
  rw [Script.bind_bind]
  refine .peekWord fun word => ?_
  cases word with
  | semicolon implicit =>
      refine .take (fun _ same => same ▸ ne_end rfl) fun _ => ?_
      exact (rest ()).ease (fun _ _ => trivial) (by omega) (by unfold tokenPrice; omega)
  | mark mark =>
      cases mark with
      | rightBrace => exact stays _ ()
      | _ => exact .look fun _ _ _ => .stop paid
  | endOfInput => exact stays _ ()
  | _ => exact .look fun _ _ _ => .stop paid

theorem separate {next : Unit → Script α} (allowed : MayStart caller .skip taken (spent + 1))
    (rest : ∀ value, Thrifty caller leaves (fun _ => True) taken (spent + 3) (next value)) :
    Thrifty caller leaves ahead taken spent (Script.separate >>= next) := by
  unfold Script.separate
  rw [Script.bind_bind]
  refine .atMark (.start (fun _ _ => trivial) allowed rest) ?_
  rw [if_neg Bool.false_ne_true, Script.bind_bind]
  obtain ⟨falls, paid⟩ := allowed
  refine .expectSemicolon paid fun _ => .start (fun _ _ => trivial) ?_ fun value => ?_
  · unfold MayStart Paid tokenPrice at *
    exact ⟨fun none => absurd none (Nat.succ_ne_zero _), by omega⟩
  · have covered : spent + 1 + 2 + 1 + 1 + 64 * taken ≤ spent + 3 + 64 * (taken + 1 + 0) := by omega
    exact (rest value).ease (fun _ known => known) (Nat.le_succ taken) covered

theorem nested {depth : Nat} {inner : Nat → Script α} (paid : Paid caller taken (spent + 1))
    (rest : Thrifty caller leaves ahead taken spent (inner (depth + 1))) :
    Thrifty caller leaves ahead taken spent (Script.nested depth inner) := by
  unfold Script.nested
  split
  · exact .look fun _ _ _ => .stop paid
  · exact rest

theorem nestedThen {depth : Nat} {inner : Nat → Script β} {next : β → Script α}
    (paid : Paid caller taken (spent + 1))
    (rest : Thrifty caller leaves ahead taken spent (inner (depth + 1) >>= next)) :
    Thrifty caller leaves ahead taken spent (Script.nested depth inner >>= next) := by
  unfold Script.nested
  split
  · exact .look fun _ _ _ => .stop paid
  · exact rest

theorem assignable {mark : String} {exprs : List Expr} {next : List String → Script α}
    (paid : Paid caller taken (spent + 1))
    (rest : ∀ names, Thrifty caller leaves ahead taken spent (next names)) :
    Thrifty caller leaves ahead taken spent (Script.assignable mark exprs >>= next) := by
  fun_induction Script.assignable mark exprs generalizing next with
  | case1 => exact rest []
  | case2 name _ exprs ih =>
      rw [Script.bind_bind]
      exact ih fun names => rest (name :: names)
  | case3 expr _ _ => exact .look fun _ _ _ => .stop paid

theorem singleTarget {mark : String} {exprs : List Expr} {next : String → Script α}
    (paid : Paid caller taken (spent + 1))
    (rest : ∀ name, Thrifty caller leaves ahead taken spent (next name)) :
    Thrifty caller leaves ahead taken spent (Script.singleTarget mark exprs >>= next) := by
  unfold Script.singleTarget
  rw [Script.bind_bind]
  split
  · refine .assignable paid fun names => ?_
    rcases names with _ | ⟨name, _ | ⟨second, more⟩⟩
    · exact .look fun _ _ _ => .stop paid
    · exact rest name
    · exact .look fun _ _ _ => .stop paid
  · exact .look fun _ _ _ => .stop paid

theorem conditionOf {location : Location} {stmt : Stmt} {next : Expr → Script α}
    (paid : Paid caller taken spent)
    (rest : ∀ expr, Thrifty caller leaves ahead taken spent (next expr)) :
    Thrifty caller leaves ahead taken spent (Script.conditionOf location stmt >>= next) := by
  cases stmt with
  | expression expr => exact rest expr
  | _ => exact .stop paid

end Thrifty

/-! ## The scripts are thrifty -/

/-- The whole script of a routine is thrifty. -/
abbrev IsThrifty (routine : Routine) (args : routine.Args) : Prop :=
  Thrifty routine routine.Leaves routine.Needs 0 0 (script routine args)

theorem thrifty_skip : IsThrifty .skip () := by
  refine .atSemicolon fun found => ?_
  cases found with
  | true =>
      refine .advance (fun _ known => inner_of_isSemicolon known.2) fun _ => ?_
      exact .start (fun _ _ => trivial) (by decide) fun _ => .done (by decide) fun _ _ => trivial
  | false => exact .ends (by decide)

/-! ### Types -/

theorem thrifty_type : IsThrifty .type () := by
  refine .peekWord fun word => ?_
  split
  · refine .advanceWord rfl fun _ => ?_
    exact .ends (by decide)
  · refine .advanceWord rfl fun _ => ?_
    refine .sub (fun _ _ => trivial) (by decide) fun params => ?_
    refine .sub (fun _ _ => trivial) (by decide) fun results => ?_
    exact .ends (by decide)
  · refine .advanceWord rfl fun _ => ?_
    refine .sub (fun _ _ => trivial) (by decide) fun inner => ?_
    refine .expectMark (by decide) fun _ => ?_
    exact .ends (by decide)
  · exact .refuse (by decide)

theorem thrifty_parameters : IsThrifty .parameters () := by
  refine .expectMark (by decide) fun _ => ?_
  refine .sub (fun _ _ => trivial) (by decide) fun found => ?_
  refine .expectMark (by decide) fun _ => ?_
  split
  · exact .ends (by decide)
  · exact .stop (by decide)

theorem thrifty_entries : IsThrifty .entries () := by
  refine .atMark ?_ ?_
  · exact .ends (by decide)
  · refine .sub (fun _ _ => trivial) (by decide) fun first => ?_
    refine .atMark ?_ ?_
    · refine .advance (fun _ inner => inner) fun _ => ?_
      refine .sub (fun _ _ => trivial) (by decide) fun rest => ?_
      exact .ends (by decide)
    · exact .ends (by decide)

theorem thrifty_entry : IsThrifty .entry () := by
  refine .peekWord fun word => .peekSecond fun second => ?_
  split
  · refine .advanceWord rfl fun _ => ?_
    exact .ends (by decide)
  · refine .advanceWord rfl fun _ => ?_
    exact .ends (by decide)
  · refine .advanceWord rfl fun _ => ?_
    refine .sub (fun _ _ => trivial) (by decide) fun type => ?_
    exact .ends (by decide)
  · refine .advanceWord rfl fun _ => ?_
    refine .sub (fun _ _ => trivial) (by decide) fun type => ?_
    exact .ends (by decide)
  · refine .advanceWord rfl fun _ => ?_
    refine .sub (fun _ _ => trivial) (by decide) fun type => ?_
    exact .ends (by decide)
  · refine .sub (fun _ _ => trivial) (by decide) fun type => ?_
    exact .ends (by decide)

theorem thrifty_results : IsThrifty .results () := by
  refine .peekWord fun word => ?_
  split
  · refine .sub (fun _ _ => trivial) (by decide) fun params => ?_
    exact .ends (by decide)
  · refine .sub (fun _ _ => trivial) (by decide) fun result => ?_
    exact .ends (by decide)
  · refine .sub (fun _ _ => trivial) (by decide) fun result => ?_
    exact .ends (by decide)
  · exact .ends (by decide)

theorem thrifty_signature : IsThrifty .signature () := by
  refine .peek fun here => ?_
  refine .sub (fun _ _ => trivial) (by decide) fun params => ?_
  split
  · exact .stop (by decide)
  · refine .sub (fun _ _ => trivial) (by decide) fun results => ?_
    exact .ends (by decide)

theorem thrifty_moreNames : IsThrifty .moreNames () := by
  refine .atMark ?_ ?_
  · refine .advance (fun _ inner => inner) fun _ => ?_
    refine .expectName (by decide) fun name => ?_
    refine .sub (fun _ _ => trivial) (by decide) fun names => ?_
    exact .ends (by decide)
  · exact .ends (by decide)

theorem thrifty_optionalType : IsThrifty .optionalType () := by
  refine .peekWord fun word => ?_
  split
  · refine .sub (fun _ _ => trivial) (by decide) fun type => ?_
    exact .ends (by decide)
  · refine .sub (fun _ _ => trivial) (by decide) fun type => ?_
    exact .ends (by decide)
  · exact .ends (by decide)

/-! ### Expressions -/

theorem thrifty_expression (depth : Nat) : IsThrifty .expression depth := by
  refine .nested (by decide) ?_
  exact .start (fun _ _ => trivial) (by decide) fun _ => .done (by decide) fun _ _ => trivial

theorem thrifty_binary (depth level : Nat) : IsThrifty (.binary level) depth := by
  simp only [IsThrifty, script]
  split
  · have allowed : 2 < 3 + (6 - level) ∧ 0 + 1 + 7 ≤ 8 + 3 * (6 - level) + 64 * 0 := by omega
    have enough : 1 ≤ 0 + 1 ∧ 0 + 1 + 7 + 64 * 1 ≤ 8 + 3 * (6 - level) + 64 * (0 + 1) := by omega
    exact .start (fun _ _ => trivial) ⟨fun _ => allowed.1, allowed.2⟩ fun _ => .done enough fun _ _ => trivial
  · rename_i weak
    have bound : level ≤ 5 := Nat.le_of_not_lt weak
    have stronger : 3 + (6 - (level + 1)) < 3 + (6 - level)
        ∧ 0 + 1 + (8 + 3 * (6 - (level + 1))) ≤ 8 + 3 * (6 - level) + 64 * 0 := by omega
    have further : 0 + 1 + (8 + 3 * (6 - (level + 1))) + 1 + 1 ≤ 8 + 3 * (6 - level) + 64 * 1 := by omega
    have enough : 1 ≤ 0 + 1 + 0
        ∧ 0 + 1 + (8 + 3 * (6 - (level + 1))) + 1 + 1 + 64 * 1 ≤ 8 + 3 * (6 - level) + 64 * (0 + 1 + 0) := by omega
    refine .sub (fun _ _ => trivial) ⟨fun _ => stronger.1, stronger.2⟩ fun left => ?_
    refine .start (fun _ _ => trivial) ⟨fun none => absurd none (Nat.succ_ne_zero _), further⟩ fun _ => ?_
    exact .done enough fun _ _ => trivial

theorem thrifty_binaryRest (depth level : Nat) (left : Expr) : IsThrifty (.binaryRest level) (depth, left) := by
  refine .peekWord fun word => ?_
  split
  · split
    · have paid : 0 + 1 + 1 + 1 + (8 + 3 * (6 - (level + 1))) ≤ 1 + 64 * 1 := by omega
      have covered : 0 + 1 + 1 + 1 + (8 + 3 * (6 - (level + 1))) + 1 + 1 + 64 * 0 ≤ 1 + 64 * 2 := by omega
      refine .advanceWord rfl fun sign => ?_
      refine .sub (fun _ _ => trivial) ⟨fun none => absurd none (Nat.succ_ne_zero _), paid⟩ fun right => ?_
      refine .start (fun _ _ => trivial) ⟨fun none => absurd none (Nat.succ_ne_zero _), covered⟩ fun _ => ?_
      exact .done ⟨Nat.zero_le _, covered⟩ fun _ _ => trivial
    · exact .pure ⟨Nat.zero_le _, Nat.le_refl 1⟩ fun _ _ => trivial
  · exact .pure ⟨Nat.zero_le _, Nat.le_refl 1⟩ fun _ _ => trivial

theorem thrifty_unary (depth : Nat) : IsThrifty .unary depth := by
  refine .peekWord fun word => ?_
  split
  · refine .advanceWord rfl fun sign => ?_
    refine .peekWord fun behind => ?_
    split
    · split
      · refine .advanceWord rfl fun _ => ?_
        exact .ends (by decide)
      · exact .start (fun _ _ => trivial) (by decide) fun _ => .done (by decide) fun _ _ => trivial
    · exact .start (fun _ _ => trivial) (by decide) fun _ => .done (by decide) fun _ _ => trivial
  · refine .advanceWord rfl fun sign => ?_
    exact .start (fun _ _ => trivial) (by decide) fun _ => .done (by decide) fun _ _ => trivial
  · refine .advanceWord rfl fun sign => ?_
    exact .start (fun _ _ => trivial) (by decide) fun _ => .done (by decide) fun _ _ => trivial
  · refine .advanceWord rfl fun sign => ?_
    exact .start (fun _ _ => trivial) (by decide) fun _ => .done (by decide) fun _ _ => trivial
  · refine .sub (fun _ _ => trivial) (by decide) fun callee => ?_
    exact .start (fun _ _ => trivial) (by decide) fun _ => .done (by decide) fun _ _ => trivial

theorem thrifty_unaryOperand (depth : Nat) (op : UnaryOp) (location : Location) :
    IsThrifty .unaryOperand (depth, op, location) := by
  refine .nestedThen (by decide) ?_
  refine .sub (fun _ _ => trivial) (by decide) fun operand => ?_
  exact .ends (by decide)

theorem thrifty_calls (depth : Nat) (callee : Expr) : IsThrifty .calls (depth, callee) := by
  refine .atMark ?_ ?_
  · refine .advance (fun _ inner => inner) fun opening => ?_
    refine .sub (fun _ _ => trivial) (by decide) fun args => ?_
    refine .expectMark (by decide) fun _ => ?_
    exact .start (fun _ _ => trivial) (by decide) fun _ => .done (by decide) fun _ _ => trivial
  · exact .ends (by decide)

theorem thrifty_arguments (depth : Nat) : IsThrifty .arguments depth := by
  refine .atMark ?_ ?_
  · exact .ends (by decide)
  · refine .sub (fun _ _ => trivial) (by decide) fun first => ?_
    refine .atMark ?_ ?_
    · refine .advance (fun _ inner => inner) fun _ => ?_
      refine .sub (fun _ _ => trivial) (by decide) fun rest => ?_
      exact .ends (by decide)
    · exact .ends (by decide)

theorem thrifty_primary (depth : Nat) : IsThrifty .primary depth := by
  refine .peek fun token => ?_
  generalize token.word = word
  split
  · refine .advanceWord rfl fun _ => ?_
    split
    · exact .ends (by decide)
    · exact .stop (by decide)
  · refine .advanceWord rfl fun _ => ?_
    exact .ends (by decide)
  · refine .advanceWord rfl fun _ => ?_
    exact .ends (by decide)
  · refine .advanceWord rfl fun _ => ?_
    refine .atMark ?_ ?_
    · refine .advance (fun _ inner => inner) fun _ => ?_
      refine .expectName (by decide) fun selected => ?_
      exact .ends (by decide)
    · exact .ends (by decide)
  · refine .advanceWord rfl fun _ => ?_
    refine .sub (fun _ _ => trivial) (by decide) fun inner => ?_
    refine .expectMark (by decide) fun _ => ?_
    exact .ends (by decide)
  · refine .advanceWord rfl fun _ => ?_
    refine .sub (fun _ _ => trivial) (by decide) fun literal => ?_
    exact .ends (by decide)
  · exact .refuse (by decide)

theorem thrifty_functionRest (depth : Nat) (location : Location) : IsThrifty .functionRest (depth, location) := by
  refine .sub (fun _ _ => trivial) (by decide) fun signature => ?_
  refine .sub (fun _ _ => trivial) (by decide) fun body => ?_
  exact .ends (by decide)

theorem thrifty_expressions (depth : Nat) : IsThrifty .expressions depth := by
  refine .sub (fun _ _ => trivial) (by decide) fun first => ?_
  refine .atMark ?_ ?_
  · refine .advance (fun _ inner => inner) fun _ => ?_
    refine .sub (fun _ _ => trivial) (by decide) fun rest => ?_
    exact .ends (by decide)
  · exact .ends (by decide)

/-! ### Statements -/

theorem thrifty_block (depth : Nat) : IsThrifty .block depth := by
  unfold IsThrifty script
  refine .nested (by decide) ?_
  refine .expectMark (by decide) fun _ => ?_
  refine .sub (fun _ _ => trivial) (by decide) fun _ => ?_
  refine .sub (fun _ _ => trivial) (by decide) fun body => ?_
  refine .expectMark (by decide) fun _ => ?_
  exact .ends (by decide)

theorem thrifty_statements (depth : Nat) (inCase : Bool) : IsThrifty .statements (depth, inCase) := by
  refine .peekWord fun word => ?_
  split
  · exact .ends (by decide)
  · exact .ends (by decide)
  · split
    · exact .ends (by decide)
    · exact .start (fun _ _ => trivial) (by decide) fun _ => .done (by decide) fun _ _ => trivial
  · split
    · exact .ends (by decide)
    · exact .start (fun _ _ => trivial) (by decide) fun _ => .done (by decide) fun _ _ => trivial
  · exact .start (fun _ _ => trivial) (by decide) fun _ => .done (by decide) fun _ _ => trivial

theorem thrifty_moreStatements (depth : Nat) (inCase : Bool) : IsThrifty .moreStatements (depth, inCase) := by
  refine .sub (fun _ _ => trivial) (by decide) fun first => ?_
  refine .separate (by decide) fun _ => ?_
  refine .sub (fun _ _ => trivial) (by decide) fun rest => ?_
  exact .ends (by decide)

theorem thrifty_statement (depth : Nat) : IsThrifty .statement depth := by
  refine .peek fun token => ?_
  generalize token.word = word
  split
  · refine .sub (fun _ same => ne_end (congrArg isEnd same)) (by decide) fun decl => ?_
    exact .ends (by decide)
  · refine .sub (fun _ same => ne_end (congrArg isEnd same)) (by decide) fun decl => ?_
    exact .ends (by decide)
  · refine .sub (fun _ same => ne_end (congrArg isEnd same)) (by decide) fun found => ?_
    exact .ends (by decide)
  · exact .start (fun _ same => ne_end (congrArg isEnd same)) (by decide) fun _ => .done (by decide) fun _ _ => trivial
  · exact .start (fun _ same => ne_end (congrArg isEnd same)) (by decide) fun _ => .done (by decide) fun _ _ => trivial
  · refine .advanceWord rfl fun _ => ?_
    refine .peekWord fun behind => ?_
    split
    · exact .ends (by decide)
    · exact .ends (by decide)
    · refine .sub (fun _ _ => trivial) (by decide) fun values => ?_
      exact .ends (by decide)
  · refine .advanceWord rfl fun _ => ?_
    exact .ends (by decide)
  · refine .advanceWord rfl fun _ => ?_
    exact .ends (by decide)
  · refine .sub (fun _ _ => trivial) (by decide) fun body => ?_
    exact .ends (by decide)
  · refine .sub (fun _ _ => trivial) (by decide) fun found => ?_
    split
    · split
      · exact .ends (by decide)
      · exact .stop (by decide)
    · exact .ends (by decide)

theorem thrifty_simple (depth : Nat) : IsThrifty .simple depth := by
  refine .peek fun here => ?_
  refine .sub (fun _ _ => trivial) (by decide) fun exprs => ?_
  refine .peek fun token => ?_
  generalize token.word = word
  split
  · refine .assignable (by decide) fun names => ?_
    refine .advanceWord rfl fun _ => ?_
    refine .sub (fun _ _ => trivial) (by decide) fun values => ?_
    exact .ends (by decide)
  · refine .assignable (by decide) fun names => ?_
    refine .advanceWord rfl fun _ => ?_
    refine .sub (fun _ _ => trivial) (by decide) fun values => ?_
    exact .ends (by decide)
  · refine .singleTarget (by decide) fun target => ?_
    refine .advanceWord rfl fun _ => ?_
    exact .ends (by decide)
  · refine .singleTarget (by decide) fun target => ?_
    refine .advanceWord rfl fun _ => ?_
    exact .ends (by decide)
  · refine .singleTarget (by decide) fun target => ?_
    refine .advanceWord rfl fun _ => ?_
    refine .sub (fun _ _ => trivial) (by decide) fun value => ?_
    exact .ends (by decide)
  · split
    · exact .ends (by decide)
    · exact .refuse (by decide)

theorem thrifty_varDecl (depth : Nat) : IsThrifty .varDecl depth := by
  refine .advance (fun _ inner => inner) fun token => ?_
  refine .sub (fun _ _ => trivial) (by decide) fun spec => ?_
  obtain ⟨names, type?, values⟩ := spec
  dsimp only
  split
  · exact .refuse (by decide)
  · exact .ends (by decide)

theorem thrifty_constDecl (depth : Nat) : IsThrifty .constDecl depth := by
  refine .advance (fun _ inner => inner) fun token => ?_
  refine .sub (fun _ _ => trivial) (by decide) fun spec => ?_
  obtain ⟨names, type?, values⟩ := spec
  dsimp only
  split
  · exact .stop (by decide)
  · exact .ends (by decide)

theorem thrifty_valueSpec (depth : Nat) (keyword : String) : IsThrifty .valueSpec (depth, keyword) := by
  refine .expectName (by decide) fun first => ?_
  refine .sub (fun _ _ => trivial) (by decide) fun more => ?_
  refine .sub (fun _ _ => trivial) (by decide) fun type? => ?_
  refine .atMark ?_ ?_
  · refine .advance (fun _ inner => inner) fun _ => ?_
    refine .sub (fun _ _ => trivial) (by decide) fun values => ?_
    exact .ends (by decide)
  · exact .ends (by decide)

theorem thrifty_conditional (depth : Nat) : IsThrifty .conditional depth := by
  refine .advance (fun _ inner => inner) fun token => .peek fun here => ?_
  refine .sub (fun _ _ => trivial) (by decide) fun first => ?_
  rw [Script.bind_bind]
  refine .atWrittenSemicolon ?_ ?_
  · refine .advance (fun _ inner => inner) fun _ => ?_
    refine .sub (fun _ _ => trivial) (by decide) fun condition => ?_
    refine .sub (fun _ _ => trivial) (by decide) fun body => ?_
    refine .sub (fun _ _ => trivial) (by decide) fun orElse => ?_
    exact .ends (by decide)
  · rw [if_neg Bool.false_ne_true, Script.bind_bind]
    refine .conditionOf (by decide) fun condition => ?_
    refine .sub (fun _ _ => trivial) (by decide) fun body => ?_
    refine .sub (fun _ _ => trivial) (by decide) fun orElse => ?_
    exact .ends (by decide)

theorem thrifty_elseBranch (depth : Nat) : IsThrifty .elseBranch depth := by
  refine .atKeyword ?_ ?_
  · refine .advance (fun _ inner => inner) fun _ => ?_
    refine .peekWord fun word => ?_
    split
    · refine .sub (fun _ same => ne_end (congrArg isEnd same)) (by decide) fun next => ?_
      exact .ends (by decide)
    · refine .sub (fun _ _ => trivial) (by decide) fun body => ?_
      exact .ends (by decide)
    · exact .refuse (by decide)
  · exact .ends (by decide)

/-- Behind the first part of a header a token is taken only where a semicolon is ahead. -/
theorem inner_of_headerStart {first : Option Stmt} {found : Bool} {token : Token}
    (other : ∀ statement, first = some statement → found = false → False)
    (left : Routine.headerStart.Leaves first token) (ahead : Reader.isSemicolon token = found) :
    token.word ≠ .endOfInput := by
  cases first with
  | none => exact inner_of_isSemicolon left
  | some statement =>
      cases found with
      | true => exact inner_of_isSemicolon ahead
      | false => exact absurd rfl (other statement rfl)

theorem thrifty_loop (depth : Nat) : IsThrifty .loop depth := by
  refine .advance (fun _ inner => inner) fun token => .peek fun here => .atMark ?_ ?_
  · refine .sub (fun _ _ => trivial) (by decide) fun body => ?_
    exact .ends (by decide)
  · refine .sub (fun _ _ => trivial) (by decide) fun first => .atSemicolon fun found => ?_
    split
    · refine .conditionOf (by decide) fun condition => ?_
      refine .sub (fun _ _ => trivial) (by decide) fun body => ?_
      exact .ends (by decide)
    · rename_i other
      refine .advance (fun _ known => inner_of_headerStart other known.1 known.2) fun _ => ?_
      refine .sub (fun _ _ => trivial) (by decide) fun condition => ?_
      refine .expectSemicolon (by decide) fun _ => ?_
      refine .sub (fun _ _ => trivial) (by decide) fun post => ?_
      refine .sub (fun _ _ => trivial) (by decide) fun body => ?_
      exact .ends (by decide)

theorem thrifty_headerStart (depth : Nat) : IsThrifty .headerStart depth := by
  refine .atSemicolon fun found => ?_
  cases found with
  | true => exact .pure (by decide) fun _ known => known.2
  | false =>
      refine .sub (fun _ _ => trivial) (by decide) fun statement => ?_
      exact .pure (by decide) fun _ _ => trivial

theorem thrifty_loopCondition (depth : Nat) : IsThrifty .loopCondition depth := by
  refine .atSemicolon fun found => ?_
  cases found with
  | true => exact .ends (by decide)
  | false =>
      refine .sub (fun _ _ => trivial) (by decide) fun condition => ?_
      exact .ends (by decide)

theorem thrifty_loopPost (depth : Nat) : IsThrifty .loopPost depth := by
  refine .atMark ?_ ?_
  · exact .ends (by decide)
  · refine .peek fun here => ?_
    refine .sub (fun _ _ => trivial) (by decide) fun post => ?_
    split
    · exact .stop (by decide)
    · exact .ends (by decide)

theorem thrifty_switch (depth : Nat) : IsThrifty .switch depth := by
  refine .advance (fun _ inner => inner) fun token => ?_
  refine .sub (fun _ _ => trivial) (by decide) fun header => ?_
  refine .expectMark (by decide) fun _ => ?_
  refine .sub (fun _ _ => trivial) (by decide) fun _ => ?_
  refine .sub (fun _ _ => trivial) (by decide) fun found => ?_
  refine .expectMark (by decide) fun _ => ?_
  exact .ends (by decide)

theorem thrifty_switchHeader (depth : Nat) : IsThrifty .switchHeader depth := by
  refine .atMark ?_ ?_
  · exact .ends (by decide)
  · refine .peek fun here => ?_
    refine .sub (fun _ _ => trivial) (by decide) fun first => .atSemicolon fun found => ?_
    split
    · refine .conditionOf (by decide) fun tag => ?_
      exact .ends (by decide)
    · rename_i other
      refine .advance (fun _ known => inner_of_headerStart other known.1 known.2) fun _ => .atMark ?_ ?_
      · exact .ends (by decide)
      · refine .sub (fun _ _ => trivial) (by decide) fun tag => ?_
        exact .ends (by decide)

theorem thrifty_cases (depth : Nat) (sawDefault : Bool) : IsThrifty .cases (depth, sawDefault) := by
  refine .peek fun token => ?_
  generalize token.word = word
  split
  · exact .ends (by decide)
  · refine .advanceWord rfl fun _ => ?_
    refine .sub (fun _ _ => trivial) (by decide) fun values => ?_
    exact .start (fun _ _ => trivial) (by decide) fun _ => .done (by decide) fun _ _ => trivial
  · split
    · exact .stop (by decide)
    · refine .advanceWord rfl fun _ => ?_
      exact .start (fun _ _ => trivial) (by decide) fun _ => .done (by decide) fun _ _ => trivial
  · exact .refuse (by decide)

theorem thrifty_caseRest (depth : Nat) (sawDefault : Bool) (label : CaseLabel) (location : Location) :
    IsThrifty .caseRest (depth, sawDefault, label, location) := by
  refine .expectMark (by decide) fun _ => ?_
  refine .sub (fun _ _ => trivial) (by decide) fun _ => ?_
  refine .sub (fun _ _ => trivial) (by decide) fun body => ?_
  refine .sub (fun _ _ => trivial) (by decide) fun rest => ?_
  exact .ends (by decide)

/-! ### Files -/

theorem thrifty_importSpec : IsThrifty .importSpec () := by
  refine .peek fun here => ?_
  generalize here.word = word
  split
  · refine .take (fun _ same => ne_end (congrArg isEnd same)) fun _ => ?_
    refine .peekWord fun word => ?_
    split
    · refine .advanceWord rfl fun _ => ?_
      exact .ends (by decide)
    · exact .refuse (by decide)
  · refine .peekWord fun word => ?_
    split
    · refine .advanceWord rfl fun _ => ?_
      exact .ends (by decide)
    · exact .refuse (by decide)

theorem thrifty_importSpecs : IsThrifty .importSpecs () := by
  refine .atMark ?_ ?_
  · exact .ends (by decide)
  · refine .sub (fun _ _ => trivial) (by decide) fun first => .atMark ?_ ?_
    · refine .sub (fun _ _ => trivial) (by decide) fun _ => ?_
      refine .sub (fun _ _ => trivial) (by decide) fun rest => ?_
      exact .ends (by decide)
    · refine .expectSemicolon (by decide) fun _ => ?_
      refine .sub (fun _ _ => trivial) (by decide) fun _ => ?_
      refine .sub (fun _ _ => trivial) (by decide) fun rest => ?_
      exact .ends (by decide)

theorem thrifty_importDecl : IsThrifty .importDecl () := by
  refine .advance (fun _ inner => inner) fun _ => ?_
  refine .atMark ?_ ?_
  · refine .advance (fun _ inner => inner) fun _ => ?_
    refine .sub (fun _ _ => trivial) (by decide) fun _ => ?_
    refine .sub (fun _ _ => trivial) (by decide) fun specs => ?_
    refine .expectMark (by decide) fun _ => ?_
    exact .ends (by decide)
  · refine .sub (fun _ _ => trivial) (by decide) fun spec => ?_
    exact .ends (by decide)

theorem thrifty_imports : IsThrifty .imports () := by
  refine .atKeyword ?_ ?_
  · refine .sub (fun _ inner => inner) (by decide) fun first => ?_
    refine .terminate (by decide) fun _ => ?_
    refine .sub (fun _ _ => trivial) (by decide) fun _ => ?_
    refine .sub (fun _ _ => trivial) (by decide) fun rest => ?_
    exact .ends (by decide)
  · exact .ends (by decide)

theorem thrifty_functionDecl : IsThrifty .functionDecl () := by
  refine .advance (fun _ inner => inner) fun token => ?_
  refine .expectName (by decide) fun name => ?_
  refine .sub (fun _ _ => trivial) (by decide) fun literal => ?_
  exact .ends (by decide)

theorem thrifty_declaration : IsThrifty .declaration () := by
  refine .peek fun token => ?_
  generalize token.word = word
  split
  · exact .stop (by decide)
  · exact .start (fun _ same => ne_end (congrArg isEnd same)) (by decide) fun _ => .done (by decide) fun _ _ => trivial
  · refine .sub (fun _ same => ne_end (congrArg isEnd same)) (by decide) fun decl => ?_
    exact .ends (by decide)
  · refine .sub (fun _ same => ne_end (congrArg isEnd same)) (by decide) fun decl => ?_
    exact .ends (by decide)
  · exact .refuse (by decide)

theorem thrifty_declarations : IsThrifty .declarations () := by
  refine .peekWord fun word => ?_
  split
  · exact .ends (by decide)
  · refine .sub (fun _ _ => trivial) (by decide) fun first => ?_
    refine .terminate (by decide) fun _ => ?_
    refine .sub (fun _ _ => trivial) (by decide) fun _ => ?_
    refine .sub (fun _ _ => trivial) (by decide) fun rest => ?_
    exact .ends (by decide)

theorem thrifty_file : IsThrifty .file () := by
  refine .sub (fun _ _ => trivial) (by decide) fun _ => ?_
  refine .expectKeyword (by decide) fun _ => ?_
  refine .expectName (by decide) fun package => ?_
  refine .terminate (by decide) fun _ => ?_
  refine .sub (fun _ _ => trivial) (by decide) fun _ => ?_
  refine .sub (fun _ _ => trivial) (by decide) fun imports => ?_
  refine .sub (fun _ _ => trivial) (by decide) fun declarations => ?_
  exact .ends (by decide)

/-- Every routine is thrifty. -/
theorem thrifty (routine : Routine) (args : routine.Args) : IsThrifty routine args := by
  -- One lemma for each routine of the grammar.
  cases routine with
  | skip => exact thrifty_skip
  | type => exact thrifty_type
  | parameters => exact thrifty_parameters
  | entries => exact thrifty_entries
  | entry => exact thrifty_entry
  | results => exact thrifty_results
  | signature => exact thrifty_signature
  | moreNames => exact thrifty_moreNames
  | optionalType => exact thrifty_optionalType
  | expression => exact thrifty_expression args
  | binary level => exact thrifty_binary args level
  | binaryRest level => exact thrifty_binaryRest args.1 level args.2
  | unary => exact thrifty_unary args
  | unaryOperand => exact thrifty_unaryOperand args.1 args.2.1 args.2.2
  | calls => exact thrifty_calls args.1 args.2
  | arguments => exact thrifty_arguments args
  | primary => exact thrifty_primary args
  | functionRest => exact thrifty_functionRest args.1 args.2
  | expressions => exact thrifty_expressions args
  | block => exact thrifty_block args
  | statements => exact thrifty_statements args.1 args.2
  | moreStatements => exact thrifty_moreStatements args.1 args.2
  | statement => exact thrifty_statement args
  | simple => exact thrifty_simple args
  | varDecl => exact thrifty_varDecl args
  | constDecl => exact thrifty_constDecl args
  | valueSpec => exact thrifty_valueSpec args.1 args.2
  | conditional => exact thrifty_conditional args
  | elseBranch => exact thrifty_elseBranch args
  | loop => exact thrifty_loop args
  | headerStart => exact thrifty_headerStart args
  | loopCondition => exact thrifty_loopCondition args
  | loopPost => exact thrifty_loopPost args
  | switch => exact thrifty_switch args
  | switchHeader => exact thrifty_switchHeader args
  | cases => exact thrifty_cases args.1 args.2
  | caseRest => exact thrifty_caseRest args.1 args.2.1 args.2.2.1 args.2.2.2
  | importSpec => exact thrifty_importSpec
  | importSpecs => exact thrifty_importSpecs
  | importDecl => exact thrifty_importDecl
  | imports => exact thrifty_imports
  | functionDecl => exact thrifty_functionDecl
  | declaration => exact thrifty_declaration
  | declarations => exact thrifty_declarations
  | file => exact thrifty_file

end MiniGo.Syntax
