import MiniGo.Proofs.Syntax.Expressions

/-!
# Statements read back

Each kind of statement is read from its layout, if its parts are. A statement in a header ends where a
semicolon or a block begins (`SimpleReads`), and one in a body at the end of its line (`StmtReads`).
-/

namespace MiniGo.Syntax

open Piece Layout

variable {pending : Bool} {rest : List Piece} {indent : Nat}

/-! ## Statements up to places -/

/-- What the text of a statement is read as, up to places. -/
def SameStmt (found value : Stmt) : Prop := Unplaced.stmt .float value = Unplaced.stmt settledFloat found

/-- What the texts of statements are read as, up to places. -/
def SameStmts (found values : List Stmt) : Prop := Unplaced.stmts .float values = Unplaced.stmts settledFloat found

/-- What the text of a function is read as, up to places. -/
def SameFunction (found value : FunctionLiteral) : Prop :=
  Unplaced.function .float value = Unplaced.function settledFloat found

/-- What the text of a declaration is read as, up to places. -/
def SameDecl (found value : ValueDecl) : Prop :=
  Unplaced.valueDecl .float value = Unplaced.valueDecl settledFloat found

def endsHeader : Word → Bool
  | .semicolon _ | .mark .leftBrace => true
  | _ => false

theorem endsOperand_of_endsHeader {found : Word} (ends : endsHeader found = true) (level : Nat) :
    endsOperand level found = true := by
  cases found with
  | mark sign => cases sign <;> first | rfl | cases ends
  | semicolon _ => rfl
  | _ => cases ends

theorem isMark_of_endsHeader {mark : Mark} {found : Word} (ends : endsHeader found = true) (other : mark ≠ .leftBrace) :
    isMark mark found = false := by
  refine isMark_eq_false ?_
  rintro rfl
  cases mark <;> first | exact other rfl | cases ends

/-- A statement is read from its layout in a header. -/
def SimpleReads (indent : Nat) (found : Stmt) : Prop :=
  ∀ fuel depth pending rest, endsHeader (ahead true rest) = true →
    Rereads (Reader.simple fuel depth) pending (Layout.stmt indent found ++ rest) (SameStmt found) true rest

/-- A statement is read from its layout at the end of a line. -/
def StmtReads (indent : Nat) (found : Stmt) : Prop :=
  ∀ fuel depth pending rest, ahead true rest = .semicolon true →
    Rereads (Reader.statement fuel depth) pending (Layout.stmt indent found ++ rest) (SameStmt found) true rest

/-- A block is read from its layout. -/
def BlockReads (indent : Nat) (body : List Stmt) : Prop :=
  ∀ fuel depth pending rest,
    Rereads (Reader.block fuel depth) pending (Layout.braces indent (Layout.lines (indent + 1) body) ++ rest)
      (SameStmts body) true rest

/-! ## Functions -/

theorem rereads_functionRest {found : Signature} {body : List Stmt} {location place : Location}
    (signed : Formed.signature found) (block : BlockReads indent body) (fuel depth : Nat) (pending : Bool)
    (rest : List Piece) :
    Rereads (Reader.functionRest fuel depth place) pending (Layout.function indent ⟨found, body, location⟩ ++ rest)
      (SameFunction ⟨found, body, location⟩) true rest := by
  cases fuel with
  | zero => exact .exhausted
  | succ fuel =>
      unfold Layout.function
      rw [List.append_assoc]
      refine (rereads_signature signed fuel pending rfl).bind ?_
      rintro _ rfl
      refine Rereads.blank ((block fuel depth true rest).bind fun values same => .pure ?_)
      unfold SameFunction Unplaced.function
      rw [same]

theorem Rereading.function {found : FunctionLiteral}
    (reads : ∀ fuel depth place pending rest, Rereads (Reader.functionRest fuel depth place) pending
      (Layout.function indent found ++ rest) (SameFunction found) true rest) :
    Rereading indent (.function found) := by
  refine of_chain rfl (.of_primary (fun _ _ => rfl) fun fuel depth pending rest _ => ?_)
  cases fuel with
  | zero => exact .exhausted
  | succ fuel =>
      refine .peek fun token seen => ?_
      rw [seen]
      refine .advance (ne_end rfl) fun _ _ => ?_
      refine (reads fuel depth _ _ rest).bind fun value same => .pure ?_
      exact congrArg Expr.function same

/-! ## Names -/

def nameExpr (found : String) : Expr := .identifier found Location.nowhere

theorem layout_names (indent : Nat) (found : List String) :
    Layout.names found = commaSeparated (Layout.exprs indent (found.map nameExpr)) := by
  rw [Layout.names, layout_exprs, List.map_map]
  rfl

theorem rereading_name {found : String} {location : Location} : Rereading indent (.identifier found location) :=
  .of_chain rfl chain_identifier

theorem rereads_names {found : List String} (some : found ≠ []) (fuel depth : Nat) (pending : Bool)
    (ends : endsOperand 1 (ahead true rest) = true) (single : isMark .comma (ahead true rest) = false) :
    Rereads (Reader.expressions fuel depth) pending (Layout.names found ++ rest) (SameExprs (found.map nameExpr)) true
      rest := by
  rw [layout_names 0]
  refine rereads_expressions (by simpa using some) (fun value member => ?_) fuel depth pending ends single
  obtain ⟨name, _, rfl⟩ := List.mem_map.mp member
  exact rereading_name.reads

theorem sameExpr_name {found : String} {value : Expr} (same : SameExpr (nameExpr found) value) :
    ∃ place, value = .identifier found place := by
  cases value with
  | identifier name place =>
      cases same
      exact ⟨place, rfl⟩
  | _ => cases same

theorem Rereads.still {α : Type} {reader : Reader α} {value : α} {post : α → Prop} {pieces : List Piece}
    (gives : ∀ tokens, reader tokens = .ok (value, tokens)) (holds : post value) :
    Rereads reader pending pieces post pending pieces :=
  fun tokens shows => Or.inl ⟨value, tokens, gives tokens, holds, shows⟩

theorem sameExprs_single {found : Expr} {values : List Expr} (same : SameExprs [found] values) :
    ∃ value, values = [value] ∧ SameExpr found value := by
  match values, same with
  | [value], same => exact ⟨value, rfl, (List.cons.inj same).1⟩
  | [], same => cases same
  | _ :: _ :: _, same => cases (List.cons.inj same).2

theorem assignable_names (mark : String) {found : List String} {values : List Expr}
    (same : SameExprs (found.map nameExpr) values) (tokens : List Token) :
    Reader.assignable mark values tokens = .ok (found, tokens) := by
  induction found generalizing values with
  | nil =>
      cases values with
      | nil => rfl
      | cons _ _ => cases same
  | cons name found ih =>
      cases values with
      | nil => cases same
      | cons value values =>
          obtain ⟨first, others⟩ := List.cons.inj same
          obtain ⟨place, rfl⟩ := sameExpr_name first
          change Except.bind (Reader.assignable mark values tokens) _ = _
          rw [ih others]
          rfl

theorem singleTarget_name (mark : String) {found : String} {values : List Expr} (same : SameExprs [nameExpr found] values)
    (tokens : List Token) : Reader.singleTarget mark values tokens = .ok (found, tokens) := by
  obtain ⟨value, rfl, one⟩ := sameExprs_single same
  obtain ⟨place, rfl⟩ := sameExpr_name one
  rfl

/-! ## Statements of a header -/

theorem simple_define {found : List String} {values : List Expr} {location : Location} (named : found ≠ [])
    (some : values ≠ []) (reads : ∀ value ∈ values, Reads indent value) :
    SimpleReads indent (.define found values location) := by
  intro fuel depth pending rest ends
  cases fuel with
  | zero => exact .exhausted
  | succ fuel =>
      unfold Layout.stmt
      rw [List.append_assoc]
      refine .peek fun here _ => ?_
      refine (rereads_names named fuel depth pending rfl rfl).bind fun names same => ?_
      refine .peek fun token seen => ?_
      rw [seen]
      refine (Rereads.still (assignable_names ":=" same) rfl).bind ?_
      rintro _ rfl
      refine .blank (.advance (ne_end rfl) fun _ _ => .blank ?_)
      refine (rereads_expressions some reads fuel depth _ (endsOperand_of_endsHeader ends 1)
        (isMark_of_endsHeader ends (by decide))).bind fun read all => .pure ?_
      unfold SameStmt Unplaced.stmt
      rw [all]

theorem simple_assign {found : List String} {values : List Expr} {location : Location} (named : found ≠ [])
    (some : values ≠ []) (reads : ∀ value ∈ values, Reads indent value) :
    SimpleReads indent (.assign found values location) := by
  intro fuel depth pending rest ends
  cases fuel with
  | zero => exact .exhausted
  | succ fuel =>
      unfold Layout.stmt
      rw [List.append_assoc]
      refine .peek fun here _ => ?_
      refine (rereads_names named fuel depth pending rfl rfl).bind fun names same => ?_
      refine .peek fun token seen => ?_
      rw [seen]
      refine (Rereads.still (assignable_names "=" same) rfl).bind ?_
      rintro _ rfl
      refine .blank (.advance (ne_end rfl) fun _ _ => .blank ?_)
      refine (rereads_expressions some reads fuel depth _ (endsOperand_of_endsHeader ends 1)
        (isMark_of_endsHeader ends (by decide))).bind fun read all => .pure ?_
      unfold SameStmt Unplaced.stmt
      rw [all]

theorem rereads_target {target : String} (fuel depth : Nat) (pending : Bool)
    (ends : endsOperand 1 (ahead true rest) = true) (single : isMark .comma (ahead true rest) = false) :
    Rereads (Reader.expressions fuel depth) pending (name target :: rest) (SameExprs [nameExpr target]) true rest :=
  rereads_names (List.cons_ne_nil target []) fuel depth pending ends single

theorem simple_step {target : String} {up : Bool} {location : Location} :
    SimpleReads indent (.step target up location) := by
  intro fuel depth pending rest ends
  cases fuel with
  | zero => exact .exhausted
  | succ fuel =>
      refine .peek fun here _ => ?_
      cases up with
      | true =>
          refine (rereads_target fuel depth pending rfl rfl).bind fun names same => .peek fun token seen => ?_
          rw [seen]
          refine (Rereads.still (singleTarget_name "++" same) rfl).bind ?_
          rintro _ rfl
          exact .advance (ne_end rfl) fun _ _ => .pure rfl
      | false =>
          refine (rereads_target fuel depth pending rfl rfl).bind fun names same => .peek fun token seen => ?_
          rw [seen]
          refine (Rereads.still (singleTarget_name "--" same) rfl).bind ?_
          rintro _ rfl
          exact .advance (ne_end rfl) fun _ _ => .pure rfl

theorem simple_compound {target : String} {op : BinaryOp} {value : Expr} {location : Location}
    (reads : Reads indent value) : SimpleReads indent (.compound target op value location) := by
  intro fuel depth pending rest ends
  cases fuel with
  | zero => exact .exhausted
  | succ fuel =>
      refine .peek fun here _ => ?_
      refine (rereads_target fuel depth pending rfl rfl).bind fun names same => .peek fun token seen => ?_
      rw [seen]
      refine (Rereads.still (singleTarget_name _ same) rfl).bind ?_
      rintro _ rfl
      refine .blank (.advance (ne_end rfl) fun _ _ => .blank ?_)
      refine (reads fuel depth _ rest (endsOperand_of_endsHeader ends 1)).bind fun read same => .pure ?_
      unfold SameStmt Unplaced.stmt
      rw [same]

theorem simple_expression {found : Expr} (reads : Reads indent found) : SimpleReads indent (.expression found) := by
  intro fuel depth pending rest ends
  cases fuel with
  | zero => exact .exhausted
  | succ fuel =>
      have listed : ∀ value ∈ [found], Reads indent value := List.forall_mem_singleton.mpr reads
      refine .peek fun here _ => ?_
      refine (rereads_expressions (List.cons_ne_nil found []) listed fuel depth pending
        (endsOperand_of_endsHeader ends 1) (isMark_of_endsHeader ends (by decide))).bind fun values all => ?_
      refine .peek fun token seen => ?_
      obtain ⟨value, rfl, same⟩ := sameExprs_single all
      have holds : SameStmt (.expression found) (.expression value) := congrArg Stmt.expression same
      rw [seen]
      generalize ahead true rest = next at ends
      cases next with
      | mark sign => cases sign <;> first | exact .pure holds | cases ends
      | semicolon _ => exact .pure holds
      | _ => cases ends

/-! ## Declarations -/

theorem layout_names_cons (first : String) (others : List String) :
    Layout.names (first :: others) = name first :: others.flatMap fun found => [sign .comma, blank, name found] := by
  induction others generalizing first with
  | nil => rfl
  | cons second others ih =>
      rw [List.flatMap_cons]
      have behind := ih second
      unfold Layout.names at behind ⊢
      rw [List.map_cons] at behind
      rw [List.map_cons, List.map_cons, commaSeparated_more, behind]
      rfl

theorem rereads_moreNames {others : List String} (fuel : Nat) (single : isMark .comma (ahead true rest) = false) :
    Rereads (Reader.moreNames fuel) true ((others.flatMap fun found => [sign .comma, blank, name found]) ++ rest)
      (· = others) true rest := by
  induction others generalizing fuel with
  | nil =>
      cases fuel with
      | zero => exact .exhausted
      | succ fuel =>
          refine .atMark ?_
          rw [List.flatMap_nil, List.nil_append, single]
          exact .pure rfl
  | cons first others ih =>
      cases fuel with
      | zero => exact .exhausted
      | succ fuel =>
          refine .atMark (.advance (ne_end rfl) fun _ _ => .blank ?_)
          refine Rereads.expectName.bind ?_
          rintro _ rfl
          refine (ih fuel).bind ?_
          rintro _ rfl
          exact .pure rfl

theorem rereads_optionalType {found : Option Ty} (formed : Formed.optionalType found) (fuel : Nat)
    (ends : endsType (ahead true rest) = true) :
    Rereads (Reader.optionalType fuel) true (Layout.optionalType found ++ rest) (· = found) true rest := by
  refine .peekWord ?_
  cases found with
  | none =>
      change endsType (ahead true (Layout.optionalType none ++ rest)) = true at ends
      generalize ahead true (Layout.optionalType none ++ rest) = next at ends
      cases next with
      | keyword word => cases word <;> first | exact .pure rfl | cases ends
      | identifier _ => cases ends
      | _ => exact .pure rfl
  | some declared =>
      have read : Rereads (do
          let type ← Reader.type fuel
          pure (some type)) true (Layout.type declared ++ rest) (· = some declared) true rest :=
        (rereads_type declared (formed declared rfl) fuel true rest ends).bind fun _ same => .pure (by rw [same])
      have behind : ahead true (Layout.optionalType (some declared) ++ rest)
          = ahead true (Layout.type declared ++ rest) := rfl
      rw [behind]
      rcases starts_type declared true rest with ⟨name, same⟩ | same
      · rw [same]
        exact .blank read
      · rw [same]
        exact .blank read

theorem layout_initializer (indent : Nat) (values : List Expr) :
    (values = [] ∧ Layout.initializer (commaSeparated (Layout.exprs indent values)) = []) ∨
      (values ≠ [] ∧ Layout.initializer (commaSeparated (Layout.exprs indent values))
        = blank :: sign .assign :: blank :: commaSeparated (Layout.exprs indent values)) := by
  cases values with
  | nil => exact Or.inl ⟨rfl, rfl⟩
  | cons first others =>
      refine Or.inr ⟨List.cons_ne_nil _ _, ?_⟩
      have some : (commaSeparated (Layout.exprs indent (first :: others))).isEmpty = false := by
        obtain ⟨more, same⟩ := layout_expr indent first
        rw [Layout.exprs, same]
        cases others <;> rfl
      unfold Layout.initializer
      rw [some]
      rfl

theorem ahead_initializer (indent : Nat) (values : List Expr) (ends : ahead true rest = .semicolon true) :
    endsType (ahead true (Layout.initializer (commaSeparated (Layout.exprs indent values)) ++ rest)) = true ∧
      isMark .comma (ahead true (Layout.initializer (commaSeparated (Layout.exprs indent values)) ++ rest)) = false := by
  rcases layout_initializer indent values with ⟨_, same⟩ | ⟨_, same⟩
  · rw [same, List.nil_append, ends]
    exact ⟨rfl, rfl⟩
  · rw [same]
    exact ⟨rfl, rfl⟩

theorem ahead_optionalType (declared : Option Ty) (single : isMark .comma (ahead true rest) = false) :
    isMark .comma (ahead true (Layout.optionalType declared ++ rest)) = false := by
  cases declared with
  | none => exact single
  | some found =>
      have behind : ahead true (Layout.optionalType (some found) ++ rest) = ahead true (Layout.type found ++ rest) := rfl
      rw [behind]
      rcases starts_type found true rest with ⟨name, same⟩ | same <;> rw [same] <;> rfl

theorem rereads_initializer {values : List Expr} (reads : ∀ value ∈ values, Reads indent value) (fuel depth : Nat)
    (names : List String) (declared : Option Ty) (ends : ahead true rest = .semicolon true) :
    Rereads (do
        if ← Reader.atMark .assign then do
          let _ ← Reader.advance
          let values ← Reader.expressions fuel depth
          pure (names, declared, values)
        else pure (names, declared, [])) true
      (Layout.initializer (commaSeparated (Layout.exprs indent values)) ++ rest)
      (fun spec => spec.1 = names ∧ spec.2.1 = declared ∧ SameExprs values spec.2.2) true rest := by
  rcases layout_initializer indent values with ⟨rfl, same⟩ | ⟨some, same⟩
  · rw [same, List.nil_append]
    refine .atMark ?_
    rw [ends]
    exact .pure ⟨rfl, rfl, rfl⟩
  · rw [same]
    refine .blank (.atMark (.advance (ne_end rfl) fun _ _ => .blank ?_))
    refine (rereads_expressions some reads fuel depth _ (by rw [ends]; rfl) (by rw [ends]; rfl)).bind fun _ all => ?_
    exact .pure ⟨rfl, rfl, all⟩

theorem rereads_valueSpec {found : List String} {declared : Option Ty} {values : List Expr} (named : found ≠ [])
    (formed : Formed.optionalType declared) (reads : ∀ value ∈ values, Reads indent value) (fuel depth : Nat)
    (keyword : String) (ends : ahead true rest = .semicolon true) :
    Rereads (Reader.valueSpec fuel depth keyword) pending
      (Layout.names found ++ Layout.optionalType declared
        ++ Layout.initializer (commaSeparated (Layout.exprs indent values)) ++ rest)
      (fun spec => spec.1 = found ∧ spec.2.1 = declared ∧ SameExprs values spec.2.2) true rest := by
  obtain ⟨first, others, rfl⟩ := List.exists_cons_of_ne_nil named
  cases fuel with
  | zero => exact .exhausted
  | succ fuel =>
      rw [layout_names_cons, List.cons_append, List.cons_append, List.cons_append, List.append_assoc, List.append_assoc]
      refine Rereads.expectName.bind ?_
      rintro _ rfl
      obtain ⟨typed, single⟩ := ahead_initializer indent values ends
      refine (rereads_moreNames fuel (ahead_optionalType declared single)).bind ?_
      rintro _ rfl
      refine (rereads_optionalType formed fuel typed).bind ?_
      rintro _ rfl
      exact rereads_initializer reads fuel depth _ _ ends

theorem SameExprs.isEmpty {found values : List Expr} (same : SameExprs found values) : values.isEmpty = found.isEmpty := by
  cases found <;> cases values <;> first | rfl | cases same

theorem rereads_varDecl {found : List String} {declared : Option Ty} {values : List Expr} {location : Location}
    (formed : Formed.valueDecl ⟨false, found, declared, values, location⟩)
    (reads : ∀ value ∈ values, Reads indent value) (fuel depth : Nat) (ends : ahead true rest = .semicolon true) :
    Rereads (Reader.varDecl fuel depth) pending
      (Layout.valueDecl indent ⟨false, found, declared, values, location⟩ ++ rest)
      (SameDecl ⟨false, found, declared, values, location⟩) true rest := by
  cases fuel with
  | zero => exact .exhausted
  | succ fuel =>
      refine .advance (ne_end rfl) fun _ _ => .blank ?_
      refine (rereads_valueSpec formed.1.1 formed.2.1 reads fuel depth "var" ends).bind ?_
      rintro ⟨_, type?, others⟩ ⟨rfl, rfl, same⟩
      have said : (type?.isNone && others.isEmpty) = false := by
        rw [same.isEmpty]
        cases type? with
        | none => exact List.isEmpty_eq_false_iff.mpr (formed.2.2.2.2 rfl)
        | some _ => rfl
      dsimp only
      rw [said]
      refine .pure ?_
      unfold SameDecl Unplaced.valueDecl
      rw [same]

theorem rereads_constDecl {found : List String} {declared : Option Ty} {values : List Expr} {location : Location}
    (formed : Formed.valueDecl ⟨true, found, declared, values, location⟩)
    (reads : ∀ value ∈ values, Reads indent value) (fuel depth : Nat) (ends : ahead true rest = .semicolon true) :
    Rereads (Reader.constDecl fuel depth) pending
      (Layout.valueDecl indent ⟨true, found, declared, values, location⟩ ++ rest)
      (SameDecl ⟨true, found, declared, values, location⟩) true rest := by
  cases fuel with
  | zero => exact .exhausted
  | succ fuel =>
      refine .advance (ne_end rfl) fun _ _ => .blank ?_
      refine (rereads_valueSpec formed.1.1 formed.2.1 reads fuel depth "const" ends).bind ?_
      rintro ⟨_, _, others⟩ ⟨rfl, rfl, same⟩
      have some : others.isEmpty = false := by
        rw [same.isEmpty]
        exact List.isEmpty_eq_false_iff.mpr (formed.2.2.2.1 rfl)
      dsimp only
      rw [some]
      refine .pure ?_
      unfold SameDecl Unplaced.valueDecl
      rw [same]

/-! ## Blocks -/

def beginsStmt : Word → Bool
  | .keyword .varWord | .keyword .constWord | .keyword .ifWord | .keyword .forWord | .keyword .switchWord => true
  | .keyword .returnWord | .keyword .breakWord | .keyword .continueWord | .mark .leftBrace => true
  | found => beginsExpr found

theorem beginsStmt_of_beginsExpr {found : Word} (begins : beginsExpr found = true) : beginsStmt found = true := by
  cases found with
  | keyword word => cases word <;> first | rfl | exact begins
  | mark sign => cases sign <;> first | rfl | exact begins
  | _ => exact begins

theorem isSemicolon_of_beginsStmt {found : Word} (begins : beginsStmt found = true) : isSemicolon found = false := by
  cases found with
  | semicolon _ => cases begins
  | _ => rfl

theorem begins_names {found : List String} (named : found ≠ []) (pending : Bool) (rest : List Piece) :
    beginsExpr (ahead pending (Layout.names found ++ rest)) = true := by
  obtain ⟨first, others, rfl⟩ := List.exists_cons_of_ne_nil named
  rw [layout_names_cons]
  rfl

theorem begins_simple {found : Stmt} (simple : isSimple found = true) (formed : Formed.stmt found) (pending : Bool)
    (rest : List Piece) : beginsExpr (ahead pending (Layout.stmt indent found ++ rest)) = true := by
  cases found with
  | define names values location | assign names values location =>
      unfold Layout.stmt
      rw [List.append_assoc]
      exact begins_names formed.1.1 pending _
  | compound target op value location => rfl
  | step target up location => rfl
  | expression found => exact begins_expr indent found pending rest
  | _ => cases simple

theorem begins_stmt {found : Stmt} (formed : Formed.stmt found) (pending : Bool) (rest : List Piece) :
    beginsStmt (ahead pending (Layout.stmt indent found ++ rest)) = true := by
  cases found with
  | define _ _ _ | assign _ _ _ | compound _ _ _ _ | step _ _ _ | expression _ =>
      exact beginsStmt_of_beginsExpr (begins_simple rfl formed pending rest)
  | declare decl =>
      obtain ⟨isConst, names, type?, values, location⟩ := decl
      cases isConst <;> rfl
  | loop init condition post body location =>
      rcases layout_loop indent init condition post body location with ⟨rfl, rfl, rfl⟩ | ⟨found, rfl, rfl, rfl⟩ | same
      · rfl
      · rfl
      · rw [same]
        rfl
  | «return» values location => cases values <;> rfl
  | ifElse found =>
      obtain ⟨init, condition, body, orElse, location⟩ := found
      rfl
  | switch _ _ _ _ | «break» _ | «continue» _ | block _ => rfl

/-- A word behind the last of some statements: a closing brace or, in a switch, a further case. -/
def endsLines (inCase : Bool) : Word → Bool
  | .mark .rightBrace => true
  | .keyword .caseWord | .keyword .defaultWord => inCase
  | _ => false

theorem isSemicolon_of_endsLines {inCase : Bool} {found : Word} (ends : endsLines inCase found = true) :
    isSemicolon found = false := by
  cases found with
  | semicolon _ => cases ends
  | _ => rfl

theorem rereads_separate {line : Nat} (none : isSemicolon (ahead false rest) = false) :
    Rereads Reader.separate true (newLine line :: rest) (fun _ => True) false (newLine line :: rest) := by
  refine .atMark ?_
  exact Rereads.expectLine.bind fun _ _ => .skipSemicolons none

theorem rereads_moreStatements {first : Stmt} {others : List Stmt} {inCase : Bool} {line : Nat} {next last : List Piece}
    (reads : StmtReads indent first) (none : isSemicolon (ahead false next) = false) (fuel depth : Nat)
    (more : ∀ fuel, Rereads (Reader.statements fuel depth inCase) false (newLine line :: next) (SameStmts others) false
      last) :
    Rereads (Reader.moreStatements fuel depth inCase) pending (Layout.stmt indent first ++ newLine line :: next)
      (SameStmts (first :: others)) false last := by
  cases fuel with
  | zero => exact .exhausted
  | succ fuel =>
      unfold Reader.moreStatements
      refine (reads fuel depth pending _ rfl).bind fun value same => ?_
      refine (rereads_separate none).bind fun _ _ => ?_
      refine (more fuel).bind fun values all => .pure ?_
      unfold SameStmts Unplaced.stmts
      rw [same, all]

/-- A line break stands behind each statement, and no semicolon is written behind it. -/
theorem lines_break {found : List Stmt} {outer : Nat} (formed : ∀ stmt ∈ found, Formed.stmt stmt)
    (none : isSemicolon (ahead false rest) = false) :
    ∃ line next, Layout.lines indent found ++ newLine outer :: rest = newLine line :: next ∧
      isSemicolon (ahead false next) = false := by
  cases found with
  | nil => exact ⟨outer, rest, rfl, none⟩
  | cons first others =>
      rw [Layout.lines, List.cons_append, List.append_assoc]
      exact ⟨indent, _, rfl, isSemicolon_of_beginsStmt (begins_stmt (formed first List.mem_cons_self) false _)⟩

theorem rereads_lines {found : List Stmt} {inCase : Bool} {outer : Nat} (formed : ∀ stmt ∈ found, Formed.stmt stmt)
    (reads : ∀ stmt ∈ found, StmtReads indent stmt) (ends : endsLines inCase (ahead false rest) = true)
    (fuel depth : Nat) :
    Rereads (Reader.statements fuel depth inCase) false (Layout.lines indent found ++ newLine outer :: rest)
      (SameStmts found) false rest := by
  induction found generalizing fuel with
  | nil =>
      cases fuel with
      | zero => exact .exhausted
      | succ fuel =>
          have nothing : Rereads (pure [] : Reader (List Stmt)) false rest (SameStmts []) false rest := .pure rfl
          refine .peekWord ?_
          change Rereads _ false rest _ false rest
          change endsLines inCase (ahead false (Layout.lines indent [] ++ newLine outer :: rest)) = true at ends
          generalize ahead false (Layout.lines indent [] ++ newLine outer :: rest) = next at ends
          cases next with
          | mark sign => cases sign <;> first | exact nothing | cases ends
          | keyword word =>
              cases word <;> first | (cases ends; exact nothing) | cases ends
          | _ => cases ends
  | cons first others ih =>
      cases fuel with
      | zero => exact .exhausted
      | succ fuel =>
          obtain ⟨formedFirst, formedOthers⟩ := List.forall_mem_cons.mp formed
          obtain ⟨readsFirst, readsOthers⟩ := List.forall_mem_cons.mp reads
          obtain ⟨line, next, same, none⟩ : ∃ line next, Layout.lines indent others ++ newLine outer :: rest
              = newLine line :: next ∧ isSemicolon (ahead false next) = false :=
            lines_break formedOthers (isSemicolon_of_endsLines ends)
          have read : Rereads (Reader.moreStatements fuel depth inCase) false
              (Layout.stmt indent first ++ newLine line :: next) (SameStmts (first :: others)) false rest :=
            rereads_moreStatements readsFirst none fuel depth fun fuel => same ▸ ih formedOthers readsOthers fuel
          have begins : beginsStmt (ahead false (Layout.stmt indent first ++ newLine line :: next)) = true :=
            begins_stmt formedFirst false _
          rw [Layout.lines, List.cons_append, List.append_assoc, same]
          refine .peekWord ?_
          rw [ahead_noLine]
          generalize ahead false (Layout.stmt indent first ++ newLine line :: next) = found at begins
          cases found with
          | mark sign => cases sign <;> first | exact read | cases begins
          | keyword word => cases word <;> first | exact read | cases begins
          | endOfInput => cases begins
          | _ => exact read

theorem formed_stmts {found : List Stmt} (formed : Formed.stmts found) : ∀ stmt ∈ found, Formed.stmt stmt := by
  induction found with
  | nil => exact fun _ member => absurd member List.not_mem_nil
  | cons first others ih => exact List.forall_mem_cons.mpr ⟨formed.1, ih formed.2.2⟩

theorem rereads_block {body : List Stmt} (formed : Formed.stmts body)
    (reads : ∀ stmt ∈ body, StmtReads (indent + 1) stmt) : BlockReads indent body := by
  intro fuel depth pending rest
  cases fuel with
  | zero => exact .exhausted
  | succ fuel =>
      obtain ⟨line, next, same, none⟩ : ∃ line next, Layout.lines (indent + 1) body
          ++ newLine indent :: sign .rightBrace :: rest = newLine line :: next ∧
            isSemicolon (ahead false next) = false := lines_break (formed_stmts formed) rfl
      unfold Reader.block Layout.braces
      rw [List.cons_append, List.append_assoc]
      refine Rereads.nested (Rereads.expectMark.bind fun _ _ => ?_)
      refine (Rereads.skipSemicolons ?_).bind fun _ _ => ?_
      · have skipped := congrArg (fun pieces => isSemicolon (ahead false pieces)) same
        exact skipped.trans none
      refine (rereads_lines (formed_stmts formed) reads rfl fuel (depth + 1)).bind fun values all => ?_
      exact Rereads.expectMark.bind fun _ _ => .pure all

end MiniGo.Syntax
