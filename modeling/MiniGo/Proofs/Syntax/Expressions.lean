import MiniGo.Proofs.Syntax.Signatures

/-!
# Expressions read back

An operand is read from its layout at every level up to its strength. A level reads its first operand and
then goes on, so a layout that begins with an operand of the same level is not read by itself:
`LevelLeads` says what a level does that finds the layout first, and `ChainReads` says the same of the
callee in a chain of calls.
-/

namespace MiniGo.Syntax

open Piece Layout

variable {pending : Bool} {pieces rest last : List Piece} {same : Expr → Prop}

/-! ## Expressions up to places -/

/-- What the text of an expression is read as, up to places. -/
def SameExpr (found value : Expr) : Prop := Unplaced.expr .float value = Unplaced.expr settledFloat found

/-- What the texts of expressions are read as, up to places. -/
def SameExprs (found values : List Expr) : Prop := Unplaced.exprs .float values = Unplaced.exprs settledFloat found

theorem SameExprs.cons {first value : Expr} {others values : List Expr} (same : SameExpr first value)
    (all : SameExprs others values) : SameExprs (first :: others) (value :: values) := by
  unfold SameExprs Unplaced.exprs
  rw [same, all]

theorem SameExpr.unary {operand value : Expr} {op : UnaryOp} {location place : Location} (same : SameExpr operand value) :
    SameExpr (.unary op operand location) (.unary op value place) := by
  unfold SameExpr Unplaced.expr
  rw [same]

theorem SameExpr.binary {left right first second : Expr} {op : BinaryOp} {location place : Location}
    (same : SameExpr left first) (other : SameExpr right second) :
    SameExpr (.binary left op right location) (.binary first op second place) := by
  unfold SameExpr Unplaced.expr
  rw [same, other]

theorem SameExpr.call {callee value : Expr} {args values : List Expr} {location place : Location}
    (same : SameExpr callee value) (all : SameExprs args values) :
    SameExpr (.call callee args location) (.call value values place) := by
  unfold SameExpr Unplaced.expr
  rw [same, all]

/-! ## What begins and what ends an expression -/

def beginsExpr : Word → Bool
  | .operator _ | .mark .bang => true
  | found => startsOperand found

/-- A word that an operand without a sign begins with; it is not the magnitude of the smallest integer. -/
def beginsOperand : Word → Bool
  | .integer magnitude => magnitude < Reader.smallestMagnitude
  | found => startsOperand found

/-- A word behind an operand with which neither arguments nor a selected name begin, and no operator of a
level or a stronger one. -/
def endsOperand (level : Nat) : Word → Bool
  | .mark .leftParen | .mark .dot => false
  | .operator op => op.precedence < level
  | _ => true

theorem endsOperand_mono {level stronger : Nat} (le : level ≤ stronger) {found : Word}
    (ends : endsOperand level found = true) : endsOperand stronger found = true := by
  cases found with
  | mark sign => cases sign <;> first | rfl | exact ends
  | operator op => exact decide_eq_true (Nat.lt_of_lt_of_le (of_decide_eq_true ends) le)
  | _ => rfl

theorem ne_dot_of_endsOperand {level : Nat} {found : Word} (ends : endsOperand level found = true) :
    found ≠ .mark .dot := by
  rintro rfl
  cases ends

theorem settled_float (value : Float) :
    (Decimal.IsFinite value ∧ settled (.float value) = .float value ∧ settledFloat value = .float value) ∨
      (settled (.float value) = .identifier infinityName ∧
        settledFloat value = .identifier infinityName Location.nowhere) := by
  unfold settled settledFloat
  by_cases finite : Decimal.IsFinite value
  · exact Or.inl ⟨finite, if_pos finite, if_pos finite⟩
  · exact Or.inr ⟨if_neg finite, if_neg finite⟩

theorem begins_firstWord : (found : Expr) → beginsExpr (settled (firstWord found)) = true
  | .integer value => by
      unfold firstWord
      split <;> rfl
  | .float value => by
      unfold firstWord
      rcases settled_float value with ⟨_, same, _⟩ | ⟨same, _⟩ <;> rw [same] <;> rfl
  | .string _ | .identifier _ _ | .qualified _ _ _ | .function _ => by
      unfold firstWord
      rfl
  | .unary op _ _ => by
      unfold firstWord
      cases op <;> rfl
  | .binary left op _ _ => by
      unfold firstWord
      split
      · rfl
      · exact begins_firstWord left
  | .call callee _ _ => by
      unfold firstWord
      split
      · rfl
      · exact begins_firstWord callee

theorem ne_paren_of_endsOperand {level : Nat} {found : Word} (ends : endsOperand level found = true) :
    isMark .leftParen found = false := by
  cases found with
  | mark sign => cases sign <;> first | rfl | cases ends
  | _ => rfl

theorem isMark_eq_false {mark : Mark} {found : Word} (other : found ≠ .mark mark) : isMark mark found = false := by
  cases found with
  | mark sign => exact beq_eq_false_iff_ne.mpr fun same => other (congrArg Word.mark same)
  | _ => rfl

theorem isMark_of_beginsExpr {mark : Mark} {found : Word} (begins : beginsExpr found = true)
    (other : beginsExpr (.mark mark) = false) : isMark mark found = false := by
  refine isMark_eq_false ?_
  rintro rfl
  rw [begins] at other
  cases other

theorem begins_expr (indent : Nat) (found : Expr) (pending : Bool) (rest : List Piece) :
    beginsExpr (ahead pending (Layout.expr indent found ++ rest)) = true := by
  obtain ⟨more, same⟩ := layout_expr indent found
  rw [same]
  exact begins_firstWord found

theorem begins_exprs (indent : Nat) {found : List Expr} (some : found ≠ []) (pending : Bool) (rest : List Piece) :
    beginsExpr (ahead pending (commaSeparated (Layout.exprs indent found) ++ rest)) = true := by
  match found, some with
  | [first], _ => exact begins_expr indent first pending rest
  | first :: second :: others, _ =>
      rw [Layout.exprs, Layout.exprs, commaSeparated_more, List.append_assoc]
      exact begins_expr indent first pending _

/-! ## Ways to be read -/

/-- An expression is read from a layout. -/
def ExprReads (pieces : List Piece) (same : Expr → Prop) : Prop :=
  ∀ fuel depth pending rest, endsOperand 1 (ahead true rest) = true →
    Rereads (Reader.expression fuel depth) pending (pieces ++ rest) same true rest

/-- An operand of a level is read from a layout. -/
def LevelReads (pieces : List Piece) (same : Expr → Prop) (level : Nat) : Prop :=
  ∀ fuel depth pending rest, endsOperand level (ahead true rest) = true →
    Rereads (Reader.binary fuel depth level) pending (pieces ++ rest) same true rest

/-- A layout is read as the first operand of a level, which goes on behind it. -/
def LevelLeads (pieces : List Piece) (same : Expr → Prop) (level : Nat) : Prop :=
  ∀ (post : Expr → Prop) last fuel depth pending rest, endsOperand (level + 1) (ahead true rest) = true →
    (∀ fuel value, same value → Rereads (Reader.binaryRest fuel depth level value) true rest post true last) →
    Rereads (Reader.binary fuel depth level) pending (pieces ++ rest) post true last

/-- An operand with its signs is read from a layout. -/
def UnaryReads (pieces : List Piece) (same : Expr → Prop) : Prop :=
  ∀ fuel depth pending rest, endsOperand 6 (ahead true rest) = true →
    Rereads (Reader.unary fuel depth) pending (pieces ++ rest) same true rest

/-- A layout is read as a callee, if calls of it go on behind it. -/
structure ChainReads (pieces : List Piece) (same : Expr → Prop) : Prop where
  begins : ∀ pending rest, beginsOperand (ahead pending (pieces ++ rest)) = true
  leads : ∀ (post : Expr → Prop) last fuel depth pending rest, ahead true rest ≠ .mark .dot →
    (∀ fuel value, same value → Rereads (Reader.calls fuel depth value) true rest post true last) →
    Rereads (do
      let callee ← Reader.primary fuel depth
      Reader.calls fuel depth callee) pending (pieces ++ rest) post true last

/-- Arguments are read from a layout. -/
def ArgumentsRead (pieces : List Piece) (same : List Expr → Prop) : Prop :=
  ∀ fuel depth pending rest,
    Rereads (Reader.arguments fuel depth) pending (pieces ++ sign .rightParen :: rest) same true
      (sign .rightParen :: rest)

/-! ## Levels -/

theorem LevelReads.leads {level : Nat} (weak : level ≤ Reader.strongest) (reads : LevelReads pieces same (level + 1)) :
    LevelLeads pieces same level := by
  intro post last fuel depth pending rest ends others
  cases fuel with
  | zero => exact .exhausted
  | succ fuel =>
      unfold Reader.binary
      rw [if_neg (Nat.not_lt.mpr weak)]
      exact (reads fuel depth pending rest ends).bind (others fuel)

/-- Where no operator of the level is ahead, nothing more is read. -/
theorem rereads_binaryRest_end {level : Nat} {value : Expr} (fuel depth : Nat) (holds : same value)
    (ends : endsOperand level (ahead true rest) = true) :
    Rereads (Reader.binaryRest fuel depth level value) true rest same true rest := by
  cases fuel with
  | zero => exact .exhausted
  | succ fuel =>
      refine .peekWord ?_
      generalize ahead true rest = found at ends
      cases found with
      | operator op =>
          have weaker : op.precedence < level := of_decide_eq_true ends
          dsimp only
          rw [if_neg fun inside => Nat.ne_of_lt weaker (Reader.mem_operatorsOf.mp inside)]
          exact .pure holds
      | _ => exact .pure holds

theorem LevelLeads.reads {level : Nat} (leads : LevelLeads pieces same level) : LevelReads pieces same level :=
  fun fuel depth pending rest ends =>
    leads same rest fuel depth pending rest (endsOperand_mono (Nat.le_succ level) ends) fun fuel _ holds =>
      rereads_binaryRest_end fuel depth holds ends

/-- A layout is read at every level up to a strength. -/
structure Climbs (strength : Nat) (pieces : List Piece) (same : Expr → Prop) : Prop where
  reads : ∀ level ≤ strength, LevelReads pieces same level
  leads : ∀ level ≤ strength, level ≤ Reader.strongest → LevelLeads pieces same level

theorem LevelReads.below {level strength : Nat} (reads : LevelReads pieces same strength)
    (bound : strength ≤ Reader.strongest + 1) (le : level ≤ strength) : LevelReads pieces same level := by
  induction le using Nat.decreasingInduction with
  | self => exact reads
  | of_succ level lt ih => exact (ih.leads (by omega)).reads

theorem LevelLeads.climbs {strength : Nat} (leads : LevelLeads pieces same strength)
    (bound : strength ≤ Reader.strongest) : Climbs strength pieces same where
  reads _ le := leads.reads.below (Nat.le_succ_of_le bound) le
  leads level le weak := by
    rcases Nat.eq_or_lt_of_le le with rfl | lt
    · exact leads
    · exact (leads.reads.below (Nat.le_succ_of_le bound) lt).leads weak

theorem UnaryReads.climbs (reads : UnaryReads pieces same) : Climbs (Reader.strongest + 1) pieces same := by
  have top : LevelReads pieces same (Reader.strongest + 1) := by
    intro fuel depth pending rest ends
    cases fuel with
    | zero => exact .exhausted
    | succ fuel => exact reads fuel depth pending rest ends
  exact {
    reads := fun _ le => top.below le_rfl le
    leads := fun _ _ weak => (top.below le_rfl (Nat.succ_le_succ weak)).leads weak }

theorem Climbs.weaken {strength weaker : Nat} (climbs : Climbs strength pieces same) (le : weaker ≤ strength) :
    Climbs weaker pieces same where
  reads level below := climbs.reads level (below.trans le)
  leads level below := climbs.leads level (below.trans le)

theorem Climbs.expr {strength : Nat} (climbs : Climbs strength pieces same) (positive : 1 ≤ strength) :
    ExprReads pieces same := by
  intro fuel depth pending rest ends
  cases fuel with
  | zero => exact .exhausted
  | succ fuel =>
      unfold Reader.expression
      exact .nested (climbs.reads 1 positive fuel (depth + 1) pending rest ends)

/-- An operation is read as an operand of its own level. -/
theorem leads_binary {left right : Expr} {op : BinaryOp} {location : Location} {first second : List Piece}
    (leads : LevelLeads first (SameExpr left) op.precedence)
    (reads : LevelReads second (SameExpr right) (op.precedence + 1)) :
    LevelLeads (first ++ blank :: word (.operator op) :: blank :: second)
      (SameExpr (.binary left op right location)) op.precedence := by
  intro post last fuel depth pending rest ends others
  rw [List.append_assoc]
  refine leads post last fuel depth pending _ (decide_eq_true (Nat.lt_succ_self _)) fun fuel value holds => ?_
  cases fuel with
  | zero => exact .exhausted
  | succ fuel =>
      refine .peekWord ?_
      have sign : ahead true (blank :: word (.operator op) :: blank :: second ++ rest) = .operator op := rfl
      rw [sign]
      dsimp only
      rw [if_pos (Reader.mem_operatorsOf.mpr rfl)]
      refine .blank (.advance (ne_end rfl) fun _ _ => ?_)
      refine (reads fuel depth _ rest ends).bind fun value' holds' => ?_
      exact others fuel _ (holds.binary holds')

/-! ## Operands -/

theorem rereads_calls_end {value : Expr} (fuel depth : Nat) (holds : same value)
    (ends : isMark .leftParen (ahead true rest) = false) :
    Rereads (Reader.calls fuel depth value) true rest same true rest := by
  cases fuel with
  | zero => exact .exhausted
  | succ fuel =>
      refine .atMark ?_
      rw [ends]
      exact .pure holds

theorem ChainReads.unary (chain : ChainReads pieces same) : UnaryReads pieces same := by
  intro fuel depth pending rest ends
  cases fuel with
  | zero => exact .exhausted
  | succ fuel =>
      have closed := ne_paren_of_endsOperand ends
      have read := chain.leads same rest fuel depth pending rest (ne_dot_of_endsOperand ends) fun fuel _ holds =>
        rereads_calls_end fuel depth holds closed
      have begins := chain.begins pending rest
      refine .peekWord ?_
      generalize ahead pending (pieces ++ rest) = found at begins
      cases found with
      | keyword _ | identifier _ | integer _ | float _ | string _ => exact read
      | mark sign => cases sign <;> first | exact read | cases begins
      | operator _ | semicolon _ | compound _ | endOfInput => cases begins

theorem ChainReads.of_primary (begins : ∀ pending rest, beginsOperand (ahead pending (pieces ++ rest)) = true)
    (reads : ∀ fuel depth pending rest, ahead true rest ≠ .mark .dot →
      Rereads (Reader.primary fuel depth) pending (pieces ++ rest) same true rest) : ChainReads pieces same where
  begins := begins
  leads _ _ fuel depth pending rest plain others := (reads fuel depth pending rest plain).bind (others fuel)

theorem chain_parens (reads : ExprReads pieces same) : ChainReads (inParens pieces) same := by
  refine .of_primary (fun _ _ => rfl) fun fuel depth pending rest _ => ?_
  cases fuel with
  | zero => exact .exhausted
  | succ fuel =>
      rw [inParens, List.cons_append, List.append_assoc]
      refine .peek fun token found => ?_
      rw [found]
      refine .advance (ne_end rfl) fun _ _ => ?_
      refine (reads fuel depth _ _ rfl).bind fun value holds => ?_
      exact Rereads.expectMark.bind fun _ _ => .pure holds

theorem chain_call {callee : Expr} {args : List Expr} {location : Location} {listed : List Piece}
    (chain : ChainReads pieces (SameExpr callee)) (arguments : ArgumentsRead listed (SameExprs args)) :
    ChainReads (pieces ++ inParens listed) (SameExpr (.call callee args location)) where
  begins pending rest := by
    rw [List.append_assoc]
    exact chain.begins pending _
  leads post last fuel depth pending rest plain others := by
    rw [List.append_assoc]
    have plain : ahead true (inParens listed ++ rest) ≠ .mark .dot := by
      intro same
      cases same
    refine chain.leads post last fuel depth pending _ plain fun fuel value holds => ?_
    cases fuel with
    | zero => exact .exhausted
    | succ fuel =>
        rw [inParens, List.cons_append, List.append_assoc]
        refine .atMark (.advance (ne_end rfl) fun _ _ => ?_)
        refine (arguments fuel depth _ rest).bind fun values all => ?_
        exact Rereads.expectMark.bind fun _ _ => others fuel _ (holds.call all)

theorem rereads_sign {op : UnaryOp} {operand : Expr} {location : Location} (chain : ChainReads pieces (SameExpr operand)) :
    UnaryReads (word (unaryWord op) :: pieces) (SameExpr (.unary op operand location)) := by
  intro fuel depth pending rest ends
  cases fuel with
  | zero => exact .exhausted
  | succ fuel =>
      have read : ∀ behind place, Rereads (Reader.unaryOperand fuel depth op place) behind (pieces ++ rest)
          (SameExpr (.unary op operand location)) true rest := by
        intro behind place
        cases fuel with
        | zero => exact .exhausted
        | succ fuel =>
            unfold Reader.unaryOperand
            refine (Rereads.nested (chain.unary fuel (depth + 1) behind rest ends)).bind fun value holds => ?_
            exact .pure holds.unary
      rw [List.cons_append]
      refine .peekWord ?_
      cases op with
      -- A minus before the smallest magnitude would be read as one literal, and no operand begins with that.
      | negate =>
          refine .advance (ne_end rfl) fun sign _ => .peekWord ?_
          have begins := chain.begins (unaryWord .negate).endsStatement rest
          generalize ahead (unaryWord .negate).endsStatement (pieces ++ rest) = next at begins
          cases next with
          | integer magnitude =>
              have small : magnitude < Reader.smallestMagnitude := of_decide_eq_true begins
              dsimp only
              rw [if_neg small.ne]
              exact read _ _
          | _ => exact read _ _
      | plus | not | bitNot => exact .advance (ne_end rfl) fun sign _ => read _ _

theorem rereads_smallest :
    UnaryReads [word (.operator .subtract), word (.integer Reader.smallestMagnitude)]
      (SameExpr (.integer Int64.minValue)) := by
  intro fuel depth pending rest _
  cases fuel with
  | zero => exact .exhausted
  | succ fuel =>
      refine .peekWord (.advance (ne_end rfl) fun sign _ => .peekWord ?_)
      refine .advance (ne_end rfl) fun _ _ => .pure ?_
      rfl

/-! ## Literals and names -/

theorem chain_integer {magnitude : Nat} (small : magnitude < Reader.smallestMagnitude) :
    ChainReads [word (.integer magnitude)] (SameExpr (.integer (Int64.ofNat magnitude))) := by
  refine .of_primary (fun _ _ => decide_eq_true small) fun fuel depth pending rest _ => ?_
  cases fuel with
  | zero => exact .exhausted
  | succ fuel =>
      refine .peek fun token found => ?_
      rw [found]
      refine .advance (ne_end rfl) fun _ _ => ?_
      rw [if_pos small]
      exact .pure rfl

theorem chain_string {text : String} : ChainReads [word (.string text)] (SameExpr (.string text)) := by
  refine .of_primary (fun _ _ => rfl) fun fuel depth pending rest _ => ?_
  cases fuel with
  | zero => exact .exhausted
  | succ fuel =>
      refine .peek fun token found => ?_
      rw [found]
      exact .advance (ne_end rfl) fun _ _ => .pure rfl

/-- A word that is read as a name. -/
theorem rereads_identifier {found : Word} {read : String} {post : Expr → Prop} (fuel depth : Nat)
    (settles : settled found = .identifier read) (ends : found.endsStatement = true)
    (holds : ∀ place, post (.identifier read place)) (plain : ahead true rest ≠ .mark .dot) :
    Rereads (Reader.primary fuel depth) pending (word found :: rest) post true rest := by
  cases fuel with
  | zero => exact .exhausted
  | succ fuel =>
      refine .peek fun token seen => ?_
      rw [seen, ahead_word, settles]
      refine .advance (settles ▸ ne_end rfl) fun _ _ => ?_
      rw [ends]
      refine .atMark ?_
      rw [isMark_eq_false plain]
      exact .pure (holds _)

theorem chain_identifier {found : String} {location : Location} :
    ChainReads [name found] (SameExpr (.identifier found location)) :=
  .of_primary (fun _ _ => rfl) fun fuel depth _ _ plain => rereads_identifier fuel depth rfl rfl (fun _ => rfl) plain

theorem chain_float {value : Float} : ChainReads [word (.float value)] (SameExpr (.float value)) := by
  rcases settled_float value with ⟨_, same, settles⟩ | ⟨same, settles⟩
  · refine .of_primary (fun _ _ => ?_) fun fuel depth pending rest _ => ?_
    · rw [List.singleton_append, ahead_word, same]
      rfl
    · cases fuel with
      | zero => exact .exhausted
      | succ fuel =>
          rw [List.singleton_append]
          refine .peek fun token found => ?_
          rw [found, ahead_word, same]
          refine .advance (by rw [same]; exact ne_end rfl) fun _ _ => .pure ?_
          exact settles.symm
  · refine .of_primary (fun _ _ => ?_) fun fuel depth pending rest plain => ?_
    · rw [List.singleton_append, ahead_word, same]
      rfl
    · refine rereads_identifier fuel depth same rfl (fun place => ?_) plain
      exact settles.symm

theorem chain_qualified {package found : String} {location : Location} :
    ChainReads [name package, sign .dot, name found] (SameExpr (.qualified package found location)) := by
  refine .of_primary (fun _ _ => rfl) fun fuel depth pending rest _ => ?_
  cases fuel with
  | zero => exact .exhausted
  | succ fuel =>
      refine .peek fun token seen => ?_
      rw [seen]
      refine .advance (ne_end rfl) fun _ _ => .atMark (.advance (ne_end rfl) fun _ _ => ?_)
      refine Rereads.expectName.bind ?_
      rintro _ rfl
      exact .pure rfl

/-! ## Trees -/

/-- How strongly an expression binds; one that is no operation binds strongest. -/
def strength : Expr → Nat
  | .binary _ op _ _ => op.precedence
  | _ => Reader.strongest + 1

theorem strength_pos (found : Expr) : 1 ≤ strength found := by
  cases found with
  | binary _ op _ _ => exact op.precedence_pos
  | _ => exact Nat.le_add_left _ _

theorem le_strength {level : Nat} {found : Expr} (bound : level ≤ Reader.strongest + 1)
    (plain : weakerThan level found = false) : level ≤ strength found := by
  cases found with
  | binary _ op _ _ => exact Nat.le_of_not_lt (of_decide_eq_false plain)
  | _ => exact bound

/-- An expression is read back at the levels up to its strength, and without a sign also as a callee. -/
structure Rereading (indent : Nat) (found : Expr) : Prop where
  climbs : Climbs (strength found) (Layout.expr indent found) (SameExpr found)
  chain : isOperand found = true → ChainReads (Layout.expr indent found) (SameExpr found)

/-- An expression is read back from its layout. -/
def Reads (indent : Nat) (found : Expr) : Prop := ExprReads (Layout.expr indent found) (SameExpr found)

namespace Rereading

variable {indent : Nat} {found left right callee operand : Expr} {args : List Expr} {location : Location}

theorem reads (reading : Rereading indent found) : Reads indent found := reading.climbs.expr (strength_pos found)

theorem of_chain (top : strength found = Reader.strongest + 1)
    (chain : ChainReads (Layout.expr indent found) (SameExpr found)) : Rereading indent found where
  climbs := top ▸ chain.unary.climbs
  chain _ := chain

theorem guarded {level : Nat} (reading : Rereading indent found) (bound : level ≤ Reader.strongest + 1) :
    Climbs level (inParensIf (weakerThan level found) (Layout.expr indent found)) (SameExpr found) := by
  cases needed : weakerThan level found with
  | true => exact (chain_parens reading.reads).unary.climbs.weaken bound
  | false => exact reading.climbs.weaken (le_strength bound needed)

theorem binary {op : BinaryOp} (first : Rereading indent left) (second : Rereading indent right) :
    Rereading indent (.binary left op right location) where
  climbs := by
    have bound := op.precedence_le
    have firstReads := (first.guarded (Nat.le_succ_of_le bound)).leads _ le_rfl bound
    have secondReads := (second.guarded (Nat.succ_le_succ bound)).reads _ le_rfl
    exact (leads_binary firstReads secondReads).climbs bound
  chain operand := absurd operand Bool.false_ne_true

theorem unary {op : UnaryOp} (reading : Rereading indent operand) : Rereading indent (.unary op operand location) where
  climbs := by
    have chain : ChainReads (inParensIf (unaryNeedsParens operand) (Layout.expr indent operand)) (SameExpr operand) := by
      cases needed : unaryNeedsParens operand with
      | true => exact chain_parens reading.reads
      | false => exact reading.chain (by rw [isOperand, needed]; rfl)
    exact (rereads_sign chain).climbs
  chain operand := absurd operand Bool.false_ne_true

theorem call (plain : calleeNeedsParens callee = false → isOperand callee = true) (reading : Rereading indent callee)
    (reads : ArgumentsRead (commaSeparated (Layout.exprs indent args)) (SameExprs args)) :
    Rereading indent (.call callee args location) := by
  have chain : ChainReads (inParensIf (calleeNeedsParens callee) (Layout.expr indent callee)) (SameExpr callee) := by
    cases needed : calleeNeedsParens callee with
    | true => exact chain_parens reading.reads
    | false => exact reading.chain (plain needed)
  exact of_chain rfl (chain_call chain reads)

theorem integer {value : Int64} (formed : IsLiteral value) : Rereading indent (.integer value) := by
  rcases formed with positive | rfl
  · have least : 0 ≤ value.toInt := Int64.le_iff_toInt_le.mp positive
    have most := value.toInt_lt
    have small : value.toInt.natAbs < Reader.smallestMagnitude := by
      change value.toInt.natAbs < 9223372036854775808
      omega
    have plain : ¬ value < 0 := Int64.not_lt.mpr positive
    have same : Int64.ofNat value.toInt.natAbs = value := by
      rw [← Int64.ofInt_eq_ofNat, Int.natAbs_of_nonneg least, Int64.ofInt_toInt]
    have layout : Layout.expr indent (.integer value) = [word (.integer value.toInt.natAbs)] := by
      rw [Layout.expr, Layout.integer, if_neg plain]
    have chain : ChainReads [word (.integer value.toInt.natAbs)] (SameExpr (.integer value)) := by
      have read := chain_integer small
      rwa [same] at read
    exact of_chain rfl (layout ▸ chain)
  · exact ⟨rereads_smallest.climbs, fun operand => absurd operand (by decide)⟩

end Rereading

/-! ## Lists -/

theorem layout_exprs (indent : Nat) (found : List Expr) : Layout.exprs indent found = found.map (Layout.expr indent) := by
  induction found with
  | nil => rfl
  | cons first others ih => rw [Layout.exprs, List.map_cons, ih]

theorem rereads_arguments {indent : Nat} {found : List Expr} (reads : ∀ value ∈ found, Reads indent value) :
    ArgumentsRead (commaSeparated (Layout.exprs indent found)) (SameExprs found) := by
  intro fuel depth pending rest
  induction found generalizing fuel pending with
  | nil =>
      cases fuel with
      | zero => exact .exhausted
      | succ fuel => exact .atMark (.pure rfl)
  | cons first others ih =>
      obtain ⟨readsFirst, readsOthers⟩ := List.forall_mem_cons.mp reads
      cases fuel with
      | zero => exact .exhausted
      | succ fuel =>
          refine .atMark ?_
          -- The last argument stands before the parenthesis, any other before a comma.
          cases others with
          | nil =>
              rw [Layout.exprs, Layout.exprs, commaSeparated,
                isMark_of_beginsExpr (begins_expr indent first pending _) rfl]
              refine (readsFirst fuel depth pending _ rfl).bind fun value holds => .atMark ?_
              exact .pure (SameExprs.cons holds rfl)
          | cons next others =>
              rw [Layout.exprs, Layout.exprs, commaSeparated_more, List.append_assoc,
                isMark_of_beginsExpr (begins_expr indent first pending _) rfl]
              refine (readsFirst fuel depth pending _ rfl).bind fun value holds => .atMark ?_
              refine .advance (ne_end rfl) fun _ _ => ?_
              exact (ih readsOthers fuel _).bind fun values all => .pure (SameExprs.cons holds all)

/-- One expression or more are read back from their layout. -/
theorem rereads_expressions {indent : Nat} {found : List Expr} (some : found ≠ [])
    (reads : ∀ value ∈ found, Reads indent value) (fuel depth : Nat) (pending : Bool) 
    (ends : endsOperand 1 (ahead true rest) = true) (single : isMark .comma (ahead true rest) = false) :
    Rereads (Reader.expressions fuel depth) pending (commaSeparated (Layout.exprs indent found) ++ rest)
      (SameExprs found) true rest := by
  induction found generalizing fuel pending with
  | nil => exact absurd rfl some
  | cons first others ih =>
      obtain ⟨readsFirst, readsOthers⟩ := List.forall_mem_cons.mp reads
      cases fuel with
      | zero => exact .exhausted
      | succ fuel =>
          cases others with
          | nil =>
              refine (readsFirst fuel depth pending rest ends).bind fun value holds => .atMark ?_
              rw [single]
              exact .pure (SameExprs.cons holds rfl)
          | cons next others =>
              rw [Layout.exprs, Layout.exprs, commaSeparated_more, List.append_assoc]
              refine (readsFirst fuel depth pending _ rfl).bind fun value holds => .atMark ?_
              refine .advance (ne_end rfl) fun _ _ => ?_
              exact (ih (List.cons_ne_nil _ _) readsOthers fuel _).bind fun values all => .pure (SameExprs.cons holds all)

end MiniGo.Syntax
