import MiniGo.Proofs.Syntax.Files

/-!
# Nesting that printing adds

An operator in front of another takes one level of nesting where it is written; printed, it has parentheses
around its operand, and they take another. A text with more than half as many operators in a row as there may be
levels is accepted (`parseText_negations`), and what is printed for it is not (`render_negations_refused`).
-/

namespace MiniGo.Syntax

open Piece Layout

variable {pending behind : Bool} {rest last : List Piece}

def negations : Nat → Expr
  | 0 => .identifier "y" Location.nowhere
  | count + 1 => .unary .not (negations count) Location.nowhere

/-- The layout of negations in a row, without parentheses. -/
def negationSigns : Nat → List Piece
  | 0 => [name "y"]
  | count + 1 => sign .bang :: negationSigns count

def single (value : Expr) : Program := ⟨"p", [], [.values ⟨false, ["x"], none, [value], Location.nowhere⟩]⟩

def singleLayout (value : List Piece) : List Piece :=
  key .packageWord :: blank :: name "p" :: newLine 0 :: newLine 0 :: key .varWord :: blank :: name "x" :: blank
    :: sign .assign :: blank :: (value ++ [newLine 0])

theorem layout_single (value : Expr) : Layout.program (single value) = singleLayout (Layout.expr 0 value) := by
  have initializer : Layout.initializer (Layout.expr 0 value) = blank :: sign .assign :: blank :: Layout.expr 0 value := by
    obtain ⟨more, same⟩ := layout_expr 0 value
    rw [same]
    rfl
  have declared : Layout.program (single value) = key .packageWord :: blank :: name "p" :: newLine 0 :: newLine 0
      :: key .varWord :: blank :: name "x" :: (Layout.initializer (Layout.expr 0 value) ++ [newLine 0] ++ []) := rfl
  rw [declared, List.append_nil, initializer]
  rfl

/-! ## The text without parentheses -/

theorem isName_letters : IsName "p" ∧ IsName "x" ∧ IsName "y" := by
  refine ⟨⟨⟨'p', [], rfl, rfl, ?_⟩, by decide⟩, ⟨⟨'x', [], rfl, rfl, ?_⟩, by decide⟩, ⟨⟨'y', [], rfl, rfl, ?_⟩, by decide⟩⟩
  all_goals exact List.all_eq_true.mp rfl

theorem fits_negationSigns (count : Nat) : Fits (negationSigns count) := by
  induction count with
  | zero => exact .name_of isName_letters.2.2
  | succ count ih =>
      have plain : ∀ rest, ∀ c ∈ (chars (negationSigns count ++ rest)).head?, c ∉ joints := by
        intro rest
        cases count <;> (rintro _ ⟨⟩; decide)
      exact fun rest spaced stops => ⟨trivial, Or.inr (plain rest), ih rest spaced stops⟩

theorem spaced_singleLayout {value : List Piece} (fits : Fits value) : Spaced (singleLayout value) := by
  have all : Fits (singleLayout value) := .key_blank ((Fits.name_of isName_letters.1).append_newLine (Fits.newLine_cons
    (.key_blank ((Fits.name_of isName_letters.2.1).append_blank
      (.word_blank trivial (fits.append_newLine .nil))))))
  rw [← List.append_nil (singleLayout value)]
  exact all [] trivial nofun

theorem length_wordsFrom_negationSigns (count : Nat) (rest : List Piece) (pending : Bool) :
    (wordsFrom pending (negationSigns count ++ rest)).length = count + 1 + (wordsFrom true rest).length := by
  induction count generalizing pending with
  | zero => exact Nat.add_comm _ _
  | succ count ih =>
      change (wordsFrom _ (negationSigns count ++ rest)).length + 1 = _
      rw [ih]
      omega

/-! ## Reading it -/

section

variable {value : List Piece} {post : Expr → Prop}

theorem rereads_singleExpr (fuel : Nat)
    (reads : ∀ fuel, Rereads (Reader.expression fuel 0) false (value ++ [newLine 0]) post true [newLine 0]) :
    Rereads (Reader.expressions fuel 0) false (value ++ [newLine 0]) (fun values => ∃ found, post found ∧ values = [found])
      true [newLine 0] := by
  cases fuel with
  | zero => exact .exhausted
  | succ fuel => exact (reads fuel).bind fun found holds => .atMark (.pure ⟨found, holds, rfl⟩)

theorem rereads_singleSpec (fuel : Nat)
    (reads : ∀ fuel, Rereads (Reader.expression fuel 0) false (value ++ [newLine 0]) post true [newLine 0]) :
    Rereads (Reader.valueSpec fuel 0 "var") false
      (name "x" :: blank :: sign .assign :: blank :: (value ++ [newLine 0]))
      (fun spec => ∃ found, post found ∧ spec = (["x"], none, [found])) true [newLine 0] := by
  cases fuel with
  | zero => exact .exhausted
  | succ fuel =>
      refine Rereads.expectName.bind ?_
      rintro _ rfl
      refine (@rereads_moreNames (blank :: sign .assign :: blank :: (value ++ [newLine 0])) [] fuel rfl).bind ?_
      rintro _ rfl
      refine (@rereads_optionalType _ none nofun fuel rfl).bind ?_
      rintro _ rfl
      refine .blank (.atMark (.advance (ne_end rfl) fun _ _ => .blank ?_))
      refine (rereads_singleExpr fuel reads).bind ?_
      rintro _ ⟨found, holds, rfl⟩
      exact .pure ⟨found, holds, rfl⟩

theorem rereads_singleDecl (fuel : Nat)
    (reads : ∀ fuel, Rereads (Reader.expression fuel 0) false (value ++ [newLine 0]) post true [newLine 0]) :
    Rereads (Reader.declarations fuel) false
      (key .varWord :: blank :: name "x" :: blank :: sign .assign :: blank :: (value ++ [newLine 0]))
      (fun found => ∃ value, post value ∧ found.map (Unplaced.decl .float)
        = [.values ⟨false, ["x"], none, [Unplaced.expr .float value], Location.nowhere⟩]) false [] := by
  cases fuel with
  | zero => exact .exhausted
  | succ fuel =>
      have declares : Rereads (Reader.varDecl fuel 0) false
          (key .varWord :: blank :: name "x" :: blank :: sign .assign :: blank :: (value ++ [newLine 0]))
          (fun found => ∃ value place, post value ∧ found = ⟨false, ["x"], none, [value], place⟩) true [newLine 0] := by
        cases fuel with
        | zero => exact .exhausted
        | succ fuel =>
            refine .advance (ne_end rfl) fun _ _ => .blank ((rereads_singleSpec fuel reads).bind ?_)
            rintro _ ⟨value, holds, rfl⟩
            exact .pure ⟨value, _, holds, rfl⟩
      refine .peekWord (Rereads.bind (?_ : Rereads (Reader.declaration fuel) false _ (fun found => ∃ value place,
        post value ∧ found = .values ⟨false, ["x"], none, [value], place⟩) true [newLine 0]) ?_)
      · refine .peek fun token seen => ?_
        rw [seen]
        refine declares.bind ?_
        rintro _ ⟨value, place, holds, rfl⟩
        exact .pure ⟨value, place, holds, rfl⟩
      · rintro _ ⟨value, place, holds, rfl⟩
        refine Rereads.terminate.bind fun _ _ => (Rereads.skipSemicolons rfl).bind fun _ _ => ?_
        refine Rereads.bind (?_ : Rereads (Reader.declarations fuel) false [] (· = []) false []) ?_
        · cases fuel with
          | zero => exact .exhausted
          | succ fuel => exact .peekWord (.pure rfl)
        · rintro _ rfl
          exact .pure ⟨value, holds, rfl⟩

theorem rereads_single (fuel : Nat)
    (reads : ∀ fuel, Rereads (Reader.expression fuel 0) false (value ++ [newLine 0]) post true [newLine 0]) :
    Rereads (Reader.file fuel) false (singleLayout value)
      (fun program => ∃ value, post value ∧ unplaced program = single (Unplaced.expr .float value)) false [] := by
  refine (Rereads.skipSemicolons rfl).bind fun _ _ => Rereads.expectKeyword.bind fun _ _ => ?_
  refine .blank (Rereads.expectName.bind ?_)
  rintro _ rfl
  refine Rereads.terminate.bind fun _ _ => (Rereads.skipSemicolons rfl).bind fun _ _ => ?_
  refine (rereads_imports_end rfl fuel).bind fun imports none => ?_
  refine .noLine ((rereads_singleDecl fuel reads).bind ?_)
  rintro declarations ⟨value, holds, all⟩
  refine .pure ⟨value, holds, ?_⟩
  unfold unplaced Unplaced.program single
  rw [none, all]
  rfl

end

theorem UnaryReads.negation {pieces : List Piece} {operand : Expr} {location : Location}
    (reads : UnaryReads pieces (SameExpr operand)) :
    UnaryReads (sign .bang :: pieces) (SameExpr (.unary .not operand location)) := by
  intro fuel depth pending rest ends
  cases fuel with
  | zero => exact .exhausted
  | succ fuel =>
      refine .peekWord (.advance (ne_end rfl) fun sign _ => ?_)
      cases fuel with
      | zero => exact .exhausted
      | succ fuel =>
          unfold Reader.unaryOperand
          refine (Rereads.nested (reads fuel (depth + 1) _ rest ends)).bind fun value holds => ?_
          exact .pure holds.unary

theorem reads_negationSigns (count : Nat) : UnaryReads (negationSigns count) (SameExpr (negations count)) := by
  induction count with
  | zero => exact chain_identifier.unary
  | succ count ih => exact ih.negation

theorem chars_negationSigns (count : Nat) : chars (negationSigns count) = List.replicate count '!' ++ ['y'] := by
  induction count with
  | zero => rfl
  | succ count ih =>
      rw [List.replicate_succ, List.cons_append, ← ih]
      rfl

theorem render_negationSigns (count : Nat) : Piece.render (singleLayout (negationSigns count))
    = "package p\n\nvar x = " ++ String.ofList (List.replicate count '!') ++ "y\n" := by
  have text : chars (singleLayout (negationSigns count))
      = "package p\n\nvar x = ".toList ++ (List.replicate count '!' ++ "y\n".toList) := by
    unfold singleLayout
    simp only [chars_cons, chars_append, chars_negationSigns, List.append_assoc]
    rfl
  calc Piece.render (singleLayout (negationSigns count))
      = String.ofList ("package p\n\nvar x = ".toList ++ (List.replicate count '!' ++ "y\n".toList)) :=
        congrArg String.ofList text
    _ = _ := by
        rw [String.ofList_append, String.ofList_append, String.ofList_toList, String.ofList_toList, String.append_assoc]

theorem unplaced_negations (literal : Float → Expr) (count : Nat) :
    Unplaced.expr literal (negations count) = negations count := by
  induction count with
  | zero => rfl
  | succ count ih => exact congrArg (Expr.unary .not · Location.nowhere) ih

/-- A text with negations in a row is accepted if it has fewer tokens than there may be levels. -/
theorem parseText_negations {count : Nat} (few : count + 9 < Reader.nestingLimit) :
    ∃ program, parseText (Piece.render (singleLayout (negationSigns count))) = .ok program ∧
      unplaced program = single (negations count) := by
  have length : (wordsFrom false (singleLayout (negationSigns count))).length = count + 9 := by
    change (wordsFrom false (negationSigns count ++ [newLine 0])).length + 6 = count + 9
    rw [length_wordsFrom_negationSigns]
    rfl
  have reads : ∀ fuel, Rereads (Reader.expression fuel 0) false (negationSigns count ++ [newLine 0])
      (SameExpr (negations count)) true [newLine 0] := fun fuel =>
    (reads_negationSigns count).climbs.expr (by decide) fuel 0 false [newLine 0] rfl
  rcases parseText_layout (spaced_singleLayout (fits_negationSigns count)) fun fuel => rereads_single fuel reads with
    ⟨program, read, value, same, whole⟩ | ⟨many, _⟩
  · refine ⟨program, read, ?_⟩
    rw [whole, same, unplaced_negations]
  · omega

/-! ## What is printed for it -/

theorem formed_negations (count : Nat) : Formed.expr (negations count) := by
  induction count with
  | zero => exact isName_letters.2.2
  | succ count ih => exact ih

theorem callable_negations (count : Nat) : Everywhere.expr Callable (negations count) := by
  induction count with
  | zero => exact trivial
  | succ count ih => exact ⟨trivial, ih⟩

theorem rereads_nested_full {α : Type} {inner : Nat → Reader α} {pieces : List Piece} {post : α → Prop} {depth : Nat}
    (full : Reader.nestingLimit ≤ depth) : Rereads (Reader.nested depth inner) pending pieces post behind last := by
  unfold Reader.nested
  rw [if_pos full]
  exact fun _ _ => Or.inr ⟨_, rfl, Or.inr ⟨_, rfl⟩⟩

theorem rereads_binary_stuck {pieces : List Piece} {depth : Nat}
    (stuck : ∀ fuel, Rereads (Reader.unary fuel depth) pending pieces (fun _ => False) behind last) (fuel level : Nat) :
    Rereads (Reader.binary fuel depth level) pending pieces (fun _ => False) behind last := by
  induction fuel generalizing level with
  | zero => exact .exhausted
  | succ fuel ih =>
      unfold Reader.binary
      split
      · exact stuck fuel
      · exact (ih (level + 1)).bind fun _ impossible => impossible.elim

theorem rereads_expression_stuck {pieces : List Piece} {depth : Nat}
    (stuck : depth < Reader.nestingLimit →
      ∀ fuel, Rereads (Reader.unary fuel (depth + 1)) pending pieces (fun _ => False) behind last) (fuel : Nat) :
    Rereads (Reader.expression fuel depth) pending pieces (fun _ => False) behind last := by
  cases fuel with
  | zero => exact .exhausted
  | succ fuel =>
      unfold Reader.expression
      rcases Nat.lt_or_ge depth Reader.nestingLimit with room | full
      · exact .nested (rereads_binary_stuck (stuck room) fuel 1)
      · exact rereads_nested_full full

/-- Where nothing is read in parentheses, no operand is. -/
theorem rereads_parens_stuck {pieces : List Piece} {depth : Nat}
    (stuck : ∀ fuel, Rereads (Reader.expression fuel depth) false (pieces ++ sign .rightParen :: rest) (fun _ => False)
      behind last) (fuel : Nat) :
    Rereads (Reader.unary fuel depth) pending (inParens pieces ++ rest) (fun _ => False) behind last := by
  rw [inParens, List.cons_append, List.append_assoc]
  cases fuel with
  | zero => exact .exhausted
  | succ fuel =>
      refine .peekWord ?_
      cases fuel with
      | zero => exact .exhausted
      | succ fuel =>
          refine Rereads.bind (?_ : Rereads _ _ _ (fun _ => False) behind last) fun _ impossible => impossible.elim
          refine .peek fun token found => ?_
          rw [found]
          exact .advance (ne_end rfl) fun _ _ => (stuck fuel).bind fun _ impossible => impossible.elim

/-- Printed negations are nested too deeply for the levels that are left: all but the last take two each. -/
theorem rereads_negations_stuck (count fuel depth : Nat) (within : depth ≤ Reader.nestingLimit)
    (deep : Reader.nestingLimit + 2 ≤ depth + 2 * count) :
    Rereads (Reader.unary fuel depth) pending (Layout.expr 0 (negations count) ++ rest) (fun _ => False) behind last := by
  induction count generalizing fuel depth pending rest with
  | zero => omega
  | succ count ih =>
      have laid : Layout.expr 0 (negations (count + 1)) ++ rest = sign .bang
          :: (inParensIf (unaryNeedsParens (negations count)) (Layout.expr 0 (negations count)) ++ rest) := rfl
      rw [laid]
      cases fuel with
      | zero => exact .exhausted
      | succ fuel =>
          refine .peekWord (.advance (ne_end rfl) fun _ _ => ?_)
          cases fuel with
          | zero => exact .exhausted
          | succ fuel =>
              refine Rereads.bind (?_ : Rereads _ _ _ (fun _ => False) behind last) fun _ impossible => impossible.elim
              rcases Nat.lt_or_ge depth Reader.nestingLimit with room | full
              · -- The levels that are left would do for one negation more, so there are others behind it.
                obtain ⟨count, rfl⟩ : ∃ more, count = more + 1 := ⟨count - 1, by omega⟩
                refine .nested (rereads_parens_stuck (rereads_expression_stuck fun more fuel => ?_) fuel)
                exact ih fuel (depth + 2) (by omega) (by omega)
              · exact rereads_nested_full full

/-- What is printed for negations in a row is not accepted if they are more than half as many as there may be
levels. -/
theorem render_negations_refused {count : Nat} (many : Reader.nestingLimit < 2 * count) :
    ∃ location, parseText (single (negations count)).render
      = .error (.parse (.invalid (.nesting Reader.nestingLimit) location)) := by
  have stuck : ∀ fuel, Rereads (Reader.expression fuel 0) false (Layout.expr 0 (negations count) ++ [newLine 0])
      (fun _ => False) true [newLine 0] :=
    rereads_expression_stuck fun _ fuel => rereads_negations_stuck count fuel 1 (by decide) (by omega)
  have fits := fits_expr 0 (negations count) (formed_negations count) (callable_negations count)
  rw [Program.render, layout_single]
  rcases parseText_layout (spaced_singleLayout fits) fun fuel => rereads_single fuel stuck with
    ⟨_, _, _, impossible, _⟩ | ⟨_, refused⟩
  · exact impossible.elim
  · exact refused

end MiniGo.Syntax
