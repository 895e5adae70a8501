import MiniGo.Proofs.Syntax.Spelling

/-!
# Words from a layout

A layout whose words stand apart is read as its words, with a semicolon for each line break behind a word
that can end a statement (`tokenize_render`).
-/

namespace MiniGo.Syntax

open Lexer

/-- The words that a layout is read as, the end of the input last. With `pending` a line break ends a
statement. -/
def wordsFrom (pending : Bool) : List Piece → List Word
  | [] => if pending then [.semicolon true, .endOfInput] else [.endOfInput]
  | .word word :: pieces => settled word :: wordsFrom word.endsStatement pieces
  | .blank :: pieces => wordsFrom pending pieces
  | .newLine _ :: pieces => if pending then .semicolon true :: wordsFrom false pieces else wordsFrom false pieces

/-- The text of a layout, as characters. -/
def chars (pieces : List Piece) : List Char := pieces.flatMap Piece.chars

@[simp] theorem chars_nil : chars [] = [] := rfl

@[simp] theorem chars_cons (piece : Piece) (pieces : List Piece) :
    chars (piece :: pieces) = piece.chars ++ chars pieces := List.flatMap_cons

@[simp] theorem chars_append (first second : List Piece) : chars (first ++ second) = chars first ++ chars second :=
  List.flatMap_append

/-- Words that are read from their spelling where they stand. -/
def Spaced : List Piece → Prop
  | [] => True
  | .word word :: pieces => Spelled word ∧ Apart (chars pieces) word ∧ Spaced pieces
  | _ :: pieces => Spaced pieces

/-- Characters that a gap skips; a line break is skipped unless it ends a statement. -/
def Skips (pending : Bool) (gap : List Char) : Prop :=
  ∀ c ∈ gap, c = ' ' ∨ c = '\t' ∨ (c = '\n' ∧ pending = false)

theorem Skips.append {pending : Bool} {gap more : List Char} (skips : Skips pending gap)
    (others : Skips pending more) : Skips pending (gap ++ more) := List.forall_mem_append.mpr ⟨skips, others⟩

theorem skips_blank (pending : Bool) : Skips pending [' '] := List.forall_mem_singleton.mpr (Or.inl rfl)

theorem skips_indent (pending : Bool) (indent : Nat) : Skips pending (List.replicate indent '\t') :=
  fun _ member => Or.inr (Or.inl (List.mem_replicate.mp member).2)

theorem skips_line : Skips false ['\n'] := List.forall_mem_singleton.mpr (Or.inr (Or.inr ⟨rfl, rfl⟩))

theorem scanGap_skips {pending : Bool} {gap : List Char} (skips : Skips pending gap) (location : Location)
    (text : List Char) :
    ∃ behind, scanGap pending .blank location (gap ++ text) = scanGap pending .blank behind text := by
  induction gap generalizing location with
  | nil => exact ⟨location, rfl⟩
  | cons c gap ih =>
      obtain ⟨here, others⟩ := List.forall_mem_cons.mp skips
      obtain ⟨behind, same⟩ := ih others (location.step c)
      refine ⟨behind, ?_⟩
      rw [← same, List.cons_append]
      rcases here with rfl | rfl | ⟨rfl, rfl⟩
      · simp [scanGap]
      · simp [scanGap]
      · simp [scanGap]

/-- A lexer in front of a text. -/
structure Ahead (lexer : Lexer) (pending : Bool) (text : List Char) : Prop where
  rest : lexer.rest = text
  pending : lexer.pending = pending
  running : lexer.finished = false

/-- What the lexer gives next: a word and a lexer in front of what is left. -/
def Next (lexer : Lexer) (word : Word) (pending : Bool) (rest : List Char) : Prop :=
  ∃ token after, lexer.next = (some (.ok token), after) ∧ token.word = word ∧ Ahead after pending rest

section

variable {lexer : Lexer} {pending : Bool} {text gap rest : List Char} {place found : Location}

theorem next_of_word {word : Word} {lexeme : List Char} (ahead : Ahead lexer pending gap)
    (scanned : scanGap pending .blank lexer.location gap = .word place text)
    (read : scanWord place text = .ok (word, lexeme, rest)) : Next lexer word word.endsStatement rest := by
  refine ⟨⟨word, String.ofList lexeme, place⟩,
    { lexer with rest, location := place.after lexeme, pending := word.endsStatement }, ?_, rfl, ⟨rfl, rfl, ahead.running⟩⟩
  simp only [Lexer.next, ahead.running, ahead.rest, ahead.pending, Bool.false_eq_true, if_false, Lexer.step, scanned, read]
  rfl

theorem next_of_line (ahead : Ahead lexer pending gap)
    (scanned : scanGap pending .blank lexer.location gap = .lineBreak found place rest) :
    Next lexer (.semicolon true) false rest := by
  refine ⟨⟨.semicolon true, "\n", found⟩, { lexer with rest, location := place, pending := false }, ?_, rfl,
    ⟨rfl, rfl, ahead.running⟩⟩
  simp only [Lexer.next, ahead.running, ahead.rest, ahead.pending, Bool.false_eq_true, if_false, Lexer.step, scanned]

theorem next_word {word : Word} (ahead : Ahead lexer pending (gap ++ (word.spelling ++ rest)))
    (skips : Skips pending gap) (reads : Readable rest word) :
    Next lexer (settled word) word.endsStatement rest := by
  obtain ⟨behind, same⟩ := scanGap_skips skips lexer.location (word.spelling ++ rest)
  rw [scanGap_opens pending behind reads.opens] at same
  obtain ⟨lexeme, read⟩ := reads.scan behind
  rw [← endsStatement_settled]
  exact next_of_word ahead same read

theorem next_line (ahead : Ahead lexer true (gap ++ '\n' :: rest)) (skips : Skips true gap) :
    Next lexer (.semicolon true) false rest := by
  obtain ⟨behind, same⟩ := scanGap_skips skips lexer.location ('\n' :: rest)
  have line : scanGap true .blank behind ('\n' :: rest) = .lineBreak behind (behind.step '\n') rest := by
    simp [scanGap]
  exact next_of_line ahead (same.trans line)

theorem next_end (ahead : Ahead lexer true gap) (skips : Skips true gap) :
    Next lexer (.semicolon true) false [] := by
  obtain ⟨behind, same⟩ := scanGap_skips skips lexer.location []
  rw [List.append_nil] at same
  exact next_of_line ahead same

end

/-- The lexer gives these words and then nothing more. -/
def Drains (fuel : Nat) (lexer : Lexer) (words : List Word) : Prop :=
  ∃ tokens last, lexer.drain fuel = (tokens, none, last) ∧ tokens.map (·.word) = words

theorem Drains.succ {fuel : Nat} {lexer : Lexer} {word : Word} {pending : Bool} {rest : List Char}
    {words : List Word} (next : Next lexer word pending rest)
    (drains : ∀ after, Ahead after pending rest → Drains fuel after words) :
    Drains (fuel + 1) lexer (word :: words) := by
  obtain ⟨token, after, gave, rfl, ahead⟩ := next
  obtain ⟨tokens, last, read, same⟩ := drains after ahead
  refine ⟨token :: tokens, last, ?_, by rw [List.map_cons, same]⟩
  unfold Lexer.drain
  simp only [gave, read]

theorem drains_of_finish {fuel : Nat} {lexer : Lexer} {gap : List Char} {place : Location} (ahead : Ahead lexer false gap)
    (scanned : scanGap false .blank lexer.location gap = .finish place) : Drains (fuel + 1) lexer [.endOfInput] := by
  let after : Lexer := ⟨lexer.source, [], place, false, true⟩
  have nothing : after.drain fuel = ([], none, after) := by cases fuel <;> rfl
  refine ⟨[⟨.endOfInput, "", place⟩], after, ?_, rfl⟩
  unfold Lexer.drain
  simp only [Lexer.next, ahead.running, ahead.rest, ahead.pending, Bool.false_eq_true, if_false, Lexer.step, scanned,
    after, nothing]

theorem drains_finish {fuel : Nat} {lexer : Lexer} {gap : List Char} (ahead : Ahead lexer false gap)
    (skips : Skips false gap) : Drains (fuel + 1) lexer [.endOfInput] := by
  obtain ⟨behind, same⟩ := scanGap_skips skips lexer.location []
  rw [List.append_nil] at same
  exact drains_of_finish ahead same

theorem apart_nil (word : Word) : Apart [] word := by
  cases word with
  | mark sign => cases sign <;> first | exact Or.inl rfl | exact Or.inr nofun | exact nofun
  | string text => exact trivial
  | semicolon implicit => exact Or.inl rfl
  | operator op | compound op => exact Or.inr nofun
  | endOfInput => exact Or.inr nofun
  | keyword _ | identifier _ | integer _ | float _ => exact nofun

theorem spelling_pos {word : Word} (spelled : Spelled word) : 0 < word.spelling.length := by
  obtain ⟨c, first, _⟩ := (readable spelled (apart_nil word)).opens.visible
  rw [List.append_nil] at first
  exact List.length_pos_of_ne_nil (by rintro same; rw [same] at first; cases first)

/-- A lexer in front of a layout, perhaps with a gap before it, gives the words of the layout. -/
theorem drains_pieces (pieces : List Piece) (spaced : Spaced pieces) {lexer : Lexer} {pending : Bool}
    {gap : List Char} (ahead : Ahead lexer pending (gap ++ chars pieces)) (skips : Skips pending gap) {fuel : Nat}
    (enough : (chars pieces).length + 2 ≤ fuel) : Drains fuel lexer (wordsFrom pending pieces) := by
  induction pieces generalizing lexer pending gap fuel with
  | nil =>
      obtain ⟨fuel, rfl⟩ : ∃ more, fuel = more + 2 := ⟨fuel - 2, by simp at enough; omega⟩
      rw [chars_nil, List.append_nil] at ahead
      unfold wordsFrom
      cases pending with
      | false => exact drains_finish ahead skips
      | true =>
          rw [if_pos rfl]
          exact .succ (next_end ahead skips) fun after ahead =>
            drains_finish ahead fun _ member => absurd member List.not_mem_nil
  | cons piece pieces ih =>
      rw [chars_cons] at ahead enough
      cases piece with
      | word word =>
          obtain ⟨spelled, apart, behind⟩ := spaced
          have positive := spelling_pos spelled
          obtain ⟨fuel, rfl⟩ : ∃ more, fuel = more + 1 := ⟨fuel - 1, by simp [Piece.chars] at enough; omega⟩
          refine .succ (next_word ahead skips (readable spelled apart)) fun after ahead => ?_
          refine @ih behind _ _ [] ahead (fun _ member => absurd member List.not_mem_nil) _ ?_
          simp [Piece.chars] at enough
          omega
      | blank =>
          refine @ih spaced _ _ (gap ++ [' ']) (by simpa [Piece.chars] using ahead)
            (skips.append (skips_blank _)) _ ?_
          simp [Piece.chars] at enough
          omega
      -- Behind a word that ends a statement the line break is a semicolon, elsewhere it belongs to the gap.
      | newLine indent =>
          unfold wordsFrom
          cases pending with
          | false =>
              refine @ih spaced _ _ (gap ++ ('\n' :: List.replicate indent '\t'))
                (by simpa [Piece.chars] using ahead) (skips.append (skips_line.append (skips_indent _ _))) _ ?_
              simp [Piece.chars] at enough
              omega
          | true =>
              obtain ⟨fuel, rfl⟩ : ∃ more, fuel = more + 1 := ⟨fuel - 1, by simp [Piece.chars] at enough; omega⟩
              refine .succ (next_line (by simpa [Piece.chars] using ahead) skips) fun after ahead => ?_
              refine ih spaced ahead (skips_indent _ _) ?_
              simp [Piece.chars] at enough
              omega

theorem tokenize_render {pieces : List Piece} (spaced : Spaced pieces) :
    ∃ tokens, tokenize (Piece.render pieces) = .ok tokens ∧ tokens.map (·.word) = wordsFrom false pieces := by
  have ahead : Ahead (Lexer.ofString (Piece.render pieces)).reset false ([] ++ chars pieces) :=
    ⟨by simp [Lexer.ofString, Lexer.reset, Lexer.ofList, Piece.render, chars], rfl, rfl⟩
  have enough : (chars pieces).length + 2 ≤ 2 * (Lexer.ofString (Piece.render pieces)).reset.rest.length + 3 := by
    rw [ahead.rest, List.nil_append]
    omega
  obtain ⟨tokens, last, drained, words⟩ := drains_pieces pieces spaced ahead
    (fun _ member => absurd member List.not_mem_nil) enough
  refine ⟨tokens, ?_, words⟩
  unfold tokenize Lexer.tokenize Lexer.remaining
  rw [drained]

end MiniGo.Syntax
