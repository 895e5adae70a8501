import Mathlib.Data.List.TakeWhile
import MiniGo.Proofs.Tokens.Gaps

/-!
# Tokens cover a text

The words that are read from a text are cut out of it one behind the other, with nothing but gaps between
them, and every token stands at the place that the text before it leads to (`Laid`). So nothing of the text
is lost, and no place is off.
-/

namespace MiniGo.Lexer

/-! ## Words -/

theorem scanString_append {value lexeme text : List Char} {found : List Char × List Char × List Char}
    (read : scanString value lexeme text = some found) :
    lexeme.reverse ++ text = found.2.1 ++ found.2.2 ∧ found.2.1 ≠ [] := by
  fun_induction scanString value lexeme text with
  | case1 | case2 | case4 => cases read
  | case3 value lexeme c rest ih => simpa using ih read
  | case5 =>
      obtain rfl := Option.some.inj read
      simp
  | case6 value lexeme c rest _ _ _ _ ih => simpa using ih read

/-- The text of an exponent, if there is one. -/
def exponentChars : Option (Char × Option Char × List Char) → List Char
  | some (mark, sign, digits) => mark :: (sign.toList ++ digits)
  | none => []

theorem scanExponent_append (text : List Char) :
    exponentChars (scanExponent text).1 ++ (scanExponent text).2 = text := by
  have digits : ∀ rest : List Char, rest.takeWhile CharClass.isDigit ++ rest.dropWhile CharClass.isDigit = rest :=
    fun _ => List.takeWhile_append_dropWhile
  unfold scanExponent
  simp only [List.span_eq_takeWhile_dropWhile]
  grind [exponentChars]

theorem scanNumber_append (text : List Char) : (scanNumber text).1.lexeme ++ (scanNumber text).2 = text := by
  have digits : ∀ rest : List Char, rest.takeWhile CharClass.isDigit ++ rest.dropWhile CharClass.isDigit = rest :=
    fun _ => List.takeWhile_append_dropWhile
  unfold scanNumber NumberText.lexeme
  simp only [List.span_eq_takeWhile_dropWhile]
  grind [exponentChars, scanExponent_append]

theorem scanFixed_append {text : List Char} {found : Word × List Char × List Char}
    (read : scanFixed text = some found) : text = found.2.1 ++ found.2.2 ∧ found.2.1 ≠ [] ∧
      found.1 ≠ .endOfInput ∧ found.1 ≠ .semicolon true := by
  obtain ⟨entry, member, matched⟩ := List.exists_of_findSome?_eq_some read
  dsimp only at matched
  split at matched
  · rename_i isPrefix
    obtain rfl := Option.some.inj matched
    obtain ⟨rest, rfl⟩ := List.isPrefixOf_iff_prefix.mp isPrefix
    have all : ∀ entry ∈ Word.fixed, entry.1.toList ≠ [] ∧ entry.2 ≠ .endOfInput ∧ entry.2 ≠ .semicolon true := by
      simp [Word.fixed]
    exact ⟨by simp, all entry member⟩
  · cases matched

theorem lexeme_number_ne_nil {first : Char} {behind : List Char}
    (starts : (CharClass.isDigit first || (first == '.' && behind.head?.any CharClass.isDigit)) = true) :
    (scanNumber (first :: behind)).1.lexeme ≠ [] := by
  unfold scanNumber NumberText.lexeme
  simp only [List.span_eq_takeWhile_dropWhile]
  cases digit : CharClass.isDigit first with
  | true => simp [digit]
  | false =>
      obtain rfl : first = '.' := by
        rw [digit, Bool.false_or, Bool.and_eq_true] at starts
        exact eq_of_beq starts.1
      simp [digit]

theorem word_number {number : NumberText} {word : Word} (read : number.word? = some word) :
    word ≠ .endOfInput ∧ word ≠ .semicolon true := by
  unfold NumberText.word? at read
  grind

theorem nameWord_ne (name : String) : nameWord name ≠ .endOfInput ∧ nameWord name ≠ .semicolon true := by
  unfold nameWord
  split <;> exact ⟨nofun, nofun⟩

/-- A word is cut off the front of a text, and is neither the end nor a line break. -/
theorem scanWord_append {location : Location} {text lexeme rest : List Char} {word : Word} (some : text ≠ [])
    (read : scanWord location text = .ok (word, lexeme, rest)) :
    text = lexeme ++ rest ∧ lexeme ≠ [] ∧ word ≠ .endOfInput ∧ word ≠ .semicolon true := by
  unfold scanWord at read
  -- By what the first character opens: a string, a name, a number, or a word of the tables.
  split at read
  · exact absurd rfl some
  rename_i first behind
  split at read
  · rename_i quote
    split at read
    · rename_i scanned
      cases read
      obtain ⟨whole, nonempty⟩ := scanString_append scanned
      exact ⟨by rw [quote]; exact whole, nonempty, nofun, nofun⟩
    · cases read
  split at read
  · rename_i starts
    rw [List.span_eq_takeWhile_dropWhile] at read
    cases read
    refine ⟨List.takeWhile_append_dropWhile.symm, ?_, nameWord_ne _⟩
    simp [CharClass.continuesName_of_startsName first starts]
  split at read
  · rename_i starts
    dsimp only at read
    split at read
    · rename_i number
      cases read
      exact ⟨(scanNumber_append _).symm, lexeme_number_ne_nil starts, word_number number⟩
    · cases read
  · split at read
    · rename_i scanned
      cases read
      exact scanFixed_append scanned
    · cases read

/-! ## Places -/

/-- The place behind a text: its line is one more than the line breaks of the text, its column one more than
the characters behind the last of them. -/
def placeBehind (text : List Char) : Location :=
  ⟨1 + text.count '\n', 1 + (text.reverse.takeWhile (· != '\n')).length⟩

theorem after_start (text : List Char) : Location.start.after text = placeBehind text := by
  induction text using List.reverseRecOn with
  | nil => rfl
  | append_singleton text c ih =>
      rw [Location.after_append, ih, Location.after_cons, Location.after_nil]
      by_cases break_ : c = '\n'
      · simp [Location.step, placeBehind, break_, Nat.add_assoc]
      · simp [Location.step, placeBehind, break_]
        omega

theorem placeBehind_append (passed text : List Char) :
    (placeBehind passed).after text = placeBehind (passed ++ text) := by
  rw [← after_start, ← after_start, Location.after_append]

/-- The implicit semicolons of a gap behind a text: one, somewhere in the gap, if it is due, and none otherwise. -/
def Breaks (passed gap : List Char) (due : Prop) (marks : List Token) : Prop :=
  (due ∧ ∃ before behind, gap = before ++ behind ∧ marks = [⟨.semicolon true, "\n", placeBehind (passed ++ before)⟩]) ∨
    (¬ due ∧ marks = [])

/-- Tokens laid over the rest of a text, of which something is passed; `ends` tells whether the word passed last
ends a statement. Before each word is a gap, with a semicolon in it if the gap has a line break and the word before
it ends a statement. The tokens may stop behind any word or gap, or go on to the end of the text, where a
semicolon and one token for the end stand. -/
inductive Laid : Bool → List Char → List Char → List Token → Bool → Prop where
  | stop {ends : Bool} {passed gap rest : List Char} {marks : List Token} : IsGap gap →
      Breaks passed gap (ends = true ∧ '\n' ∈ gap) marks → Laid ends passed (gap ++ rest) marks false
  | word {ends done : Bool} {passed gap rest : List Char} {marks tokens : List Token} {token : Token} : IsGap gap →
      Breaks passed gap (ends = true ∧ '\n' ∈ gap) marks →
      token.word ≠ .endOfInput → token.word ≠ .semicolon true → token.lexeme ≠ "" →
      token.location = placeBehind (passed ++ gap) →
      Laid token.word.endsStatement (passed ++ gap ++ token.lexeme.toList) rest tokens done →
      Laid ends passed (gap ++ (token.lexeme.toList ++ rest)) (marks ++ token :: tokens) done
  | finish {ends : Bool} {passed gap : List Char} {marks : List Token} : IsLastGap gap →
      Breaks passed gap (ends = true) marks →
      Laid ends passed gap (marks ++ [⟨.endOfInput, "", placeBehind (passed ++ gap)⟩]) true

/-! ## Steps of the lexer -/

theorem Breaks.none {passed gap : List Char} {due : Prop} (free : ¬ due) : Breaks passed gap due [] :=
  Or.inr ⟨free, rfl⟩

/-- Where a lexer stands: behind a word, or in a gap behind a line break that ended the statement. -/
structure Stands (lexer : Lexer) (ends : Bool) (passed gap : List Char) (marks : List Token) : Prop where
  running : lexer.finished = false
  place : lexer.location = placeBehind (passed ++ gap)
  state : (lexer.pending = ends ∧ gap = [] ∧ marks = []) ∨
    (lexer.pending = false ∧ ends = true ∧ Breaks passed gap True marks ∧
      ((IsGap gap ∧ '\n' ∈ gap) ∨ (IsLastGap gap ∧ lexer.rest = [])))

variable {lexer : Lexer} {ends : Bool} {passed gap more rest : List Char} {marks : List Token}

theorem Stands.gap_word (stands : Stands lexer ends passed gap marks) (ahead : lexer.rest ≠ []) (isGap : IsGap more)
    (flat : lexer.pending = true → '\n' ∉ more) :
    IsGap (gap ++ more) ∧ Breaks passed (gap ++ more) (ends = true ∧ '\n' ∈ gap ++ more) marks := by
  rcases stands.state with ⟨same, rfl, rfl⟩ | ⟨_, statement, breaks, ⟨isFirst, broken⟩ | ⟨_, none⟩⟩
  · exact ⟨isGap, Breaks.none fun due => flat (same.trans due.1) due.2⟩
  · obtain ⟨_, before, behind, rfl, same⟩ | ⟨free, _⟩ := breaks
    · exact ⟨isFirst.append isGap, Or.inl ⟨⟨statement, List.mem_append_left _ broken⟩, before, behind ++ more,
        List.append_assoc .., same⟩⟩
    · exact absurd trivial free
  · exact absurd none ahead

theorem Stands.gap_finish (stands : Stands lexer ends passed gap marks) (free : lexer.pending = false)
    (isLast : IsLastGap lexer.rest) :
    IsLastGap (gap ++ lexer.rest) ∧ Breaks passed (gap ++ lexer.rest) (ends = true) marks := by
  rcases stands.state with ⟨same, rfl, rfl⟩ | ⟨_, statement, breaks, whole⟩
  · exact ⟨isLast, Breaks.none (by rw [← same, free]; exact Bool.false_ne_true)⟩
  · obtain ⟨_, before, behind, same, marked⟩ | ⟨free, _⟩ := breaks
    · refine ⟨?_, Or.inl ⟨statement, before, behind ++ lexer.rest, by rw [same, List.append_assoc], marked⟩⟩
      rcases whole with ⟨isFirst, _⟩ | ⟨isWhole, none⟩
      · exact isFirst.append_last isLast
      · rwa [none, List.append_nil]
    · exact absurd trivial free

theorem Stands.stop (stands : Stands lexer ends passed gap marks) (ahead : lexer.rest ≠ []) :
    Laid ends passed (gap ++ lexer.rest) marks false := by
  obtain ⟨isGap, breaks⟩ := stands.gap_word ahead .nil fun _ => List.not_mem_nil
  rw [List.append_nil] at isGap breaks
  exact .stop isGap breaks

theorem drain_finished {fuel : Nat} (finished : lexer.finished = true) : lexer.drain (fuel + 1) = ([], none, lexer) := by
  unfold Lexer.drain Lexer.next
  rw [if_pos finished]

/-- The fuel that a lexer needs: a word takes a character and may leave a semicolon to come, a semicolon takes that
away, and the end is found once more. -/
def need (lexer : Lexer) : Nat := 2 * lexer.rest.length + lexer.pending.toNat + 1

/-- Behind the semicolon for a line break a lexer stands in the gap with the line break. -/
theorem Stands.lineBreak {place behind : Location} (stands : Stands lexer ends passed gap marks)
    (found : scanGap lexer.pending .blank lexer.location lexer.rest = .lineBreak place behind rest) :
    ∃ more, lexer.rest = more ++ rest ∧ gap = [] ∧ marks = [] ∧
      need { lexer with rest, location := behind, pending := false } < need lexer ∧
      Stands { lexer with rest, location := behind, pending := false } ends passed more [⟨.semicolon true, "\n", place⟩] := by
  have scanned := scans lexer.pending .blank lexer.location lexer.rest
  rw [found] at scanned
  obtain ⟨due, before, between, same, rfl, rfl, complete⟩ := scanned
  obtain ⟨start, rfl, rfl⟩ := stands.state.resolve_right fun inside => absurd due (by rw [inside.1]; exact Bool.false_ne_true)
  have here : lexer.location = placeBehind passed := by rw [stands.place, List.append_nil]
  refine ⟨before ++ between, same, rfl, rfl, ?_, stands.running, ?_, Or.inr ⟨rfl, start ▸ due, ?_, ?_⟩⟩
  · have length := congrArg List.length same
    rw [List.length_append] at length
    simp only [need, due, Bool.toNat_true, Bool.toNat_false]
    omega
  · rw [← placeBehind_append, ← here]
  · refine Or.inl ⟨trivial, before, between, rfl, ?_⟩
    rw [← placeBehind_append, ← here]
  · exact complete.imp id fun both => ⟨both.1.resolve_right fun none => GapMode.noConfusion none.1, both.2⟩

/-- Behind a word a lexer stands at the start of a gap, and what is laid from there on is laid behind the word. -/
theorem Stands.word {place : Location} {text lexeme : List Char} {word : Word} (stands : Stands lexer ends passed gap marks)
    (found : scanGap lexer.pending .blank lexer.location lexer.rest = .word place text)
    (read : scanWord place text = .ok (word, lexeme, rest)) :
    ∃ behind,
      need { lexer with rest, location := place.after lexeme, pending := word.endsStatement } < need lexer ∧
      Stands { lexer with rest, location := place.after lexeme, pending := word.endsStatement } word.endsStatement behind
        [] [] ∧
      ∀ tokens done, Laid word.endsStatement behind rest tokens done →
        Laid ends passed (gap ++ lexer.rest) (marks ++ ⟨word, String.ofList lexeme, place⟩ :: tokens) done := by
  have scanned := scans lexer.pending .blank lexer.location lexer.rest
  rw [found] at scanned
  obtain ⟨some, more, same, rfl, isGap, flat⟩ := scanned
  obtain ⟨rfl, nonempty, notEnd, notBreak⟩ := scanWord_append some read
  have ahead : lexer.rest ≠ [] := by
    rw [same]
    exact List.append_ne_nil_of_right_ne_nil _ some
  -- The gap so far and the one that was scanned make up one gap in front of the word.
  obtain ⟨isGap, breaks⟩ := stands.gap_word ahead isGap flat
  have here : lexer.location.after more = placeBehind (passed ++ (gap ++ more)) := by
    rw [stands.place, placeBehind_append, List.append_assoc]
  refine ⟨passed ++ (gap ++ more) ++ lexeme, ?_, ⟨stands.running, ?_, Or.inl ⟨rfl, rfl, rfl⟩⟩, fun tokens done laid => ?_⟩
  · have length := congrArg List.length same
    rw [List.length_append, List.length_append] at length
    have some := List.length_pos_iff.mpr nonempty
    have one := Bool.toNat_le word.endsStatement
    simp only [need]
    omega
  · rw [List.append_nil, ← placeBehind_append, ← here]
  · let token : Token := ⟨word, String.ofList lexeme, lexer.location.after more⟩
    have spelled : token.lexeme.toList = lexeme := String.toList_ofList
    have whole : Laid ends passed (gap ++ more ++ (token.lexeme.toList ++ rest)) (marks ++ token :: tokens) done := by
      refine .word isGap breaks notEnd notBreak (fun empty => nonempty (by rw [← spelled, empty]; rfl)) here ?_
      rwa [spelled]
    rw [spelled] at whole
    rwa [same, ← List.append_assoc gap]

/-- The tokens of a lexer are laid over the text ahead of it. -/
theorem laid_drain (fuel : Nat) (stands : Stands lexer ends passed gap marks) (enough : need lexer < fuel) :
    Laid ends passed (gap ++ lexer.rest) (marks ++ (lexer.drain fuel).1) (lexer.drain fuel).2.1.isNone ∧
      (lexer.drain fuel).2.2.finished = true := by
  induction fuel generalizing lexer ends passed gap marks with
  | zero => exact absurd enough (Nat.not_lt_zero _)
  | succ fuel ih =>
      unfold Lexer.drain Lexer.next Lexer.step
      rw [if_neg (by rw [stands.running]; exact Bool.false_ne_true)]
      cases found : scanGap lexer.pending .blank lexer.location lexer.rest with
      | unterminated start =>
          have ahead : lexer.rest ≠ [] := by
            intro none
            rw [none, scanGap] at found
            split at found <;> cases found
          exact ⟨by simpa using stands.stop ahead, rfl⟩
      | lineBreak place behind rest =>
          obtain ⟨more, same, rfl, rfl, fewer, later⟩ := stands.lineBreak found
          obtain ⟨laid, finished⟩ := ih later (by omega)
          refine ⟨?_, finished⟩
          rw [same]
          exact laid
      -- The lexer still has to give the end of the input, and has one step left for it.
      | finish place =>
          have scanned := scans lexer.pending .blank lexer.location lexer.rest
          rw [found] at scanned
          obtain ⟨free, rfl, complete⟩ := scanned
          obtain ⟨isLast, breaks⟩ := stands.gap_finish free (complete.resolve_right fun none => GapMode.noConfusion none.1)
          obtain ⟨fuel, rfl⟩ := Nat.exists_eq_add_of_le' (show 1 ≤ fuel by unfold need at enough; omega)
          dsimp only
          rw [drain_finished rfl, stands.place, placeBehind_append, List.append_assoc]
          exact ⟨.finish isLast breaks, rfl⟩
      | word place text =>
          dsimp only
          cases read : scanWord place text with
          | error error =>
              have ahead : lexer.rest ≠ [] := by
                intro none
                rw [none, scanGap] at found
                split at found <;> cases found
              exact ⟨by simpa using stands.stop ahead, rfl⟩
          | ok word =>
              obtain ⟨word, lexeme, rest⟩ := word
              obtain ⟨behind, fewer, later, before⟩ := stands.word found read
              obtain ⟨laid, finished⟩ := ih later (by omega)
              exact ⟨before _ _ laid, finished⟩

/-! ## Whole texts -/

theorem Breaks.not_end {due : Prop} (breaks : Breaks passed gap due marks) : ∀ mark ∈ marks, mark.word ≠ .endOfInput := by
  obtain ⟨_, _, _, _, rfl⟩ | ⟨_, rfl⟩ := breaks <;> simp

/-- One token for the end stands behind all others, if the tokens go on to the end of the text, and else there is
none. -/
theorem Laid.ended {text : List Char} {tokens : List Token} {done : Bool}
    (laid : Laid ends passed text tokens done) :
    ∃ front, (∀ token ∈ front, token.word ≠ .endOfInput) ∧
      tokens = front ++ if done then [⟨.endOfInput, "", placeBehind (passed ++ text)⟩] else [] := by
  induction laid with
  | stop _ breaks => exact ⟨_, breaks.not_end, (List.append_nil _).symm⟩
  | finish _ breaks => exact ⟨_, breaks.not_end, rfl⟩
  | @word _ _ _ _ _ marks _ token _ breaks notEnd _ _ _ _ ih =>
      obtain ⟨front, free, rfl⟩ := ih
      refine ⟨marks ++ token :: front, ?_, by simp [List.append_assoc]⟩
      rintro other member
      rcases List.mem_append.mp member with mark | found
      · exact breaks.not_end other mark
      · rcases List.mem_cons.mp found with rfl | later
        · exact notEnd
        · exact free other later

/-- The tokens of a text are laid over it from its start. When none fails they go on to the end of the text, where
the only token for the end stands, and in both cases no token follows. -/
theorem remaining_laid (source : String) :
    ∃ tokens error? last, (ofString source).remaining = (tokens, error?, last) ∧ last.next = (none, last) ∧
      Laid false [] source.toList tokens error?.isNone ∧
      ∃ front, (∀ token ∈ front, token.word ≠ .endOfInput) ∧
        tokens = front ++ if error?.isNone then [⟨.endOfInput, "", placeBehind source.toList⟩] else [] := by
  have stands : Stands (ofString source) false [] [] [] := ⟨rfl, rfl, Or.inl ⟨rfl, rfl, rfl⟩⟩
  have enough : need (ofString source) < 2 * (ofString source).rest.length + 3 := by
    simp [need, ofString, ofList]
  obtain ⟨laid, finished⟩ := laid_drain _ stands enough
  exact ⟨_, _, _, rfl, if_pos finished, laid, laid.ended⟩

end MiniGo.Lexer
