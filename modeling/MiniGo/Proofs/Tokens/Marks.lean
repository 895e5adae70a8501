import Mathlib
import MiniGo.Proofs.Tokens.Cover

/-!
# Semicolons for line breaks

A place determines the text in front of it (`textBefore_placeBehind`), so the text between two tokens can be
spoken of. A semicolon that is not written stands directly behind a token that ends a statement, if the text up
to the next token has a line break or there is no next token, and nowhere else (`implicit_semicolons`).
-/

namespace MiniGo.Lexer

/-- The token is written in the text: it is neither the end of the input nor a semicolon for a line break. -/
def isExplicit (token : Token) : Bool :=
  match token.word with
  | .endOfInput | .semicolon true => false
  | _ => true

/-- The part of a text that leads to a place. -/
def textBefore (text : List Char) (place : Location) : List Char :=
  (text.inits.find? (placeBehind · == place)).getD []

/-- The part of a text behind one token and in front of another. -/
def textBetween (text : List Char) (first next : Token) : List Char :=
  (textBefore text next.location).drop ((textBefore text first.location).length + first.lexeme.toList.length)

/-! ## Places -/

theorem eq_nil_of_after_eq {place : Location} {text : List Char} (same : place.after text = place) : text = [] := by
  by_cases break_ : '\n' ∈ text
  · obtain ⟨front, behind, rfl⟩ := List.append_of_mem break_
    have further : ∀ (text : List Char) (place : Location), place.line ≤ (place.after text).line := by
      intro text
      induction text with
      | nil => exact fun place => Nat.le_refl _
      | cons c text ih =>
          intro place
          refine Nat.le_trans ?_ (ih (place.step c))
          unfold Location.step
          split <;> simp
    have next := further behind ((place.after front).step '\n')
    have first := further front place
    rw [Location.after_append, Location.after_cons] at same
    rw [same, Location.step, if_pos rfl] at next
    exact absurd next (by simp; omega)
  · rw [Location.after_of_no_line_feed place text break_] at same
    have column := congrArg Location.column same
    exact List.eq_nil_of_length_eq_zero (by simpa using column)

theorem placeBehind_injective {first second text : List Char} (one : first <+: text) (other : second <+: text)
    (same : placeBehind first = placeBehind second) : first = second := by
  rcases List.prefix_or_prefix_of_prefix one other with ⟨more, rfl⟩ | ⟨more, rfl⟩
  · rw [← placeBehind_append] at same
    rw [eq_nil_of_after_eq same.symm, List.append_nil]
  · rw [← placeBehind_append] at same
    rw [eq_nil_of_after_eq same, List.append_nil]

theorem textBefore_placeBehind (before behind : List Char) :
    textBefore (before ++ behind) (placeBehind before) = before := by
  unfold textBefore
  cases found : (before ++ behind).inits.find? (placeBehind · == placeBehind before) with
  | none =>
      have missing := List.find?_eq_none.mp found before ((List.mem_inits _ _).mpr (List.prefix_append _ _))
      exact absurd (beq_self_eq_true _) missing
  | some text =>
      have leads : placeBehind text = placeBehind before := by simpa using List.find?_some found
      have isPrefix := (List.mem_inits _ _).mp (List.mem_of_find?_eq_some found)
      exact placeBehind_injective isPrefix (List.prefix_append _ _) leads

/-! ## Semicolons of a text -/

variable {ends : Bool} {passed gap text : List Char} {marks tokens front rest : List Token} {token next mark : Token}

theorem isExplicit_of_word (notEnd : token.word ≠ .endOfInput) (notBreak : token.word ≠ .semicolon true) :
    isExplicit token = true := by
  unfold isExplicit
  split <;> first | rfl | contradiction

theorem isImplicit_of_isExplicit (written : isExplicit token = true) : token.isImplicit = false := by
  unfold isExplicit at written
  unfold Token.isImplicit
  split
  · rename_i implicit same
    rw [same] at written
    cases implicit with
    | true => cases written
    | false => rfl
  · rfl

theorem Breaks.marks_eq {due : Prop} (breaks : Breaks passed gap due marks) :
    (due ∧ ∃ mark, marks = [mark] ∧ mark.word = .semicolon true) ∨ (¬ due ∧ marks = []) := by
  obtain ⟨due, _, _, _, same⟩ | free := breaks
  · exact Or.inl ⟨due, _, same, rfl⟩
  · exact Or.inr free

theorem isImplicit_of_word (word : mark.word = .semicolon true) : mark.isImplicit = true := by
  unfold Token.isImplicit
  rw [word]

theorem isExplicit_eq_false (implicit : mark.isImplicit = true) : isExplicit mark = false := by
  cases written : isExplicit mark with
  | false => rfl
  | true =>
      rw [isImplicit_of_isExplicit written] at implicit
      cases implicit

theorem Breaks.silent {due : Prop} (breaks : Breaks passed gap due marks) : ∀ mark ∈ marks, isExplicit mark = false := by
  intro mark member
  rcases breaks.marks_eq with ⟨_, only, rfl, word⟩ | ⟨_, rfl⟩
  · obtain rfl := List.mem_singleton.mp member
    exact isExplicit_eq_false (isImplicit_of_word word)
  · cases member

/-- A list taken apart at two elements: one is in front of the other, or they are the same. -/
theorem split_cases {α : Type} {front front' behind behind' : List α} {first second : α}
    (same : front ++ first :: behind = front' ++ second :: behind') :
    (∃ between, front = front' ++ second :: between ∧ behind' = between ++ first :: behind) ∨
      (front' = front ∧ first = second ∧ behind = behind') ∨
      ∃ between, front' = front ++ first :: between ∧ behind = between ++ second :: behind' := by
  rcases List.append_eq_append_iff.mp same with ⟨between, middle, others⟩ | ⟨between, middle, others⟩
  · cases between with
    | nil =>
        obtain ⟨rfl, rfl⟩ := List.cons.inj others
        exact Or.inr (Or.inl ⟨by rw [middle, List.append_nil], rfl, rfl⟩)
    | cons next between =>
        obtain ⟨rfl, rfl⟩ := List.cons.inj others
        exact Or.inr (Or.inr ⟨between, middle, rfl⟩)
  · cases between with
    | nil =>
        obtain ⟨rfl, rfl⟩ := List.cons.inj others
        exact Or.inr (Or.inl ⟨by rw [middle, List.append_nil], rfl, rfl⟩)
    | cons next between =>
        obtain ⟨rfl, rfl⟩ := List.cons.inj others
        exact Or.inl ⟨between, middle, rfl⟩

/-- The tokens of a text begin with a semicolon if the word in front of it ends a statement and the next word is on
another line, or is none. -/
theorem Laid.head_isImplicit_iff {done : Bool} (laid : Laid ends passed text tokens done) (whole : done = true) :
    (∃ mark, tokens.head? = some mark ∧ mark.isImplicit = true) ↔ ends = true ∧
      ((∃ next, tokens.find? isExplicit = some next ∧
          '\n' ∈ (textBefore (passed ++ text) next.location).drop passed.length) ∨
        tokens.find? isExplicit = none) := by
  cases laid with
  | stop => cases whole
  | finish isGap breaks =>
      rcases breaks.marks_eq with ⟨due, mark, rfl, word⟩ | ⟨free, rfl⟩
      · have silent := isExplicit_eq_false (isImplicit_of_word word)
        have last : isExplicit ⟨.endOfInput, "", placeBehind (passed ++ text)⟩ = false := rfl
        simp [isImplicit_of_word word, due, silent, last]
      · simp [free, Token.isImplicit]
  | @word _ _ _ gap rest marks tokens token isGap breaks notEnd notBreak _ place _ =>
      have written := isExplicit_of_word notEnd notBreak
      have before : (textBefore (passed ++ (gap ++ (token.lexeme.toList ++ rest))) token.location).drop passed.length
          = gap := by
        rw [place, ← List.append_assoc, textBefore_placeBehind, List.drop_left]
      rcases breaks.marks_eq with ⟨due, mark, rfl, word⟩ | ⟨free, rfl⟩
      · have silent := isExplicit_eq_false (isImplicit_of_word word)
        simp [isImplicit_of_word word, due.1, silent, written, before, due.2]
      · have plain := isImplicit_of_isExplicit written
        simpa [plain, written, before] using free

/-- A semicolon stands directly behind a word of a text if the word ends a statement and the next word is on
another line, or is none. -/
theorem Laid.next_isImplicit_iff {done : Bool} (laid : Laid ends passed text tokens done) (whole : done = true)
    (split : tokens = front ++ token :: rest) (written : isExplicit token = true) :
    (∃ mark, rest.head? = some mark ∧ mark.isImplicit = true) ↔ token.word.endsStatement = true ∧
      ((∃ next, rest.find? isExplicit = some next ∧ '\n' ∈ textBetween (passed ++ text) token next) ∨
        rest.find? isExplicit = none) := by
  induction laid generalizing front with
  | stop => cases whole
  | finish isGap breaks =>
      rcases split_cases split with ⟨_, among, _⟩ | ⟨_, rfl, _⟩ | ⟨more, _, none⟩
      · have silent := breaks.silent token (among ▸ List.mem_append_right front List.mem_cons_self)
        rw [written] at silent
        cases silent
      · cases written
      · simp at none
  | @word _ _ passed gap behind marks others first isGap breaks notEnd notBreak _ place later ih =>
      have same : passed ++ (gap ++ (first.lexeme.toList ++ behind))
          = passed ++ gap ++ first.lexeme.toList ++ behind := by simp only [List.append_assoc]
      -- A written token is no mark of this gap, so it is the word behind the gap or a later one.
      rcases split_cases split with ⟨more, among, _⟩ | ⟨rfl, rfl, rfl⟩ | ⟨more, _, inner⟩
      · have silent := breaks.silent token (among ▸ List.mem_append_right front List.mem_cons_self)
        rw [written] at silent
        cases silent
      · have between : (textBefore (passed ++ gap ++ first.lexeme.toList ++ behind) first.location).length
            + first.lexeme.toList.length = (passed ++ gap ++ first.lexeme.toList).length := by
          rw [place, List.append_assoc _ first.lexeme.toList, textBefore_placeBehind]
          exact List.length_append.symm
        rw [later.head_isImplicit_iff whole, same]
        unfold textBetween
        rw [between]
      · rw [same]
        exact ih whole inner

/-- A semicolon that is not written stands behind a word, unless it is the first token. -/
theorem Laid.before_isImplicit {done : Bool} (laid : Laid ends passed text tokens done)
    (split : tokens = front ++ mark :: rest) (implicit : mark.isImplicit = true) :
    front = [] ∨ ∃ before, front.getLast? = some before ∧ isExplicit before = true := by
  have alone {due : Prop} {passed gap : List Char} {marks front others : List Token}
      (breaks : Breaks passed gap due marks) (among : marks = front ++ mark :: others) : front = [] := by
    rcases breaks.marks_eq with ⟨_, only, rfl, _⟩ | ⟨_, rfl⟩
    · exact (List.append_eq_singleton_iff.mp among.symm).elim And.left fun both => nomatch both.2
    · simp at among
  induction laid generalizing front with
  | stop _ breaks => exact Or.inl (alone breaks split)
  | finish isGap breaks =>
      rcases split_cases split with ⟨_, among, _⟩ | ⟨_, rfl, _⟩ | ⟨more, _, none⟩
      · exact Or.inl (alone breaks among)
      · cases implicit
      · simp at none
  | @word _ _ passed gap behind marks others first isGap breaks notEnd notBreak _ place later ih =>
      have written := isExplicit_of_word notEnd notBreak
      rcases split_cases split with ⟨_, among, _⟩ | ⟨_, rfl, _⟩ | ⟨more, rfl, inner⟩
      · exact Or.inl (alone breaks among)
      · rw [isImplicit_of_isExplicit written] at implicit
        cases implicit
      · refine Or.inr ?_
        rcases ih inner with rfl | ⟨before, last, explicit⟩
        · exact ⟨first, by simp, written⟩
        · exact ⟨before, by simp [List.getLast?_append, List.getLast?_cons, last], explicit⟩

theorem laid_tokenize {source : String} (read : MiniGo.tokenize source = .ok tokens) :
    Laid false [] source.toList tokens true := by
  obtain ⟨found, error?, last, same, _, laid, _⟩ := remaining_laid source
  have reset : (ofString source).reset = ofString source := rfl
  unfold MiniGo.tokenize Lexer.tokenize at read
  rw [reset, same] at read
  cases error? with
  | none =>
      obtain rfl := Except.ok.inj read
      exact laid
  | some error => cases read

/-- A semicolon that is not written stands directly behind a written token exactly when that token ends a statement
and the text up to the next one has a line break, or there is no next one. Such a semicolon always has a written
token in front of it, so there are no two in a row. -/
theorem implicit_semicolons {source : String} {tokens : List Token} (read : MiniGo.tokenize source = .ok tokens) :
    ∀ front token rest, tokens = front ++ token :: rest →
      (isExplicit token = true →
        ((∃ mark, rest.head? = some mark ∧ mark.isImplicit = true) ↔ token.word.endsStatement = true ∧
          ((∃ next, rest.find? isExplicit = some next ∧ '\n' ∈ textBetween source.toList token next) ∨
            rest.find? isExplicit = none))) ∧
      (token.isImplicit = true → ∃ before, front.getLast? = some before ∧ isExplicit before = true) := by
  intro front token rest split
  have laid := laid_tokenize read
  refine ⟨laid.next_isImplicit_iff rfl split, fun implicit => ?_⟩
  rcases laid.before_isImplicit split implicit with rfl | before
  · obtain ⟨never, _⟩ := (laid.head_isImplicit_iff rfl).mp ⟨token, by rw [split]; rfl, implicit⟩
    cases never
  · exact before

/-- The tokens of two names with a comment between them that has a line break. -/
def namesApart : List Token :=
  [⟨.identifier "x", "x", ⟨1, 1⟩⟩, ⟨.semicolon true, "\n", ⟨2, 3⟩⟩, ⟨.identifier "y", "y", ⟨2, 3⟩⟩,
    ⟨.semicolon true, "\n", ⟨2, 4⟩⟩, ⟨.endOfInput, "", ⟨2, 4⟩⟩]

/-- The comment between the names is the text between them, and its line break ends the first statement. -/
theorem implicit_semicolons_namesApart :
    MiniGo.tokenize "x/*\n*/y" = .ok namesApart ∧
      ((∃ mark, (namesApart.drop 1).head? = some mark ∧ mark.isImplicit = true) ↔
        (Word.identifier "x").endsStatement = true ∧
          ((∃ next, (namesApart.drop 1).find? isExplicit = some next ∧
              '\n' ∈ textBetween "x/*\n*/y".toList ⟨.identifier "x", "x", ⟨1, 1⟩⟩ next) ∨
            (namesApart.drop 1).find? isExplicit = none)) := by
  have read : MiniGo.tokenize "x/*\n*/y" = .ok namesApart := by
    unfold namesApart
    cbv
  exact ⟨read, ((implicit_semicolons read) [] _ _ rfl).1 rfl⟩

end MiniGo.Lexer
