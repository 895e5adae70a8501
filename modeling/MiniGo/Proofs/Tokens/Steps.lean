import MiniGo.Proofs.Syntax.Spelling
import MiniGo.Proofs.Tokens.Marks

/-!
# Steps of a lexer

Each step passes a gap, and a word behind it unless the gap ends the statement or the text. So a lexer that a text
leads to stands behind a part of this text (`Reached.place`), and every word was read where its token stands
(`read_drain`).
-/

namespace MiniGo.Lexer

variable {lexer after : Lexer} {token : Token}

/-- A word begins where a gap ends. -/
theorem opens_of_scanGap {pending : Bool} {mode : GapMode} {location place : Location} {text rest : List Char}
    (found : scanGap pending mode location text = .word place rest) : Syntax.Opens rest := by
  fun_induction scanGap pending mode location text with
  | case1 | case2 | case3 | case4 | case5 | case8 | case11 | case14 => cases found
  | case6 location rest ih | case7 location rest ih => exact ih found
  | case9 start spansLines location rest behind free ih => exact ih found
  | case10 start spansLines location c rest open_ ih => exact ih found
  | case12 location rest free ih => exact ih found
  | case13 location c rest flat ih => exact ih found
  | case15 location rest free _ _ ih => exact ih found
  | case16 location c rest _ _ flat blank ih => exact ih found
  | case17 location c text line block flat blank =>
      cases found
      obtain ⟨space, back, tab⟩ := not_or.mp blank |>.imp_right not_or.mp
      refine ⟨⟨c, rfl, flat, space, back, tab⟩, fun slash d next => ?_⟩
      obtain rfl := Option.some.inj slash
      cases text with
      | nil => cases next
      | cons other text =>
          obtain rfl := Option.some.inj next
          exact ⟨fun same => line text rfl (same ▸ rfl), fun same => block text rfl (same ▸ rfl)⟩

/-- What a step passes: a gap, and a word behind it if the token is written. -/
theorem step_cases (read : lexer.step = .ok (token, after)) :
    ((token.word = .endOfInput ∨ token.word = .semicolon true) ∧ ∃ passed, lexer.rest = passed ++ after.rest ∧
        after.location = lexer.location.after passed) ∨
      ∃ gap, lexer.rest = gap ++ (token.lexeme.toList ++ after.rest) ∧ token.location = lexer.location.after gap ∧
        after.location = lexer.location.after (gap ++ token.lexeme.toList) ∧
        Syntax.Opens (token.lexeme.toList ++ after.rest) ∧
        scanWord token.location (token.lexeme.toList ++ after.rest)
          = .ok (token.word, token.lexeme.toList, after.rest) := by
  have scanned := scans lexer.pending .blank lexer.location lexer.rest
  unfold Lexer.step at read
  cases found : scanGap lexer.pending .blank lexer.location lexer.rest with
  | unterminated start =>
      rw [found] at read
      cases read
  | lineBreak place behind rest =>
      rw [found] at read scanned
      cases read
      obtain ⟨_, before, between, same, _, rfl, _⟩ := scanned
      exact Or.inl ⟨Or.inr rfl, before ++ between, same, rfl⟩
  | finish place =>
      rw [found] at read scanned
      cases read
      obtain ⟨_, rfl, _⟩ := scanned
      exact Or.inl ⟨Or.inl rfl, lexer.rest, (List.append_nil _).symm, rfl⟩
  | word place text =>
      rw [found] at read scanned
      obtain ⟨some, gap, same, rfl, _⟩ := scanned
      dsimp only at read
      cases word : scanWord (lexer.location.after gap) text with
      | error error =>
          rw [word] at read
          cases read
      | ok outcome =>
          obtain ⟨kind, lexeme, rest⟩ := outcome
          rw [word] at read
          cases read
          obtain ⟨rfl, _⟩ := scanWord_append some word
          refine Or.inr ⟨gap, ?_, rfl, ?_, ?_, ?_⟩
          · rw [same, String.toList_ofList]
          · rw [String.toList_ofList, Location.after_append]
          · rw [String.toList_ofList]
            exact opens_of_scanGap found
          · rw [String.toList_ofList]
            exact word

theorem step_of_next (gave : lexer.next = (some (.ok token), after)) : lexer.step = .ok (token, after) := by
  unfold Lexer.next at gave
  split at gave
  · cases gave
  · split at gave
    · rename_i read
      cases gave
      exact read
    · cases gave

/-- The lexers that a text leads to, token by token. -/
inductive Reached (source : List Char) : Lexer → Prop where
  | start : Reached source (Lexer.ofList source)
  | next {lexer after : Lexer} {token : Token} : Reached source lexer → lexer.next = (some (.ok token), after) →
      Reached source after

theorem Reached.place {source : List Char} (reached : Reached source lexer) :
    ∃ passed, source = passed ++ lexer.rest ∧ lexer.location = placeBehind passed := by
  induction reached with
  | start => exact ⟨[], rfl, rfl⟩
  | next _ gave ih =>
      obtain ⟨passed, rfl, place⟩ := ih
      rcases step_cases (step_of_next gave) with ⟨_, more, same, behind⟩ | ⟨gap, same, _, behind, _, _⟩
      · exact ⟨passed ++ more, by rw [same, List.append_assoc], by rw [behind, place, placeBehind_append]⟩
      · refine ⟨passed ++ (gap ++ _), ?_, by rw [behind, place, placeBehind_append]⟩
        rw [same, List.append_assoc, List.append_assoc]

/-- A token stands in a text: it is what is read at its place, where a gap ends. -/
def StandsIn (source : List Char) (token : Token) : Prop :=
  ∃ before behind, source = before ++ (token.lexeme.toList ++ behind) ∧ token.location = placeBehind before ∧
    Syntax.Opens (token.lexeme.toList ++ behind) ∧
    scanWord token.location (token.lexeme.toList ++ behind) = .ok (token.word, token.lexeme.toList, behind)

theorem Reached.standsIn {source : List Char} (reached : Reached source lexer) (read : lexer.step = .ok (token, after))
    (written : isExplicit token = true) : StandsIn source token := by
  obtain ⟨passed, rfl, place⟩ := reached.place
  rcases step_cases read with ⟨mark | mark, _⟩ | ⟨gap, same, here, _, opens, word⟩
  · rw [isExplicit, mark] at written
    cases written
  · rw [isExplicit, mark] at written
    cases written
  · refine ⟨passed ++ gap, after.rest, ?_, ?_, opens, word⟩
    · rw [same, List.append_assoc]
    · rw [here, place, placeBehind_append]

/-- Every token that a lexer gives and that is written stands in the text. -/
theorem read_drain {source : List Char} (reached : Reached source lexer) (fuel : Nat) :
    ∀ token ∈ (lexer.drain fuel).1, isExplicit token = true → StandsIn source token := by
  induction fuel generalizing lexer with
  | zero => exact fun _ none => absurd none List.not_mem_nil
  | succ fuel ih =>
      intro token member written
      unfold Lexer.drain at member
      cases gave : lexer.next with
      | mk outcome after =>
          rw [gave] at member
          rcases outcome with _ | error | first
          · exact absurd member List.not_mem_nil
          · exact absurd member List.not_mem_nil
          · rcases List.mem_cons.mp member with rfl | later
            · exact reached.standsIn (step_of_next gave) written
            · exact ih (reached.next gave) token later written

theorem read_tokenize {source : String} {tokens : List Token} (read : MiniGo.tokenize source = .ok tokens) :
    ∀ token ∈ tokens, isExplicit token = true → StandsIn source.toList token := by
  have reached : Reached source.toList (ofString source).reset := .start
  have drained := read_drain reached (2 * (ofString source).reset.rest.length + 3)
  unfold MiniGo.tokenize Lexer.tokenize at read
  split at read
  · rename_i same
    obtain rfl := Except.ok.inj read
    unfold Lexer.remaining at same
    rwa [same] at drained
  · cases read

end MiniGo.Lexer
