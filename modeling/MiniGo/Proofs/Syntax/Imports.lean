import MiniGo.Proofs.Syntax.Trees
import MiniGo.Proofs.Tokens.Cover

/-!
# Imports take text

Every import of a file is read from a text literal of its own, and a text literal takes up some of the
source. So a file has no more imports than its source has bytes.
-/

namespace MiniGo.Syntax

def texts (tokens : List Token) : Nat := tokens.countP fun token => token.word.kind == .stringLiteral

/-! ## The lexer -/

def behindGap : Lexer.Gap → List Char
  | .word _ rest | .lineBreak _ _ rest => rest
  | .finish _ | .unterminated _ => []

theorem length_scanGap (pending : Bool) (mode : Lexer.GapMode) (location : Location) (text : List Char) :
    (behindGap (Lexer.scanGap pending mode location text)).length ≤ text.length := by
  have scanned := Lexer.scans pending mode location text
  cases found : Lexer.scanGap pending mode location text with
  | word place rest =>
      rw [found] at scanned
      obtain ⟨_, gap, rfl, _⟩ := scanned
      exact (List.suffix_append gap rest).length_le
  | lineBreak start place rest =>
      rw [found] at scanned
      obtain ⟨_, before, between, rfl, _⟩ := scanned
      exact (List.suffix_append (before ++ between) rest).length_le
  | finish | unterminated => exact Nat.zero_le _

/-- A word uses up no more than the text that is there, and a text literal some of it. -/
theorem length_scanWord {location : Location} {text : List Char} {found : Word × List Char × List Char}
    (read : Lexer.scanWord location text = .ok found) :
    found.2.2.length + (if found.1.kind = .stringLiteral then 1 else 0) ≤ text.length := by
  obtain ⟨word, lexeme, rest⟩ := found
  by_cases none : text = []
  · subst none
    cases read
    exact Nat.le_refl _
  · obtain ⟨rfl, nonempty, _⟩ := Lexer.scanWord_append none read
    have some := List.length_pos_iff.mpr nonempty
    rw [List.length_append]
    dsimp only
    split <;> omega

theorem length_step {lexer after : Lexer} {token : Token} (read : lexer.step = .ok (token, after)) :
    after.rest.length + texts [token] ≤ lexer.rest.length := by
  have shorter := length_scanGap lexer.pending .blank lexer.location lexer.rest
  unfold Lexer.step at read
  split at read
  · cases read
  · rename_i gap
    rw [gap] at shorter
    cases read
    exact shorter
  · cases read
    exact Nat.zero_le _
  -- A word takes what the gap has left, and its own characters as well.
  · rename_i location text gap
    rw [gap] at shorter
    cases scanned : Lexer.scanWord location text with
    | error error =>
        rw [scanned] at read
        cases read
    | ok found =>
        rw [scanned] at read
        cases read
        have word := length_scanWord scanned
        simp only [texts, List.countP_singleton, beq_iff_eq]
        exact Nat.le_trans word shorter

theorem texts_cons (token : Token) (tokens : List Token) :
    texts (token :: tokens) = texts tokens + texts [token] := by
  simp [texts, List.countP_cons]

theorem texts_drain (fuel : Nat) (lexer : Lexer) : texts (lexer.drain fuel).1 ≤ lexer.rest.length := by
  induction fuel generalizing lexer with
  | zero => exact Nat.zero_le _
  | succ fuel ih =>
      unfold Lexer.drain Lexer.next
      by_cases finished : lexer.finished = true
      · rw [if_pos finished]
        exact Nat.zero_le _
      · rw [if_neg finished]
        cases read : lexer.step with
        | error error => exact Nat.zero_le _
        | ok both =>
            have first := length_step read
            have others := ih both.2
            dsimp only
            rw [texts_cons]
            omega

theorem length_toList_le (source : String) : source.toList.length ≤ source.utf8ByteSize := by
  rw [← String.ofList_toList (s := source), String.utf8ByteSize_ofList, String.toList_ofList]
  induction source.toList with
  | nil => exact Nat.le_refl _
  | cons c rest ih =>
      have some := c.utf8Size_pos
      simp only [List.length_cons, String.utf8Len]
      omega

theorem texts_tokenize {source : String} {tokens : List Token} (read : tokenize source = .ok tokens) :
    texts tokens ≤ source.utf8ByteSize := by
  have all := texts_drain (2 * (Lexer.ofString source).reset.rest.length + 3) (Lexer.ofString source).reset
  unfold tokenize Lexer.tokenize Lexer.remaining at read
  split at read
  · rename_i same
    cases read
    rw [same] at all
    exact Nat.le_trans all (length_toList_le source)
  · cases read

/-! ## Readers -/

/-- A reader uses up as many text literals as `cost` says of what it gives. -/
def Takes (reader : Reader α) (cost : α → Nat) : Prop :=
  ∀ tokens value rest, reader tokens = .ok (value, rest) → cost value + texts rest ≤ texts tokens

namespace Takes

variable {cost : α → Nat}

theorem pure {value : α} (free : cost value = 0) : Takes (Pure.pure value) cost := by
  intro tokens found rest ran
  cases ran
  omega

theorem bind {before : α → Nat} {last : β → Nat} {reader : Reader α} {next : α → Reader β}
    (first : Takes reader before) (rest : ∀ value, Takes (next value) (fun result => last result - before value)) :
    Takes (reader >>= next) last := by
  intro tokens value left ran
  obtain ⟨found, behind, read, ran⟩ := bind_ok ran
  have here := first tokens found behind read
  have there := rest found behind value left ran
  dsimp only at there
  omega

theorem seq {last : β → Nat} {reader : Reader α} {next : α → Reader β}
    (first : Takes reader fun _ => 0) (rest : ∀ value, Takes (next value) last) :
    Takes (reader >>= next) last := first.bind rest

theorem refuse {expected : Expected} : Takes (Reader.refuse expected) cost := by
  intro _ _ _ ran
  cases ran

theorem exhausted : Takes Reader.exhausted cost := by
  intro _ _ _ ran
  cases ran

theorem look {found : List Token → α} :
    Takes (fun tokens => .ok (found tokens, tokens) : Reader α) fun _ => 0 := by
  intro tokens value rest ran
  cases ran
  exact Nat.le_of_eq (Nat.zero_add _)

theorem texts_tail (tokens : List Token) :
    texts (Reader.tail tokens) + texts [Reader.head tokens] = texts tokens := by
  cases tokens with
  | nil => rfl
  | cons token tokens =>
      simp only [Reader.tail, Reader.head, List.headD_cons]
      split
      · rename_i last
        simp [texts, last, Word.kind]
      · exact (texts_cons token tokens).symm

theorem advance : Takes Reader.advance fun token => texts [token] := by
  intro tokens token rest ran
  cases ran
  rw [Nat.add_comm]
  exact Nat.le_of_eq (texts_tail tokens)

theorem skip : Takes Reader.advance fun _ => 0 := by
  intro tokens token rest ran
  have taken := advance tokens token rest ran
  dsimp only at taken ⊢
  omega

theorem expectMark {mark : Mark} {expected : Expected} :
    Takes (Reader.expectMark mark expected) fun _ => 0 := by
  refine look.seq fun found => ?_
  split
  · exact skip
  · exact refuse

theorem expectKeyword {keyword : Keyword} {expected : Expected} :
    Takes (Reader.expectKeyword keyword expected) fun _ => 0 := by
  refine look.seq fun found => ?_
  split
  · exact skip
  · exact refuse

theorem expectSemicolon {expected : Expected} : Takes (Reader.expectSemicolon expected) fun _ => 0 := by
  refine look.seq fun found => ?_
  split
  · exact skip
  · exact refuse

theorem expectName {expected : Expected} : Takes (Reader.expectName expected) fun _ => 0 := by
  refine look.seq fun word => ?_
  split
  · exact skip.seq fun _ => pure rfl
  · exact refuse

theorem skipSemicolons : Takes Reader.skipSemicolons fun _ => 0 := by
  intro tokens value rest ran
  cases ran
  rw [Nat.zero_add]
  exact (List.dropWhile_sublist _).countP_le

theorem terminate : Takes Reader.terminate fun _ => 0 := by
  refine look.seq fun word => ?_
  split
  · exact skip.seq fun _ => pure rfl
  · exact pure rfl
  · exact pure rfl
  · exact refuse

end Takes

/-! ## Imports -/

theorem importSpec_takes : Takes Reader.importSpec fun _ => 1 := by
  unfold Reader.importSpec
  refine Takes.look.seq fun here => ?_
  refine Takes.seq ?_ fun alias? => ?_
  · split
    · exact Takes.skip.seq fun _ => .pure rfl
    · exact .pure rfl
  · intro tokens spec rest ran
    obtain ⟨word, same, looked, ran⟩ := bind_ok ran
    split at ran
    · rename_i path
      obtain ⟨ahead, rfl⟩ := Prod.mk.inj (Except.ok.inj looked)
      cases ran
      have taken := Takes.texts_tail tokens
      have literal : texts [Reader.head tokens] = 1 := by simp [texts, ahead, Word.kind]
      dsimp only
      omega
    · cases ran

theorem importSpecs_takes (fuel : Nat) : Takes (Reader.importSpecs fuel) List.length := by
  induction fuel with
  | zero => exact .exhausted
  | succ fuel ih =>
      unfold Reader.importSpecs
      refine Takes.look.seq fun closed => ?_
      split
      · exact .pure rfl
      · refine importSpec_takes.bind fun first => Takes.look.seq fun last => ?_
        have behind : Takes (do
            let rest ← Reader.importSpecs fuel
            Pure.pure (first :: rest)) (fun specs => specs.length - 1) :=
          ih.bind fun rest => .pure (by simp)
        split
        · exact Takes.skipSemicolons.seq fun _ => behind
        · exact Takes.expectSemicolon.seq fun _ => Takes.skipSemicolons.seq fun _ => behind

theorem importDecl_takes (fuel : Nat) : Takes (Reader.importDecl fuel) List.length := by
  unfold Reader.importDecl
  refine Takes.skip.seq fun _ => Takes.look.seq fun grouped => ?_
  split
  · refine Takes.skip.seq fun _ => Takes.skipSemicolons.seq fun _ => ?_
    exact (importSpecs_takes fuel).bind fun specs => Takes.expectMark.seq fun _ => .pure (by simp)
  · exact importSpec_takes.bind fun spec => .pure rfl

theorem imports_takes (fuel : Nat) : Takes (Reader.imports fuel) List.length := by
  induction fuel with
  | zero => exact .exhausted
  | succ fuel ih =>
      unfold Reader.imports
      refine Takes.look.seq fun found => ?_
      split
      · refine (importDecl_takes fuel).bind fun first => Takes.terminate.seq fun _ => ?_
        refine Takes.skipSemicolons.seq fun _ => ih.bind fun rest => .pure (by simp)
      · exact .pure rfl

/-- The declarations behind the imports may take what they like. -/
theorem file_imports {fuel : Nat} {tokens rest : List Token} {program : Program}
    (read : Reader.file fuel tokens = .ok (program, rest)) : program.imports.length ≤ texts tokens := by
  obtain ⟨_, _, skipped, read⟩ := bind_ok read
  obtain ⟨_, _, keyword, read⟩ := bind_ok read
  obtain ⟨_, _, name, read⟩ := bind_ok read
  obtain ⟨_, _, ended, read⟩ := bind_ok read
  obtain ⟨_, _, skippedAgain, read⟩ := bind_ok read
  obtain ⟨_, _, imports, read⟩ := bind_ok read
  obtain ⟨_, _, _, read⟩ := bind_ok read
  cases read
  have first := Takes.skipSemicolons _ _ _ skipped
  have second := Takes.expectKeyword _ _ _ keyword
  have third := Takes.expectName _ _ _ name
  have fourth := Takes.terminate _ _ _ ended
  have fifth := Takes.skipSemicolons _ _ _ skippedAgain
  have sixth := imports_takes fuel _ _ _ imports
  dsimp only at first second third fourth fifth ⊢
  omega

theorem length_imports {source : String} {program : Program} (read : parseText source = .ok program) :
    program.imports.length ≤ source.utf8ByteSize := by
  obtain ⟨tokens, lexed, parsed⟩ := parseText_ok read
  obtain ⟨rest, gave⟩ := parse_ok parsed
  exact Nat.le_trans (file_imports gave) (texts_tokenize lexed)

end MiniGo.Syntax
