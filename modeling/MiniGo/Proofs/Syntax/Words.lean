import Mathlib.Data.List.TakeDrop
import Mathlib.Data.List.TakeWhile
import MiniGo.Proofs.Syntax.Formed

/-!
# Words of the lexer

Every token that the lexer gives is a word of the language: a name is spelled as one and is no keyword,
a number is what its digits stand for, and only arithmetic operators are joined with an assignment.
-/

namespace MiniGo.Syntax

/-- Tokens whose words the lexer gives. -/
def Lexed (tokens : List Token) : Prop := ∀ token ∈ tokens, WordFormed token.word

theorem wordFormed_nameWord {first : Char} {rest : List Char} (starts : CharClass.startsName first = true)
    (continues : ∀ c ∈ rest, CharClass.continuesName c = true) :
    WordFormed (Lexer.nameWord (String.ofList (first :: rest))) := by
  unfold Lexer.nameWord
  cases keyword : Keyword.ofSpelling? (String.ofList (first :: rest)) with
  | some found => exact trivial
  | none => exact ⟨⟨first, rest, by simp, starts, continues⟩, keyword⟩

theorem wordFormed_number {number : Lexer.NumberText} {word : Word} (read : number.word? = some word) :
    WordFormed word := by
  unfold Lexer.NumberText.word? at read
  split at read
  · dsimp only at read
    split at read
    · rename_i below
      obtain rfl := Option.some.inj read
      exact below
    · exact nomatch read
  · obtain rfl := Option.some.inj read
    exact ⟨_, _, rfl⟩

theorem wordFormed_fixed : ∀ entry ∈ Word.fixed, WordFormed entry.2 := by
  intro entry member
  simp only [Word.fixed, List.mem_cons, List.not_mem_nil, or_false] at member
  rcases member with rfl | rfl | rfl | rfl | rfl | rfl | rfl | rfl | rfl | rfl | rfl | rfl | rfl | rfl | rfl |
    rfl | rfl | rfl | rfl | rfl | rfl | rfl | rfl | rfl | rfl | rfl | rfl | rfl | rfl | rfl | rfl | rfl | rfl |
    rfl | rfl | rfl | rfl | rfl | rfl | rfl | rfl | rfl | rfl | rfl | rfl <;> trivial

theorem wordFormed_scanFixed {text lexeme rest : List Char} {word : Word}
    (read : Lexer.scanFixed text = some (word, lexeme, rest)) : WordFormed word := by
  obtain ⟨entry, member, found⟩ := List.exists_of_findSome?_eq_some read
  dsimp only at found
  split at found
  · obtain ⟨rfl, _⟩ := Prod.mk.inj (Option.some.inj found)
    exact wordFormed_fixed entry member
  · exact nomatch found

theorem wordFormed_scanWord {location : Location} {text lexeme rest : List Char} {word : Word}
    (read : Lexer.scanWord location text = .ok (word, lexeme, rest)) : WordFormed word := by
  unfold Lexer.scanWord at read
  split at read
  · obtain ⟨rfl, _⟩ := Prod.mk.inj (Except.ok.inj read)
    exact trivial
  · rename_i first behind
    split at read
    · split at read
      · obtain ⟨rfl, _⟩ := Prod.mk.inj (Except.ok.inj read)
        exact trivial
      · exact nomatch read
    split at read
    · rename_i starts
      rw [List.span_eq_takeWhile_dropWhile] at read
      obtain ⟨rfl, _⟩ := Prod.mk.inj (Except.ok.inj read)
      rw [List.takeWhile_cons_of_pos (CharClass.continuesName_of_startsName first starts)]
      exact wordFormed_nameWord starts fun c member => List.mem_takeWhile_imp member
    split at read
    · dsimp only at read
      split at read
      · rename_i number
        obtain ⟨rfl, _⟩ := Prod.mk.inj (Except.ok.inj read)
        exact wordFormed_number number
      · exact nomatch read
    · split at read
      · rename_i found
        obtain rfl := Except.ok.inj read
        exact wordFormed_scanFixed found
      · exact nomatch read

theorem wordFormed_step {lexer after : Lexer} {token : Token} (read : lexer.step = .ok (token, after)) :
    WordFormed token.word := by
  unfold Lexer.step at read
  split at read
  · exact nomatch read
  · obtain ⟨rfl, _⟩ := Prod.mk.inj (Except.ok.inj read)
    exact trivial
  · obtain ⟨rfl, _⟩ := Prod.mk.inj (Except.ok.inj read)
    exact trivial
  · rename_i location text _
    cases scanned : Lexer.scanWord location text with
    | error error =>
        rw [scanned] at read
        exact nomatch read
    | ok outcome =>
        obtain ⟨word, lexeme, rest⟩ := outcome
        rw [scanned] at read
        obtain ⟨rfl, _⟩ := Prod.mk.inj (Except.ok.inj read)
        exact wordFormed_scanWord scanned

theorem lexed_drain (fuel : Nat) (lexer : Lexer) : Lexed (lexer.drain fuel).1 := by
  induction fuel generalizing lexer with
  | zero => exact nofun
  | succ fuel ih =>
      unfold Lexer.drain
      split
      · exact nofun
      · exact nofun
      · rename_i token after next
        refine List.forall_mem_cons.mpr ⟨?_, ih after⟩
        unfold Lexer.next at next
        split at next
        · exact nomatch next
        · split at next
          · rename_i read
            obtain ⟨same, _⟩ := Prod.mk.inj next
            obtain rfl := Except.ok.inj (Option.some.inj same)
            exact wordFormed_step read
          · exact nomatch next

theorem lexed_tokenize {source : String} {tokens : List Token} (read : tokenize source = .ok tokens) :
    Lexed tokens := by
  have all := lexed_drain (2 * (Lexer.ofString source).reset.rest.length + 3) (Lexer.ofString source).reset
  unfold tokenize Lexer.tokenize Lexer.remaining at read
  split at read
  · rename_i same
    obtain rfl := Except.ok.inj read
    rw [same] at all
    exact all
  · exact nomatch read

end MiniGo.Syntax
