import MiniGo.Proofs.Syntax.Pieces
import MiniGo.Proofs.Tokens.Lookahead
import MiniGo.Proofs.Tokens.Steps

/-!
# Texts and their words

A text is read as words if gaps and words take turns in it, with a semicolon in front of a word where a line break
ends the statement (`ReadAs`). Every text that has tokens is read as their words (`readAs_tokenize`), and in turn
every text that is read as some words has tokens with these words (`ReadAs.tokenize`). A gap behind a word that
begins with a blank changes neither, unless it ends a statement (`tokenize_widened`).
-/

namespace MiniGo.Lexer

open Syntax

variable {ends : Bool} {front behind run text passed : List Char} {words : List Word} {tokens marks : List Token}
  {token : Token}

/-- The semicolon in front of a word, if one is due. -/
def breakWords (due : Prop) [Decidable due] : List Word := if due then [.semicolon true] else []

/-- A text is read as words; `ends` tells whether the word in front of it ends a statement. -/
inductive ReadAs : Bool → List Char → List Word → Prop where
  | word {ends : Bool} {gap lexeme rest : List Char} {word : Word} {words : List Word} : IsGap gap → lexeme ≠ [] →
      Opens (lexeme ++ rest) → (∀ place, scanWord place (lexeme ++ rest) = .ok (word, lexeme, rest)) →
      ReadAs word.endsStatement rest words →
      ReadAs ends (gap ++ (lexeme ++ rest)) (breakWords (ends = true ∧ '\n' ∈ gap) ++ word :: words)
  | finish {ends : Bool} {gap : List Char} : IsLastGap gap → ReadAs ends gap (breakWords (ends = true) ++ [.endOfInput])

/-! ## The words of a text -/

theorem Breaks.map_word {gap : List Char} {due : Prop} [Decidable due] (breaks : Breaks passed gap due marks) :
    marks.map (·.word) = breakWords due := by
  rcases breaks.marks_eq with ⟨due, mark, rfl, word⟩ | ⟨free, rfl⟩
  · rw [breakWords, if_pos due, List.map_singleton, word]
  · rw [breakWords, if_neg free, List.map_nil]

theorem StandsIn.here (stands : StandsIn (front ++ (token.lexeme.toList ++ behind)) token)
    (place : token.location = placeBehind front) : Opens (token.lexeme.toList ++ behind) ∧
      ∃ location, scanWord location (token.lexeme.toList ++ behind) = .ok (token.word, token.lexeme.toList, behind) := by
  obtain ⟨before, rest, split, same, opens, read⟩ := stands
  obtain rfl := placeBehind_injective ⟨_, rfl⟩ ⟨_, split.symm⟩ (place.symm.trans same)
  obtain rfl := List.append_cancel_left (List.append_cancel_left split)
  exact ⟨opens, _, read⟩

theorem lexeme_ne_nil (some : token.lexeme ≠ "") : token.lexeme.toList ≠ [] := fun none =>
  some (String.toList_eq_nil_iff.mp none)

theorem Laid.readAs {done : Bool} (laid : Laid ends passed text tokens done) (whole : done = true)
    (stand : ∀ token ∈ tokens, isExplicit token = true → StandsIn (passed ++ text) token) :
    ReadAs ends text (tokens.map (·.word)) := by
  induction laid with
  | stop => cases whole
  | finish isGap breaks =>
      rw [List.map_append, breaks.map_word]
      exact .finish isGap
  | @word ends _ passed gap rest marks tokens token isGap breaks notEnd notBreak some place _ ih =>
      obtain ⟨inMarks, here, later⟩ := List.forall_mem_append.mp stand |>.imp_right List.forall_mem_cons.mp
      have stands := here (isExplicit_of_word notEnd notBreak)
      rw [← List.append_assoc] at stands
      obtain ⟨opens, _, read⟩ := stands.here place
      rw [List.map_append, breaks.map_word, List.map_cons]
      refine .word isGap (lexeme_ne_nil some) opens (fun _ => scanWord_anywhere _ ?_ read) (ih whole ?_)
      · exact List.append_ne_nil_of_left_ne_nil (lexeme_ne_nil some) _
      · simpa only [List.append_assoc] using later

theorem readAs_tokenize {source : String} (read : MiniGo.tokenize source = .ok tokens) :
    ReadAs false source.toList (tokens.map (·.word)) :=
  (laid_tokenize read).readAs rfl (read_tokenize read)

/-! ## The tokens of a text -/

theorem next_of_gap {lexer : Lexer} {pending : Bool} {gap lexeme rest : List Char} {word : Word}
    (ahead : Ahead lexer pending (gap ++ (lexeme ++ rest))) (isGap : IsGap gap) (flat : pending = true → '\n' ∉ gap)
    (opens : Opens (lexeme ++ rest)) (read : ∀ place, scanWord place (lexeme ++ rest) = .ok (word, lexeme, rest)) :
    Next lexer word word.endsStatement rest :=
  next_of_word ahead ((scanGap_gap isGap flat _).trans (scanGap_opens _ _ opens)) (read _)

/-- A lexer in front of a text gives the words that the text is read as. -/
theorem ReadAs.drains (reads : ReadAs ends text words) {lexer : Lexer} (ahead : Ahead lexer ends text) {fuel : Nat}
    (enough : 2 * text.length + 2 ≤ fuel) : Drains fuel lexer words := by
  induction reads generalizing lexer fuel with
  | @word ends gap lexeme rest word words isGap some opens read _ ih =>
      have least := List.length_pos_iff.mpr some
      rw [List.length_append, List.length_append] at enough
      obtain ⟨fuel, rfl⟩ : ∃ more, fuel = more + 1 := ⟨fuel - 1, by omega⟩
      by_cases due : ends = true ∧ '\n' ∈ gap
      · obtain ⟨rfl, broken⟩ := due
        obtain ⟨fuel, rfl⟩ : ∃ more, fuel = more + 1 := ⟨fuel - 1, by omega⟩
        have first := List.length_pos_of_mem broken
        obtain ⟨_, _, more, scanned, isMore⟩ := scanGap_due isGap broken lexer.location (lexeme ++ rest)
        rw [breakWords, if_pos ⟨rfl, broken⟩]
        refine .succ (next_of_line ahead scanned) fun after ahead => ?_
        refine .succ (next_of_gap ahead isMore nofun opens read) fun after ahead => ?_
        exact ih ahead (by omega)
      · rw [breakWords, if_neg due]
        refine .succ (next_of_gap ahead isGap (fun here broken => due ⟨here, broken⟩) opens read) fun after ahead => ?_
        exact ih ahead (by omega)
  | @finish ends gap isLast =>
      obtain ⟨fuel, rfl⟩ : ∃ more, fuel = more + 2 := ⟨fuel - 2, by omega⟩
      cases ends with
      | false =>
          obtain ⟨_, scanned⟩ := scanGap_finish isLast lexer.location
          exact drains_of_finish ahead scanned
      | true =>
          obtain ⟨_, _, more, scanned, isMore⟩ := scanGap_dueLast isLast lexer.location
          refine .succ (next_of_line ahead scanned) fun after ahead => ?_
          obtain ⟨_, finished⟩ := scanGap_finish isMore after.location
          exact drains_of_finish ahead finished

theorem ReadAs.tokenize (reads : ReadAs false text words) :
    ∃ tokens, MiniGo.tokenize (String.ofList text) = .ok tokens ∧ tokens.map (·.word) = words := by
  have ahead : Ahead (ofString (String.ofList text)).reset false text := ⟨String.toList_ofList, rfl, rfl⟩
  obtain ⟨tokens, last, drained, same⟩ := reads.drains ahead (Nat.le_succ (2 * text.length + 2))
  refine ⟨tokens, ?_, same⟩
  unfold MiniGo.tokenize Lexer.tokenize Lexer.remaining
  rw [ahead.rest, drained]

/-! ## Wider gaps -/

theorem ReadAs.pad (reads : ReadAs ends text words) (isGap : IsGap run) (flat : ends = true → '\n' ∉ run) :
    ReadAs ends (run ++ text) words := by
  cases reads with
  | @word _ gap lexeme rest word words isFirst some opens read later =>
      have due : (ends = true ∧ '\n' ∈ gap) = (ends = true ∧ '\n' ∈ run ++ gap) := by
        rw [List.mem_append, eq_iff_iff]
        exact and_congr_right fun due => (or_iff_right (flat due)).symm
      rw [← List.append_assoc]
      simp only [due]
      exact .word (isGap.append isFirst) some opens read later
  | finish isLast => exact .finish (isGap.append_last isLast)

theorem opens_blank (opens : Opens (front ++ behind)) (some : front ≠ []) : Opens (front ++ ' ' :: text) := by
  obtain ⟨c, tail, rfl⟩ := List.exists_cons_of_ne_nil some
  refine ⟨opens.visible, fun slash d next => ?_⟩
  cases tail with
  | nil =>
      obtain rfl := Option.some.inj next
      decide
  | cons other tail => exact opens.noComment slash d next

/-- In a text with a wider gap behind one of its words the same words are read. -/
theorem Laid.readAs_wider {done : Bool} (laid : Laid ends passed text tokens done) (whole : done = true)
    (stand : ∀ token ∈ tokens, isExplicit token = true → StandsIn (passed ++ text) token) (member : token ∈ tokens)
    (written : isExplicit token = true) (isGap : IsGap (' ' :: run))
    (flat : token.word.endsStatement = true → '\n' ∉ ' ' :: run) :
    ∃ front behind, text = front ++ (token.lexeme.toList ++ behind) ∧ token.location = placeBehind (passed ++ front) ∧
      ReadAs ends (front ++ (token.lexeme.toList ++ ' ' :: (run ++ behind))) (tokens.map (·.word)) := by
  induction laid with
  | stop => cases whole
  | finish _ breaks =>
      rcases List.mem_append.mp member with mark | last
      · rw [breaks.silent token mark] at written
        cases written
      · obtain rfl := List.mem_singleton.mp last
        cases written
  | @word ends _ passed gap rest marks tokens first isFirst breaks notEnd notBreak some place later ih =>
      obtain ⟨inMarks, here, others⟩ := List.forall_mem_append.mp stand |>.imp_right List.forall_mem_cons.mp
      have stands := here (isExplicit_of_word notEnd notBreak)
      rw [← List.append_assoc] at stands
      obtain ⟨opens, _, read⟩ := stands.here place
      have ahead := lexeme_ne_nil some
      have behind : ∀ token ∈ tokens, isExplicit token = true →
          StandsIn (passed ++ gap ++ first.lexeme.toList ++ rest) token := by
        simpa only [List.append_assoc] using others
      rw [List.map_append, breaks.map_word, List.map_cons]
      -- The word in front of the wider gap does not see what stands behind the blank.
      have wider (mid more : List Char) (split : rest = mid ++ more) {widened : List Char}
          (reads : ReadAs first.word.endsStatement (mid ++ ' ' :: widened) (tokens.map (·.word))) :
          ReadAs ends (gap ++ (first.lexeme.toList ++ (mid ++ ' ' :: widened)))
            (breakWords (ends = true ∧ '\n' ∈ gap) ++ first.word :: tokens.map (·.word)) := by
        subst split
        refine .word isFirst ahead ?_ (fun place => scanWord_blank ahead read place widened) reads
        rw [← List.append_assoc] at opens ⊢
        exact opens_blank opens (List.append_ne_nil_of_left_ne_nil ahead mid)
      -- The token is the mark of a line break, the first word, or one behind it.
      rcases List.mem_append.mp member with mark | member
      · rw [breaks.silent token mark] at written
        cases written
      rcases List.mem_cons.mp member with rfl | member
      · refine ⟨gap, rest, rfl, place, ?_⟩
        exact wider [] rest rfl ((later.readAs whole behind).pad isGap flat)
      · obtain ⟨front, more, split, there, reads⟩ := ih whole behind member
        refine ⟨gap ++ (first.lexeme.toList ++ front), more, ?_, ?_, ?_⟩
        · rw [split]
          simp only [List.append_assoc]
        · rw [there]
          simp only [List.append_assoc]
        · have same := wider (front ++ token.lexeme.toList) more (by rw [split, List.append_assoc])
            (by rwa [List.append_assoc])
          simpa only [List.append_assoc] using same

/-- A text with something inserted directly behind one of its tokens. -/
def widened (source : String) (token : Token) (run : List Char) : String :=
  let front := textBefore source.toList token.location ++ token.lexeme.toList
  String.ofList (front ++ run ++ source.toList.drop front.length)

/-- A gap that begins with a blank and is inserted behind a token leaves the words of a text as they are, unless the
token ends a statement and the gap has a line break. -/
theorem tokenize_widened {source : String} (read : MiniGo.tokenize source = .ok tokens) (member : token ∈ tokens)
    (written : isExplicit token = true) (isGap : IsGap run) (blank : run.head? = some ' ')
    (flat : token.word.endsStatement = true → '\n' ∉ run) :
    ∃ others, MiniGo.tokenize (widened source token run) = .ok others ∧
      others.map (·.word) = tokens.map (·.word) := by
  obtain ⟨run, rfl⟩ := List.head?_eq_some_iff.mp blank
  obtain ⟨front, behind, split, place, reads⟩ :=
    (laid_tokenize read).readAs_wider rfl (read_tokenize read) member written isGap flat
  have same : widened source token (' ' :: run)
      = String.ofList (front ++ (token.lexeme.toList ++ ' ' :: (run ++ behind))) := by
    unfold widened
    dsimp only
    rw [place, List.nil_append, split, textBefore_placeBehind, ← List.append_assoc front, List.drop_left]
    simp only [List.append_assoc, List.cons_append]
  rw [same]
  exact reads.tokenize

end MiniGo.Lexer
