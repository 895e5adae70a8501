import MiniGo.Proofs.Syntax.Layouts

/-!
# Reading layouts back

`Rereads` is a triple about readers in front of the words of a layout: a reader gives a result of the
promised form and leaves the words of what stands behind, or it stops because the text is nested too deeply.
There is one rule for each reader of a token, and one for each way to put readers together; what stands
ahead is computed from the layout by `ahead`.
-/

namespace MiniGo.Syntax

open Piece

variable {α β : Type} {pending middle behind : Bool} {pieces between rest : List Piece}

/-! ## Tokens of a layout -/

/-- Tokens whose words a layout is read as. -/
def Shows (pending : Bool) (pieces : List Piece) (tokens : List Token) : Prop :=
  tokens.map (·.word) = wordsFrom pending pieces

def ahead (pending : Bool) (pieces : List Piece) : Word := (wordsFrom pending pieces).headD .endOfInput

@[simp] theorem ahead_word (found : Word) : ahead pending (word found :: pieces) = settled found := rfl

@[simp] theorem ahead_key (keyword : Keyword) : ahead pending (key keyword :: pieces) = .keyword keyword := rfl

@[simp] theorem ahead_sign (mark : Mark) : ahead pending (sign mark :: pieces) = .mark mark := rfl

@[simp] theorem ahead_name (found : String) : ahead pending (name found :: pieces) = .identifier found := rfl

@[simp] theorem ahead_blank : ahead pending (blank :: pieces) = ahead pending pieces := rfl

@[simp] theorem ahead_line (indent : Nat) : ahead true (newLine indent :: pieces) = .semicolon true := rfl

@[simp] theorem ahead_noLine (indent : Nat) : ahead false (newLine indent :: pieces) = ahead false pieces := rfl

@[simp] theorem ahead_nil : ahead false [] = .endOfInput := rfl

/-- The word is the end of the input. -/
def isEnd : Word → Bool
  | .endOfInput => true
  | _ => false

theorem ne_end {found : Word} (other : isEnd found = false) : found ≠ .endOfInput := by
  rintro rfl
  cases other

theorem commaSeparated_more (first second : List Piece) (layouts : List (List Piece)) :
    commaSeparated (first :: second :: layouts)
      = first ++ sign .comma :: blank :: commaSeparated (second :: layouts) := rfl

theorem wordsFrom_ne_nil (pending : Bool) (pieces : List Piece) : wordsFrom pending pieces ≠ [] := by
  induction pieces generalizing pending with
  | nil => cases pending <;> exact List.cons_ne_nil _ _
  | cons piece pieces ih =>
      cases piece with
      | word found => exact List.cons_ne_nil _ _
      | blank => exact ih pending
      | newLine indent =>
          cases pending with
          | true => exact List.cons_ne_nil _ _
          | false => exact ih false

theorem Shows.head {tokens : List Token} (shows : Shows pending pieces tokens) :
    (Reader.head tokens).word = ahead pending pieces := by
  have some := wordsFrom_ne_nil pending pieces
  unfold Shows at shows
  unfold ahead
  rw [← shows] at some ⊢
  cases tokens with
  | nil => exact absurd rfl some
  | cons token tokens => rfl

theorem head_cons (token : Token) (tokens : List Token) : Reader.head (token :: tokens) = token := rfl

theorem tail_of_word {token : Token} {tokens : List Token} (inner : token.word ≠ .endOfInput) :
    Reader.tail (token :: tokens) = tokens := by
  unfold Reader.tail
  split
  · contradiction
  · rename_i same
    split
    · rename_i final
      obtain ⟨rfl, _⟩ := List.cons.inj same
      exact absurd final inner
    · exact (List.cons.inj same).2.symm

theorem Shows.tail {tokens : List Token} {found : Word} (shows : Shows pending pieces tokens)
    (words : wordsFrom pending pieces = found :: wordsFrom behind rest) (inner : found ≠ .endOfInput) :
    Shows behind rest (Reader.tail tokens) := by
  unfold Shows at shows ⊢
  rw [words] at shows
  cases tokens with
  | nil => cases shows
  | cons token tokens =>
      obtain ⟨rfl, same⟩ := List.cons.inj shows
      rw [tail_of_word inner, same]

/-- The word is this mark. -/
def isMark (mark : Mark) : Word → Bool
  | .mark found => found == mark
  | _ => false

theorem word_of_isMark {mark : Mark} {word : Word} (found : isMark mark word = true) : word = .mark mark := by
  cases word with
  | mark sign => rw [beq_iff_eq.mp found]
  | _ => cases found

/-- The word is this keyword. -/
def isKeyword (keyword : Keyword) : Word → Bool
  | .keyword found => found == keyword
  | _ => false

def isSemicolon : Word → Bool
  | .semicolon _ => true
  | _ => false

def isWritten : Word → Bool
  | .semicolon implicit => !implicit
  | _ => false

theorem isSemicolon_word (token : Token) : Reader.isSemicolon token = isSemicolon token.word := by
  unfold Reader.isSemicolon isSemicolon
  cases token.word <;> rfl

theorem isWritten_word (token : Token) :
    (Reader.isSemicolon token && !token.isImplicit) = isWritten token.word := by
  unfold Reader.isSemicolon Token.isImplicit isWritten
  cases token.word <;> rfl

/-! ## Readers -/

/-- A reader stopped because the text is nested too deeply. -/
def TooDeep (stop : Stop) : Prop :=
  stop = .exhausted ∨ ∃ location, stop = .error (.invalid (.nesting Reader.nestingLimit) location)

/-- In front of a layout a reader gives a result of the promised form and leaves what stands behind, unless
the text is nested too deeply. -/
def Rereads (reader : Reader α) (pending : Bool) (pieces : List Piece) (post : α → Prop) (behind : Bool)
    (rest : List Piece) : Prop :=
  ∀ tokens, Shows pending pieces tokens →
    (∃ value left, reader tokens = .ok (value, left) ∧ post value ∧ Shows behind rest left) ∨
      ∃ stop, reader tokens = .error stop ∧ TooDeep stop

namespace Rereads

variable {post : α → Prop} {last : β → Prop}

theorem pure {value : α} (holds : post value) : Rereads (Pure.pure value) pending pieces post pending pieces :=
  fun tokens shows => Or.inl ⟨value, tokens, rfl, holds, shows⟩

theorem blank {reader : Reader α} (reads : Rereads reader pending pieces post behind rest) :
    Rereads reader pending (blank :: pieces) post behind rest := reads

theorem noLine {reader : Reader α} {indent : Nat} (reads : Rereads reader false pieces post behind rest) :
    Rereads reader false (newLine indent :: pieces) post behind rest := reads

theorem exhausted : Rereads Reader.exhausted pending pieces post behind rest :=
  fun _ _ => Or.inr ⟨.exhausted, rfl, Or.inl rfl⟩

theorem bind {reader : Reader α} {next : α → Reader β} (first : Rereads reader pending pieces post middle between)
    (others : ∀ value, post value → Rereads (next value) middle between last behind rest) :
    Rereads (reader >>= next) pending pieces last behind rest := by
  intro tokens shows
  change (∃ value left, Except.bind (reader tokens) _ = _ ∧ _) ∨ ∃ stop, Except.bind (reader tokens) _ = _ ∧ _
  rcases first tokens shows with ⟨value, left, read, holds, showsLeft⟩ | ⟨stop, read, deep⟩
  · rw [read]
    exact others value holds left showsLeft
  · rw [read]
    exact Or.inr ⟨stop, rfl, deep⟩

theorem weaken {other : α → Prop} {reader : Reader α} (reads : Rereads reader pending pieces post behind rest)
    (imp : ∀ value, post value → other value) : Rereads reader pending pieces other behind rest := by
  intro tokens shows
  rcases reads tokens shows with ⟨value, left, read, holds, showsLeft⟩ | deep
  · exact Or.inl ⟨value, left, read, imp value holds, showsLeft⟩
  · exact Or.inr deep

theorem look {found : List Token → α} {next : α → Reader β}
    (reads : ∀ tokens, Shows pending pieces tokens → Rereads (next (found tokens)) pending pieces last behind rest) :
    Rereads ((fun tokens => .ok (found tokens, tokens) : Reader α) >>= next) pending pieces last behind rest :=
  fun tokens shows => reads tokens shows tokens shows

theorem peek {next : Token → Reader β}
    (reads : ∀ token, token.word = ahead pending pieces → Rereads (next token) pending pieces last behind rest) :
    Rereads (Reader.peek >>= next) pending pieces last behind rest :=
  look fun _ shows => reads _ shows.head

theorem peekWord {next : Word → Reader β}
    (reads : Rereads (next (ahead pending pieces)) pending pieces last behind rest) :
    Rereads (Reader.peekWord >>= next) pending pieces last behind rest :=
  look fun _ shows => shows.head ▸ reads

theorem second_of_words {tokens : List Token} {first second : Word} {words : List Word}
    (same : tokens.map (·.word) = first :: second :: words) : (Reader.second tokens).word = second := by
  match tokens, same with
  | _ :: _ :: _, same => exact (List.cons.inj (List.cons.inj same).2).1

theorem peekSecond {found : Word} {next : Word → Reader β}
    (reads : Rereads (next (ahead found.endsStatement pieces)) pending (word found :: pieces) last behind rest) :
    Rereads (Reader.peekSecond >>= next) pending (word found :: pieces) last behind rest := by
  refine look fun tokens shows => ?_
  have second : (Reader.second tokens).word = ahead found.endsStatement pieces := by
    obtain ⟨first, words, same⟩ := List.exists_cons_of_ne_nil (wordsFrom_ne_nil found.endsStatement pieces)
    have all : tokens.map (·.word) = settled found :: wordsFrom found.endsStatement pieces := shows
    rw [ahead, same]
    rw [same] at all
    exact second_of_words all
  exact second ▸ reads

theorem atMark {mark : Mark} {next : Bool → Reader β}
    (reads : Rereads (next (isMark mark (ahead pending pieces))) pending pieces last behind rest) :
    Rereads (Reader.atMark mark >>= next) pending pieces last behind rest :=
  look fun _ shows => shows.head ▸ reads

theorem atKeyword {keyword : Keyword} {next : Bool → Reader β}
    (reads : Rereads (next (isKeyword keyword (ahead pending pieces))) pending pieces last behind rest) :
    Rereads (Reader.atKeyword keyword >>= next) pending pieces last behind rest :=
  look fun _ shows => shows.head ▸ reads

theorem atSemicolon {next : Bool → Reader β}
    (reads : Rereads (next (isSemicolon (ahead pending pieces))) pending pieces last behind rest) :
    Rereads (Reader.atSemicolon >>= next) pending pieces last behind rest :=
  look fun tokens shows => by rwa [isSemicolon_word, shows.head]

theorem atWrittenSemicolon {next : Bool → Reader β}
    (reads : Rereads (next (isWritten (ahead pending pieces))) pending pieces last behind rest) :
    Rereads (Reader.atWrittenSemicolon >>= next) pending pieces last behind rest :=
  look fun tokens shows => by rwa [isWritten_word, shows.head]

theorem take {found : Word} (words : wordsFrom pending pieces = found :: wordsFrom behind rest)
    (inner : found ≠ .endOfInput) :
    Rereads Reader.advance pending pieces (·.word = found) behind rest := by
  intro tokens shows
  refine Or.inl ⟨_, _, rfl, ?_, shows.tail words inner⟩
  change (Reader.head tokens).word = found
  rw [shows.head, ahead, words]
  rfl

theorem advance {found : Word} {next : Token → Reader β} (inner : settled found ≠ .endOfInput)
    (reads : ∀ token, token.word = settled found → Rereads (next token) found.endsStatement pieces last behind rest) :
    Rereads (Reader.advance >>= next) pending (word found :: pieces) last behind rest :=
  (take rfl inner).bind reads

theorem advanced {found : Word} (inner : settled found ≠ .endOfInput) :
    Rereads Reader.advance pending (word found :: pieces) (fun _ => True) found.endsStatement pieces :=
  (take rfl inner).weaken fun _ _ => trivial

theorem takeLine {indent : Nat} :
    Rereads Reader.advance true (newLine indent :: pieces) (·.word = .semicolon true) false pieces := by
  refine take ?_ (ne_end rfl)
  rfl

theorem expectMark {mark : Mark} {expected : Expected} :
    Rereads (Reader.expectMark mark expected) pending (sign mark :: pieces) (fun _ => True)
      (Word.mark mark).endsStatement pieces := by
  refine atMark ?_
  rw [ahead_sign, isMark, beq_self_eq_true]
  exact advanced (ne_end rfl)

theorem expectKeyword {keyword : Keyword} {expected : Expected} :
    Rereads (Reader.expectKeyword keyword expected) pending (key keyword :: pieces) (fun _ => True)
      (Word.keyword keyword).endsStatement pieces := by
  refine atKeyword ?_
  rw [ahead_key, isKeyword, beq_self_eq_true]
  exact advanced (ne_end rfl)

theorem expectName {found : String} {expected : Expected} :
    Rereads (Reader.expectName expected) pending (name found :: pieces) (· = found) true pieces :=
  peekWord (advance (ne_end rfl) fun _ _ => pure rfl)

theorem expectLine {indent : Nat} {expected : Expected} :
    Rereads (Reader.expectSemicolon expected) true (newLine indent :: pieces) (fun _ => True) false pieces :=
  atSemicolon (takeLine.weaken fun _ _ => trivial)

theorem expectSemicolon {expected : Expected} :
    Rereads (Reader.expectSemicolon expected) pending (word (.semicolon false) :: pieces) (fun _ => True) false
      pieces :=
  atSemicolon (advanced (ne_end rfl))

theorem skipSemicolons (none : isSemicolon (ahead pending pieces) = false) :
    Rereads Reader.skipSemicolons pending pieces (fun _ => True) pending pieces := by
  intro tokens shows
  refine Or.inl ⟨(), tokens, ?_, trivial, shows⟩
  have first := shows.head
  cases tokens with
  | nil => rfl
  | cons token tokens =>
      have other : Reader.isSemicolon token = false := by
        rw [isSemicolon_word]
        exact (congrArg isSemicolon first).trans none
      unfold Reader.skipSemicolons
      rw [List.dropWhile_cons_of_neg (by rw [other]; exact Bool.false_ne_true)]

theorem terminate {indent : Nat} :
    Rereads Reader.terminate true (newLine indent :: pieces) (fun _ => True) false pieces :=
  peekWord (takeLine.bind fun _ _ => pure trivial)

theorem nested {depth : Nat} {inner : Nat → Reader α}
    (reads : Rereads (inner (depth + 1)) pending pieces post behind rest) :
    Rereads (Reader.nested depth inner) pending pieces post behind rest := by
  unfold Reader.nested
  split
  · exact fun tokens shows => Or.inr ⟨_, rfl, Or.inr ⟨_, rfl⟩⟩
  · exact reads

end Rereads

end MiniGo.Syntax
