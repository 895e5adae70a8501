import MiniGo.Proofs.Tokens.Steps

/-!
# String literals

A character is escaped when an odd number of backslashes stands in front of it. A string literal ends at the
first quote that is not escaped, unless a line break that is not escaped, or the end of the text, comes before
it; its value is the text up to there with its escapes resolved (`string_literal`). A quoted text is read back as
itself, whatever stands behind it (`quoted_read`).
-/

namespace MiniGo.Lexer

/-! ## Escapes -/

/-- The number of backslashes at the end of a text. -/
def backslashes (before : List Char) : Nat := (before.reverse.takeWhile (· == '\\')).length

/-- A character behind this text is escaped: an odd number of backslashes stands in front of it. -/
def Escaped (before : List Char) : Prop := backslashes before % 2 = 1

/-- A text has a character that is not escaped. -/
def Bare (c : Char) (text : List Char) : Prop := ∃ before behind, text = before ++ c :: behind ∧ ¬ Escaped before

/-- The text in front of the first character of a sort that is not escaped, and the text behind it. -/
structure FirstBare (c : Char) (text body rest : List Char) : Prop where
  split : text = body ++ c :: rest
  bare : ¬ Escaped body
  first : ¬ Bare c body

/-- A text with its escapes resolved: those of a line break, a tab, a backslash and a quote stand for one
character, all others for themselves. -/
def resolve : List Char → List Char
  | '\\' :: 'n' :: rest => '\n' :: resolve rest
  | '\\' :: 't' :: rest => '\t' :: resolve rest
  | '\\' :: '\\' :: rest => '\\' :: resolve rest
  | '\\' :: '"' :: rest => '"' :: resolve rest
  | '\\' :: other :: rest => '\\' :: other :: resolve rest
  | c :: rest => c :: resolve rest
  | [] => []

variable {c stop : Char} {text body rest value lexeme : List Char}

theorem resolve_pair (c : Char) (rest : List Char) : resolve ('\\' :: c :: rest) = unescape c ++ resolve rest := by
  unfold unescape
  split
  · rfl
  · rfl
  · rfl
  · rfl
  · rename_i line tab backslash quote
    exact resolve.eq_5 _ _ line tab backslash quote

theorem resolve_plain (plain : c ≠ '\\') (rest : List Char) : resolve (c :: rest) = c :: resolve rest := by
  rw [resolve.eq_6] <;> intros <;> exact absurd ‹_› plain

theorem backslashes_cons (c : Char) (text : List Char) :
    backslashes (c :: text) = if backslashes text = text.length then text.length + if c = '\\' then 1 else 0
      else backslashes text := by
  unfold backslashes
  rw [List.reverse_cons, List.takeWhile_append, List.length_reverse]
  split
  · by_cases backslash : c = '\\' <;> simp [backslash]
  · rfl

theorem backslashes_le (text : List Char) : backslashes text ≤ text.length := by
  unfold backslashes
  have flipped : text.reverse.length = text.length := List.length_reverse
  rw [← flipped]
  exact (List.takeWhile_prefix _).length_le

theorem not_escaped_nil : ¬ Escaped [] := by
  unfold Escaped
  decide

theorem escaped_backslash : Escaped ['\\'] := by
  unfold Escaped
  decide

theorem escaped_plain (plain : c ≠ '\\') (text : List Char) : Escaped (c :: text) ↔ Escaped text := by
  unfold Escaped
  rw [backslashes_cons, if_neg plain]
  split <;> simp_all

theorem escaped_pair (c : Char) (text : List Char) : Escaped ('\\' :: c :: text) ↔ Escaped text := by
  have le := backslashes_le text
  unfold Escaped
  rw [backslashes_cons, backslashes_cons, if_pos rfl, List.length_cons]
  by_cases backslash : c = '\\'
  · rw [if_pos backslash]
    by_cases all : backslashes text = text.length
    · rw [if_pos all, if_pos rfl, all]
      omega
    · rw [if_neg all, if_neg (by omega)]
  · rw [if_neg backslash, Nat.add_zero]
    by_cases all : backslashes text = text.length
    · rw [if_pos all, if_neg (by omega), all]
    · rw [if_neg all, if_neg (by omega)]

/-! ## Characters that are not escaped -/

theorem bare_plain (plain : c ≠ '\\') : Bare stop (c :: text) ↔ c = stop ∨ Bare stop text := by
  constructor
  · rintro ⟨before, behind, split, bare⟩
    cases before with
    | nil => exact Or.inl (List.cons.inj split).1
    | cons other before =>
        obtain ⟨rfl, rfl⟩ := List.cons.inj split
        exact Or.inr ⟨before, behind, rfl, (escaped_plain plain before).not.mp bare⟩
  · rintro (rfl | ⟨before, behind, rfl, bare⟩)
    · exact ⟨[], text, rfl, not_escaped_nil⟩
    · exact ⟨c :: before, behind, rfl, (escaped_plain plain before).not.mpr bare⟩

theorem bare_pair (plain : stop ≠ '\\') : Bare stop ('\\' :: c :: text) ↔ Bare stop text := by
  constructor
  · rintro ⟨before, behind, split, bare⟩
    match before with
    | [] => exact absurd (List.cons.inj split).1.symm plain
    | [_] =>
        obtain ⟨rfl, _⟩ := List.cons.inj split
        exact absurd escaped_backslash bare
    | _ :: _ :: before =>
        obtain ⟨rfl, behind'⟩ := List.cons.inj split
        obtain ⟨rfl, rfl⟩ := List.cons.inj behind'
        exact ⟨before, behind, rfl, (escaped_pair _ before).not.mp bare⟩
  · rintro ⟨before, behind, rfl, bare⟩
    exact ⟨'\\' :: c :: before, behind, rfl, (escaped_pair c before).not.mpr bare⟩

theorem not_bare_nil : ¬ Bare stop [] := by
  rintro ⟨before, behind, split, _⟩
  simp at split

theorem not_bare_backslash (plain : stop ≠ '\\') : ¬ Bare stop ['\\'] := by
  rintro ⟨before, behind, split, _⟩
  cases before with
  | nil => exact plain (List.cons.inj split).1.symm
  | cons other before => simp at split

namespace FirstBare

theorem here : FirstBare stop (stop :: rest) [] rest := ⟨rfl, not_escaped_nil, not_bare_nil⟩

theorem plain (found : FirstBare stop text body rest) (plain : c ≠ '\\') (other : c ≠ stop) :
    FirstBare stop (c :: text) (c :: body) rest where
  split := congrArg (c :: ·) found.split
  bare := (escaped_plain plain body).not.mpr found.bare
  first := (bare_plain plain).not.mpr (not_or.mpr ⟨other, found.first⟩)

theorem pair (found : FirstBare stop text body rest) (plain : stop ≠ '\\') :
    FirstBare stop ('\\' :: c :: text) ('\\' :: c :: body) rest where
  split := congrArg ('\\' :: c :: ·) found.split
  bare := (escaped_pair c body).not.mpr found.bare
  first := (bare_pair plain).not.mpr found.first

theorem of_plain (found : FirstBare stop (c :: text) body rest) (plain : c ≠ '\\') (other : c ≠ stop) :
    ∃ more, body = c :: more ∧ FirstBare stop text more rest := by
  cases body with
  | nil => exact absurd (List.cons.inj found.split).1 other
  | cons first more =>
      obtain ⟨rfl, split⟩ := List.cons.inj found.split
      exact ⟨more, rfl, split, (escaped_plain plain more).not.mp found.bare,
        fun bare => found.first ((bare_plain plain).mpr (Or.inr bare))⟩

theorem of_pair (found : FirstBare stop ('\\' :: c :: text) body rest) (plain : stop ≠ '\\') :
    ∃ more, body = '\\' :: c :: more ∧ FirstBare stop text more rest := by
  match body, found with
  | [], found => exact absurd (List.cons.inj found.split).1.symm plain
  | [_], found =>
      obtain ⟨rfl, _⟩ := List.cons.inj found.split
      exact absurd escaped_backslash found.bare
  | _ :: _ :: more, found =>
      obtain ⟨rfl, others⟩ := List.cons.inj found.split
      obtain ⟨rfl, split⟩ := List.cons.inj others
      exact ⟨more, rfl, split, (escaped_pair _ more).not.mp found.bare, (bare_pair plain).not.mp found.first⟩

theorem unique {other behind : List Char} (found : FirstBare stop text body rest)
    (again : FirstBare stop text other behind) : body = other ∧ rest = behind := by
  rcases List.append_eq_append_iff.mp (found.split.symm.trans again.split) with ⟨more, same, split⟩ | ⟨more, same, split⟩
  · cases more with
    | nil => exact ⟨by rw [same, List.append_nil], (List.cons.inj split).2⟩
    | cons c more =>
        obtain ⟨rfl, _⟩ := List.cons.inj split
        exact absurd ⟨body, more, same, found.bare⟩ again.first
  · cases more with
    | nil => exact ⟨by rw [same, List.append_nil], (List.cons.inj split).2.symm⟩
    | cons c more =>
        obtain ⟨rfl, _⟩ := List.cons.inj split
        exact absurd ⟨other, more, same, again.bare⟩ found.first

end FirstBare

/-! ## The scanner of strings -/

theorem ne_backslash (last : c = '\\' → text = [] → False)
    (pair : ∀ other more, c = '\\' → text = other :: more → False) : c ≠ '\\' := by
  intro backslash
  cases text with
  | nil => exact last backslash rfl
  | cons other more => exact pair other more backslash rfl

/-- What is read is the text up to the first quote that is not escaped, if no such line break comes before it. -/
theorem scanString_some {found : List Char × List Char × List Char} (read : scanString value lexeme text = some found) :
    ∃ body, FirstBare '"' text body found.2.2 ∧ ¬ Bare '\n' body ∧ found.1 = value.reverse ++ resolve body ∧
      found.2.1 = lexeme.reverse ++ (body ++ ['"']) := by
  fun_induction scanString value lexeme text with
  | case1 | case2 | case4 => cases read
  | case3 value lexeme c rest ih =>
      obtain ⟨body, first, flat, reads, spells⟩ := ih read
      refine ⟨'\\' :: c :: body, first.pair (by decide), (bare_pair (by decide)).not.mpr flat, ?_, ?_⟩
      · rw [reads, resolve_pair]
        simp
      · rw [spells]
        simp
  | case5 value lexeme rest _ _ _ =>
      obtain rfl := Option.some.inj read
      exact ⟨[], .here, not_bare_nil, by simp [resolve], by simp⟩
  | case6 value lexeme c rest last pair line quote ih =>
      have backslash := ne_backslash last pair
      obtain ⟨body, first, flat, reads, spells⟩ := ih read
      refine ⟨c :: body, first.plain backslash quote, (bare_plain backslash).not.mpr (not_or.mpr ⟨line, flat⟩), ?_, ?_⟩
      · rw [reads, resolve_plain backslash]
        simp
      · rw [spells]
        simp

/-- Nothing is read if there is no quote that is not escaped, or a line break that is not escaped comes before it. -/
theorem scanString_none (read : scanString value lexeme text = none) (first : FirstBare '"' text body rest) :
    Bare '\n' body := by
  fun_induction scanString value lexeme text generalizing body with
  | case1 => exact absurd ⟨body, rest, first.split, first.bare⟩ not_bare_nil
  | case2 => exact absurd ⟨body, rest, first.split, first.bare⟩ (not_bare_backslash (by decide))
  | case3 value lexeme c text ih =>
      obtain ⟨more, rfl, later⟩ := first.of_pair (by decide)
      exact (bare_pair (by decide)).mpr (ih read later)
  | case4 value lexeme text _ _ =>
      obtain ⟨more, rfl, _⟩ := first.of_plain (by decide) (by decide)
      exact (bare_plain (by decide)).mpr (Or.inl rfl)
  | case5 => cases read
  | case6 value lexeme c text last pair line quote ih =>
      have backslash := ne_backslash last pair
      obtain ⟨more, rfl, later⟩ := first.of_plain backslash quote
      exact (bare_plain backslash).mpr (Or.inr (ih read later))

/-- The text up to the first quote that is not escaped is read, if no such line break comes before it. -/
theorem scanString_of_firstBare (first : FirstBare '"' text body rest) (flat : ¬ Bare '\n' body) :
    scanString value lexeme text = some (value.reverse ++ resolve body, lexeme.reverse ++ (body ++ ['"']), rest) := by
  cases read : scanString value lexeme text with
  | none => exact absurd (scanString_none read first) flat
  | some found =>
      obtain ⟨value', lexeme', rest'⟩ := found
      obtain ⟨other, again, _, rfl, rfl⟩ := scanString_some read
      obtain ⟨rfl, rfl⟩ := again.unique first
      rfl

/-! ## Literals in a text -/

/-- In front of a quote the lexer gives the literal that is read behind it, or fails at the quote. -/
theorem next_quote {lexer : Lexer} {place : Location} {behind : List Char} (running : lexer.finished = false)
    (starts : scanGap lexer.pending .blank lexer.location lexer.rest = .word place ('"' :: behind)) :
    (∀ value lexeme rest, scanString [] ['"'] behind = some (value, lexeme, rest) →
      ∃ after, lexer.next = (some (.ok ⟨.string (String.ofList value), String.ofList lexeme, place⟩), after) ∧
        after.rest = rest) ∧
    (scanString [] ['"'] behind = none → lexer.next.1 = some (.error (.unterminatedString place))) := by
  refine ⟨fun value lexeme rest read => ?_, fun read => ?_⟩
  · have word : scanWord place ('"' :: behind) = .ok (.string (String.ofList value), lexeme, rest) := by
      unfold scanWord
      dsimp only
      rw [if_pos rfl, read]
    unfold Lexer.next Lexer.step
    rw [running, starts]
    dsimp only
    rw [word]
    exact ⟨_, rfl, rfl⟩
  · have failed : scanWord place ('"' :: behind) = .error (.unterminatedString place) := by
      unfold scanWord
      dsimp only
      rw [if_pos rfl, read]
    unfold Lexer.next Lexer.step
    rw [running, starts]
    dsimp only
    rw [failed]
    rfl

/-- A string literal ends at the first quote that is not escaped: if no line break that is not escaped comes before
it, the literal is given, with the escapes of its text resolved, and else the lexer fails at the opening quote. It
fails there too if no such quote comes at all. -/
theorem string_literal {source : String} {lexer : Lexer} {gap behind : List Char}
    (reached : Reached source.toList lexer) (running : lexer.finished = false) (isGap : IsGap gap)
    (flat : lexer.pending = true → '\n' ∉ gap) (ahead : lexer.rest = gap ++ '"' :: behind) :
    ∃ before, source.toList = before ++ '"' :: behind ∧
      (∀ body rest, FirstBare '"' behind body rest →
        (Bare '\n' body → lexer.next.1 = some (.error (.unterminatedString (placeBehind before)))) ∧
        (¬ Bare '\n' body → ∃ after, lexer.next = (some (.ok ⟨.string (String.ofList (resolve body)),
          String.ofList ('"' :: (body ++ ['"'])), placeBehind before⟩), after) ∧ after.rest = rest)) ∧
      (¬ Bare '"' behind → lexer.next.1 = some (.error (.unterminatedString (placeBehind before)))) := by
  obtain ⟨passed, whole, place⟩ := reached.place
  have starts : scanGap lexer.pending .blank lexer.location lexer.rest
      = .word (placeBehind (passed ++ gap)) ('"' :: behind) := by
    rw [ahead, scanGap_gap isGap flat, place, placeBehind_append]
    rfl
  obtain ⟨reads, fails⟩ := next_quote running starts
  refine ⟨passed ++ gap, by rw [whole, ahead, List.append_assoc], fun body rest first => ?_, fun open_ => fails ?_⟩
  · refine ⟨fun broken => fails ?_, fun flat => ?_⟩
    · cases read : scanString [] ['"'] behind with
      | none => rfl
      | some found =>
          obtain ⟨text, again, flat, _⟩ := scanString_some read
          obtain ⟨rfl, _⟩ := again.unique first
          exact absurd broken flat
    · obtain ⟨after, gave, left⟩ := reads _ _ _ (scanString_of_firstBare first flat)
      exact ⟨after, gave, left⟩
  · cases read : scanString [] ['"'] behind with
    | none => rfl
    | some found =>
        obtain ⟨text, again, _⟩ := scanString_some read
        exact absurd ⟨text, found.2.2, again.split, again.bare⟩ open_

/-- The text behind a quote, with a backslash in front of its line break. -/
def brokenText : List Char := ['a', '\\', '\n', 'b']

theorem brokenText_bare : FirstBare '"' (brokenText ++ ['"']) brokenText [] ∧ ¬ Bare '\n' brokenText := by
  have last : FirstBare '"' ['b', '"'] ['b'] [] := FirstBare.here.plain (by decide) (by decide)
  refine ⟨(last.pair (by decide)).plain (by decide) (by decide), ?_⟩
  unfold brokenText
  rw [bare_plain (by decide), bare_pair (by decide), bare_plain (by decide)]
  simp [not_bare_nil]

/-- A line break behind a backslash is part of the literal: the literal spans two lines. -/
theorem string_literal_spans :
    Reached (String.ofList ('"' :: (brokenText ++ ['"']))).toList
      (Lexer.ofString (String.ofList ('"' :: (brokenText ++ ['"'])))) ∧
    (FirstBare '"' (brokenText ++ ['"']) brokenText [] ∧ ¬ Bare '\n' brokenText) ∧
    ∃ place after, (Lexer.ofString (String.ofList ('"' :: (brokenText ++ ['"'])))).next
      = (some (.ok ⟨.string "a\\\nb", "\"a\\\nb\"", place⟩), after) ∧ after.rest = [] := by
  have ahead : (Lexer.ofString (String.ofList ('"' :: (brokenText ++ ['"'])))).rest
      = [] ++ '"' :: (brokenText ++ ['"']) := String.toList_ofList
  obtain ⟨before, _, closes, _⟩ := string_literal .start rfl .nil (fun _ => List.not_mem_nil) ahead
  obtain ⟨after, gave, left⟩ := (closes brokenText [] brokenText_bare.1).2 brokenText_bare.2
  exact ⟨.start, brokenText_bare, placeBehind before, after, gave, left⟩

/-! ## Quoted texts -/

/-- In front of a quoted text a lexer gives the text, spelled as it is quoted, and leaves what stands behind it. -/
theorem next_literal {lexer : Lexer} {text behind : String} (running : lexer.finished = false)
    (ahead : lexer.rest = (Quoted.literal text).toList ++ behind.toList) :
    ∃ after, lexer.next = (some (.ok ⟨.string text, Quoted.literal text, lexer.location⟩), after) ∧
      after.rest = behind.toList := by
  have quoted : lexer.rest = '"' :: (text.toList.flatMap Quoted.literalChar ++ '"' :: behind.toList) := by
    rw [ahead, Quoted.literal, Quoted.literalChars, String.toList_ofList]
    simp
  have starts : scanGap lexer.pending .blank lexer.location lexer.rest
      = .word lexer.location ('"' :: (text.toList.flatMap Quoted.literalChar ++ '"' :: behind.toList)) := by
    rw [quoted]
    exact Syntax.scanGap_opens _ _ (Syntax.opens_of_first (by decide) _)
  have read := Syntax.scanString_literal text.toList [] ['"'] behind.toList
  obtain ⟨after, gave, left⟩ := (next_quote running starts).1 _ _ _ read
  refine ⟨after, ?_, left⟩
  rw [gave]
  simp [Quoted.literal, Quoted.literalChars]

/-- The lexer undoes quoting: the first token of a text that begins with a quoted text is this text, spelled exactly as
it is quoted, and what stands behind it is left. -/
theorem quoted_read (text behind : String) :
    (∃ after, (ofString (Quoted.literal text ++ behind)).next
        = (some (.ok ⟨.string text, Quoted.literal text, Location.start⟩), after) ∧ after.rest = behind.toList) ∧
    (ofString (Quoted.literal text ++ behind)).remaining.1.head?
      = some ⟨.string text, Quoted.literal text, Location.start⟩ := by
  have ahead : (ofString (Quoted.literal text ++ behind)).rest = (Quoted.literal text).toList ++ behind.toList :=
    String.toList_append
  obtain ⟨after, gave, left⟩ := @next_literal (ofString (Quoted.literal text ++ behind)) text behind rfl ahead
  refine ⟨⟨after, gave, left⟩, ?_⟩
  unfold Lexer.remaining Lexer.drain
  rw [gave]
  rfl

end MiniGo.Lexer
