import Mathlib.Data.List.Infix
import Mathlib.Tactic.Tauto
import MiniGo.Token.Lexer

/-!
# Gaps between words

A gap is made of blanks, line breaks and complete comments (`IsGap`); behind the last word of a text a line
comment may also be ended by the text. The scanner of gaps passes such a text and nothing else, up to a word,
to the end, or to the first place where a line break ends a statement (`scans`). In turn it passes every gap
in which no line break is due (`scanGap_gap`).
-/

namespace MiniGo.Lexer

/-- Blanks, line breaks and complete comments. -/
inductive IsGap : List Char → Prop where
  | nil : IsGap []
  | blank {c : Char} {rest : List Char} : c ∈ [' ', '\t', '\r', '\n'] → IsGap rest → IsGap (c :: rest)
  | lineComment {body rest : List Char} : '\n' ∉ body → IsGap rest →
      IsGap ('/' :: '/' :: (body ++ '\n' :: rest))
  | blockComment {body rest : List Char} : ¬ ['*', '/'] <:+: body → IsGap rest →
      IsGap ('/' :: '*' :: (body ++ '*' :: '/' :: rest))

/-- A gap behind which the text ends, which ends a line comment as well. -/
def IsLastGap (text : List Char) : Prop :=
  IsGap text ∨ ∃ gap body, text = gap ++ '/' :: '/' :: body ∧ IsGap gap ∧ '\n' ∉ body

theorem IsGap.append {first second : List Char} (gap : IsGap first) (other : IsGap second) :
    IsGap (first ++ second) := by
  induction gap with
  | nil => exact other
  | blank blank _ ih => exact .blank blank ih
  | lineComment flat _ ih => simpa using IsGap.lineComment flat ih
  | blockComment open_ _ ih => simpa using IsGap.blockComment open_ ih

theorem IsGap.append_last {first second : List Char} (gap : IsGap first) (last : IsLastGap second) :
    IsLastGap (first ++ second) := by
  rcases last with other | ⟨before, body, rfl, other, flat⟩
  · exact Or.inl (gap.append other)
  · exact Or.inr ⟨first ++ before, body, (List.append_assoc ..).symm, gap.append other, flat⟩

/-- What completes a gap, when `rest` tells gaps from other texts: in a comment its end comes first. -/
def Completes (rest : List Char → Prop) : GapMode → List Char → Prop
  | .blank, gap => rest gap
  | .lineComment, gap => ∃ body behind, gap = body ++ '\n' :: behind ∧ '\n' ∉ body ∧ rest behind
  | .blockComment _ _, gap =>
      ∃ body behind, gap = body ++ '*' :: '/' :: behind ∧ ¬ ['*', '/'] <:+: body ∧ rest behind

/-- What completes a gap behind which the text ends. -/
def CompletesLast (mode : GapMode) (gap : List Char) : Prop :=
  Completes IsLastGap mode gap ∨ (mode = .lineComment ∧ '\n' ∉ gap)

/-- A gap has a line break, be it in the part of a comment that is read already. -/
def HasBreak : GapMode → List Char → Prop
  | .blockComment _ spansLines, gap => spansLines = true ∨ '\n' ∈ gap
  | _, gap => '\n' ∈ gap

/-- What the scanner of gaps finds in a text. -/
def Scans (pending : Bool) (mode : GapMode) (location : Location) (text : List Char) : Gap → Prop
  | .word place rest => rest ≠ [] ∧ ∃ gap, text = gap ++ rest ∧ place = location.after gap ∧
      Completes IsGap mode gap ∧ (pending = true → ¬ HasBreak mode gap)
  | .lineBreak found place rest => pending = true ∧ ∃ before between, text = before ++ between ++ rest ∧
      found = location.after before ∧ place = location.after (before ++ between) ∧
      ((Completes IsGap mode (before ++ between) ∧ HasBreak mode (before ++ between)) ∨
        (CompletesLast mode (before ++ between) ∧ rest = []))
  | .finish place => pending = false ∧ place = location.after text ∧ CompletesLast mode text
  | .unterminated _ => True

variable {pending : Bool} {mode : GapMode} {location : Location}

/-- A text that is passed before a gap belongs to the gap, if it can be completed in the same way. -/
theorem Scans.prepend {inner : GapMode} {front text : List Char} {result : Gap}
    (scans : Scans pending inner (location.after front) text result)
    (completes : ∀ gap behind, text = gap ++ behind → Completes IsGap inner gap → Completes IsGap mode (front ++ gap))
    (last : ∀ gap behind, text = gap ++ behind → CompletesLast inner gap → CompletesLast mode (front ++ gap))
    (breaks : ∀ gap, HasBreak inner gap → HasBreak mode (front ++ gap))
    (unbroken : pending = true → ∀ gap, HasBreak mode (front ++ gap) → HasBreak inner gap) :
    Scans pending mode location (front ++ text) result := by
  cases result with
  | word place rest =>
      obtain ⟨some, gap, rfl, rfl, complete, flat⟩ := scans
      refine ⟨some, front ++ gap, (List.append_assoc ..).symm, ?_, completes gap rest rfl complete, ?_⟩
      · rw [Location.after_append]
      · exact fun due broken => flat due (unbroken due gap broken)
  | lineBreak found place rest =>
      obtain ⟨due, before, between, rfl, rfl, rfl, complete⟩ := scans
      refine ⟨due, front ++ before, between, by simp only [List.append_assoc], ?_, ?_, ?_⟩
      · rw [Location.after_append]
      · rw [List.append_assoc, Location.after_append location front]
      · rw [List.append_assoc]
        exact complete.imp (fun both => ⟨completes _ rest rfl both.1, breaks _ both.2⟩)
          fun both => ⟨last _ rest rfl both.1, both.2⟩
  | finish place =>
      obtain ⟨free, rfl, complete⟩ := scans
      exact ⟨free, by rw [Location.after_append], last text [] (List.append_nil text).symm complete⟩
  | unterminated _ => trivial

/-! ## Steps of the scanner -/

variable {start : Location} {spansLines : Bool} {c : Char} {text : List Char} {result : Gap}

theorem Scans.openLine (scans : Scans pending .lineComment (location.after ['/', '/']) text result) :
    Scans pending .blank location ('/' :: '/' :: text) result := by
  refine scans.prepend ?_ ?_ (fun gap broken => by simpa [HasBreak] using broken)
    (fun _ gap broken => by simpa [HasBreak] using broken)
  · rintro _ _ _ ⟨body, behind, rfl, flat, gap⟩
    exact .lineComment flat gap
  · rintro _ _ _ (⟨body, behind, rfl, flat, gap⟩ | ⟨_, flat⟩)
    · have whole := (IsGap.lineComment flat .nil).append_last gap
      exact Or.inl (by simpa [Completes] using whole)
    · exact Or.inl (Or.inr ⟨[], _, rfl, .nil, flat⟩)

theorem Scans.openBlock (scans : Scans pending (.blockComment start false) (location.after ['/', '*']) text result) :
    Scans pending .blank location ('/' :: '*' :: text) result := by
  refine scans.prepend ?_ ?_ (fun gap broken => by simpa [HasBreak] using broken)
    (fun _ gap broken => by simpa [HasBreak] using broken)
  · rintro _ _ _ ⟨body, behind, rfl, closed, gap⟩
    exact .blockComment closed gap
  · rintro _ _ _ (⟨body, behind, rfl, closed, gap⟩ | ⟨none, _⟩)
    · have whole := (IsGap.blockComment closed .nil).append_last gap
      exact Or.inl (by simpa [Completes] using whole)
    · exact nomatch none

theorem Scans.closeBlock (free : ¬ (spansLines && pending) = true)
    (scans : Scans pending .blank (location.after ['*', '/']) text result) :
    Scans pending (.blockComment start spansLines) location ('*' :: '/' :: text) result := by
  have empty : ¬ ['*', '/'] <:+: ([] : List Char) := by decide
  refine scans.prepend (fun gap _ _ complete => ⟨[], gap, rfl, empty, complete⟩) ?_
    (fun gap broken => Or.inr (by simpa [HasBreak] using broken)) (fun due gap broken => ?_)
  · rintro gap _ _ (last | ⟨none, _⟩)
    · exact Or.inl ⟨[], gap, rfl, empty, last⟩
    · exact nomatch none
  · rcases broken with spans | member
    · exact absurd (by rw [spans, due]; rfl) free
    · simpa [HasBreak] using member

theorem Scans.inBlock (open_ : ∀ rest, c = '*' → text = '/' :: rest → False)
    (scans : Scans pending (.blockComment start (spansLines || c == '\n')) (location.after [c]) text result) :
    Scans pending (.blockComment start spansLines) location (c :: text) result := by
  have closed : ∀ {body behind more : List Char}, ¬ ['*', '/'] <:+: body → text = body ++ '*' :: '/' :: behind ++ more →
      ¬ ['*', '/'] <:+: c :: body := by
    intro body behind more closed same inside
    rcases List.infix_cons_iff.mp inside with front | inside
    · obtain ⟨rfl, rest, rfl⟩ := List.cons_prefix_cons.mp front
      exact open_ _ rfl same
    · exact closed inside
  have breaks : ∀ gap, HasBreak (.blockComment start (spansLines || c == '\n')) gap ↔
      HasBreak (.blockComment start spansLines) ([c] ++ gap) := by
    intro gap
    simp only [HasBreak, Bool.or_eq_true, beq_iff_eq, List.singleton_append, List.mem_cons, or_assoc]
    rw [eq_comm (a := c)]
  refine scans.prepend ?_ ?_ (fun gap => (breaks gap).mp) (fun _ gap => (breaks gap).mpr)
  · rintro _ more same ⟨body, behind, rfl, isOpen, gap⟩
    exact ⟨c :: body, behind, rfl, closed isOpen same, gap⟩
  · rintro _ more same (⟨body, behind, rfl, isOpen, gap⟩ | ⟨none, _⟩)
    · exact Or.inl ⟨c :: body, behind, rfl, closed isOpen same, gap⟩
    · exact nomatch none

theorem Scans.inLine (flat : c ≠ '\n') (scans : Scans pending .lineComment (location.after [c]) text result) :
    Scans pending .lineComment location (c :: text) result := by
  have still : ∀ {body : List Char}, '\n' ∉ body → '\n' ∉ c :: body := fun none member =>
    (List.mem_cons.mp member).elim (fun same => flat same.symm) none
  refine scans.prepend ?_ ?_ (fun gap member => List.mem_cons_of_mem c member)
    (fun _ gap member => (List.mem_cons.mp member).resolve_left (Ne.symm flat))
  · rintro _ _ _ ⟨body, behind, rfl, none, gap⟩
    exact ⟨c :: body, behind, rfl, still none, gap⟩
  · rintro _ _ _ (⟨body, behind, rfl, none, gap⟩ | ⟨_, none⟩)
    · exact Or.inl ⟨c :: body, behind, rfl, still none, gap⟩
    · exact Or.inr ⟨rfl, still none⟩

theorem Scans.closeLine (free : ¬ pending = true) (scans : Scans pending .blank (location.after ['\n']) text result) :
    Scans pending .lineComment location ('\n' :: text) result := by
  refine scans.prepend (fun gap _ _ complete => ⟨[], gap, rfl, List.not_mem_nil, complete⟩) ?_
    (fun gap _ => List.mem_cons_self) (fun due => absurd due free)
  rintro gap _ _ (last | ⟨none, _⟩)
  · exact Or.inl ⟨[], gap, rfl, List.not_mem_nil, last⟩
  · exact nomatch none

theorem Scans.blank (blank : c ∈ [' ', '\t', '\r', '\n']) (flat : pending = true → c ≠ '\n')
    (scans : Scans pending .blank (location.after [c]) text result) : Scans pending .blank location (c :: text) result := by
  refine scans.prepend (fun gap _ _ complete => .blank blank complete) ?_
    (fun gap member => List.mem_cons_of_mem c member)
    (fun due gap member => (List.mem_cons.mp member).resolve_left (Ne.symm (flat due)))
  rintro gap _ _ (last | ⟨none, _⟩)
  · exact Or.inl ((IsGap.blank blank .nil).append_last last)
  · exact nomatch none

/-- The scanner of gaps passes gaps and nothing else. -/
theorem scans (pending : Bool) (mode : GapMode) (location : Location) (text : List Char) :
    Scans pending mode location text (scanGap pending mode location text) := by
  fun_induction scanGap pending mode location text with
  | case1 => trivial
  | case2 location due => exact ⟨due, [], [], rfl, rfl, rfl, Or.inr ⟨Or.inl (Or.inl .nil), rfl⟩⟩
  | case3 location free => exact ⟨Bool.not_eq_true _ ▸ free, rfl, Or.inl (Or.inl .nil)⟩
  | case4 location due => exact ⟨due, [], [], rfl, rfl, rfl, Or.inr ⟨Or.inr ⟨rfl, List.not_mem_nil⟩, rfl⟩⟩
  | case5 location free => exact ⟨Bool.not_eq_true _ ▸ free, rfl, Or.inr ⟨rfl, List.not_mem_nil⟩⟩
  | case6 location rest ih => exact ih.openLine
  | case7 location rest ih => exact ih.openBlock
  | case8 start spansLines location rest behind due =>
      obtain ⟨spans, due⟩ := Bool.and_eq_true_iff.mp due
      exact ⟨due, ['*', '/'], [], rfl, rfl, rfl, Or.inl ⟨⟨[], [], rfl, by decide, .nil⟩, Or.inl spans⟩⟩
  | case9 start spansLines location rest behind free ih => exact ih.closeBlock free
  | case10 start spansLines location c rest open_ ih => exact ih.inBlock open_
  | case11 location rest due =>
      exact ⟨due, [], ['\n'], rfl, rfl, rfl, Or.inl ⟨⟨[], [], rfl, List.not_mem_nil, .nil⟩, List.mem_cons_self⟩⟩
  | case12 location rest free ih => exact ih.closeLine free
  | case13 location c rest flat ih => exact ih.inLine flat
  | case14 location rest due =>
      exact ⟨due, [], ['\n'], rfl, rfl, rfl, Or.inl ⟨.blank (by decide) .nil, List.mem_cons_self⟩⟩
  | case15 location rest free _ _ ih => exact ih.blank (by decide) fun due => absurd due free
  | case16 location c rest _ _ flat blank ih => exact ih.blank (by grind) fun _ => flat
  | case17 location c rest => exact ⟨List.cons_ne_nil c rest, [], rfl, rfl, .nil, fun _ => List.not_mem_nil⟩

/-! ## Passing gaps -/

variable {gap body rest : List Char}

theorem scanGap_openLine (location : Location) : scanGap pending .blank location ('/' :: '/' :: rest)
    = scanGap pending .lineComment (location.after ['/', '/']) rest := rfl

theorem scanGap_openBlock (location : Location) : scanGap pending .blank location ('/' :: '*' :: rest)
    = scanGap pending (.blockComment location false) (location.after ['/', '*']) rest := rfl

theorem scanGap_closeBlock (location : Location) :
    scanGap pending (.blockComment start spansLines) location ('*' :: '/' :: rest)
      = if spansLines && pending then .lineBreak (location.after ['*', '/']) (location.after ['*', '/']) rest
        else scanGap pending .blank (location.after ['*', '/']) rest := rfl

theorem scanGap_lineBreak (location : Location) :
    scanGap pending .blank location ('\n' :: rest) = if pending = true then
      .lineBreak location (location.step '\n') rest else scanGap pending .blank (location.step '\n') rest := rfl

theorem scanGap_endLine (location : Location) :
    scanGap pending .lineComment location ('\n' :: rest) = scanGap pending .blank location ('\n' :: rest) := rfl

theorem scanGap_inLine (flat : c ≠ '\n') (location : Location) :
    scanGap pending .lineComment location (c :: rest) = scanGap pending .lineComment (location.step c) rest := if_neg flat

theorem scanGap_blank (blank : c ∈ [' ', '\t', '\r', '\n']) (flat : pending = true → c ≠ '\n') (location : Location) :
    scanGap pending .blank location (c :: rest) = scanGap pending .blank (location.step c) rest := by
  simp only [List.mem_cons, List.not_mem_nil, or_false] at blank
  rcases blank with rfl | rfl | rfl | rfl
  · rfl
  · rfl
  · rfl
  · exact if_neg fun due => flat due rfl

/-- A line comment is passed up to its line break, which does what a line break outside does. -/
theorem scanGap_lineComment (flat : '\n' ∉ body) (location : Location) :
    scanGap pending .lineComment location (body ++ '\n' :: rest)
      = scanGap pending .blank (location.after body) ('\n' :: rest) := by
  induction body generalizing location with
  | nil => exact scanGap_endLine location
  | cons c body ih =>
      obtain ⟨here, others⟩ := not_or.mp (List.mem_cons.not.mp flat)
      rw [List.cons_append, scanGap_inLine (Ne.symm here), ih others, Location.after_cons]

theorem scanGap_lastComment (flat : '\n' ∉ body) (location : Location) :
    scanGap pending .lineComment location body = scanGap pending .blank (location.after body) [] := by
  induction body generalizing location with
  | nil => rfl
  | cons c body ih =>
      obtain ⟨here, others⟩ := not_or.mp (List.mem_cons.not.mp flat)
      rw [scanGap_inLine (Ne.symm here), ih others, Location.after_cons]

/-- A block comment is passed up to its end, where a line break in it is due. -/
theorem scanGap_blockComment (closed : ¬ ['*', '/'] <:+: body) (location : Location) :
    scanGap pending (.blockComment start spansLines) location (body ++ '*' :: '/' :: rest)
      = if (spansLines || decide ('\n' ∈ body)) && pending then
          .lineBreak (location.after (body ++ ['*', '/'])) (location.after (body ++ ['*', '/'])) rest
        else scanGap pending .blank (location.after (body ++ ['*', '/'])) rest := by
  induction body generalizing location spansLines with
  | nil => rw [List.nil_append, scanGap_closeBlock, decide_eq_false List.not_mem_nil, Bool.or_false]; rfl
  | cons c body ih =>
      have open_ : ∀ behind, c = '*' → body ++ '*' :: '/' :: rest = '/' :: behind → False := by
        rintro behind rfl same
        cases body with
        | nil => cases same
        | cons other body =>
            obtain ⟨rfl, _⟩ := List.cons.inj same
            exact closed ⟨[], body, rfl⟩
      have others : ¬ ['*', '/'] <:+: body := fun inside => closed (inside.trans (List.suffix_cons c body).isInfix)
      have spans : (spansLines || c == '\n' || decide ('\n' ∈ body)) = (spansLines || decide ('\n' ∈ c :: body)) := by
        rw [Bool.or_assoc, Bool.eq_iff_iff]
        simp only [Bool.or_eq_true, beq_iff_eq, decide_eq_true_eq, List.mem_cons]
        rw [eq_comm (a := c)]
      rw [List.cons_append, scanGap.eq_7 _ _ _ _ _ _ open_, ih others, spans]
      rfl

/-- A gap is passed, unless a line break in it is due. -/
theorem scanGap_gap (isGap : IsGap gap) (flat : pending = true → '\n' ∉ gap) (location : Location) :
    scanGap pending .blank location (gap ++ rest) = scanGap pending .blank (location.after gap) rest := by
  induction isGap generalizing location with
  | nil => rfl
  | @blank c gap blank isGap ih =>
      have here : pending = true → c ≠ '\n' := fun due same => flat due (same ▸ List.mem_cons_self)
      rw [List.cons_append, scanGap_blank blank here, ih fun due member => flat due (List.mem_cons_of_mem c member),
        Location.after_cons]
  | @lineComment body gap none isGap ih =>
      obtain rfl : pending = false := Bool.eq_false_iff.mpr fun due => flat due (by simp)
      have free : false = true → '\n' ∉ gap := fun due => absurd due Bool.false_ne_true
      rw [List.cons_append, List.cons_append, List.append_assoc, List.cons_append, scanGap_openLine,
        scanGap_lineComment none, scanGap_lineBreak, if_neg Bool.false_ne_true, ih free]
      simp only [Location.after_cons, Location.after_append, Location.after_nil]
  | @blockComment body gap closed isGap ih =>
      have free : ¬ ((false || decide ('\n' ∈ body)) && pending) = true := by
        rw [Bool.false_or, Bool.and_eq_true, decide_eq_true_eq]
        exact fun both => flat both.2 (by simp [both.1])
      have others : pending = true → '\n' ∉ gap := fun due member => flat due (by simp [member])
      rw [List.cons_append, List.cons_append, List.append_assoc, List.cons_append, List.cons_append, scanGap_openBlock,
        scanGap_blockComment closed, if_neg free, ih others]
      simp only [Location.after_cons, Location.after_append, Location.after_nil]

/-- A due line break in a gap is found, and what is left behind it is a gap. -/
theorem scanGap_due (isGap : IsGap gap) (broken : '\n' ∈ gap) (location : Location) (rest : List Char) :
    ∃ found place more, scanGap true .blank location (gap ++ rest) = .lineBreak found place (more ++ rest) ∧
      IsGap more := by
  induction isGap generalizing location with
  | nil => cases broken
  | @blank c gap blank isGap ih =>
      by_cases line : c = '\n'
      · subst line
        exact ⟨_, _, gap, (scanGap_lineBreak location).trans (if_pos rfl), isGap⟩
      · obtain ⟨found, place, more, same, isMore⟩ :=
          ih ((List.mem_cons.mp broken).resolve_left (Ne.symm line)) (location.step c)
        exact ⟨found, place, more, by rw [List.cons_append, scanGap_blank blank fun _ => line, same], isMore⟩
  | @lineComment body gap none isGap ih =>
      rw [List.cons_append, List.cons_append, List.append_assoc, List.cons_append, scanGap_openLine,
        scanGap_lineComment none, scanGap_lineBreak, if_pos rfl]
      exact ⟨_, _, gap, rfl, isGap⟩
  | @blockComment body gap closed isGap ih =>
      rw [List.cons_append, List.cons_append, List.append_assoc, List.cons_append, List.cons_append, scanGap_openBlock,
        scanGap_blockComment closed, Bool.false_or, Bool.and_true]
      by_cases inside : '\n' ∈ body
      · rw [if_pos (decide_eq_true inside)]
        exact ⟨_, _, gap, rfl, isGap⟩
      · rw [if_neg (by simpa using inside)]
        exact ih (by simpa [inside] using broken) _

theorem scanGap_finish (isLast : IsLastGap gap) (location : Location) :
    ∃ place, scanGap false .blank location gap = .finish place := by
  have passed {first : List Char} (isGap : IsGap first) (rest : List Char) :
      scanGap false .blank location (first ++ rest) = scanGap false .blank (location.after first) rest :=
    scanGap_gap isGap (fun due => absurd due Bool.false_ne_true) location
  rcases isLast with isGap | ⟨first, body, rfl, isGap, flat⟩
  · rw [← List.append_nil gap, passed isGap]
    exact ⟨_, rfl⟩
  · rw [passed isGap, scanGap_openLine, scanGap_lastComment flat]
    exact ⟨_, rfl⟩

/-- In a gap that ends the text a line break is always due, and what is left behind it is such a gap. -/
theorem scanGap_dueLast (isLast : IsLastGap gap) (location : Location) :
    ∃ found place more, scanGap true .blank location gap = .lineBreak found place more ∧ IsLastGap more := by
  rcases isLast with isGap | ⟨first, body, rfl, isGap, flat⟩
  · by_cases broken : '\n' ∈ gap
    · obtain ⟨found, place, more, same, isMore⟩ := scanGap_due isGap broken location []
      rw [List.append_nil, List.append_nil] at same
      exact ⟨found, place, more, same, Or.inl isMore⟩
    · rw [← List.append_nil gap, scanGap_gap isGap fun _ => broken]
      exact ⟨_, _, [], rfl, Or.inl .nil⟩
  · by_cases broken : '\n' ∈ first
    · obtain ⟨found, place, more, same, isMore⟩ := scanGap_due isGap broken location ('/' :: '/' :: body)
      exact ⟨found, place, _, same, Or.inr ⟨more, body, rfl, isMore, flat⟩⟩
    · rw [scanGap_gap isGap fun _ => broken, scanGap_openLine, scanGap_lastComment flat]
      exact ⟨_, _, [], rfl, Or.inl .nil⟩

end MiniGo.Lexer
