import MiniGo.Proofs.Decimal.Literals
import MiniGo.Proofs.Syntax.Formed
import MiniGo.Tree.Printer

/-!
# Words from their spelling

The canonical spelling of a word is read as this word, unless the text behind it goes on with it
(`readable`).
-/

namespace MiniGo.Syntax

open Lexer

/-! ## Characters -/

theorem isDigit_iff {c : Char} : CharClass.isDigit c = true ↔ 48 ≤ c.toNat ∧ c.toNat ≤ 57 := by
  simp only [CharClass.isDigit, Bool.and_eq_true, decide_eq_true_eq, Char.le_def, UInt32.le_iff_toNat_le]
  exact Iff.rfl

theorem startsName_of_isDigit {c : Char} (digit : CharClass.isDigit c = true) : CharClass.startsName c = false := by
  obtain ⟨least, most⟩ := isDigit_iff.mp digit
  rw [← Char.ofNat_toNat c]
  generalize c.toNat = code at *
  interval_cases code <;> rfl

theorem continuesName_of_isDigit {c : Char} (digit : CharClass.isDigit c = true) :
    CharClass.continuesName c = true := by
  obtain ⟨least, most⟩ := isDigit_iff.mp digit
  rw [← Char.ofNat_toNat c]
  generalize c.toNat = code at *
  interval_cases code <;> rfl

theorem endsNumber_of_apart {rest : List Char}
    (apart : ∀ c ∈ rest.head?, CharClass.continuesName c = false ∧ c ≠ '.') : EndsNumber rest := by
  intro c member
  obtain ⟨stops, point⟩ := apart c member
  refine ⟨?_, point, ?_, ?_⟩
  · rw [Bool.eq_false_iff]
    intro digit
    rw [continuesName_of_isDigit digit] at stops
    cases stops
  · rintro rfl
    exact absurd stops (by decide)
  · rintro rfl
    exact absurd stops (by decide)

/-! ## What may stand behind a word -/

/-- The characters that a mark or an operator may go on with, and those that turn a slash into a comment. -/
def joints : List Char := ['=', '+', '-', '<', '>', '&', '|', '^', '/', '*']

def isClosed : Word → Bool
  | .mark sign => sign.isPunctuation && sign != .colon
  | .semicolon _ => true
  | _ => false

/-- A word in front of this text ends there. -/
def Apart (rest : List Char) : Word → Prop
  | .keyword _ | .identifier _ => ∀ c ∈ rest.head?, CharClass.continuesName c = false
  | .integer _ | .float _ => ∀ c ∈ rest.head?, CharClass.continuesName c = false ∧ c ≠ '.'
  | .string _ => True
  | .mark .dot => ∀ c ∈ rest.head?, CharClass.isDigit c = false
  | word => isClosed word = true ∨ ∀ c ∈ rest.head?, c ∉ joints

def infinityName : String := "inf"

/-- The word that the spelling of a word is read as: an infinite float is spelled as a name. -/
def settled : Word → Word
  | .float value => if Decimal.IsFinite value then .float value else .identifier infinityName
  | word => word

theorem endsStatement_settled (word : Word) : (settled word).endsStatement = word.endsStatement := by
  cases word with
  | float value =>
      by_cases finite : Decimal.IsFinite value
      · rw [settled, if_pos finite]
      · rw [settled, if_neg finite]
        rfl
  | _ => rfl

/-- A word that a layout spells out. -/
def Spelled : Word → Prop
  | .semicolon implicit => implicit = false
  | .endOfInput => False
  | word => WordFormed word

/-! ## Marks and operators -/

/-- A character that neither a gap nor a word of another sort begins with. -/
def opensFixed (c : Char) : Bool :=
  c != '"' && !CharClass.startsName c && !CharClass.isDigit c && c != '\n' && c != ' ' && c != '\r' && c != '\t'

/-- A mark or an operator: alone its spelling is read as itself, and no gap and no other word begins like it. -/
structure IsFixed (word : Word) : Prop where
  alone : scanFixed word.spelling = some (word, word.spelling, [])
  opens : word.spelling.head?.any opensFixed = true
  same : settled word = word

theorem isFixed_mark (sign : Mark) : IsFixed (.mark sign) := by
  cases sign <;> exact ⟨rfl, rfl, rfl⟩

theorem isFixed_operator (op : BinaryOp) : IsFixed (.operator op) := by
  cases op <;> exact ⟨rfl, rfl, rfl⟩

theorem isFixed_semicolon : IsFixed (.semicolon false) := ⟨rfl, rfl, rfl⟩

theorem isFixed_compound {op : BinaryOp} (arithmetic : op.isArithmetic = true) : IsFixed (.compound op) := by
  cases op with
  | equal | notEqual | less | lessEqual | greater | greaterEqual | and | or => cases arithmetic
  | _ => exact ⟨rfl, rfl, rfl⟩

/-- The spellings of the table. -/
def spellings : List (List Char) :=
  [['&', '^', '='], ['<', '<', '='], ['>', '>', '='], [':', '='], ['=', '='], ['!', '='], ['<', '='], ['>', '='],
   ['&', '&'], ['|', '|'], ['&', '^'], ['<', '<'], ['>', '>'], ['+', '+'], ['-', '-'], ['+', '='], ['-', '='],
   ['*', '='], ['/', '='], ['%', '='], ['&', '='], ['|', '='], ['^', '='], ['('], [')'], ['\x7b'], ['\x7d'],
   ['['], [']'], [','], [';'], [':'], ['.'], ['='], ['!'], ['+'], ['-'], ['*'], ['/'], ['%'], ['&'], ['|'],
   ['^'], ['<'], ['>']]

theorem fixed_spellings : Word.fixed.map (·.1.toList) = spellings := by rfl

theorem mem_spellings {entry : String × Word} (inside : entry ∈ Word.fixed) : entry.1.toList ∈ spellings :=
  fixed_spellings ▸ List.mem_map_of_mem inside

theorem spellings_joints {spelling : List Char} (inside : spelling ∈ spellings) {c : Char}
    (member : c ∈ spelling.tail) : c ∈ joints := by
  have all : (spellings.all fun spelling => spelling.tail.all joints.contains) = true := by rfl
  exact List.contains_iff_mem.mp (List.all_eq_true.mp (List.all_eq_true.mp all _ inside) _ member)

set_option maxRecDepth 4000 in
theorem spellings_closed {word : Word} (closed : isClosed word = true) :
    ∀ spelling ∈ spellings, word.spelling <+: spelling → spelling.length ≤ word.spelling.length := by
  cases word with
  | mark sign =>
      cases sign <;> first | exact absurd closed (by decide) | decide
  | semicolon implicit => cases implicit <;> decide
  | _ => cases closed

/-- What stands behind an entry does not change which one is the longest, unless an entry goes on with it. -/
theorem scanFixed_append {text rest : List Char}
    (apart : ∀ c ∈ rest.head?, ∀ entry ∈ Word.fixed, ¬ text ++ [c] <+: entry.1.toList) :
    scanFixed (text ++ rest)
      = (scanFixed text).map fun found => (found.1, found.2.1, found.2.2 ++ rest) := by
  -- An entry that reaches into what stands behind would go on with its first character.
  have same : ∀ entry ∈ Word.fixed, entry.1.toList <+: text ++ rest → entry.1.toList <+: text := by
    intro entry inside found
    rcases List.prefix_or_prefix_of_prefix found (List.prefix_append _ rest) with short | ⟨tail, long⟩
    · exact short
    · cases tail with
      | nil => rw [← long, List.append_nil]
      | cons c tail =>
          rw [← long, List.prefix_append_right_inj] at found
          obtain ⟨more, rfl⟩ := found
          refine absurd ⟨tail, ?_⟩ (apart c rfl entry inside)
          rw [← long, List.append_assoc, List.singleton_append]
  unfold scanFixed
  generalize Word.fixed = table at same
  induction table with
  | nil => rfl
  | cons entry table ih =>
      obtain ⟨here, others⟩ := List.forall_mem_cons.mp same
      rw [List.findSome?_cons, List.findSome?_cons]
      by_cases found : entry.1.toList <+: text
      · have longer := found.trans (List.prefix_append text rest)
        simp [found, longer, List.drop_append_of_le_length found.length_le]
      · have missing : ¬ entry.1.toList <+: text ++ rest := fun longer => found (here longer)
        dsimp only
        rw [if_neg (by rwa [List.isPrefixOf_iff_prefix]), if_neg (by rwa [List.isPrefixOf_iff_prefix])]
        exact ih others

theorem scanFixed_spelling {word : Word} {rest : List Char} (fixed : IsFixed word)
    (apart : isClosed word = true ∨ ∀ c ∈ rest.head?, c ∉ joints) :
    scanFixed (word.spelling ++ rest) = some (word, word.spelling, rest) := by
  -- No entry goes on from this word, or none goes on with what stands behind.
  have longest : ∀ c ∈ rest.head?, ∀ entry ∈ Word.fixed, ¬ word.spelling ++ [c] <+: entry.1.toList := by
    intro c member entry inside longer
    rcases apart with closed | others
    · have most := spellings_closed closed _ (mem_spellings inside) ((List.prefix_append _ [c]).trans longer)
      have least := longer.length_le
      rw [List.length_append, List.length_singleton] at least
      omega
    · refine others c member (spellings_joints (mem_spellings inside) ?_)
      obtain ⟨more, same⟩ := longer
      cases spelled : word.spelling with
      | nil =>
          have opens := fixed.opens
          rw [spelled] at opens
          cases opens
      | cons first tail =>
          rw [← same, spelled]
          simp
  rw [scanFixed_append longest, fixed.alone]
  rfl

/-! ## Names, numbers and strings -/

theorem scanWord_name (location : Location) {first : Char} {chars rest : List Char}
    (starts : CharClass.startsName first = true) (continues : ∀ c ∈ chars, CharClass.continuesName c = true)
    (stops : ∀ c ∈ rest.head?, CharClass.continuesName c = false) :
    scanWord location (first :: chars ++ rest)
      = .ok (nameWord (String.ofList (first :: chars)), first :: chars, rest) := by
  have unquoted : first ≠ '"' := by
    rintro rfl
    exact absurd starts (by decide)
  have all : ∀ c ∈ first :: chars, CharClass.continuesName c = true :=
    List.forall_mem_cons.mpr ⟨CharClass.continuesName_of_startsName first starts, continues⟩
  have read := span_append all stops
  simp only [List.cons_append] at read ⊢
  simp only [scanWord, if_neg unquoted, if_pos starts, read]

theorem scanWord_number (location : Location) {number : NumberText} {word : Word} {rest : List Char}
    (formed : number.Formed) (stands : number.word? = some word) (ends : EndsNumber rest) :
    scanWord location (number.lexeme ++ rest) = .ok (word, number.lexeme, rest) := by
  have read := scanNumber_lexeme formed ends
  obtain ⟨first, tail, same, digit⟩ : ∃ first tail, number.lexeme ++ rest = first :: tail ∧
      CharClass.isDigit first = true := by
    obtain ⟨first, digits, whole⟩ := List.exists_cons_of_ne_nil formed.begins
    have digit := formed.whole first (by rw [whole]; exact List.mem_cons_self)
    rw [NumberText.lexeme, whole]
    exact ⟨first, _, rfl, digit⟩
  rw [same] at read ⊢
  have unquoted : first ≠ '"' := by
    rintro rfl
    exact absurd digit (by decide)
  simp only [scanWord, if_neg unquoted, startsName_of_isDigit digit, Bool.false_eq_true, if_false, digit,
    Bool.true_or, if_true, read, stands]

theorem scanString_plain {c : Char} (quote : c ≠ '"') (backslash : c ≠ '\\') (line : c ≠ '\n')
    (value lexeme rest : List Char) :
    scanString value lexeme (c :: rest) = scanString (c :: value) (c :: lexeme) rest := by
  rw [scanString.eq_4 _ _ _ _ (fun same _ => backslash same) (fun _ _ same _ => backslash same), if_neg line,
    if_neg quote]

/-- What a character is written as is read as this character, whatever stands behind it. -/
theorem scanString_literalChar (c : Char) (value lexeme rest : List Char) :
    scanString value lexeme (Quoted.literalChar c ++ rest)
      = scanString (c :: value) ((Quoted.literalChar c).reverse ++ lexeme) rest := by
  unfold Quoted.literalChar
  split
  · rfl
  · rfl
  · rfl
  · rfl
  · rename_i quote backslash line _
    exact scanString_plain quote backslash line value lexeme rest

theorem scanString_literal (text value lexeme rest : List Char) :
    scanString value lexeme (text.flatMap Quoted.literalChar ++ '"' :: rest)
      = some (value.reverse ++ text, lexeme.reverse ++ (text.flatMap Quoted.literalChar ++ ['"']), rest) := by
  induction text generalizing value lexeme with
  | nil => simp [scanString]
  | cons c text ih =>
      rw [List.flatMap_cons, List.append_assoc, scanString_literalChar, ih]
      simp

/-! ## Words -/

/-- A text at whose first character a gap ends. -/
structure Opens (text : List Char) : Prop where
  visible : ∃ c ∈ text.head?, c ≠ '\n' ∧ c ≠ ' ' ∧ c ≠ '\r' ∧ c ≠ '\t'
  noComment : '/' ∈ text.head? → ∀ c ∈ text.tail.head?, c ≠ '/' ∧ c ≠ '*'

theorem scanGap_opens (pending : Bool) (location : Location) {text : List Char} (opens : Opens text) :
    scanGap pending .blank location text = .word location text := by
  obtain ⟨c, first, line, blank, back, tab⟩ := opens.visible
  obtain ⟨text, rfl⟩ : ∃ tail, text = c :: tail := by
    cases text with
    | nil => cases first
    | cons other tail => exact ⟨tail, by rw [Option.some.inj first]⟩
  have slashes : ∀ rest, c = '/' → text = '/' :: rest → False := by
    rintro rest rfl rfl
    exact (opens.noComment rfl '/' rfl).1 rfl
  have star : ∀ rest, c = '/' → text = '*' :: rest → False := by
    rintro rest rfl rfl
    exact (opens.noComment rfl '*' rfl).2 rfl
  rw [scanGap.eq_9 _ _ _ _ slashes star, if_neg line, if_neg (by simp [blank, back, tab])]

theorem opens_of_first {c : Char} (plain : c ∉ ['\n', ' ', '\r', '\t', '/']) (tail : List Char) :
    Opens (c :: tail) := by
  simp only [List.mem_cons, List.not_mem_nil, or_false, not_or] at plain
  obtain ⟨line, blank, back, tab, slash⟩ := plain
  exact ⟨⟨c, rfl, line, blank, back, tab⟩, fun same => absurd (Option.some.inj same) slash⟩

theorem opens_of_startsName {c : Char} (starts : CharClass.startsName c = true) (tail : List Char) :
    Opens (c :: tail) := by
  refine opens_of_first (fun member => ?_) tail
  simp only [List.mem_cons, List.not_mem_nil, or_false] at member
  rcases member with rfl | rfl | rfl | rfl | rfl <;> exact absurd starts (by decide)

theorem opens_number {number : NumberText} (formed : number.Formed) (rest : List Char) :
    Opens (number.lexeme ++ rest) := by
  obtain ⟨c, digits, whole⟩ := List.exists_cons_of_ne_nil formed.begins
  have digit := formed.whole c (by rw [whole]; exact List.mem_cons_self)
  rw [NumberText.lexeme, whole]
  refine opens_of_first (fun member => ?_) _
  simp only [List.mem_cons, List.not_mem_nil, or_false] at member
  rcases member with rfl | rfl | rfl | rfl | rfl <;> exact absurd digit (by decide)

theorem opens_fixed {word : Word} {rest : List Char} (fixed : IsFixed word)
    (slash : '/' ∈ word.spelling.head? → ∀ c ∈ (word.spelling.tail ++ rest).head?, c ≠ '/' ∧ c ≠ '*') :
    Opens (word.spelling ++ rest) := by
  have opens := fixed.opens
  cases same : word.spelling with
  | nil =>
      rw [same] at opens
      cases opens
  | cons c tail =>
      rw [same] at opens slash
      simp only [List.head?_cons, Option.any_some, opensFixed, Bool.and_eq_true, bne_iff_ne, ne_eq] at opens
      obtain ⟨⟨⟨⟨_, line⟩, blank⟩, back⟩, tab⟩ := opens
      exact ⟨⟨c, rfl, line, blank, back, tab⟩, slash⟩

/-- Only the point begins with a point. -/
theorem scanWord_fixed (location : Location) {word : Word} {rest : List Char} (fixed : IsFixed word)
    (apart : isClosed word = true ∨ ∀ c ∈ rest.head?, c ∉ joints)
    (point : '.' ∈ word.spelling.head? → ∀ c ∈ (word.spelling.tail ++ rest).head?, CharClass.isDigit c = false) :
    scanWord location (word.spelling ++ rest) = .ok (word, word.spelling, rest) := by
  have read := scanFixed_spelling fixed apart
  have opens := fixed.opens
  cases same : word.spelling with
  | nil =>
      rw [same] at opens
      cases opens
  | cons c tail =>
      rw [same] at opens point read
      simp only [List.head?_cons, Option.any_some, opensFixed, Bool.and_eq_true, bne_iff_ne, ne_eq,
        Bool.not_eq_true'] at opens
      obtain ⟨⟨⟨⟨⟨⟨quote, starts⟩, digit⟩, _⟩, _⟩, _⟩, _⟩ := opens
      -- A point with a digit behind it would open a number.
      have noNumber : (c == '.' && (tail ++ rest).head?.any CharClass.isDigit) = false := by
        rw [Bool.and_eq_false_iff, beq_eq_false_iff_ne]
        by_cases isPoint : c = '.'
        · right
          rw [Option.any_eq_false]
          intro d member
          rw [point (by rw [isPoint]; rfl) d member]
        · exact Or.inl isPoint
      simp only [List.cons_append] at read ⊢
      simp only [scanWord, if_neg quote, starts, digit, noNumber, Bool.false_eq_true, if_false, Bool.or_self, read]

/-- A word that is read from its spelling in front of a text. -/
structure Readable (rest : List Char) (word : Word) : Prop where
  opens : Opens (word.spelling ++ rest)
  scan : ∀ location, ∃ lexeme, scanWord location (word.spelling ++ rest) = .ok (settled word, lexeme, rest)

variable {rest : List Char}

theorem readable_name {word : Word} {first : Char} {chars : List Char}
    (spelled : word.spelling = first :: chars)
    (stands : nameWord (String.ofList (first :: chars)) = settled word)
    (starts : CharClass.startsName first = true) (continues : ∀ c ∈ chars, CharClass.continuesName c = true)
    (stops : ∀ c ∈ rest.head?, CharClass.continuesName c = false) : Readable rest word := by
  refine ⟨?_, fun location => ⟨first :: chars, ?_⟩⟩
  · rw [spelled]
    exact opens_of_startsName starts _
  · rw [spelled, scanWord_name location starts continues stops, stands]

theorem readable_keyword (keyword : Keyword) (stops : ∀ c ∈ rest.head?, CharClass.continuesName c = false) :
    Readable rest (.keyword keyword) := by
  have stands : nameWord (String.ofList keyword.spelling.toList) = .keyword keyword := by
    rw [String.ofList_toList, nameWord, Keyword.ofSpelling?_spelling]
  have begins : keyword.spelling.toList.head?.any CharClass.startsName = true := by cases keyword <;> rfl
  have letters : keyword.spelling.toList.tail.all CharClass.continuesName = true := by cases keyword <;> rfl
  cases spelled : keyword.spelling.toList with
  | nil =>
      rw [spelled] at begins
      cases begins
  | cons first chars =>
      rw [spelled] at stands begins letters
      exact readable_name spelled stands begins (List.all_eq_true.mp letters) stops

theorem readable_identifier {name : String} (named : IsName name)
    (stops : ∀ c ∈ rest.head?, CharClass.continuesName c = false) : Readable rest (.identifier name) := by
  obtain ⟨first, chars, spelled, starts, continues⟩ := named.spelled
  refine readable_name spelled ?_ starts continues stops
  rw [← spelled, String.ofList_toList, nameWord, named.free]
  rfl

theorem readable_number {word : Word} {number : NumberText} (formed : number.Formed)
    (spelled : word.spelling = number.lexeme) (stands : number.word? = some (settled word))
    (apart : ∀ c ∈ rest.head?, CharClass.continuesName c = false ∧ c ≠ '.') : Readable rest word := by
  have ends : EndsNumber rest := endsNumber_of_apart apart
  refine ⟨?_, fun location => ⟨number.lexeme, ?_⟩⟩
  · rw [spelled]
    exact opens_number formed rest
  · rw [spelled, scanWord_number location formed stands ends]

theorem readable_string (text : String) : Readable rest (.string text) := by
  refine ⟨opens_of_first (by decide) _, fun location => ?_⟩
  have spelled : (Word.string text).spelling ++ rest
      = '"' :: (text.toList.flatMap Quoted.literalChar ++ '"' :: rest) := by
    simp [Word.spelling, Quoted.literalChars]
  refine ⟨Quoted.literalChars text.toList, ?_⟩
  rw [spelled, scanWord, if_pos rfl, scanString_literal]
  simp [settled, Quoted.literalChars]

theorem readable_float {value : Float} (decimal : IsDecimal value)
    (apart : ∀ c ∈ rest.head?, CharClass.continuesName c = false ∧ c ≠ '.') : Readable rest (.float value) := by
  by_cases finite : Decimal.IsFinite value
  · obtain ⟨number, formed, lexeme, stands⟩ := Decimal.literal_spec decimal finite
    refine readable_number formed lexeme.symm ?_ apart
    rw [stands, settled, if_pos finite]
  · have spelled : (Word.float value).spelling = ['i', 'n', 'f'] := by
      rw [Word.spelling, Decimal.literal_infinite decimal finite]
      rfl
    have letters : ['n', 'f'].all CharClass.continuesName = true := by rfl
    refine readable_name spelled ?_ rfl (List.all_eq_true.mp letters) fun c member => (apart c member).1
    rw [settled, if_neg finite]
    rfl

theorem readable_fixed {word : Word} (fixed : IsFixed word)
    (apart : isClosed word = true ∨ ∀ c ∈ rest.head?, c ∉ joints)
    (slash : '/' ∈ word.spelling.head? → ∀ c ∈ (word.spelling.tail ++ rest).head?, c ≠ '/' ∧ c ≠ '*')
    (point : '.' ∈ word.spelling.head? → ∀ c ∈ (word.spelling.tail ++ rest).head?, CharClass.isDigit c = false) :
    Readable rest word := by
  refine ⟨opens_fixed fixed slash, fun location => ⟨word.spelling, ?_⟩⟩
  rw [scanWord_fixed location fixed apart point, fixed.same]

theorem readable_operator {op : BinaryOp} (apart : ∀ c ∈ rest.head?, c ∉ joints) :
    Readable rest (.operator op) := by
  refine readable_fixed (isFixed_operator op) (Or.inr apart) (fun slash c member => ?_) (fun point => ?_)
  · have division : op = .divide := by
      cases op <;> first | rfl | exact absurd slash (by decide)
    subst division
    have plain := apart c member
    constructor <;> rintro rfl <;> exact plain (by decide)
  · cases op <;> exact absurd point (by decide)

theorem readable_compound {op : BinaryOp} (arithmetic : op.isArithmetic = true)
    (apart : ∀ c ∈ rest.head?, c ∉ joints) : Readable rest (.compound op) := by
  refine readable_fixed (isFixed_compound arithmetic) (Or.inr apart) (fun slash c member => ?_) (fun point => ?_)
  · have division : op = .divide := by
      cases op <;> first | rfl | exact absurd slash (by decide)
    subst division
    obtain rfl : '=' = c := Option.some.inj member
    decide
  · cases op <;> exact absurd point (by decide)

theorem readable_mark {sign : Mark} (apart : isClosed (.mark sign) = true ∨ ∀ c ∈ rest.head?, c ∉ joints)
    (point : sign = .dot → ∀ c ∈ rest.head?, CharClass.isDigit c = false) : Readable rest (.mark sign) := by
  refine readable_fixed (isFixed_mark sign) apart (fun slash => ?_) (fun isPoint => ?_)
  · cases sign <;> exact absurd slash (by decide)
  · obtain rfl : sign = .dot := by
      cases sign <;> first | rfl | exact absurd isPoint (by decide)
    exact point rfl

/-- A word is read from its spelling, unless the text behind it goes on with it. -/
theorem readable {word : Word} (spelled : Spelled word) (apart : Apart rest word) : Readable rest word := by
  cases word with
  | keyword keyword => exact readable_keyword keyword apart
  | identifier name => exact readable_identifier spelled apart
  | integer magnitude =>
      exact readable_number (integerText_formed magnitude) (by simp [Word.spelling, NumberText.lexeme, integerText])
        (integerText_word spelled) apart
  | float value => exact readable_float spelled apart
  | string text => exact readable_string text
  | mark sign =>
      cases sign with
      | dot => exact readable_mark (Or.inl rfl) fun _ => apart
      | _ => exact readable_mark apart fun isPoint => absurd isPoint (by decide)
  | semicolon implicit =>
      obtain rfl : implicit = false := spelled
      exact readable_fixed isFixed_semicolon (Or.inl rfl) (fun slash => absurd slash (by decide))
        (fun point => absurd point (by decide))
  | operator op => exact readable_operator (apart.resolve_left Bool.false_ne_true)
  | compound op => exact readable_compound spelled (apart.resolve_left Bool.false_ne_true)
  | endOfInput => exact absurd spelled id

end MiniGo.Syntax
