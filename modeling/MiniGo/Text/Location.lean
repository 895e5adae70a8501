/-!
# Places in a source text

A place is a line and a column, both counted from one in code points. `Location.after` moves a
place over a stretch of text; `after_append` says that moving over two stretches is moving over
their concatenation, so places can be computed piece by piece.
-/

namespace MiniGo

/-- A line and a column of a source text. The place `0:0` stands for no place at all. -/
structure Location where
  line : Nat := 0
  column : Nat := 0
deriving DecidableEq, Repr, Inhabited

namespace Location

/-- The place of the first character of a text. -/
def start : Location := ⟨1, 1⟩

def nowhere : Location := ⟨0, 0⟩

/-- Moves over one character: a line feed starts the next line. -/
def step (place : Location) (c : Char) : Location :=
  if c = '\n' then ⟨place.line + 1, 1⟩ else ⟨place.line, place.column + 1⟩

def after (place : Location) (text : List Char) : Location :=
  text.foldl step place

def render (place : Location) : String :=
  s!"{place.line}:{place.column}"

@[simp] theorem after_nil (place : Location) : place.after [] = place := rfl

@[simp] theorem after_cons (place : Location) (c : Char) (text : List Char) :
    place.after (c :: text) = (place.step c).after text := rfl

theorem after_append (place : Location) (first second : List Char) :
    place.after (first ++ second) = (place.after first).after second :=
  List.foldl_append

theorem after_of_no_line_feed (place : Location) (text : List Char) (flat : '\n' ∉ text) :
    place.after text = ⟨place.line, place.column + text.length⟩ := by
  induction text generalizing place with
  | nil => rfl
  | cons c text ih =>
      have here : c ≠ '\n' := fun equal => flat (by simp [equal])
      have rest : '\n' ∉ text := fun member => flat (List.mem_cons_of_mem c member)
      rw [after_cons, step, if_neg here, ih _ rest]
      simp only [List.length_cons, Location.mk.injEq, true_and]
      omega

end Location

end MiniGo
