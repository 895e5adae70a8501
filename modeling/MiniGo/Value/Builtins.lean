import MiniGo.Value

/-!
# Built-in functions

The length of a text and four ways to print. A built-in function takes any number of values, so its
type names no parameters; only its results matter to the rules about names and counts.
-/

namespace MiniGo.Builtin

def spaced (args : List Value) : String := " ".intercalate (Value.renderAll args)

def isText : Value → Bool
  | .string _ => true
  | _ => false

/-- The printed forms of values, with a blank between two that are no texts. -/
def joined : List Value → String
  | [] => ""
  | [value] => value.render
  | first :: second :: rest =>
      let gap := if isText first || isText second then "" else " "
      first.render ++ gap ++ joined (second :: rest)

/-- The results of a built-in function, and the text that it prints. -/
def call (function : Builtin) (args : List Value) (location : Location) :
    Except RuntimeError (List Value × String) :=
  match function with
  | .println => .ok ([], spaced args ++ "\n")
  | .print => .ok ([], joined args)
  | .sprint => .ok ([.string (joined args)], "")
  | .sprintln => .ok ([.string (spaced args ++ "\n")], "")
  | .len =>
      match args with
      | [.string text] => .ok ([.int (Int64.ofNat text.utf8ByteSize)], "")
      | [other] => .error (.mismatch (.length other.kind) location)
      | _ => .error (.argumentCount "len" 1 args.length location)

def results : Builtin → List Ty
  | .len => [.int]
  | .println | .print => []
  | .sprint | .sprintln => [.string]

def type (function : Builtin) : FuncType := ⟨[], function.results⟩

def formatting : List Builtin := [.println, .print, .sprint, .sprintln]

def formattingPath : String := "fmt"

end MiniGo.Builtin
