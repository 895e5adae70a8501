/-!
# Where a program prints

Printed text is kept in a buffer until it is taken, or dropped.
-/

namespace MiniGo

/-- A destination of printed text. -/
inductive Output where
  | buffer (text : String)
  | silent

namespace Output

def empty : Output := buffer ""

def print (output : Output) (text : String) : Output :=
  match output with
  | buffer before => buffer (before ++ text)
  | silent => silent

def println (output : Output) (text : String) : Output :=
  (output.print text).print "\n"

/-- The text kept so far, and the destination without it. -/
def take (output : Output) : String × Output :=
  match output with
  | buffer text => (text, empty)
  | silent => ("", silent)

end Output

end MiniGo
