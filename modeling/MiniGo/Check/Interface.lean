import MiniGo.Check.Symbols

/-!
# Interfaces of packages

What a checked package shows to the packages that import it: every name of its top level with the
kind of its symbol and, where it is known, its type.
-/

namespace MiniGo

/-- A top-level name as importers see it. -/
structure Member where
  kind : SymbolKind
  type? : Option Ty

/-- The top-level names of a package. -/
structure Interface where
  name : String
  members : List (String × Member)

def Interface.member? (interface : Interface) (name : String) : Option Member :=
  interface.members.lookup name

def Interface.formatting : Interface where
  name := Builtin.formattingPath
  members := Builtin.formatting.map fun function =>
    (function.name, ⟨.builtin, some (.func function.type)⟩)

/-- The interfaces of checked packages by their paths, the latest first. -/
abbrev Interfaces := List (String × Interface)

def Interfaces.initial : Interfaces := [(Builtin.formattingPath, .formatting)]

end MiniGo
