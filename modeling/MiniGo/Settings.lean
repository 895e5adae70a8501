import MiniGo.Error
import MiniGo.Text.Json

/-!
# Settings

What can be set about a run, and how settings are written: as an object whose members are named
settings, each at most once, or as an array of settings in their order. Settings that are not written
keep their defaults.
-/

namespace MiniGo

structure Settings where
  /-- How many calls may be active at once. -/
  maxCallDepth : Nat
  /-- The directory that imported packages are in. -/
  sourceRoot : Option String
  /-- The function that a run calls. -/
  entry : String
deriving DecidableEq, Repr

namespace Settings

def default : Settings := ⟨10000, none, "main"⟩

inductive Field where
  | maxCallDepth
  | sourceRoot
  | entry
deriving DecidableEq, Repr

def Field.all : List Field := [.maxCallDepth, .sourceRoot, .entry]

def Field.name : Field → String
  | .maxCallDepth => "max_call_depth"
  | .sourceRoot => "src_root"
  | .entry => "entry"

def Field.ofName? (name : String) : Option Field := Field.all.find? (·.name == name)

def set? (settings : Settings) : Field → Json → Option Settings
  | .maxCallDepth, .natural depth =>
      if depth < UInt64.size then some { settings with maxCallDepth := depth } else none
  | .sourceRoot, .null => some { settings with sourceRoot := none }
  | .sourceRoot, .string root => some { settings with sourceRoot := some root }
  | .entry, .string entry => some { settings with entry }
  | _, _ => none

def setAll? (settings : Settings) : List Field → List (Field × Json) → Option Settings
  | _, [] => some settings
  | seen, (field, value) :: rest =>
      if seen.contains field then none
      else do
        let settings ← settings.set? field value
        settings.setAll? (field :: seen) rest

def fields? (members : List (String × Json)) : Option (List (Field × Json)) :=
  members.mapM fun (name, value) => (Field.ofName? name).map fun field => (field, value)

def ofJson? : Json → Option Settings
  | .object members => do
      let fields ← fields? members
      default.setAll? [] fields
  | .array items =>
      if items.length ≤ Field.all.length then default.setAll? [] (Field.all.zip items) else none
  | _ => none

def parse (text : String) : Except Error Settings :=
  match (Json.parse? text).bind ofJson? with
  | some settings => .ok settings
  | none => .error .settings

end Settings

end MiniGo
