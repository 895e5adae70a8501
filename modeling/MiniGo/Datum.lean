import MiniGo.Decimal.Layout
import MiniGo.Text.Quoted

/-!
# Structured data and its listings

A datum is a tree of named records, alternatives, lists and scalars. It is written in two ways, each
one item a line: as a listing, which names every record and alternative, and as a JSON text, where a
record is an object and an alternative an object with one member.
-/

namespace MiniGo

mutual

/-- A tree of named data. -/
inductive Datum where
  | text (value : String)
  | natural (value : Nat)
  | integer (value : Int64)
  | float (value : Float)
  | flag (value : Bool)
  | absent
  | present (value : Datum)
  | list (items : List Datum)
  /-- Named fields under the name of their record. -/
  | record (name : String) (fields : List DatumField)
  /-- An alternative without content. -/
  | choice (name : String)
  /-- An alternative with one content. -/
  | wrapped (name : String) (content : Datum)
  /-- An alternative with named fields. -/
  | variant (name : String) (fields : List DatumField)

structure DatumField where
  name : String
  value : Datum

end

namespace Datum

def indented (width : Nat) (out : String) : String :=
  out ++ String.ofList (List.replicate width ' ')

def listingStep : Nat := 4

def jsonStep : Nat := 2

/-! ## Listings -/

mutual

/-- Appends the listing of a datum. -/
def writeListing (indent : Nat) : Datum → String → String
  | text value, out => out ++ Quoted.shown value
  | natural value, out => out ++ toString value
  | integer value, out => out ++ toString value.toInt
  | float value, out => out ++ Decimal.Layout.literal.render value
  | flag value, out => out ++ (if value then "true" else "false")
  | absent, out => out ++ "None"
  | present value, out =>
      let out := indented (indent + listingStep) (out ++ "Some(\n")
      indented indent (value.writeListing (indent + listingStep) out ++ ",\n") ++ ")"
  | list [], out => out ++ "[]"
  | list items, out =>
      indented indent (writeListingItems (indent + listingStep) items (out ++ "[\n")) ++ "]"
  | record name fields, out | variant name fields, out =>
      let out := writeListingFields (indent + listingStep) fields (out ++ name ++ " \x7b\n")
      indented indent out ++ "\x7d"
  | choice name, out => out ++ name
  | wrapped name content, out =>
      let out := indented (indent + listingStep) (out ++ name ++ "(\n")
      indented indent (content.writeListing (indent + listingStep) out ++ ",\n") ++ ")"

def writeListingItems (indent : Nat) : List Datum → String → String
  | [], out => out
  | item :: items, out =>
      writeListingItems indent items (item.writeListing indent (indented indent out) ++ ",\n")

def writeListingFields (indent : Nat) : List DatumField → String → String
  | [], out => out
  | ⟨name, value⟩ :: fields, out =>
      writeListingFields indent fields
        (value.writeListing indent (indented indent out ++ name ++ ": ") ++ ",\n")

end

def listing (datum : Datum) : String := datum.writeListing 0 ""

/-! ## JSON texts -/

mutual

/-- Appends the JSON text of a datum. -/
def writeJson (indent : Nat) : Datum → String → String
  | text value, out => out ++ Quoted.json value
  | natural value, out => out ++ toString value
  | integer value, out => out ++ toString value.toInt
  | float value, out => out ++ Decimal.Layout.json.render value
  | flag value, out => out ++ (if value then "true" else "false")
  | absent, out => out ++ "null"
  | present value, out => value.writeJson indent out
  | list [], out => out ++ "[]"
  | list items, out =>
      indented indent (writeJsonItems (indent + jsonStep) items (out ++ "[\n")) ++ "]"
  | record _ fields, out =>
      indented indent (writeJsonFields (indent + jsonStep) fields (out ++ "\x7b\n")) ++ "\x7d"
  | choice name, out => out ++ Quoted.json name
  | wrapped name content, out =>
      let out := indented (indent + jsonStep) (out ++ "\x7b\n") ++ Quoted.json name ++ ": "
      indented indent (content.writeJson (indent + jsonStep) out ++ "\n") ++ "\x7d"
  | variant name fields, out =>
      let out := indented (indent + jsonStep) (out ++ "\x7b\n") ++ Quoted.json name ++ ": \x7b\n"
      let out := writeJsonFields (indent + 2 * jsonStep) fields out
      indented indent (indented (indent + jsonStep) out ++ "\x7d\n") ++ "\x7d"

/-- Appends items, one a line, with commas between them. -/
def writeJsonItems (indent : Nat) : List Datum → String → String
  | [], out => out
  | item :: items, out =>
      let out := item.writeJson indent (indented indent out)
      writeJsonItems indent items (out ++ if items.isEmpty then "\n" else ",\n")

/-- Appends members, one a line, with commas between them. -/
def writeJsonFields (indent : Nat) : List DatumField → String → String
  | [], out => out
  | ⟨name, value⟩ :: fields, out =>
      let out := value.writeJson indent (indented indent out ++ Quoted.json name ++ ": ")
      writeJsonFields indent fields (out ++ if fields.isEmpty then "\n" else ",\n")

end

def json (datum : Datum) : String := datum.writeJson 0 ""

end Datum

end MiniGo
