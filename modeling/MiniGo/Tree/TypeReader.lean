import MiniGo.Tree.Reader

/-!
# Reading types

Types, parenthesised lists of parameters and results. In such a list a lone identifier is the name
of a parameter if any entry of the list has a name, and a type otherwise; `groupEntries` settles
that once the whole list is read.
-/

namespace MiniGo.Reader

/-- An entry of a list of parameters. -/
inductive Entry where
  /-- A lone identifier: a name whose type comes later, or a type. -/
  | bare (name : String)
  | named (name : String) (type : Ty)
  | unnamed (type : Ty)

def Entry.isNamed : Entry → Bool
  | .named _ _ => true
  | _ => false

def Entry.type : Entry → Ty
  | .bare name => Ty.ofName name
  | .named _ type | .unnamed type => type

/-- Gives each lone name the type of the next named entry; there is none for a list that mixes
names with types or ends in a lone name. The lone names so far come in reverse. -/
def spreadTypes (waiting : List String) : List Entry → Option (List (Option String × Ty))
  | [] => if waiting.isEmpty then some [] else none
  | .bare name :: entries => spreadTypes (name :: waiting) entries
  | .named name type :: entries => do
      let rest ← spreadTypes [] entries
      pure ((waiting.reverse ++ [name]).map (fun name => (some name, type)) ++ rest)
  | .unnamed _ :: _ => none

def groupEntries (entries : List Entry) : Option (List (Option String × Ty)) :=
  if entries.any Entry.isNamed then spreadTypes [] entries
  else some (entries.map fun entry => (none, entry.type))

mutual

/-- Reads a type. -/
def type : Nat → Reader Ty
  | 0 => exhausted
  | fuel + 1 => do
      match ← peekWord with
      | .identifier name => do
          let _ ← advance
          pure (Ty.ofName name)
      | .keyword .funcWord => do
          let _ ← advance
          let params ← parameters fuel
          let (results, _) ← results fuel
          pure (.func ⟨params.map (·.2), results⟩)
      | .mark .leftParen => do
          let _ ← advance
          let inner ← type fuel
          let _ ← expectMark .rightParen .closeParen
          pure inner
      | _ => refuse .type

/-- Reads a parenthesised list of parameters, each with its name if it has one. -/
def parameters : Nat → Reader (List (Option String × Ty))
  | 0 => exhausted
  | fuel + 1 => do
      let opening ← expectMark .leftParen .openParen
      let found ← entries fuel
      let _ ← expectMark .rightParen .closeParen
      -- Whether the lone identifiers are names or types is settled now that the list is complete.
      match groupEntries found with
      | some params => pure params
      | none => fail (.invalid .mixedParameters opening.location)

/-- Reads entries up to the closing parenthesis; a comma may stand before it. -/
def entries : Nat → Reader (List Entry)
  | 0 => exhausted
  | fuel + 1 => do
      if ← atMark .rightParen then pure []
      else do
        let first ← entry fuel
        if ← atMark .comma then do
          let _ ← advance
          let rest ← entries fuel
          pure (first :: rest)
        else pure [first]

/-- Reads an entry; the word behind an identifier tells whether the identifier stands alone. -/
def entry : Nat → Reader Entry
  | 0 => exhausted
  | fuel + 1 => do
      match ← peekWord, ← peekSecond with
      | .identifier name, .mark .comma | .identifier name, .mark .rightParen => do
          let _ ← advance
          pure (.bare name)
      | .identifier name, .identifier _ | .identifier name, .keyword .funcWord
      | .identifier name, .mark .leftParen => do
          let _ ← advance
          let type ← type fuel
          pure (.named name type)
      | _, _ => do
          let type ← type fuel
          pure (.unnamed type)

/-- Reads results with their names: nothing, one type, or a parenthesised list. -/
def results : Nat → Reader (List Ty × List String)
  | 0 => exhausted
  | fuel + 1 => do
      match ← peekWord with
      | .mark .leftParen => do
          let params ← parameters fuel
          pure (params.map (·.2), params.filterMap (·.1))
      | .identifier _ | .keyword .funcWord => do
          let result ← type fuel
          pure ([result], [])
      | _ => pure ([], [])

end

def namedParameters (params : List (Option String × Ty)) : Option (List Parameter) :=
  params.mapM fun (name?, type) => name?.map fun name => ⟨name, type⟩

def signature (fuel : Nat) : Reader Signature := do
  let here ← peek
  let params ← parameters fuel
  match namedParameters params with
  | none => fail (.invalid .missingParameterName here.location)
  | some params => do
      let (results, resultNames) ← results fuel
      pure ⟨params, results, resultNames⟩

end MiniGo.Reader
