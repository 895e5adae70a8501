import MiniGo.Proofs.Lexical.Checked

/-!
# Frames

What code sees of a table: a frame for every scope around it, with the symbols of the names that the
scope has. Code stands inside blocks, whose frames are its own, and these inside scopes of a file, a
package and all packages, of which it sees which symbol they show for a name (`Stands`). Nothing that
is known of an expression depends on more than this, and of the outer scopes only the symbols of its
free names and the packages matter (`Alike`).
-/

namespace MiniGo.Lexical

/-- The symbols of some names. -/
abbrev Frame := String → Option Symbol

namespace Frame

def empty : Frame := fun _ => none

/-- A frame behind a declaration; the blank name declares nothing. -/
def add (frame : Frame) (symbol : Symbol) : Frame :=
  if symbol.name = blankName then frame
  else fun name => if name = symbol.name then some symbol else frame name

def addAll (frame : Frame) (symbols : List Symbol) : Frame := symbols.foldl add frame

theorem add_blank {frame : Frame} {symbol : Symbol} (blank : symbol.name = blankName) :
    frame.add symbol = frame := if_pos blank

theorem add_named {frame : Frame} {symbol : Symbol} (named : symbol.name ≠ blankName) (name : String) :
    frame.add symbol name = if name = symbol.name then some symbol else frame name := by
  rw [add, if_neg named]

end Frame

def frame (table : SymbolTable) (id : Nat) : Frame := fun name =>
  (table.findIn? id name).bind (table.symbols[·]?)

variable {imports : Interfaces} {table other before after : SymbolTable} {blocks : List Frame}
  {block outer outer' : Frame} {bound : List String}

theorem isSome_frame (regular : Regular table) (id : Nat) (name : String) :
    (frame table id name).isSome = (table.findIn? id name).isSome := by
  unfold frame
  cases found : table.findIn? id name with
  | none => rfl
  | some number =>
      have inside := regular.numbered id name number found
      rw [Option.bind_some, Array.getElem?_eq_getElem inside]
      rfl

theorem frame_extends (regular : Regular before) (extends_ : Extends before after) {id : Nat}
    (same : ∀ name, after.findIn? id name = before.findIn? id name) : frame after id = frame before id := by
  funext name
  unfold frame
  rw [same]
  cases found : before.findIn? id name with
  | none => rfl
  | some number =>
      have inside := regular.numbered id name number found
      have kept := extends_.symbols number _ (Array.getElem?_eq_getElem inside)
      rw [Option.bind_some, Option.bind_some, kept, Array.getElem?_eq_getElem inside]

theorem frame_adds {top : Option Nat} (regular : Regular before) (adds : Adds top before after) {id : Nat}
    (old : id < before.scopes.size) (apart : top ≠ some id) : frame after id = frame before id :=
  frame_extends regular adds.toExtends (adds.fixed id old apart)

theorem frame_enter_new (kind : BlockKind) : frame (table.enter kind) table.scopes.size = Frame.empty := by
  funext name
  have fresh : (table.enter kind).findIn? table.scopes.size name = none := by
    rw [findIn?_enter]
    simp [SymbolTable.findIn?]
  rw [frame, fresh]
  rfl

theorem frame_insert (regular : Regular table) {id : Nat} {symbol : Symbol} (old : id < table.scopes.size) :
    frame (table.insert id symbol) id = (frame table id).add symbol := by
  funext name
  have kept : (table.findIn? id name).bind ((table.symbols.push symbol)[·]?) = frame table id name := by
    unfold frame
    cases found : table.findIn? id name with
    | none => rfl
    | some number =>
        have inside := regular.numbered id name number found
        exact (Array.getElem?_push_lt inside).trans (Array.getElem?_eq_getElem inside).symm
  rw [frame, SymbolTable.symbols_insert]
  by_cases named : symbol.name = blankName
  · rw [findIn?_insert_blank named, Frame.add_blank named, kept]
  · rw [findIn?_insert old named, Frame.add_named named]
    by_cases same : name = symbol.name
    · rw [if_pos ⟨rfl, same⟩, if_pos same]
      exact Array.getElem?_push_size
    · rw [if_neg fun both => same both.2, if_neg same, kept]

/-- The first symbol that scopes have for a name is the symbol of the number that is found first. -/
theorem findSome?_frame (regular : Regular table) (ids : List Nat) (name : String) :
    (ids.findSome? fun id => table.findIn? id name).bind (table.symbols[·]?)
      = (ids.map (frame table)).findSome? (· name) := by
  induction ids with
  | nil => rfl
  | cons id ids ih =>
      rw [List.map_cons, List.findSome?_cons, List.findSome?_cons]
      cases found : table.findIn? id name with
      | none => simpa [frame, found] using ih
      | some number =>
          have inside := regular.numbered id name number found
          simp [frame, found, Array.getElem?_eq_getElem inside]

/-! ## Where code stands -/

/-- The open scope stands inside blocks with these frames, and they stand inside scopes that show `outer`. -/
structure Stands (table : SymbolTable) (blocks : List Frame) (outer : Frame) : Prop where
  regular : Regular table
  around : ∃ rest, (table.chain table.current).map (frame table) = blocks ++ rest ∧
    ∀ name, rest.findSome? (· name) = outer name

theorem chain_current (regular : Regular table) :
    ∃ rest, table.chain table.current = table.current :: rest ∧ ∀ id ∈ rest, id < table.current := by
  have found := Array.getElem?_eq_getElem regular.current
  refine ⟨_, ?_, fun id member => regular.outer _ _ found id member⟩
  rw [SymbolTable.chain, found]

namespace Stands

/-- A name means the symbol that the blocks have, or else the one that the outer scopes show. -/
theorem symbol? (stands : Stands table blocks outer) (name : String) :
    table.symbol? name = (blocks.findSome? (· name)).or (outer name) := by
  obtain ⟨rest, frames, shows⟩ := stands.around
  rw [SymbolTable.symbol?, SymbolTable.lookup?, findSome?_frame stands.regular, frames, List.findSome?_append,
    shows]

theorem innermost (stands : Stands table (block :: blocks) outer) : frame table table.current = block := by
  obtain ⟨rest, frames, _⟩ := stands.around
  obtain ⟨ids, chain, _⟩ := chain_current stands.regular
  rw [chain] at frames
  exact (List.cons.inj frames).1

theorem continues (stands : Stands before blocks outer) (continues : Continues none before after) :
    Stands after blocks outer := by
  obtain ⟨rest, frames, shows⟩ := stands.around
  refine ⟨continues.regular, rest, ?_, shows⟩
  rw [continues.current, continues.toExtends.chain stands.regular.current, ← frames]
  exact List.map_congr_left fun id member => frame_adds stands.regular continues.toAdds
    (stands.regular.chain_lt stands.regular.current id member) nofun

theorem declares (stands : Stands before (block :: blocks) outer)
    (continues : Continues (some before.current) before after) :
    Stands after (frame after before.current :: blocks) outer := by
  obtain ⟨rest, frames, shows⟩ := stands.around
  obtain ⟨ids, chain, less⟩ := chain_current stands.regular
  refine ⟨continues.regular, rest, ?_, shows⟩
  rw [chain] at frames
  have rest : ids.map (frame before) = blocks ++ rest := (List.cons.inj frames).2
  rw [continues.current, continues.toExtends.chain stands.regular.current, chain, List.map_cons, List.cons_append,
    ← rest]
  refine congrArg _ (List.map_congr_left fun id member => ?_)
  exact frame_adds stands.regular continues.toAdds (Nat.lt_trans (less id member) stands.regular.current)
    fun same => absurd (Option.some.inj same) (Nat.ne_of_gt (less id member))

theorem enter (stands : Stands table blocks outer) {kind : BlockKind} (inner : isOuter kind = false) :
    Stands (table.enter kind) (Frame.empty :: blocks) outer := by
  obtain ⟨rest, frames, shows⟩ := stands.around
  have same : frame (table.enter kind) = frame table := funext fun id =>
    frame_extends stands.regular (extends_enter kind) (findIn?_enter kind id)
  refine ⟨stands.regular.enter kind (Or.inl inner), rest, ?_, shows⟩
  rw [chain_enter, List.map_cons, frame_enter_new, same, frames]
  rfl

end Stands

/-! ## Bound names -/

/-- Some names are those that blocks have. -/
def Covers (blocks : List Frame) (bound : List String) : Prop :=
  ∀ name, name ≠ blankName → (name ∈ bound ↔ ∃ block ∈ blocks, (block name).isSome)

theorem Covers.enter (covers : Covers blocks bound) : Covers (Frame.empty :: blocks) bound := by
  intro name named
  rw [covers name named]
  simp [Frame.empty]

theorem Covers.congr {others : List String} (covers : Covers blocks bound)
    (same : ∀ name, name ∈ bound ↔ name ∈ others) : Covers blocks others :=
  fun name named => (same name).symm.trans (covers name named)

theorem Covers.add {symbol : Symbol} (covers : Covers (block :: blocks) bound) :
    Covers (block.add symbol :: blocks) (symbol.name :: bound) := by
  intro name named
  rw [List.mem_cons, covers name named]
  simp only [List.mem_cons, exists_eq_or_imp]
  by_cases blank : symbol.name = blankName
  · rw [Frame.add_blank blank, blank]
    exact or_iff_right named
  · rw [Frame.add_named blank]
    by_cases same : name = symbol.name
    · simp [same]
    · simp [same]

/-! ## Outer scopes -/

/-- Outer scopes show the same symbols for some names, and the same packages. -/
structure Alike (names : List String) (outer outer' : Frame) : Prop where
  same : ∀ name ∈ names, outer' name = outer name
  blank : outer' blankName = outer blankName
  packages : ∀ name symbol path, symbol.kind = .package path →
    (outer' name = some symbol ↔ outer name = some symbol)

theorem Alike.subset {names fewer : List String} (alike : Alike names outer outer')
    (sub : ∀ name ∈ fewer, name ∈ names) : Alike fewer outer outer' :=
  ⟨fun name member => alike.same name (sub name member), alike.blank, alike.packages⟩

section

variable (stands : Stands table blocks outer) (stands' : Stands other blocks outer')
include stands stands'

theorem symbol?_alike (covers : Covers blocks bound) {name : String}
    (alike : Alike (FreeNames.ofName bound name) outer outer') : other.symbol? name = table.symbol? name := by
  rw [stands.symbol?, stands'.symbol?]
  by_cases named : name = blankName
  · rw [named, alike.blank]
  by_cases inside : name ∈ bound
  · obtain ⟨block, member, has⟩ := (covers name named).mp inside
    have found : (blocks.findSome? (· name)).isSome := List.findSome?_isSome_iff.mpr ⟨block, member, has⟩
    obtain ⟨symbol, found⟩ := Option.isSome_iff_exists.mp found
    rw [found]
    rfl
  · rw [alike.same name (by simp [FreeNames.ofName, inside])]

theorem package_alike {names : List String} (alike : Alike names outer outer') {name path : String}
    {symbol : Symbol} (isPackage : symbol.kind = .package path) :
    other.symbol? name = some symbol ↔ table.symbol? name = some symbol := by
  rw [stands.symbol?, stands'.symbol?]
  cases blocks.findSome? (· name) with
  | some found => exact Iff.rfl
  | none => exact alike.packages name symbol path isPackage

theorem member?_alike {names : List String} (alike : Alike names outer outer') (package name : String) :
    Check.member? imports other package name = Check.member? imports table package name := by
  have both := @package_alike _ _ _ _ _ stands stands' _ alike package
  unfold Check.member?
  split
  · rename_i found
    rw [(both rfl).mp found]
  · rename_i plain
    split
    · rename_i found
      exact absurd ((both rfl).mpr found) (plain _ _ _)
    · rfl

theorem typeOf?_alike (covers : Covers blocks bound) : (expr : Expr) →
    Alike (FreeNames.ofExpr bound expr) outer outer' →
    Check.typeOf? imports other expr = Check.typeOf? imports table expr
  | .integer _, _ | .float _, _ | .string _, _ | .function _, _ | .unary .not _ _, _ => rfl
  | .identifier name location, alike => by
      rw [FreeNames.ofExpr] at alike
      rw [Check.typeOf?, Check.typeOf?, symbol?_alike stands stands' covers alike]
  | .qualified package name location, alike => by
      rw [Check.typeOf?, Check.typeOf?, member?_alike stands stands' alike]
  | .call callee args location, alike => by
      rw [FreeNames.ofExpr] at alike
      rw [Check.typeOf?, Check.typeOf?, typeOf?_alike covers callee (alike.subset fun _ => List.mem_append_left _)]
  | .unary .negate operand location, alike | .unary .plus operand location, alike
  | .unary .bitNot operand location, alike => by
      rw [FreeNames.ofExpr] at alike
      exact typeOf?_alike covers operand alike
  | .binary left op right location, alike => by
      rw [FreeNames.ofExpr] at alike
      rw [Check.typeOf?, Check.typeOf?, typeOf?_alike covers left (alike.subset fun _ => List.mem_append_left _),
        typeOf?_alike covers right (alike.subset fun _ => List.mem_append_right _)]

theorem resultCount?_alike (covers : Covers blocks bound) {expr : Expr}
    (alike : Alike (FreeNames.ofExpr bound expr) outer outer') :
    Check.resultCount? imports other expr = Check.resultCount? imports table expr := by
  cases expr with
  | call callee args location =>
      rw [FreeNames.ofExpr] at alike
      rw [Check.resultCount?, Check.resultCount?, Check.resultsOf?, Check.resultsOf?,
        typeOf?_alike stands stands' covers callee (alike.subset fun _ => List.mem_append_left _)]
  | _ => rfl

theorem valueTypes_alike (covers : Covers blocks bound) (count : Nat) {values : List Expr}
    (alike : Alike (FreeNames.ofExprs bound values) outer outer') :
    Check.valueTypes imports other count values = Check.valueTypes imports table count values := by
  -- The type of a value depends on its free names only.
  have types : ∀ value ∈ values, Check.typeOf? imports other value = Check.typeOf? imports table value := by
    induction values with
    | nil => exact nofun
    | cons first rest ih =>
        rw [FreeNames.ofExprs] at alike
        refine List.forall_mem_cons.mpr ⟨typeOf?_alike stands stands' covers first ?_, ih ?_⟩
        · exact alike.subset fun _ => List.mem_append_left _
        · exact alike.subset fun _ => List.mem_append_right _
  unfold Check.valueTypes
  split
  · rename_i value
    split
    · rw [types value List.mem_cons_self]
    · split
      · rename_i callee args location
        rw [FreeNames.ofExprs, FreeNames.ofExpr] at alike
        rw [Check.resultsOf?, Check.resultsOf?, typeOf?_alike stands stands' covers callee
          (alike.subset fun _ member => List.mem_append_left _ (List.mem_append_left _ member))]
      · rfl
  · exact List.map_congr_left types

theorem declaredTypes_alike (covers : Covers blocks bound) (names : List String) (type? : Option Ty)
    {values : List Expr} (alike : Alike (FreeNames.ofExprs bound values) outer outer') :
    Check.declaredTypes imports other names type? values = Check.declaredTypes imports table names type? values := by
  unfold Check.declaredTypes
  split
  · rfl
  · rfl
  · exact valueTypes_alike stands stands' covers names.length alike

end

end MiniGo.Lexical
