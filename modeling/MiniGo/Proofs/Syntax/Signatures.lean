import MiniGo.Proofs.Syntax.Rereading

/-!
# Types and signatures read back

A type is read back as itself (`rereads_type`), and so is a signature (`rereads_signature`), where no type
stands behind it.
-/

namespace MiniGo.Syntax

open Piece

variable {pending : Bool} {rest : List Piece}

def endsType : Word → Bool
  | .identifier _ | .keyword .funcWord | .mark .leftParen => false
  | _ => true

def endsEntry : Word → Bool
  | .mark .comma | .mark .rightParen => true
  | _ => false

theorem word_of_endsEntry {found : Word} (ends : endsEntry found = true) :
    found = .mark .comma ∨ found = .mark .rightParen := by
  unfold endsEntry at ends
  split at ends
  · exact .inl rfl
  · exact .inr rfl
  · cases ends

theorem endsType_of_endsEntry {found : Word} (ends : endsEntry found = true) : endsType found = true := by
  cases found with
  | mark sign => cases sign <;> first | rfl | cases ends
  | _ => cases ends

/-- A type is read back from its layout. -/
def TypeRereads (found : Ty) : Prop :=
  ∀ fuel pending rest, endsType (ahead true rest) = true →
    Rereads (Reader.type fuel) pending (Layout.type found ++ rest) (· = found) true rest

/-! ## Lists of entries -/

/-- An entry is read from a layout. -/
def EntryRereads (pieces : List Piece) (post : Reader.Entry → Prop) : Prop :=
  ∀ fuel pending rest, endsEntry (ahead true rest) = true →
    Rereads (Reader.entry fuel) pending (pieces ++ rest) post true rest

/-- What may stand ahead of an entry. -/
def StartsEntry (pieces : List Piece) : Prop := ∀ pending rest, isMark .rightParen (ahead pending (pieces ++ rest)) = false

theorem rereads_entries {ι : Type} {layout : ι → List Piece} {post : ι → Reader.Entry → Prop} {items : List ι}
    (starts : ∀ item ∈ items, StartsEntry (layout item))
    (reads : ∀ item ∈ items, EntryRereads (layout item) (post item)) (fuel : Nat) (pending : Bool) (rest : List Piece) :
    Rereads (Reader.entries fuel) pending (commaSeparated (items.map layout) ++ sign .rightParen :: rest)
      (fun entries => List.Forall₂ post items entries) true (sign .rightParen :: rest) := by
  induction items generalizing fuel pending with
  | nil =>
      cases fuel with
      | zero => exact .exhausted
      | succ fuel => exact .atMark (.pure .nil)
  | cons item items ih =>
      obtain ⟨startsItem, startsItems⟩ := List.forall_mem_cons.mp starts
      obtain ⟨readsItem, readsItems⟩ := List.forall_mem_cons.mp reads
      cases fuel with
      | zero => exact .exhausted
      | succ fuel =>
          cases items with
          | nil =>
              refine .atMark ?_
              rw [List.map_singleton, commaSeparated, startsItem]
              refine (readsItem fuel pending _ rfl).bind fun first holds => .atMark ?_
              exact .pure (.cons holds .nil)
          | cons next items =>
              refine .atMark ?_
              rw [List.map_cons, List.map_cons, commaSeparated_more, List.append_assoc, startsItem]
              refine (readsItem fuel pending _ rfl).bind fun first holds => .atMark ?_
              refine .advance (ne_end rfl) fun _ _ => ?_
              exact (ih startsItems readsItems fuel _).bind fun others all => .pure (.cons holds all)

theorem rereads_parameters {ι : Type} {layout : ι → List Piece} {post : ι → Reader.Entry → Prop} {items : List ι}
    (starts : ∀ item ∈ items, StartsEntry (layout item))
    (reads : ∀ item ∈ items, EntryRereads (layout item) (post item))
    {params : List (Option String × Ty)}
    (groups : ∀ entries, List.Forall₂ post items entries → Reader.groupEntries entries = some params)
    (fuel : Nat) (pending : Bool) (rest : List Piece) :
    Rereads (Reader.parameters fuel) pending (inParens (commaSeparated (items.map layout)) ++ rest) (· = params) true
      rest := by
  cases fuel with
  | zero => exact .exhausted
  | succ fuel =>
      unfold Reader.parameters
      rw [inParens, List.cons_append, List.append_assoc]
      refine Rereads.expectMark.bind fun opening _ => ?_
      refine (rereads_entries starts reads fuel _ _).bind fun entries all => ?_
      refine Rereads.expectMark.bind fun _ _ => ?_
      rw [groups entries all]
      exact .pure rfl

/-! ## Entries without names -/

theorem layout_types (found : List Ty) : Layout.types found = found.map Layout.type := by
  induction found with
  | nil => rfl
  | cons first others ih => rw [Layout.types, List.map_cons, ih]

theorem starts_type (found : Ty) (pending : Bool) (rest : List Piece) :
    (∃ name, ahead pending (Layout.type found ++ rest) = .identifier name) ∨
      ahead pending (Layout.type found ++ rest) = .keyword .funcWord := by
  cases found with
  | func _ => exact Or.inr rfl
  | _ => exact Or.inl ⟨_, rfl⟩

theorem startsEntry_type (found : Ty) : StartsEntry (Layout.type found) := by
  intro pending rest
  rcases starts_type found pending rest with ⟨name, same⟩ | same <;> rw [same] <;> rfl

/-- An entry that is this type and has no name. -/
def IsType (found : Ty) (entry : Reader.Entry) : Prop := entry.isNamed = false ∧ entry.type = found

theorem rereads_bare {found : String} (fuel : Nat) (ends : endsEntry (ahead true rest) = true) :
    Rereads (Reader.entry fuel) pending (name found :: rest) (IsType (Ty.ofName found)) true rest := by
  cases fuel with
  | zero => exact .exhausted
  | succ fuel =>
      refine .peekWord (.peekSecond ?_)
      have bare : Rereads (do
          let _ ← Reader.advance
          pure (Reader.Entry.bare found)) pending (name found :: rest) (IsType (Ty.ofName found)) true rest :=
        .advance (ne_end rfl) fun _ _ => .pure ⟨rfl, rfl⟩
      rw [ahead_name]
      change endsEntry (ahead (Word.identifier found).endsStatement rest) = true at ends
      generalize ahead (Word.identifier found).endsStatement rest = next at ends
      cases next with
      | mark sign => cases sign <;> first | exact bare | cases ends
      | _ => cases ends

theorem rereads_unnamed {found : Ty} (formed : Formed.type found) (reads : TypeRereads found) :
    EntryRereads (Layout.type found) (IsType found) := by
  intro fuel pending rest ends
  cases found with
  | int | float | string | bool => exact rereads_bare fuel ends
  | named name =>
      have read := @rereads_bare pending rest name fuel ends
      rwa [formed.2] at read
  | func found =>
      cases fuel with
      | zero => exact .exhausted
      | succ fuel =>
          refine .peekWord (.peekSecond ?_)
          exact (reads fuel pending rest (endsType_of_endsEntry ends)).bind fun _ same => .pure ⟨rfl, same⟩

theorem groups_unnamed {types : List Ty} {entries : List Reader.Entry} (all : List.Forall₂ IsType types entries) :
    Reader.groupEntries entries = some (types.map fun found => (none, found)) := by
  have plain : entries.any Reader.Entry.isNamed = false := by
    induction all with
    | nil => rfl
    | cons first _ ih => rw [List.any_cons, first.1, ih]; rfl
  have listed : entries.map (fun entry => ((none : Option String), entry.type)) = types.map fun found => (none, found) := by
    induction all with
    | nil => rfl
    | cons first _ ih =>
        rw [List.any_cons, first.1, Bool.false_or] at plain
        rw [List.map_cons, List.map_cons, first.2, ih plain]
  unfold Reader.groupEntries
  rw [plain, if_neg Bool.false_ne_true, listed]

theorem rereads_unnamedParameters {types : List Ty} (formed : Formed.types types)
    (reads : ∀ found ∈ types, TypeRereads found) (fuel : Nat) (pending : Bool) (rest : List Piece) :
    Rereads (Reader.parameters fuel) pending (inParens (commaSeparated (Layout.types types)) ++ rest)
      (· = types.map fun found => (none, found)) true rest := by
  rw [layout_types]
  exact rereads_parameters (fun found _ => startsEntry_type found)
    (fun found member => rereads_unnamed (formed_types.mp formed found member) (reads found member))
    (fun entries all => groups_unnamed all) fuel pending rest

theorem rereads_results {types : List Ty} (formed : Formed.types types)
    (reads : ∀ found ∈ types, TypeRereads found) (fuel : Nat) (ends : endsType (ahead true rest) = true) :
    Rereads (Reader.results fuel) true (Layout.results (Layout.types types) ++ rest) (· = (types, [])) true rest := by
  cases fuel with
  | zero => exact .exhausted
  | succ fuel =>
      refine .peekWord ?_
      -- No result ends where the signature does, one is a type, and several stand in parentheses.
      match types, formed, reads with
      | [], _, _ =>
          change endsType (ahead true (Layout.results (Layout.types []) ++ rest)) = true at ends
          generalize ahead true (Layout.results (Layout.types []) ++ rest) = next at ends
          cases next with
          | keyword word => cases word <;> first | exact .pure rfl | cases ends
          | mark sign => cases sign <;> first | exact .pure rfl | cases ends
          | identifier _ => cases ends
          | _ => exact .pure rfl
      | [found], _, reads =>
          have read : Rereads (do
              let result ← Reader.type fuel
              pure ([result], ([] : List String))) true (Layout.type found ++ rest) (· = ([found], [])) true rest :=
            (reads found List.mem_cons_self fuel true rest ends).bind fun _ same => .pure (by rw [same])
          have behind : ahead true (Layout.results (Layout.types [found]) ++ rest)
              = ahead true (Layout.type found ++ rest) := rfl
          rw [behind]
          rcases starts_type found true rest with ⟨name, same⟩ | same
          · rw [same]
            exact read
          · rw [same]
            exact read
      | first :: second :: more, formed, reads =>
          refine (rereads_unnamedParameters formed reads fuel true rest).bind ?_
          rintro _ rfl
          exact .pure (by simp [Function.comp_def])

/-! ## Types -/

theorem rereads_name {found : String} (fuel : Nat) :
    Rereads (Reader.type fuel) pending (name found :: rest) (· = Ty.ofName found) true rest := by
  cases fuel with
  | zero => exact .exhausted
  | succ fuel => exact .peekWord (.advance (ne_end rfl) fun _ _ => .pure rfl)

mutual

theorem rereads_type : (found : Ty) → Formed.type found → TypeRereads found
  | .int, _, fuel, _, _, _ | .float, _, fuel, _, _, _ | .string, _, fuel, _, _, _ | .bool, _, fuel, _, _, _ =>
      rereads_name fuel
  | .named name, formed, fuel, pending, rest, _ => by
      have read := @rereads_name pending rest name fuel
      rwa [formed.2] at read
  | .func ⟨params, results⟩, formed, fuel, pending, rest, ends => by
      cases fuel with
      | zero => exact .exhausted
      | succ fuel =>
          unfold Layout.type Layout.funcType
          rw [List.cons_append, List.append_assoc]
          refine .peekWord (.advance (ne_end rfl) fun _ _ => ?_)
          refine (rereads_unnamedParameters formed.1 (rereads_types params formed.1) fuel _ _).bind ?_
          rintro _ rfl
          refine (rereads_results formed.2 (rereads_types results formed.2) fuel ends).bind ?_
          rintro _ rfl
          exact .pure (by simp [Function.comp_def])

theorem rereads_types : (found : List Ty) → Formed.types found → ∀ type ∈ found, TypeRereads type
  | [], _ => fun _ member => absurd member List.not_mem_nil
  | first :: others, formed =>
      List.forall_mem_cons.mpr ⟨rereads_type first formed.1, rereads_types others formed.2⟩

end

/-! ## Signatures -/

/-- An entry with this name and this type. -/
def IsNamed (found : String × Ty) (entry : Reader.Entry) : Prop := entry = .named found.1 found.2

theorem rereads_named {found : String × Ty} (formed : Formed.type found.2) :
    EntryRereads (Layout.named found.1 found.2) (IsNamed found) := by
  intro fuel pending rest ends
  cases fuel with
  | zero => exact .exhausted
  | succ fuel =>
      have read : Rereads (do
          let _ ← Reader.advance
          let type ← Reader.type fuel
          pure (Reader.Entry.named found.1 type)) pending (Layout.named found.1 found.2 ++ rest) (IsNamed found) true rest :=
        .advance (ne_end rfl) fun _ _ =>
          (rereads_type found.2 formed fuel true rest (endsType_of_endsEntry ends)).bind fun _ same => .pure (by rw [same]; rfl)
      refine .peekWord (.peekSecond ?_)
      have first : ahead pending (Layout.named found.1 found.2 ++ rest) = .identifier found.1 := rfl
      have behind : ahead (Word.identifier found.1).endsStatement ((blank :: Layout.type found.2).append rest)
          = ahead true (Layout.type found.2 ++ rest) := rfl
      rw [first, behind]
      rcases starts_type found.2 true rest with ⟨name, same⟩ | same
      · rw [same]
        exact read
      · rw [same]
        exact read

theorem spread_named {items : List (String × Ty)} {entries : List Reader.Entry}
    (all : List.Forall₂ IsNamed items entries) :
    Reader.spreadTypes [] entries = some (items.map fun found => (some found.1, found.2)) := by
  induction all with
  | nil => rfl
  | cons first _ ih => rw [first, Reader.spreadTypes, ih]; rfl

theorem groups_named {items : List (String × Ty)} {entries : List Reader.Entry}
    (all : List.Forall₂ IsNamed items entries) :
    Reader.groupEntries entries = some (items.map fun found => (some found.1, found.2)) := by
  cases all with
  | nil => rfl
  | cons first others =>
      unfold Reader.groupEntries
      rw [List.any_cons, first, Reader.Entry.isNamed, Bool.true_or, if_pos rfl]
      exact spread_named (.cons rfl others)

theorem rereads_namedParameters {items : List (String × Ty)} (formed : ∀ found ∈ items, Formed.type found.2)
    (fuel : Nat) (pending : Bool) (rest : List Piece) :
    Rereads (Reader.parameters fuel) pending
      (inParens (commaSeparated (items.map fun found => Layout.named found.1 found.2)) ++ rest)
      (· = items.map fun found => (some found.1, found.2)) true rest :=
  rereads_parameters (fun _ _ _ _ => rfl) (fun found member => rereads_named (formed found member))
    (fun _ all => groups_named all) fuel pending rest

theorem namedParameters_named (params : List Parameter) :
    Reader.namedParameters (params.map fun param => (some param.name, param.type)) = some params := by
  unfold Reader.namedParameters
  induction params with
  | nil => rfl
  | cons param params ih =>
      rw [List.map_cons, List.mapM_cons, ih]
      rfl

theorem rereads_namedResults {types : List Ty} {names : List String} (formed : Formed.types types)
    (same : names.length = types.length) (fuel : Nat) :
    Rereads (Reader.results fuel) true (blank :: inParens (commaSeparated (names.zipWith Layout.named types)) ++ rest)
      (· = (types, names)) true rest := by
  cases fuel with
  | zero => exact .exhausted
  | succ fuel =>
      rw [← List.map_uncurry_zip_eq_zipWith]
      refine .peekWord ?_
      have typed : ∀ found ∈ names.zip types, Formed.type found.2 := fun found member =>
        formed_types.mp formed found.2 (List.of_mem_zip member).2
      refine (rereads_namedParameters typed fuel true rest).bind ?_
      rintro _ rfl
      refine .pure ?_
      rw [List.map_map, List.filterMap_map]
      exact Prod.ext (List.map_snd_zip same.ge) ((congrFun List.filterMap_eq_map _).trans (List.map_fst_zip same.le))

/-- A signature is read back from its layout. -/
theorem rereads_signature {found : Signature} (formed : Formed.signature found) (fuel : Nat) (pending : Bool)
    (ends : endsType (ahead true rest) = true) :
    Rereads (Reader.signature fuel) pending (Layout.signature found ++ rest) (· = found) true rest := by
  obtain ⟨params, types, names, counts⟩ := formed
  have listed : (found.params.map fun param => Layout.named param.name param.type)
      = (found.params.map fun param => (param.name, param.type)).map fun found => Layout.named found.1 found.2 := by
    rw [List.map_map]
    rfl
  refine .peek fun _ _ => ?_
  unfold Layout.signature
  rw [List.append_assoc, listed]
  have typed : ∀ entry ∈ found.params.map (fun param => (param.name, param.type)), Formed.type entry.2 := by
    intro entry member
    obtain ⟨param, inside, rfl⟩ := List.mem_map.mp member
    exact (params param inside).2
  refine (rereads_namedParameters typed fuel _ _).bind ?_
  rintro _ rfl
  rw [List.map_map]
  have all : Reader.namedParameters (found.params.map ((fun entry : String × Ty => (some entry.1, entry.2))
      ∘ fun param => (param.name, param.type))) = some found.params := namedParameters_named found.params
  rw [all]
  -- Results have names all together or not at all.
  by_cases unnamed : found.resultNames.isEmpty = true
  · rw [if_pos unnamed]
    refine (rereads_results types (rereads_types _ types) fuel ends).bind ?_
    rintro _ rfl
    refine .pure ?_
    rw [← List.isEmpty_iff.mp unnamed]
  · rw [if_neg unnamed]
    have same := counts.resolve_left fun none => unnamed (List.isEmpty_iff.mpr none)
    refine (rereads_namedResults types same fuel).bind ?_
    rintro _ rfl
    exact .pure rfl

end MiniGo.Syntax
