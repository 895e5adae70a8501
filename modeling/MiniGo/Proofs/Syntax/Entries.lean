import MiniGo.Tree.TypeReader

/-!
# Entries of a list of parameters

An entry is a lone name, a name with a type, or another type. If some entry has both a name and a type then each lone
name has the type of the next such entry (`Spread`), and there is none for some lone name or for a type exactly if
the list is `Mixed`. This is what the reader gives for a list once all of it is read (`groupEntries_eq_some`,
`groupEntries_eq_none`).
-/

namespace MiniGo.Syntax

open Reader (Entry)

variable {entries : List Entry}

/-! ## What a list stands for -/

/-- The type of an entry that has both a name and a type. -/
def namedType? : Entry → Option Ty
  | .named _ type => some type
  | _ => none

/-- The parameter that an entry stands for in front of others: a lone name has the type of the next named entry. -/
def parameter? (behind : List Entry) : Entry → Option (String × Ty)
  | .bare name => (behind.findSome? namedType?).map (name, ·)
  | .named name type => some (name, type)
  | .unnamed _ => none

/-- Each entry stands for one parameter, in this order. -/
inductive Spread : List Entry → List (String × Ty) → Prop where
  | nil : Spread [] []
  | cons {entry : Entry} {behind : List Entry} {param : String × Ty} {params : List (String × Ty)} :
      parameter? behind entry = some param → Spread behind params → Spread (entry :: behind) (param :: params)

/-- Some entry is a type that is no lone name, or the last entry is a lone name. -/
def Mixed (entries : List Entry) : Prop :=
  (∃ type, .unnamed type ∈ entries) ∨ ∃ name, entries.getLast? = some (.bare name)

/-- Parameters as a list gives them, all with their names. -/
def withNames (params : List (String × Ty)) : List (Option String × Ty) :=
  params.map fun param => (some param.1, param.2)

/-- The parameters that a list stands for: its types, or what its entries stand for if one has both a name and a
type. -/
def StandFor (entries : List Entry) (params : List (Option String × Ty)) : Prop :=
  if entries.any Entry.isNamed then ∃ spread, Spread entries spread ∧ params = withNames spread
  else params = entries.map fun entry => (none, entry.type)

theorem withNames_run (names : List String) (type : Ty) (others : List (String × Ty)) :
    withNames (names.map (·, type) ++ others) = names.map (fun name => (some name, type)) ++ withNames others := by
  simp [withNames]

theorem findSome?_bares (names : List String) (others : List Entry) :
    (names.map Entry.bare ++ others).findSome? namedType? = others.findSome? namedType? := by
  induction names with
  | nil => rfl
  | cons name names ih => exact ih

/-- Lone names in front of a named entry have its type. -/
theorem spread_run {names : List String} {name : String} {type : Ty} {params : List (String × Ty)} :
    Spread (names.map .bare ++ .named name type :: entries) params ↔
      ∃ others, Spread entries others ∧ params = (names ++ [name]).map (·, type) ++ others := by
  induction names generalizing params with
  | nil =>
      refine ⟨fun spread => ?_, ?_⟩
      · cases spread with
        | cons here spread => exact ⟨_, spread, by rw [← Option.some.inj here]; rfl⟩
      · rintro ⟨others, spread, rfl⟩
        exact .cons rfl spread
  | cons first names ih =>
      have typed : parameter? (names.map .bare ++ .named name type :: entries) (.bare first) = some (first, type) := by
        rw [parameter?, findSome?_bares]
        rfl
      refine ⟨fun spread => ?_, ?_⟩
      · cases spread with
        | cons here spread =>
            obtain ⟨others, later, rfl⟩ := ih.mp spread
            obtain rfl := Option.some.inj (typed.symm.trans here)
            exact ⟨others, later, rfl⟩
      · rintro ⟨others, spread, rfl⟩
        exact .cons typed (ih.mpr ⟨others, spread, rfl⟩)

theorem Spread.unique {params others : List (String × Ty)} (spread : Spread entries params)
    (again : Spread entries others) : params = others := by
  induction spread generalizing others with
  | nil =>
      cases again
      rfl
  | cons here _ ih =>
      cases again with
      | cons there later => rw [Option.some.inj (here.symm.trans there), ih later]

theorem Mixed.cons {entry : Entry} (mixed : Mixed entries) : Mixed (entry :: entries) := by
  rcases mixed with ⟨type, member⟩ | ⟨name, last⟩
  · exact .inl ⟨type, List.mem_cons_of_mem entry member⟩
  · cases entries with
    | nil => cases last
    | cons next others => exact .inr ⟨name, by rwa [List.getLast?_cons_cons]⟩

theorem Spread.not_mixed {params : List (String × Ty)} (spread : Spread entries params) : ¬ Mixed entries := by
  induction spread with
  | nil => rintro (⟨_, ⟨⟩⟩ | ⟨_, ⟨⟩⟩)
  | @cons entry behind param params here _ ih =>
      rintro (⟨type, member⟩ | ⟨name, last⟩)
      · rcases List.mem_cons.mp member with rfl | member
        · cases here
        · exact ih (.inl ⟨type, member⟩)
      · cases behind with
        | nil =>
            obtain rfl := Option.some.inj last
            cases here
        | cons next behind => exact ih (.inr ⟨name, by rwa [List.getLast?_cons_cons] at last⟩)

theorem namedType_of_not_mixed (unmixed : ¬ Mixed entries) (found : entries ≠ []) :
    ∃ type, entries.findSome? namedType? = some type := by
  have last := List.getLast?_eq_some_getLast found
  have member := List.getLast_mem found
  rw [← Option.isSome_iff_exists, List.findSome?_isSome_iff]
  refine ⟨_, member, ?_⟩
  cases same : entries.getLast found with
  | bare name => exact absurd (.inr ⟨name, same ▸ last⟩) unmixed
  | named name type => rfl
  | unnamed type => exact absurd (.inl ⟨type, same ▸ member⟩) unmixed

theorem spread_of_not_mixed (unmixed : ¬ Mixed entries) : ∃ params, Spread entries params := by
  induction entries with
  | nil => exact ⟨[], .nil⟩
  | cons entry behind ih =>
      have later : ¬ Mixed behind := fun mixed => unmixed mixed.cons
      obtain ⟨params, spread⟩ := ih later
      cases entry with
      | bare name =>
          have more : behind ≠ [] := fun none => unmixed (.inr ⟨name, by rw [none]; rfl⟩)
          obtain ⟨type, next⟩ := namedType_of_not_mixed later more
          exact ⟨(name, type) :: params, .cons (by rw [parameter?, next]; rfl) spread⟩
      | named name type => exact ⟨(name, type) :: params, .cons rfl spread⟩
      | unnamed type => exact absurd (.inl ⟨type, List.mem_cons_self⟩) unmixed

/-! ## Grouping -/

/-- Types are spread over the lone names that wait for one as over those of a list. -/
theorem spreadTypes_eq_some {waiting : List String} {params : List (Option String × Ty)} :
    Reader.spreadTypes waiting entries = some params ↔
      ∃ spread, Spread (waiting.reverse.map .bare ++ entries) spread ∧ params = withNames spread := by
  -- Along the entries: names wait until an entry with a type gives it to all of them.
  fun_induction Reader.spreadTypes waiting entries generalizing params with
  | case1 waiting none =>
      obtain rfl := List.isEmpty_iff.mp none
      refine ⟨?_, ?_⟩
      · rintro ⟨⟩
        exact ⟨[], .nil, rfl⟩
      · rintro ⟨_, ⟨⟩, rfl⟩
        rfl
  | case2 waiting some =>
      refine ⟨nofun, ?_⟩
      rintro ⟨spread, holds, _⟩
      obtain ⟨name, before, rfl⟩ := List.exists_cons_of_ne_nil fun none => some (List.isEmpty_iff.mpr none)
      exact absurd (.inr ⟨name, by simp⟩) holds.not_mixed
  | case3 waiting name entries ih =>
      rw [ih, List.reverse_cons, List.map_append, List.append_assoc]
      rfl
  | case4 waiting name type entries ih =>
      have run := @spread_run entries waiting.reverse name type
      refine ⟨fun gave => ?_, ?_⟩
      · obtain ⟨later, spreadLater, same⟩ := Option.bind_eq_some_iff.mp gave
        obtain ⟨others, holds, rfl⟩ := ih.mp spreadLater
        refine ⟨_, run.mpr ⟨others, holds, rfl⟩, ?_⟩
        rw [← Option.some.inj same, withNames_run]
      · rintro ⟨spread, holds, rfl⟩
        obtain ⟨others, later, rfl⟩ := run.mp holds
        refine Option.bind_eq_some_iff.mpr ⟨withNames others, ih.mpr ⟨others, later, rfl⟩, ?_⟩
        rw [withNames_run]
        rfl
  | case5 waiting type entries =>
      refine ⟨nofun, ?_⟩
      rintro ⟨spread, holds, _⟩
      exact absurd (.inl ⟨type, List.mem_append_right _ List.mem_cons_self⟩) holds.not_mixed

theorem groupEntries_eq_some {params : List (Option String × Ty)} :
    Reader.groupEntries entries = some params ↔ StandFor entries params := by
  unfold Reader.groupEntries StandFor
  split
  · exact spreadTypes_eq_some
  · rw [Option.some.injEq, eq_comm]

theorem Spread.standFor {params : List (String × Ty)} (spread : Spread entries params)
    (named : entries.any Entry.isNamed = true) : StandFor entries (withNames params) := by
  unfold StandFor
  rw [if_pos named]
  exact ⟨params, spread, rfl⟩

theorem standFor_of_plain (plain : entries.any Entry.isNamed = false) :
    StandFor entries (entries.map fun entry => (none, entry.type)) := by
  unfold StandFor
  rw [plain, if_neg Bool.false_ne_true]

theorem groupEntries_eq_none (named : entries.any Entry.isNamed = true) :
    Reader.groupEntries entries = none ↔ Mixed entries := by
  constructor
  · intro refused
    refine Classical.byContradiction fun unmixed => ?_
    obtain ⟨params, spread⟩ := spread_of_not_mixed unmixed
    rw [groupEntries_eq_some.mpr (spread.standFor named)] at refused
    cases refused
  · intro mixed
    rw [Option.eq_none_iff_forall_ne_some]
    intro params gave
    have stands := groupEntries_eq_some.mp gave
    unfold StandFor at stands
    rw [if_pos named] at stands
    obtain ⟨spread, holds, _⟩ := stands
    exact holds.not_mixed mixed

end MiniGo.Syntax
