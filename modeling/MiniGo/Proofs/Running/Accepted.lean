import MiniGo.Proofs.Package.Workspaces
import MiniGo.Proofs.Running.Programs

/-!
# Accepted programs

A program is accepted when its packages were read, resolved and checked. What is known of its
sessions needs nothing else.
-/

namespace MiniGo.Running

/-- Packages that some texts were read into, that were resolved from an entry and checked. -/
def Accepted (packages : List Package) : Prop :=
  ∃ files entry workspace after,
    Workspace.Filled workspace ∧ prepare files entry workspace = .ok packages after

variable {packages : List Package}

/-! ## Outcomes that can be decided -/

def int? : Value → Option Int64
  | .int n => some n
  | _ => none

theorem eq_int {value : Value} {n : Int64} (number : int? value = some n) : value = .int n := by
  cases value with
  | int m =>
      obtain rfl := Option.some.inj number
      rfl
  | _ => cases number

theorem ok_of_int {result : EStateM.Result ε σ (List Value)} {n : Int64}
    (given : (value? result).map (·.map int?) = some [some n]) : result = .ok [.int n] (behind result) := by
  obtain ⟨values, ends, numbers⟩ := Option.map_eq_some_iff.mp given
  obtain ⟨value, rfl, number⟩ := List.map_eq_singleton_iff.mp numbers
  rw [← eq_int number]
  exact ok_of_value? ends

theorem find?_of_int {store : Store} {env : Env} {name : String} {id : ScopeId} {n : Int64} {mutable : Bool}
    (found : (store.find? env name).map (fun (id, binding) => (id, int? binding.value, binding.mutable))
      = some (id, some n, mutable)) : store.find? env name = some (id, ⟨.int n, mutable⟩) := by
  obtain ⟨⟨place, value, kept⟩, known, same⟩ := Option.map_eq_some_iff.mp found
  obtain ⟨rfl, number, rfl⟩ : place = id ∧ int? value = some n ∧ kept = mutable := by simpa using same
  rw [known, eq_int number]

/-! ## Sessions -/

theorem Accepted.known {fuel : Nat} {settings : Settings} {output : Output} {entry : String}
    {session : Session} {given : List Value} (accepted : Accepted packages)
    (reached : Reached fuel settings output entry packages session given) :
    ∃ world imports, Loaded (programOf packages) world imports session ∧
      AllOffered (programOf packages) world given := by
  obtain ⟨files, root, workspace, after, filled, prepared⟩ := accepted
  obtain ⟨formed, interfaces, checked⟩ := filled.prepare_ok prepared
  exact Reached.loaded_session formed checked reached

theorem Accepted.stopped {error : Error} {session : Session} (accepted : Accepted packages) (fuel : Nat)
    (settings : Settings) (output : Output) (entry : String)
    (failed : loadPackages fuel settings output entry packages = .error error session) : Stopped error := by
  obtain ⟨files, root, workspace, after, filled, prepared⟩ := accepted
  obtain ⟨formed, interfaces, checked⟩ := filled.prepare_ok prepared
  have ran := loaded_packages formed checked fuel settings output entry
  rw [failed] at ran
  exact ran.1

end MiniGo.Running
