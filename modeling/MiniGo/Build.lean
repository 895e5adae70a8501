import MiniGo.Package.Check
import MiniGo.Session
import MiniGo.Workspace

/-!
# Building programs

A program is built in three stages, each for all packages before the next stage begins: the imports
of the entry package are resolved, every package is checked against those it imports, and every
package is loaded. So no code runs before all of it is checked.
-/

namespace MiniGo

/-- Checks packages, each against the interfaces of those before it. -/
def checkAll (imports : Interfaces) : List Package → Except Error Interfaces
  | [] => .ok imports
  | package :: rest => do
      let interface ← package.check imports
      checkAll ((package.path, interface) :: imports) rest

/-- Loads packages into a new session that starts in one of them. -/
def loadPackages (fuel : Nat) (settings : Settings) (output : Output) (entry : String)
    (packages : List Package) : EStateM.Result Error Session Unit :=
  let loading : Run Unit := do
    Session.loadAll packages
    Session.setEntryPackage entry
  loading (Session.start fuel settings output)

/-- A package and all that it imports, checked. -/
def prepare (files : FileTree) (entry : String) : Loading (List Package) := do
  let packages ← Workspace.resolve files entry
  let _ ← Workspace.ofExcept (checkAll .initial packages)
  pure packages

/-- A session in which a package and all that it imports are checked and loaded. -/
def build (files : FileTree) (fuel : Nat) (settings : Settings) (output : Output)
    (entry : String) : Loading Session := do
  let packages ← prepare files entry
  match loadPackages fuel settings output entry packages with
  | .ok _ session => pure session
  | .error error _ => throw error

end MiniGo
