import MiniGo.Output
import MiniGo.Store
import MiniGo.Value.Operators
import MiniGo.Value.Builtins

/-!
# The machine that runs code

A machine is the store of scopes, the frames of the calls that are active, and the text printed so
far. A computation changes a machine and gives a result; when it stops early it leaves the machine
as it was at that point, so what was printed before an error is kept.

A machine also knows which events led to it. They are propositions, so a run cannot depend on them
and does not carry them along; they are there for statements about whole runs.

`inFrame` pushes a frame around a computation and pops it however the computation ends.
-/

namespace MiniGo

/-- Why a computation stopped early: an error of the program, or a bound on its length. -/
inductive Halt where
  | fault (error : RuntimeError)
  | exhausted

/-- An active call: the name of the function and the types of its results. -/
structure Frame where
  function : String
  results : List Ty

/-- The active calls, the innermost first, with their number. -/
structure CallStack where
  frames : List Frame
  depth : Nat
  depth_eq : depth = frames.length

namespace CallStack

def empty : CallStack := ⟨[], 0, rfl⟩

def push (calls : CallStack) (frame : Frame) : CallStack :=
  ⟨frame :: calls.frames, calls.depth + 1, by simp [calls.depth_eq]⟩

/-- Takes the innermost call away. -/
def pop : CallStack → CallStack
  | ⟨[], _, _⟩ => empty
  | ⟨_ :: frames, depth, same⟩ => ⟨frames, depth - 1, by simp [same]⟩

@[simp] theorem pop_push (calls : CallStack) (frame : Frame) : (calls.push frame).pop = calls := rfl

end CallStack

/-- What a run does to scopes and names, and what calls give. -/
inductive Event where
  | opened (env : Env)
  /-- A name gets its binding, with the type that it is declared with, if it is written. -/
  | bound (env : Env) (name : String) (binding : Binding) (type? : Option Ty)
  /-- A name is read or assigned. -/
  | used (env : Env) (name : String) (location : Location)
  /-- A name behind a point is looked for. -/
  | selected (env : Env) (package name : String) (location : Location)
  | returned (closure : Closure) (results : List Value)
  /-- A call in the code gives results, of the function that its callee means. -/
  | called (call : Expr) (function : Value) (results : List Value)

structure Machine where
  store : Store
  calls : CallStack
  output : Output
  /-- How many function values were made. -/
  closures : Nat
  /-- The events so far, each with the store that it met. -/
  past : Store → Event → Prop

def Machine.initial (output : Output) : Machine :=
  ⟨Store.empty, .empty, output, 0, fun _ _ => False⟩

@[inline] def Machine.met (machine : Machine) (event : Event) : Machine :=
  { machine with past := fun store other =>
      machine.past store other ∨ (store = machine.store ∧ other = event) }

abbrev Eval := EStateM Halt Machine

namespace Eval

def fail (error : RuntimeError) : Eval α := fun machine => .error (.fault error) machine

/-- Stops because the bound on the length of the run is reached. -/
def exhausted : Eval α := fun machine => .error .exhausted machine

/-- The result of an operation on values. -/
def ofExcept (result : Except RuntimeError α) : Eval α := fun machine =>
  match result with
  | .ok value => .ok value machine
  | .error error => .error (.fault error) machine

@[inline] def meet (event : Event) : Eval Unit := fun machine => .ok () (machine.met event)

def openScope (env : Env) : Eval Env := fun machine =>
  let (inner, store) := machine.store.child env
  .ok inner { machine.met (.opened env) with store }

/-- Binds a name, declared with a type, in the innermost scope. -/
def bindTyped (env : Env) (name : String) (type? : Option Ty) (value : Value) (mutable : Bool) :
    Eval Unit := fun machine =>
  .ok () { machine.met (.bound env name ⟨value, mutable⟩ type?) with
    store := machine.store.bind env name ⟨value, mutable⟩ }

/-- Binds a name in the innermost scope. -/
def bind (env : Env) (name : String) (value : Value) (mutable : Bool) : Eval Unit :=
  bindTyped env name none value mutable

def lookup? (env : Env) (name : String) (location : Location) : Eval (Option Value) :=
  fun machine => .ok (machine.store.get? env name) (machine.met (.used env name location))

/-- The value that a name means, which has to be bound. -/
def lookup (env : Env) (name : String) (location : Location) : Eval Value := fun machine =>
  match machine.store.get? env name with
  | some value => .ok value (machine.met (.used env name location))
  | none => .error (.fault (.undefined name location)) (machine.met (.used env name location))

/-- The value that a name has in the innermost scope. -/
def lookupLocal? (env : Env) (name : String) : Eval (Option Value) := fun machine =>
  .ok (machine.store.getLocal? env name) machine

/-- A name is bound in the innermost scope. -/
def hasLocal (env : Env) (name : String) : Eval Bool := fun machine =>
  .ok (machine.store.hasLocal env name) machine

def assign (env : Env) (name : String) (value : Value) (location : Location) : Eval Unit :=
  fun machine =>
    -- The name counts as used whether or not it may be assigned to.
    match machine.store.target env name location with
    | .ok id =>
        .ok () { machine.met (.used env name location) with
          store := machine.store.write id name value }
    | .error error => .error (.fault error) (machine.met (.used env name location))

def depth : Eval Nat := fun machine => .ok machine.calls.depth machine

/-- The innermost active call. -/
def frame? : Eval (Option Frame) := fun machine =>
  .ok machine.calls.frames.head? machine

def makeClosure (name : String) (literal : FunctionLiteral) (env : Env) : Eval Value :=
  fun machine =>
    .ok (.function ⟨machine.closures, name, literal, env⟩)
      { machine with closures := machine.closures + 1 }

def callBuiltin (function : Builtin) (args : List Value) (location : Location) :
    Eval (List Value) := fun machine =>
  match function.call args location with
  | .ok (results, text) => .ok results { machine with output := machine.output.print text }
  | .error error => .error (.fault error) machine

/-! ## Frames -/

/-- Runs a computation inside a frame, which is gone afterwards however it ended. -/
def inFrame (frame : Frame) (body : Eval α) : Eval α := fun machine =>
  match body { machine with calls := machine.calls.push frame } with
  | .ok value after => .ok value { after with calls := after.calls.pop }
  | .error halt after => .error halt { after with calls := after.calls.pop }

end Eval

end MiniGo
