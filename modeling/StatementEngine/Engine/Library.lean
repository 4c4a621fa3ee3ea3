import StatementEngine.Error
import StatementEngine.Value.Held

/-!
# Functions of the host

**What a host adds to the language.** A function of the host is a program: it computes with its
arguments as it likes, calls functions, and ends with a value, a failure or a panic
(`HostProgram`). Two things are asked of it.

* What it fails with is a throw or the failure of an operation. What a function that it calls fails
  with is its own failure.
* It has no functions but those that it is handed (`HostFunction.only`). Among those may be the ones
  through which a script looks at the engine, and it may call them.

So it touches no scope but through the functions that it calls. A host chooses its functions once for
all runs (`HostLibrary`).
-/

namespace StatementEngine

/-- What is thrown only holds functions of a set. Errors of the engine are never values again. -/
def Raise.Only (fn : FunctionRef → Prop) : Raise → Prop
  | .thrown v _ => v.Only fn
  | .failed _ => True

/-- What a function of the host does once it has been called. -/
inductive HostProgram where
  | yield (v : Value)
  | raise (r : Raise) (own : r.OfOperation)
  | panic (message : String)
  /-- Calls a function and goes on with what it yields. -/
  | call (f : FunctionRef) (args : List Value) (next : Value → HostProgram)

namespace HostProgram

/-- The program has only functions of a set, as long as the functions that it calls yield no
others. -/
def Only (fn : FunctionRef → Prop) : HostProgram → Prop
  | yield v => v.Only fn
  | raise r _ => r.Only fn
  | panic _ => True
  | call f args next =>
    fn f ∧ (∀ v ∈ args, v.Only fn) ∧ ∀ v, v.Only fn → (next v).Only fn

/-- The second program is what is left of the first one at some point, given what the calls up to
there yield. -/
inductive ComesTo : HostProgram → HostProgram → Prop
  | here (program : HostProgram) : ComesTo program program
  | next {f : FunctionRef} {args : List Value} {next : Value → HostProgram} {left : HostProgram}
      (v : Value) (h : ComesTo (next v) left) : ComesTo (call f args next) left

end HostProgram

/-- A function of the host. -/
structure HostFunction where
  /-- What it does with its arguments. -/
  run : List Value → HostProgram
  /-- It only has the functions that its arguments hold. -/
  only : ∀ {fn : FunctionRef → Prop} {args : List Value},
    (∀ v ∈ args, v.Only fn) → (run args).Only fn

namespace HostFunction

/-- The function that returns its arguments. -/
def returning : HostFunction where
  run args := .yield (.collapse args)
  only := Value.only_collapse

/-- The function that throws its first argument at a position of its own. -/
def throwing (p : Position) : HostFunction where
  run args := .raise (.thrown (args.head?.getD .nil) (some p)) trivial
  only h := Value.only_getD fun v hv => h v (List.mem_of_head? hv)

/-- The function that panics with the text of its first argument. -/
def panicking : HostFunction where
  run args := .panic (args.head?.getD .nil).text
  only _ := trivial

/-- The function that calls its first argument with the others. -/
def invoking : HostFunction where
  run
    | .function f :: rest => .call f rest .yield
    | _ => .raise (.ofKind .notInvokable) trivial
  only h := by
    split
    · obtain ⟨hf, hrest⟩ := List.forall_mem_cons.mp h
      exact ⟨Value.only_function.mp hf, hrest, fun _ hv => hv⟩
    · trivial

end HostFunction

/-- The functions of a host. -/
class HostLibrary where
  function : Nat → HostFunction

/-- A host that says nothing else has functions that return their arguments. -/
instance : HostLibrary := ⟨fun _ => .returning⟩

end StatementEngine
