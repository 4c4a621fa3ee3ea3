import StatementEngine.Proofs.Contract.Calls
import StatementEngine.Proofs.Run.Asked
import StatementEngine.Proofs.Run.Reached
import StatementEngine.Proofs.Run.Strict

/-!
# Runs that come to an end

**A run ends if every question has a smaller rank than the one it is asked for** (`Contract.halts`).
The rank lives in a well-founded order and may depend on the state. It is enough to look at each
body by itself, with the rules for contracts: what a body asks must also be `below` its question.

The engine leaves two things to the host (`Request.LeftToHost`): a builtin has the queue run, and a
task can do anything; and a function of the library may call another one, or itself, with as many
arguments as it gets. `Exec.HostHalts` says that this comes to an end whenever the run does it.
-/

namespace StatementEngine

variable {W : Type}

/-- The question has the queue run, or it calls a function of the host's library that may call
another one with as many arguments. -/
def Request.LeftToHost (config : Config) : Request → Prop
  | .drain _ => True
  | .call (.host id name) args =>
    ∃ g vs, FunctionRef.MayCall config args (.host id name) g vs ∧ args.length ≤ vs.length
  | _ => False

/-- The question is answered by the engine, as far as it goes. -/
def Request.OfEngine (config : Config) (q : Request) : Prop := q.Open ∧ ¬ q.LeftToHost config

/-- Whatever the computation leaves to the host comes to an end. -/
def Exec.HostHalts (config : Config) (x : Exec ε α) (s : State) : Prop :=
  ∀ before q u,
    Resumption.Reaches (Interpreter.bodies config) (Request.OfEngine config) (x s) before q u →
    q.LeftToHost config →
    ∃ a t, Resumption.Evaluates (Interpreter.bodies config) (Interpreter.bodies config q u) a t

/-- A run that has ended without leaving anything to the host. -/
theorem Exec.hostHalts_of_asks {config : Config} {x : Exec ε α} {s t : State} {asked : Questions}
    {o : Outcome ε α} (run : Asks config x s asked o t)
    (quiet : ∀ q ∈ asked, ¬ q.1.LeftToHost config) : x.HostHalts config s := by
  intro before q u reached left
  exact absurd left (quiet _ (reached.mem_trace run))

/-- A builtin that calls its first argument hands on the others. -/
theorem FunctionRef.length_lt_of_builtin {config : Config} {b : Builtin} {g : FunctionRef}
    {args vs : List Value} (h : FunctionRef.MayCall config args (.builtin b) g vs) :
    vs.length < args.length := by
  obtain ⟨_, known, next, comes⟩ := h
  cases b with
  | throwAt | panic =>
      cases known
      cases comes
  | invoke =>
      cases known
      unfold HostFunction.invoking at comes
      dsimp only at comes
      split at comes
      · cases comes with
        | here => exact Nat.lt_succ_self _
        | next v more => cases more
      · cases comes
  | _ => cases known

/-- What is not left to the host hands on fewer arguments than it gets. -/
theorem FunctionRef.MayCall.length_lt {config : Config} {f g : FunctionRef} {args vs : List Value}
    (h : f.MayCall config args g vs) (own : ¬ (Request.call f args).LeftToHost config) :
    vs.length < args.length := by
  cases f with
  | host id name => exact Nat.lt_of_not_le fun le => own ⟨g, vs, h, le⟩
  | recorder | closure =>
      obtain ⟨_, none, -⟩ := h
      cases none
  | builtin b => exact length_lt_of_builtin h

/-- The number of arguments that a question hands over. -/
def Request.argCount : Request → Nat
  | .call _ args => args.length
  | _ => 0

/-- What may be asked for a question: its rank is smaller, if both are for the engine to answer. -/
def Contract.below (A : Contract) (config : Config) (lt : W → W → Prop)
    (rank : Request → State → W) (q : Request) (s : State) : Contract where
  requires p t := A.requires p t ∧ (q.OfEngine config → p.OfEngine config → lt (rank p t) (rank q s))
  promises := A.promises

/-- A computation that keeps a contract has a result, if the bodies do and only ask below their
question. -/
theorem Contract.halts {A : Contract} {config : Config} {lt : W → W → Prop} (wf : WellFounded lt)
    {rank : Request → State → W}
    (smaller : ∀ q s, A.requires q s → q.Open →
      Resumption.Ensures (A.below config lt rank q s).requires A.promises
        (Interpreter.bodies config q s) fun _ _ => True)
    (sound : ∀ q s a t, A.requires q s →
      Resumption.Evaluates (Interpreter.bodies config) (Interpreter.bodies config q s) a t →
      A.promises q s a t)
    (queue : ∀ q s, A.requires q s → ¬ q.Open → ∃ ran, q = .drain ran)
    {x : Exec ε α} {s : State} {post : Outcome ε α → State → Prop}
    (hx : Resumption.Ensures A.requires A.promises (x s) post) (host : x.HostHalts config s) :
    ∃ o t, Runs config x s o t := by
  have below : ∀ q s, A.requires q s → q.OfEngine config →
      Resumption.Ensures
        (fun p t => A.requires p t ∧ (p.OfEngine config → lt (rank p t) (rank q s))) A.promises
        (Interpreter.bodies config q s) fun _ _ => True :=
    fun q s hq own => (smaller q s hq own.1).mono_asks fun _ _ h => ⟨h.1, h.2 own⟩
  refine Resumption.halts_of_rank wf below sound hx fun before q u reached closed hq => ?_
  refine host before q u reached ?_
  by_cases opened : q.Open
  · exact Classical.not_not.mp fun own => closed ⟨opened, own⟩
  · obtain ⟨ran, rfl⟩ := queue q u hq opened
    trivial

end StatementEngine
