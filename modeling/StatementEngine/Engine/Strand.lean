import StatementEngine.Engine.Interpreter
import StatementEngine.Resumption.Turns

/-!
# Computations side by side

**Computations share one state and take turns.** A `Strand` is one of them between two turns. What
belongs to a strand alone is its `Place`: how many calls it is in, which task it runs and which
worker runs it. Everything else is shared.

A turn lasts until the computation waits for something or is about to go round a loop; so a loop
that waits for a variable to change lets the others change it. A computation that does neither for
`Strand.turnLength` steps lets the others go on before its next statement.

Time passes with the steps of all computations together and with the scopes that they make. It
matters only to those who do not wait for ever.
-/

namespace StatementEngine

/-- Where a computation is among calls, tasks and workers. -/
structure Place where
  callDepth : Nat
  running : Option TaskId
  worker : Option WorkerId

/-- The place of a worker that takes a job: in no call and in no task. -/
def Place.ofWorker (worker : Option WorkerId) : Place := ⟨0, none, worker⟩

namespace State

/-- The place that the state says. -/
def place (s : State) : Place := ⟨s.callDepth, s.running, s.worker⟩

/-- The state seen from another place. -/
def seenFrom (s : State) (p : Place) : State :=
  { s with callDepth := p.callDepth, running := p.running, worker := p.worker }

end State

/-- The shared state, and the number of steps so far. -/
structure Moment where
  state : State
  steps : Nat

namespace Moment

/-- Making a scope takes as long as this number of steps. -/
def scopeCost : Nat := 20

/-- The time. -/
def time (m : Moment) : Nat := m.steps + scopeCost * m.state.scopes.next.index

end Moment

namespace Awaited

/-- For how long one waits who does not wait for ever: ample time for a task that has an end. -/
def patience : Nat := 100000000

/-- Whether somebody who has been waiting since some time may go on. -/
def isOver (m : Moment) (since : Nat) : Awaited → Bool
  | task t => m.state.scheduler.isOver t
  | taskForAWhile t => m.state.scheduler.isOver t || since + patience ≤ m.time
  | allTasks => m.state.scheduler.allOver

end Awaited

/-- The moment after nothing has happened for so long that nobody waits any more who does not wait
for ever. -/
def Moment.skip (m : Moment) : Moment := { m with steps := m.steps + Awaited.patience }

/-- A computation between two turns. -/
structure Strand (ω : Type) where
  rest : Paused Answer State ω
  place : Place
  /-- When its last turn ended. -/
  since : Nat

/-- How a strand leaves a turn. -/
inductive StrandEnd (ω : Type) where
  | finished (answer : ω)
  | stopped (x : Strand ω)

namespace Strand

variable {ω : Type}

/-- The steps after which a turn ends before the next statement. -/
def turnLength : Nat := 1000

/-- The steps after which a turn ends wherever it is. -/
def longestTurn : Nat := 1000000

/-- Whether a turn ends before a question, given the steps that it has left. -/
def stops (left : Nat) : Request → Bool
  | .iterate _ | .await _ => true
  | .execute .. => left + turnLength ≤ longestTurn
  | _ => false

/-- What is left of a computation after a turn that began after a number of steps. -/
def ofTurn (began : Nat) (t : Turn Answer State ω) : StrandEnd ω × Moment :=
  let m : Moment := ⟨t.state, began + (longestTurn - t.left)⟩
  match t.ending with
  | .finished a => (.finished a, m)
  | .paused rest => (.stopped ⟨rest, m.state.place, m.time⟩, m)

/-- A computation that has not begun, at a place. -/
def fresh (x : Exec ε α) (place : Place) : Strand (Outcome ε α) := ⟨.fresh x, place, 0⟩

/-- Whether a strand can use a turn. -/
def isReady (x : Strand ω) (m : Moment) : Bool :=
  match x.rest with
  | .asking (.await what) .. => what.isOver m x.since
  | _ => true

/-- The next turn. -/
def turn (config : Config) (x : Strand ω) (m : Moment) : StrandEnd ω × Moment :=
  ofTurn m.steps
    (x.rest.turn (Interpreter.bodies config) stops longestTurn (m.state.seenFrom x.place))

end Strand

end StatementEngine
