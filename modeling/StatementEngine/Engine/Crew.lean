import StatementEngine.Engine.Strand

/-!
# Workers in the background

**The host and its workers take turns.** Whenever the host stops, there is a round of its workers,
and then it is the host's turn again. Workers do not run while the host does, and a host that does
not stop sees no worker.

A round goes through three things.

* Workers that have nothing to do take jobs.
* New workers are hired for the jobs that are left, as many as the strategy has room for.
* Every worker has a turn, those hired first to begin with. A worker of a pool that is done with its
  job takes the next one at once. Other workers leave when their job is done.

A crew lasts from one step of the host to the next.
-/

namespace StatementEngine

/-- A worker and what it is doing. -/
structure Worker where
  id : Option WorkerId
  doing : Option (Strand (Outcome Empty Unit))

namespace Worker

/-- A worker with nothing to do takes a job, if there is one for it. -/
def takeJob (w : Worker) (m : Moment) : Worker × Moment :=
  match m.state.scheduler.take? w.id with
  | some (job, scheduler) =>
    ({ w with doing := some (.fresh (Exec.runJob job) (.ofWorker w.id)) },
      { m with state := { m.state with scheduler } })
  | none => (w, m)

/-- How many jobs a worker can do in a turn. -/
def jobsPerTurn : Nat := 20

/-- A worker has a turn, in which it can be done with at most a number of jobs. -/
def turn (config : Config) : Nat → Worker → Moment → Worker × Moment
  | 0, w, m => (w, m)
  | n + 1, w, m =>
    match w.doing with
    | some x =>
      if x.isReady m then
        match x.turn config m with
        | (.stopped x, m) => ({ w with doing := some x }, m)
        | (.finished _, m) =>
          let w := { w with doing := none }
          if w.id.isSome then
            let (w, m) := w.takeJob m
            turn config n w m
          else (w, m)
      else (w, m)
    | none => (w, m)

/-- Whether a worker is still there after its turn. -/
def stays (w : Worker) : Bool := w.id.isSome || w.doing.isSome

end Worker

/-- The workers, in the order in which they were hired, and the number of steps so far. -/
structure Crew where
  workers : List Worker
  steps : Nat

namespace Crew

/-- Nobody. -/
def empty : Crew := ⟨[], 0⟩

/-- The workers that have nothing to do take jobs. -/
def takeJobs : List Worker → Moment → List Worker × Moment
  | [], m => ([], m)
  | w :: rest, m =>
    let (w, m) := if w.doing.isNone then w.takeJob m else (w, m)
    let (rest, m) := takeJobs rest m
    (w :: rest, m)

/-- Hires workers for a number of jobs, as long as there is room besides the others. -/
def hire : Nat → Nat → Moment → List Worker × Moment
  | 0, _, m => ([], m)
  | n + 1, others, m =>
    if m.state.scheduler.strategy.hasRoom others then
      let newcomer : Worker := ⟨m.state.scheduler.nextDesk?, none⟩
      let (w, m) := newcomer.takeJob
        { m with state := { m.state with scheduler := m.state.scheduler.addDesk } }
      let (rest, m) := hire n (others + 1) m
      (w :: rest, m)
    else ([], m)

/-- Every worker has a turn. -/
def takeTurns (config : Config) : List Worker → Moment → List Worker × Moment
  | [], m => ([], m)
  | w :: rest, m =>
    let (w, m) := w.turn config Worker.jobsPerTurn m
    let (rest, m) := takeTurns config rest m
    (if w.stays then w :: rest else rest, m)

/-- A round of all workers. -/
def round (config : Config) (workers : List Worker) (m : Moment) : List Worker × Moment :=
  let (workers, m) := takeJobs workers m
  let (hired, m) :=
    if m.state.scheduler.strategy.hasRoom workers.length then
      hire m.state.scheduler.backlog.size workers.length m
    else ([], m)
  takeTurns config (workers ++ hired) m

/-- Goes on with the computation of the host, in at most a number of rounds. -/
def rounds (config : Config) : Nat → Strand ω → List Worker → Moment →
    Option (ω × List Worker × Moment)
  | 0, _, _, _ => none
  | n + 1, x, workers, ⟨s, steps⟩ =>
    let (workers, m) := round config workers ⟨s, steps⟩
    if x.isReady m then
      match x.turn config m with
      | (.finished a, m) => some (a, workers, m)
      | (.stopped x, m) => rounds config n x workers m
    else rounds config n x workers (if m.steps = steps then m.skip else m)

/-- Runs a computation of the host among its workers. A host without workers in the background runs
it alone. -/
def run (config : Config) (x : Exec ε α) (crew : Crew) (s : State) :
    Option (Outcome ε α × Crew × State) :=
  if s.scheduler.strategy.isBackground then
    match (Strand.fresh x s.place).turn config ⟨s, crew.steps⟩ with
    | (.finished o, m) => some (o, { crew with steps := m.steps }, m.state)
    | (.stopped x, m) =>
      (rounds config Interpreter.stepBound x crew.workers m).map fun (o, workers, m) =>
        (o, ⟨workers, m.steps⟩, m.state)
  else (Interpreter.run config x s).map fun (o, s) => (o, crew, s)

end Crew

end StatementEngine
