import Mathlib.Data.List.Forall2
import StatementEngine.Proofs.Task.Ledger

/-!
# What the sink has been told

**One failure for each task that has failed**, in the order in which the tasks have ended
(`Sink.Holds`). A sink that keeps failures keeps them until the host is handed them, so what the
host has been handed, followed by what is kept, is all of them. A sink that hands failures to the
host at once has handed out all of them, and one that logs them keeps none.

A failure says whose it is, where the task was spawned and how its call has failed (`Reports`). The
scheduler looks up the position when it reports the failure, so this rests on the books
(`held_of_path`).
-/

namespace StatementEngine

/-- The failure is that of the ending: it says which task has ended, where it was spawned, and what
its call has raised. -/
structure Reports (spawned : List Spawning) (x : Ending) (f : Failure) : Prop where
  task : f.task = x.task
  raise : x.outcome.failure? = some f.raise
  position : ∃ sp ∈ spawned, sp.job.task = f.task ∧ sp.position = f.position

/-- The tasks whose work has failed, in the order in which they have ended. -/
def Chronicle.failed (past : Chronicle) : List Ending :=
  past.endings.filter (·.outcome.failure?.isSome)

variable {spawned : List Spawning} {failed : List Ending} {handedOut : List Failure} {sink : Sink}
  {kind : SinkKind} {past : Chronicle} {e : Occurrence}

/-- A sink of a kind has been told of the failures and of nothing else. -/
def Sink.Holds (spawned : List Spawning) (failed : List Ending) (handedOut : List Failure)
    (sink : Sink) : SinkKind → Prop
  | .log => sink.kind = .log ∧ handedOut = [] ∧ sink.kept = #[] ∧ sink.delivered = #[]
  | .buffer => sink.kind = .buffer ∧ sink.delivered = #[] ∧
    List.Forall₂ (Reports spawned) failed (handedOut ++ sink.kept.toList)
  | .callback => sink.kind = .callback ∧ handedOut = [] ∧ sink.kept = #[] ∧
    List.Forall₂ (Reports spawned) failed sink.delivered.toList

namespace Sink

theorem holds_ofKind (kind : SinkKind) : Holds [] [] [] (ofKind kind) kind := by
  cases kind with
  | log => exact ⟨rfl, rfl, rfl, rfl⟩
  | buffer => exact ⟨rfl, rfl, .nil⟩
  | callback => exact ⟨rfl, rfl, rfl, .nil⟩

/-- More tasks may be spawned. -/
theorem Holds.mono (h : sink.Holds spawned failed handedOut kind) {spawned' : List Spawning}
    (grows : spawned ⊆ spawned') : sink.Holds spawned' failed handedOut kind := by
  have more (x : Ending) (f : Failure) (reports : Reports spawned x f) : Reports spawned' x f := by
    obtain ⟨sp, there, position⟩ := reports.position
    exact { reports with position := ⟨sp, grows there, position⟩ }
  cases kind with
  | log => exact h
  | buffer => exact ⟨h.1, h.2.1, h.2.2.imp more⟩
  | callback => exact ⟨h.1, h.2.1, h.2.2.1, h.2.2.2.imp more⟩

/-- A failure is reported. -/
theorem Holds.report (h : sink.Holds spawned failed handedOut kind) {x : Ending} {f : Failure}
    (reports : Reports spawned x f) :
    (sink.report f).Holds spawned (failed ++ [x]) handedOut kind := by
  have one : List.Forall₂ (Reports spawned) [x] [f] := .cons reports .nil
  cases kind with
  | log =>
      have same : sink.report f = sink := by simp [Sink.report, h.1]
      rw [same]
      exact h
  | buffer =>
      obtain ⟨buffer, delivered, told⟩ := h
      simp only [Sink.report, buffer, Holds, Array.toList_push, ← List.append_assoc]
      exact ⟨trivial, delivered, List.rel_append told one⟩
  | callback =>
      obtain ⟨callback, none, kept, told⟩ := h
      simp only [Sink.report, callback, Holds, Array.toList_push]
      exact ⟨trivial, none, kept, List.rel_append told one⟩

/-- The host empties the sink. -/
theorem Holds.take (h : sink.Holds spawned failed handedOut kind) :
    sink.take.2.Holds spawned failed (handedOut ++ sink.kept.toList) kind := by
  cases kind with
  | log =>
      obtain ⟨log, none, kept, delivered⟩ := h
      exact ⟨log, by simp [none, kept], rfl, delivered⟩
  | buffer =>
      obtain ⟨buffer, delivered, told⟩ := h
      refine ⟨buffer, delivered, ?_⟩
      show List.Forall₂ _ _ (_ ++ [])
      rwa [List.append_nil]
  | callback =>
      obtain ⟨callback, none, kept, told⟩ := h
      exact ⟨callback, by simp [none, kept], rfl, told⟩

theorem exists_reports {fs : List Failure} (all : List.Forall₂ (Reports spawned) failed fs)
    {f : Failure} (there : f ∈ fs) : ∃ x ∈ failed, Reports spawned x f := by
  induction all with
  | nil => simp at there
  | cons reports _ ih =>
      rcases List.mem_cons.mp there with rfl | there
      · exact ⟨_, List.mem_cons_self, reports⟩
      · obtain ⟨x, hx, reports⟩ := ih there
        exact ⟨x, List.mem_cons_of_mem _ hx, reports⟩

/-- All that the sink has ever shown are failures of tasks. -/
theorem Holds.reports (h : sink.Holds spawned failed handedOut kind) {f : Failure}
    (told : f ∈ handedOut ++ sink.kept.toList ++ sink.delivered.toList) :
    ∃ x ∈ failed, Reports spawned x f := by
  cases kind with
  | log =>
      obtain ⟨-, none, kept, delivered⟩ := h
      simp [none, kept, delivered] at told
  | buffer =>
      obtain ⟨-, delivered, all⟩ := h
      refine exists_reports all ?_
      simpa [delivered] using told
  | callback =>
      obtain ⟨-, none, kept, all⟩ := h
      refine exists_reports all ?_
      simpa [none, kept] using told

end Sink

/-! ## Along a path -/

/-- The sink has been told of the failures when something happens. -/
def Held (kind : SinkKind) (past : Chronicle) (e : Occurrence) : Prop :=
  e.state.sink.Holds (Chronicle.spawned (past ++ [e])) past.failed
    (Chronicle.handedOut (past ++ [e])) kind

theorem failed_concat_of_ends (none : e.ends = []) :
    Chronicle.failed (past ++ [e]) = past.failed := by
  unfold Chronicle.failed
  rw [Chronicle.endings_concat, none, List.append_nil]

/-- What the sink holds after something has happened, if no task is settled then. -/
theorem Held.afterwards (h : Held kind past e) (none : e.ends = []) :
    e.state.sink.Holds (Chronicle.spawned (past ++ [e])) (Chronicle.failed (past ++ [e]))
      (Chronicle.handedOut (past ++ [e])) kind := by
  rw [failed_concat_of_ends none]
  exact h

/-- What hands out no failures leaves the sink as it is. -/
theorem held_of_same (held : sink.Holds past.spawned past.failed past.handedOut kind)
    (handsOut : e.handsOut = []) (same : e.state.sink = sink) : Held kind past e := by
  unfold Held
  rw [same, Chronicle.spawned_concat, Chronicle.handedOut_concat, handsOut, List.append_nil]
  exact held.mono (List.subset_append_left _ _)

/-- The host is handed what the sink keeps. -/
theorem Held.take {s : State} (h : Held kind past (.asked (.command .takeFailures) s))
    (deferred : s.scheduler.strategy = .deferred) :
    Held kind (past ++ [.asked (.command .takeFailures) s]) (.answered (.command .takeFailures) s
      (.ok (.failures (Exec.ordered s s.sink.kept) (Exec.ordered s s.sink.delivered)))
      { s with sink := s.sink.take.2 }) := by
  have kept : Exec.ordered s s.sink.kept = s.sink.kept.toList := by
    simp [Exec.ordered, deferred, Strategy.isBackground]
  have held := h.afterwards rfl
  unfold Held
  rw [Chronicle.spawned_concat, Chronicle.handedOut_concat]
  show s.sink.take.2.Holds (_ ++ []) _ (_ ++ Exec.ordered s s.sink.kept) kind
  rw [List.append_nil, kept]
  exact held.take

/-- A task is settled: if its work has failed, that is reported. -/
theorem Sink.Holds.settle {s : State} (h : s.sink.Holds spawned failed handedOut kind)
    {task : TaskId} {r : Task} (found : s.scheduler.task? task = some r)
    (position : ∃ sp ∈ spawned, sp.job.task = task ∧ sp.position = r.position)
    (o : Outcome Raise Value) :
    (s.settle task o).sink.Holds spawned
      (failed ++ [⟨task, o⟩].filter (·.outcome.failure?.isSome)) handedOut kind := by
  unfold State.settle
  cases failure : o.failure? with
  | none => simpa [failure] using h
  | some raise =>
      have reported : (s.report task raise).sink = s.sink.report ⟨task, r.position, raise⟩ := by
        simp [State.report, found]
      simp only [Option.elim_some, failure, Option.isSome_some, List.filter_cons_of_pos,
        List.filter_nil, reported]
      exact h.report ⟨rfl, failure, position⟩

/-- When the innermost task has worked it is settled. -/
theorem Held.settle {w : Work} {s u : State} {o : Outcome Raise Value}
    (h : Held kind past (.answered (.question (.work w)) s o u))
    (books : Booked past (.answered (.question (.work w)) s o u)) {task : TaskId}
    (running : s.running = some task) (innermost : past.unfinished.head? = some task) (ran : Nat)
    (outer : Option TaskId) :
    Held kind (past ++ [.answered (.question (.work w)) s o u]) (.asked (.question (.drain ran))
      (State.settle { u with running := outer } task o)) := by
  obtain ⟨r, found, -⟩ := books.runs task (List.mem_of_mem_head? innermost)
  have ended : Occurrence.ends (.answered (.question (.work w)) s o u) = [⟨task, o⟩] := by
    simp [Occurrence.ends, running]
  have failed : Chronicle.failed (past ++ [.answered (.question (.work w)) s o u])
      = past.failed ++ [⟨task, o⟩].filter (·.outcome.failure?.isSome) := by
    rw [Chronicle.failed, Chronicle.endings_concat, ended, List.filter_append]
    rfl
  let resumed : State := { u with running := outer }
  have told : resumed.sink.Holds _ past.failed _ kind := h
  refine held_of_same ?_ rfl rfl
  rw [failed]
  exact told.settle found (books.toRoster.position found) o

/-- **The sink has been told of every failure** at every moment of a path. -/
theorem held_of_path (path : Path (.initial .deferred kind) (past ++ [e])) : Held kind past e := by
  refine path.induction fun past e path follows earlier => ?_
  have settled (rest : past.AtRest) : (past.last (.initial .deferred kind)).sink.Holds
      past.spawned past.failed past.handedOut kind := by
    rcases List.eq_nil_or_concat past with rfl | ⟨before, e', rfl⟩
    · exact Sink.holds_ofKind kind
    · rw [List.concat_eq_append] at rest earlier ⊢
      rw [Chronicle.last_concat]
      exact (earlier before e' rfl).afterwards (Chronicle.atRest_concat.mp rest).ends
  have due {e' : Occurrence} (last : past.getLast? = some e') :
      ∃ before, past = before ++ [e'] ∧ Booked before e' ∧ Held kind before e' := by
    obtain ⟨before, rfl⟩ := List.getLast?_eq_some_iff.mp last
    exact ⟨before, rfl, booked_of_path path, earlier before e' rfl⟩
  cases follows with
  | drifts rest drift plain => exact held_of_same (settled rest) plain.handsOut drift.sink
  | spawned rest drift state kept spawns =>
      exact held_of_same (settled rest) kept (state.sink.trans drift.sink)
  | emptied last =>
      obtain ⟨before, rfl, books, held⟩ := due last
      exact held.take books.deferred
  | drained last | skipped last | invoked last =>
      obtain ⟨before, rfl, -, held⟩ := due last
      exact held_of_same (held.afterwards rfl) rfl rfl
  | settled last running innermost =>
      obtain ⟨before, rfl, books, held⟩ := due last
      rw [List.dropLast_concat] at innermost
      exact held.settle books running innermost _ _

end StatementEngine
