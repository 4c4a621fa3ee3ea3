import Mathlib.Logic.Relation
import StatementEngine.Proofs.Task.Ledger

/-!
# Tasks get on

**From one event to the next a task gets on by at most one step** (`Scheduler.Advances`): a pending
task is started or cancelled, and a running one ends. It is started exactly when it is put to work.
The position of a task stays.

So a status that is final stays for good (`advanced_of_path`).
-/

namespace StatementEngine

/-- One step in the life of a task. -/
inductive TaskStatus.Move : TaskStatus → TaskStatus → Prop
  | start : Move .pending .running
  | cancel : Move .pending .cancelled
  | finish {st : TaskStatus} (final : st.isFinal = true) : Move .running st

namespace TaskStatus

variable {a b : TaskStatus}

theorem Move.not_final (h : Move a b) : a.isFinal = false := by
  cases h with
  | start | cancel | finish => rfl

/-- A final status stays. -/
theorem eq_of_final (h : Relation.ReflTransGen Move a b) (final : a.isFinal = true) : b = a := by
  rcases h.cases_head with same | ⟨c, move, -⟩
  · exact same.symm
  · rw [move.not_final] at final
    cases final

end TaskStatus

/-- The task has got on by at most one step, and has been started or not. -/
structure Task.Advances (started : Prop) (r r' : Task) : Prop where
  position : r'.position = r.position
  status : r'.status = r.status ∨ r.status.Move r'.status
  started : started ↔ r.status = .pending ∧ r'.status = .running

/-- All tasks have got on by at most one step, and those of the list have been started. Others may
have been spawned. -/
structure Scheduler.Advances (started : List TaskId) (u v : Scheduler) : Prop where
  known : ∀ t r, u.task? t = some r → ∃ r', v.task? t = some r' ∧ r.Advances (t ∈ started) r'
  fresh : ∀ t r, u.task? t = none → v.task? t = some r → r.status = .pending
  started : ∀ t ∈ started, t ∈ u.ids

variable {u v w : Scheduler} {t : TaskId} {r : Task} {started : List TaskId}

/-! ## Single tasks -/

/-- The task is as far as before. -/
theorem Task.advances_of_status {r r' : Task} (position : r'.position = r.position)
    (status : r'.status = r.status) : r.Advances False r' where
  position := position
  status := Or.inl status
  started := by
    refine iff_of_false id fun both => ?_
    rw [status, both.1] at both
    cases both.2

theorem Task.advances_cancel (r : Task) : r.Advances False r.cancel := by
  by_cases pending : r.status = .pending
  · have cancelled : r.cancel.status = .cancelled := by simp [Task.cancel, pending]
    refine ⟨rfl, Or.inr ?_, iff_of_false id fun both => ?_⟩
    · rw [pending, cancelled]
      exact .cancel
    · rw [cancelled] at both
      cases both.2
  · exact advances_of_status rfl (by simp [Task.cancel, pending])

theorem Task.cancel_cancel (r : Task) : r.cancel.cancel = r.cancel := by
  by_cases pending : r.status = .pending
  · simp [Task.cancel, pending]
  · simp [Task.cancel, pending]

/-- Several tasks have been asked to stop. -/
theorem Scheduler.task?_cancels (u : Scheduler) (tasks : List TaskId) (t : TaskId) :
    (tasks.foldl cancel u).task? t =
      if t ∈ tasks then (u.task? t).map Task.cancel else u.task? t := by
  induction tasks generalizing u with
  | nil => simp
  | cons x rest ih =>
      rw [List.foldl_cons, ih, cancel, task?_update]
      by_cases same : x = t
      · subst same
        have twice : Task.cancel ∘ Task.cancel = Task.cancel := funext Task.cancel_cancel
        simp [twice]
      · have other : t ≠ x := fun h => same h.symm
        simp [same, other]

/-! ## The ways of getting on -/

/-- Every task has been changed by itself. -/
theorem Scheduler.advances_of_changes
    (changes : ∀ t, ∃ change : Task → Task, v.task? t = (u.task? t).map change ∧
      ∀ r, u.task? t = some r → r.Advances (t ∈ started) (change r))
    (known : ∀ t ∈ started, t ∈ u.ids) : u.Advances started v where
  known t r found := by
    obtain ⟨change, same, advances⟩ := changes t
    exact ⟨change r, by rw [same, found]; rfl, advances r found⟩
  fresh t r unknown found := by
    obtain ⟨change, same, -⟩ := changes t
    rw [same, unknown] at found
    cases found
  started := known

/-- One task has been changed. -/
theorem Scheduler.advances_of_change (change : Task → Task) (found : u.task? t = some r)
    (changed : ∀ t', v.task? t' = if t = t' then (u.task? t').map change else u.task? t')
    (advances : r.Advances (t ∈ started) (change r)) (only : ∀ t' ∈ started, t' = t) :
    u.Advances started v := by
  refine advances_of_changes (fun t' => ?_) fun t' h => ?_
  · by_cases same : t = t'
    · subst same
      refine ⟨change, by rw [changed, if_pos rfl], fun r' found' => ?_⟩
      obtain rfl : r = r' := Option.some.inj (found.symm.trans found')
      exact advances
    · have other : t' ∉ started := fun h => same (only t' h).symm
      refine ⟨id, by rw [changed, if_neg same, Option.map_id_fun, id_eq], fun r' _ => ?_⟩
      rw [eq_false other]
      exact Task.advances_of_status rfl rfl
  · rw [only t' h]
    exact mem_ids.mpr ⟨r, found⟩

theorem Scheduler.advances_cancels (u : Scheduler) (tasks : List TaskId) :
    u.Advances [] (tasks.foldl cancel u) := by
  refine advances_of_changes (fun t => ?_) nofun
  simp only [List.not_mem_nil]
  by_cases h : t ∈ tasks
  · exact ⟨Task.cancel, by rw [task?_cancels, if_pos h], fun r _ => r.advances_cancel⟩
  · refine ⟨id, by rw [task?_cancels, if_neg h, Option.map_id_fun, id_eq], fun r _ => ?_⟩
    exact Task.advances_of_status rfl rfl

/-- A task that was cancelled is passed over. -/
theorem Scheduler.advances_skip {rest next : Scheduler} {job : Job}
    (taken : u.take? none = some (job, rest)) (waits : u.HasAt job.task .waiting)
    (refused : rest.start job.task = (false, next)) : u.Advances [] (next.leave job.task) := by
  obtain ⟨r, found, waits⟩ := waits
  have found' : rest.task? job.task = some r := (task?_of_take taken _).trans found
  obtain ⟨no, rfl⟩ := (start_eq_iff found').mp refused
  have cancelled := waits.cancelled_of_refused no
  refine advances_of_change (·.start.2.leave) found (fun t => ?_) ?_ nofun
  · simp only [leave, task?_update, task?_of_take taken]
    split
    · rw [Option.map_map]
      rfl
    · rfl
  · simp only [List.not_mem_nil]
    exact Task.advances_of_status r.start_position (by simp [Task.leave, Task.start, cancelled])

/-- A task is put to work. -/
theorem Scheduler.advances_invoke {rest next : Scheduler} {job : Job}
    (taken : u.take? none = some (job, rest)) (waits : u.HasAt job.task .waiting)
    (begun : rest.start job.task = (true, next)) : u.Advances [job.task] next := by
  obtain ⟨r, found, waits⟩ := waits
  have found' : rest.task? job.task = some r := (task?_of_take taken _).trans found
  obtain ⟨yes, rfl⟩ := (start_eq_iff found').mp begun
  obtain ⟨pending, running, -⟩ := waits.pending_of_begun yes
  refine advances_of_change (·.start.2) found (fun t => ?_) ?_ (by simp)
  · simp only [task?_update, task?_of_take taken]
  · refine ⟨r.start_position, Or.inr ?_, iff_of_true (List.mem_singleton_self _) ⟨pending, running⟩⟩
    rw [pending, running]
    exact .start

/-- A task that is being run ends. -/
theorem Scheduler.advances_settle (runs : u.HasAt t .underway) {st : TaskStatus}
    (final : st.isFinal = true) : u.Advances [] ((u.finish t st).leave t) := by
  obtain ⟨r, found, -, running⟩ := runs
  refine advances_of_change (fun r => (r.finish st).leave) found (fun t' => ?_) ?_ nofun
  · simp only [leave, finish, task?_update]
    split
    · rw [Option.map_map]
      rfl
    · rfl
  · simp only [List.not_mem_nil]
    refine ⟨rfl, Or.inr ?_, iff_of_false id fun both => ?_⟩
    · rw [running]
      exact .finish final
    · rw [running] at both
      cases both.1

theorem Scheduler.Advances.spawn (h : u.Advances started v) (work : Work) (p : Position)
    (w : Option WorkerId) : u.Advances started (v.spawn work p w) where
  known t r found := by
    obtain ⟨r', found', advances⟩ := h.known t r found
    have old : t ≠ v.nextId := fun same =>
      v.nextId_notMem_ids (same ▸ mem_ids.mpr ⟨r', found'⟩)
    exact ⟨r', by rw [task?_spawn, if_neg old]; exact found', advances⟩
  fresh t r unknown found := by
    rw [task?_spawn] at found
    split at found
    · cases found
      rfl
    · exact h.fresh t r unknown found
  started := h.started

/-- All tasks have got on, by any number of steps. -/
def Scheduler.Advanced (u v : Scheduler) : Prop :=
  ∀ t r, u.task? t = some r → ∃ r', v.task? t = some r' ∧ r'.position = r.position ∧
    Relation.ReflTransGen TaskStatus.Move r.status r'.status

theorem Scheduler.Advanced.refl (u : Scheduler) : u.Advanced u :=
  fun _ r found => ⟨r, found, rfl, .refl⟩

theorem Scheduler.Advanced.trans (h : u.Advanced v) (h' : v.Advanced w) : u.Advanced w := by
  intro t r found
  obtain ⟨r', found', position, moves⟩ := h t r found
  obtain ⟨r'', found'', position', moves'⟩ := h' t r' found'
  exact ⟨r'', found'', position'.trans position, moves.trans moves'⟩

theorem Scheduler.Advances.advanced (h : u.Advances started v) : u.Advanced v := by
  intro t r found
  obtain ⟨r', found', advances⟩ := h.known t r found
  refine ⟨r', found', advances.position, ?_⟩
  rcases advances.status with same | move
  · rw [same]
  · exact .single move

/-! ## Along a path -/

section Paths
variable {kind : SinkKind} {past before after : Chronicle} {e e' : Occurrence}

/-- **From one event to the next** every task gets on by at most one step, and a task is started
exactly when it is put to work. -/
theorem advances_of_path (path : Path (.initial .deferred kind) (past ++ [e])) :
    (past.last (.initial .deferred kind)).scheduler.Advances (e.invokes.map (·.task))
      e.state.scheduler := by
  obtain ⟨earlier, follows, -⟩ := path_concat_iff.mp path
  have due {e' : Occurrence} (last : past.getLast? = some e') :
      ∃ before, past = before ++ [e'] ∧ Booked before e' := by
    obtain ⟨before, rfl⟩ := List.getLast?_eq_some_iff.mp last
    exact ⟨before, rfl, booked_of_path earlier⟩
  have same (u : Scheduler) : u.Advances [] u := u.advances_cancels []
  cases follows with
  | drifts rest drift plain =>
      obtain ⟨tasks, drifted⟩ := drift.scheduler
      rw [plain.invokes, drifted]
      exact Scheduler.advances_cancels _ tasks
  | @spawned o s a u t work p rest drift state =>
      obtain ⟨tasks, drifted⟩ := drift.scheduler
      show Scheduler.Advances [] _ t.scheduler
      rw [state.scheduler]
      refine Scheduler.Advances.spawn ?_ work p u.worker
      rw [drifted]
      exact Scheduler.advances_cancels _ tasks
  | @emptied s last | @drained _ s last =>
      obtain ⟨before, rfl, -⟩ := due last
      rw [Chronicle.last_concat]
      exact same s.scheduler
  | skipped last taken refused =>
      obtain ⟨before, rfl, books⟩ := due last
      rw [Chronicle.last_concat]
      exact Scheduler.advances_skip taken (Ledger.waits_first books taken) refused
  | invoked last taken begun =>
      obtain ⟨before, rfl, books⟩ := due last
      rw [Chronicle.last_concat]
      exact Scheduler.advances_invoke taken (Ledger.waits_first books taken) begun
  | @settled w s u o task running ran last running' innermost =>
      obtain ⟨before, rfl, books⟩ := due last
      rw [List.dropLast_concat] at innermost
      rw [Chronicle.last_concat]
      show Scheduler.Advances [] u.scheduler
        (State.settle { u with running := running } task o).scheduler
      rw [State.settle_scheduler]
      exact Scheduler.advances_settle (books.runs task (List.mem_of_mem_head? innermost))
        o.finalStatus_isFinal

/-- **Over any time** tasks get on step by step, and their positions stay. -/
theorem advanced_of_path (path : Path (.initial .deferred kind) (past ++ [e]))
    (split : past ++ [e] = before ++ e' :: after) :
    e'.state.scheduler.Advanced e.state.scheduler := by
  induction after using List.reverseRecOn generalizing past e with
  | nil =>
      obtain ⟨-, same⟩ := List.append_inj' split rfl
      cases same
      exact .refl _
  | append_singleton after x ih =>
      rw [← List.cons_append, ← List.append_assoc] at split
      obtain ⟨earlier, same⟩ := List.append_inj' split rfl
      cases same
      have step := (advances_of_path path).advanced
      rcases List.eq_nil_or_concat past with rfl | ⟨past, y, rfl⟩
      · simp at earlier
      · rw [List.concat_eq_append] at path earlier step
        rw [Chronicle.last_concat] at step
        exact (ih (path_concat_iff.mp path).1 earlier).trans step

end Paths

end StatementEngine
