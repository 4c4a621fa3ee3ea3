import StatementEngine.Proofs.Assignment.Unpacking
import StatementEngine.Proofs.Cancellation
import StatementEngine.Proofs.ElementUpdate
import StatementEngine.Proofs.Scope.Declarations
import StatementEngine.Proofs.Scope.Frames
import StatementEngine.Proofs.Task.Watched

/-!
# The names of a block

**A block that ends normally has executed all of its statements**, one after the other and each of
them normally. So its declarations have bound all the names that they declare, and as
nothing else binds names in the scope of a block, a scope that was new has exactly these names at
the end (`executes_of_unfolds_block`).
-/

namespace StatementEngine

variable {config : Config} {s t : State} {scope : ScopeId} {cx : Context} {c : Completion}

namespace ScopeStore

variable {store : ScopeStore} {d : ScopeId} {n : Name}

theorem mem_names_defineAll (there : d.index < store.scopes.size) {bindings : List (Name × Value)}
    (bound : n ∈ bindings.map (·.1)) : n ∈ (store.defineAll d bindings).names d := by
  induction bindings generalizing store with
  | nil => simp at bound
  | cons x rest ih =>
      rcases List.mem_cons.mp bound with rfl | later
      · have grows : (store.define d x.1 x.2).Grows (fun _ _ => True)
            ((store.define d x.1 x.2).defineAll d rest) :=
          Grows.defineAll (.refl _) (fun _ => trivial) rest
        refine grows.mem_names ?_ (mem_names_iff.mpr ?_)
        · rwa [size_define]
        · rw [local?_define there, if_pos ⟨rfl, rfl⟩]
          rfl
      · exact ih (by rwa [size_define]) later

end ScopeStore

/-! ## Declarations -/

/-- What a declaration binds is what it declares. -/
theorem names_of_declared {names : List Name} {values : List Value} {bindings : List (Name × Value)}
    (taken : declared names values = .ok bindings) : bindings.map (·.1) = names := by
  by_cases fits : values.length ≤ names.length
  · rw [declared_of_le fits] at taken
    cases taken
    refine List.map_fst_zip ?_
    rw [List.length_append, List.length_replicate]
    omega
  · rw [declared_of_surplus (Nat.lt_of_not_le fits)] at taken
    cases taken

/-- A declaration that ends normally has bound the names that it declares. -/
theorem mem_names_of_runs_declaring {stmt : Stmt} (normal : c.isNormal = true)
    (run : Runs config (Exec.execute stmt scope cx) s (.ok c) t)
    (there : scope.index < s.scopes.scopes.size) {n : Name} (declares : n ∈ stmt.form.declared) :
    n ∈ t.scopes.names scope := by
  obtain ⟨p, form⟩ := stmt
  obtain ⟨names, values, rfl, mem⟩ := mem_declared.mp declares
  have ran := runs_located_normal normal (runs_execute_iff.mp run)
  obtain ⟨vs, u, -, taking⟩ := runs_bind_ok_iff.mp ran
  obtain ⟨bindings, v, takes, binding⟩ := runs_bind_ok_iff.mp taking
  obtain ⟨taken, rfl⟩ := runs_ofExcept_ok_iff.mp takes
  obtain ⟨_, w, defines, ends⟩ := runs_bind_ok_iff.mp binding
  obtain ⟨-, rfl⟩ := runs_modify_iff.mp defines
  obtain ⟨-, rfl⟩ := runs_pure_iff.mp ends
  refine ScopeStore.mem_names_defineAll ?_ (by rwa [names_of_declared taken])
  have there' := (kept_of_answer run).scopes.lt there
  rwa [ScopeStore.size_defineAll] at there'

/-! ## Blocks -/

/-- The first statement of a block that ends normally ends normally, and the others come next. -/
theorem unfolds_runFrom_cons {stmt : Stmt} {rest : Block} {last : Option Value} {h : Chronicle}
    (normal : c.isNormal = true)
    (run : Resumption.Unfolds (watched config)
      (watch (Exec.runFrom scope cx (stmt :: rest) last s)) h (.ok c) t) :
    ∃ first u inner later, first.isNormal = true ∧
      Resumption.Unfolds (watched config) (watched config (.question (.execute stmt scope cx)) s)
        inner (.ok first) u ∧
      Resumption.Unfolds (watched config)
        (watch (Exec.runFrom scope cx rest (first.value.or last) u)) later (.ok c) t ∧
      h = .asked (.question (.execute stmt scope cx)) s ::
        (inner ++ .answered (.question (.execute stmt scope cx)) s (.ok first) u :: later) := by
  cases stop : s.stopRequested with
  | true =>
      have ended : Exec.runFrom scope cx (stmt :: rest) last s
          = .done (.raised (.stopAt stmt.position)) s := Exec.checkStop_bind_of_stop stop _ _
      rw [ended] at run
      cases (Resumption.unfolds_done_iff.mp run).2.1
  | false =>
      rw [Exec.runFrom, Exec.checkStop_bind_of_awake stop] at run
      obtain ⟨o, u, inner, later, answered, resumed, rfl⟩ := Resumption.unfolds_ask_iff.mp run
      cases o with
      | raised e | panicked m => cases (Resumption.unfolds_done_iff.mp resumed).2.1
      | ok first =>
          cases goesOn : first.isNormal with
          | true =>
              refine ⟨first, u, inner, later, goesOn, answered, ?_, rfl⟩
              simp only [Resumption.done_bind, goesOn, if_true] at resumed
              exact resumed
          | false =>
              -- the block would end with the signal of the statement
              simp only [Resumption.done_bind, goesOn, Bool.false_eq_true, if_false] at resumed
              obtain ⟨-, same, -⟩ := Resumption.unfolds_done_iff.mp resumed
              cases same
              exact absurd normal (by simpa [Completion.isNormal] using goesOn)

/-- What is answered while a host is watched is what the engine answers. -/
theorem evaluates_of_answered {q : Request} {h : Chronicle} {a : Answer q}
    (run : Resumption.Unfolds (watched config) (watched config (.question q) s) h a t) :
    Resumption.Evaluates (Interpreter.bodies config) (.ask q s .done) a t := by
  have plain := evaluates_unwatch run.evaluates
  rw [unwatch_watched] at plain
  exact .ask plain (.done a t)

/-- Every statement of the block has been executed in the scope and has completed. -/
def Chronicle.Executes (h : Chronicle) (body : Block) (scope : ScopeId) (cx : Context) : Prop :=
  ∀ stmt ∈ body, ∃ u first v,
    .answered (.question (.execute stmt scope cx)) u (.ok first) v ∈ h

/-- Statements that end normally have all been executed, and have bound what they declare. -/
theorem executes_of_unfolds_runFrom {body : Block} {last : Option Value} {h : Chronicle}
    (normal : c.isNormal = true)
    (run : Resumption.Unfolds (watched config) (watch (Exec.runFrom scope cx body last s)) h (.ok c)
      t) (there : scope.index < s.scopes.scopes.size) :
    h.Executes body scope cx ∧ s.scopes.Grows (fun _ _ => True) t.scopes ∧
      ∀ n ∈ declaredIn body, n ∈ t.scopes.names scope := by
  induction body generalizing last s h with
  | nil =>
      obtain ⟨rfl, -, rfl⟩ := Resumption.unfolds_done_iff.mp run
      exact ⟨by simp [Chronicle.Executes], .refl _, by simp [declaredIn]⟩
  | cons stmt rest ih =>
      obtain ⟨first, u, inner, later, goesOn, answered, resumed, rfl⟩ :=
        unfolds_runFrom_cons normal run
      have ran := evaluates_of_answered answered
      have grows : s.scopes.Grows (fun _ _ => True) u.scopes :=
        (ScopeStore.Grows.refl _).trans (kept_of_answer ran).scopes fun _ _ _ _ => trivial
      obtain ⟨executes, grows', bound⟩ := ih resumed (grows.lt there)
      refine ⟨List.forall_mem_cons.mpr ⟨⟨s, first, u, by simp⟩, fun stmt' mem => ?_⟩,
        grows.trans grows' fun _ _ _ => id, fun n mem => ?_⟩
      · obtain ⟨v, first', w, executed⟩ := executes stmt' mem
        exact ⟨v, first', w, by simp [executed]⟩
      · rcases List.mem_append.mp (show n ∈ stmt.form.declared ++ declaredIn rest from mem) with
          now | later
        · exact grows'.mem_names (grows.lt there)
            (mem_names_of_runs_declaring goesOn ran there now)
        · exact bound n later

/-- **A block that ends normally in a scope that has no names** gives it exactly the names that its
declarations declare, and it has executed all of its statements. -/
theorem executes_of_unfolds_block {body : Block} {h : Chronicle} (normal : c.isNormal = true)
    (run : Resumption.Unfolds (watched config) (watched config (.question (.block body scope cx)) s)
      h (.ok c) t)
    (there : scope.index < s.scopes.scopes.size) (fresh : s.scopes.names scope = []) :
    h.Executes body scope cx ∧ ∀ n, n ∈ t.scopes.names scope ↔ n ∈ declaredIn body := by
  have ran : Resumption.Unfolds (watched config) (watch (Exec.runFrom scope cx body none s)) h
      (.ok c) t := run
  obtain ⟨executes, -, bound⟩ := executes_of_unfolds_runFrom normal ran there
  refine ⟨executes, fun n => ⟨fun mem => ?_, bound n⟩⟩
  obtain ⟨new, names, allowed⟩ := (kept_of_answer (evaluates_of_answered run)).scopes.names there
  rw [names, fresh, List.nil_append] at mem
  exact (allowed n mem).2

end StatementEngine
