import StatementEngine.Proofs.Frame

/-!
# Declarations never leak

**A list of statements only declares in its own scope.** When a list of statements has run, in
whatever way it has ended, the only scope from before that can have got names is the scope of the
list, and these are declared by statements directly in the list. What blocks, handlers, loops,
modules and calls bind is bound in scopes that they make themselves.

The main result is `declarations_stay`. It puts the frame of a run (`frame`) in terms of the list.
-/

namespace StatementEngine

theorem mem_declared {form : Form} {n : Name} :
    n ∈ form.declared ↔ ∃ names values, form = .var names values ∧ n ∈ names := by
  cases form with
  | var names values => simp [Form.declared]
  | _ => simp [Form.declared]

/-- The names declared in a block are those of the declarations that are members of it. -/
theorem mem_declaredIn {body : Block} {n : Name} :
    n ∈ declaredIn body ↔ ∃ p names values, ⟨p, .var names values⟩ ∈ body ∧ n ∈ names := by
  unfold declaredIn
  rw [List.mem_flatMap]
  constructor
  · intro run
    obtain ⟨⟨p, form⟩, hstmt, hn⟩ := run
    obtain ⟨names, values, rfl, hn⟩ := mem_declared.mp hn
    exact ⟨p, names, values, hstmt, hn⟩
  · intro run
    obtain ⟨p, names, values, hstmt, hn⟩ := run
    exact ⟨_, hstmt, mem_declared.mpr ⟨names, values, rfl, hn⟩⟩

variable {config : Config} {s t : State}

/-- **Declarations never leak.** After a list of statements has run in a scope, as a block under any
context or as a script, and however it has ended, the scopes from before have their parents and
their names, in the same order. New names come after the old ones and only in the scope of the
list, each once, and each is declared by a member of the list. -/
theorem declarations_stay {body : Block} {scope : ScopeId}
    (h : (∃ cx o, Runs config (Exec.runBlock body scope cx) s o t) ∨
      ∃ o, Runs config (Exec.runScript config body scope) s o t) :
    ∀ i a, s.scopes.scope? i = some a →
      ∃ b, t.scopes.scope? i = some b ∧ b.parent = a.parent ∧
        ∃ new, b.names = a.names ++ new ∧ (i ≠ scope → new = []) ∧ new.Nodup ∧
          ∀ n ∈ new, n ∉ a.names ∧
            ∃ p names values, ⟨p, .var names values⟩ ∈ body ∧ n ∈ names := by
  have grows : s.scopes.Grows (fun i n => i = scope ∧ n ∈ declaredIn body) t.scopes := by
    rcases h with ⟨cx, o, h⟩ | ⟨o, h⟩
    · exact (kept_of_answer h).scopes
    · exact (kept_of_runs_script h).scopes
  intro i a ha
  obtain ⟨b, hb, parent, new, hnew, nodup, may⟩ := grows i a ha
  refine ⟨b, hb, parent, new, hnew, fun other => ?_, nodup, fun n hn => ?_⟩
  · exact List.eq_nil_iff_forall_not_mem.mpr fun n hn => other (may n hn).2.1
  · exact ⟨(may n hn).1, mem_declaredIn.mp (may n hn).2.2⟩

/-- What a branch declares is not there afterwards, and what the list declares is. -/
theorem declarations_stay_branch :
    let p : Position := ⟨1, 1⟩
    let branch : Branch := ⟨p, .literal (.bool true), [⟨p, .var ["inner"] []⟩]⟩
    let body : Block := [⟨p, .var ["outer"] []⟩, ⟨p, .ifChain [branch] none⟩]
    let s := (State.initial .deferred .log).newRoot
    ∃ o t b, Runs .standard (Exec.runBlock body s.1 .handedOver) s.2 o t ∧
      t.scopes.scope? s.1 = some b ∧ "outer" ∈ b.names ∧ "inner" ∉ b.names := by
  intro p branch body s
  obtain ⟨t, b, run, hb, outer⟩ : ∃ t b,
      Runs .standard (Exec.runBlock body s.1 .handedOver) s.2 (.ok .empty) t ∧
        t.scopes.scope? s.1 = some b ∧ "outer" ∈ b.names :=
    ⟨_, _, runs_iff_run.mpr ⟨40, rfl⟩, rfl, by decide⟩
  obtain ⟨b', hb', -, new, hnew, -, -, declared⟩ :=
    declarations_stay (Or.inl ⟨.handedOver, _, run⟩) s.1 ⟨none, []⟩ rfl
  refine ⟨_, t, b, run, hb, outer, fun inner => ?_⟩
  obtain rfl : b = b' := Option.some.inj (hb.symm.trans hb')
  -- a new name would be one that a member of the list declares
  rw [hnew] at inner
  obtain ⟨-, q, names, values, hstmt, hn⟩ := declared "inner" inner
  simp only [body, List.mem_cons, Stmt.mk.injEq, Form.var.injEq, List.not_mem_nil, reduceCtorEq,
    and_false, or_false] at hstmt
  obtain ⟨-, rfl, -⟩ := hstmt
  simp at hn

end StatementEngine
