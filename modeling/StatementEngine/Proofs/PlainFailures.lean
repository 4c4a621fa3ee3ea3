import StatementEngine.Engine.Loop
import StatementEngine.Engine.Assignment

/-!
# Failures of single operations

A failure is **plain** if it has nothing to do with control flow. Whatever is computed from values
and bindings alone (operators, elements, rows of a loop, pairing of targets and values, members of
modules) fails with an error of a single operation (`ErrorKind.OfOperation`) or not at all. Such a
failure is plain, and it is never that a task is to stop.
-/

namespace StatementEngine

/-- The failure is none of those that statements report about signals. -/
def ErrorKind.IsPlain : ErrorKind → Prop
  | breakOutsideLoop | continueOutsideLoop | returnOutsideFunction => False
  | moduleEscape .. | uncaughtThrow _ => False
  | _ => True

theorem ErrorKind.OfOperation.isPlain {k : ErrorKind} (h : k.OfOperation) : k.IsPlain := by
  cases k with
  | undefinedName | cardinalityMismatch | notIterable | notInvokable => trivial
  | unknownModule | unknownMember | invalidOperation => trivial
  | _ => exact h.elim

/-- It does not say that a task was to stop. -/
theorem ErrorKind.OfOperation.isCancelled {k : ErrorKind} (h : k.OfOperation)
    (p : Option Position) : (Raise.failed ⟨k, p⟩).isCancelled = false := by
  cases k with
  | cancelled => exact h.elim
  | _ => rfl

theorem Raise.OfOperation.isCancelled {r : Raise} (h : r.OfOperation) : r.isCancelled = false := by
  cases r with
  | thrown v at? => rfl
  | failed e => exact ErrorKind.OfOperation.isCancelled h e.position

theorem BinaryOp.ofOperation_of_apply {op : BinaryOp} {a b : Value} {k : ErrorKind}
    (h : op.apply a b = .error k) : k.OfOperation := by
  unfold BinaryOp.apply at h
  split at h
  all_goals cases h
  trivial

theorem AssignOp.ofOperation_of_apply {op : AssignOp} {current operand : Value} {k : ErrorKind}
    (h : op.apply current operand = .error k) : k.OfOperation := by
  unfold AssignOp.apply at h
  split at h
  · exact BinaryOp.ofOperation_of_apply h
  · cases h
    trivial

theorem Value.ofOperation_of_element {target key : Value} {k : ErrorKind}
    (h : target.element key = .error k) : k.OfOperation := by
  unfold Value.element at h
  split at h
  all_goals cases h
  trivial

theorem Value.ofOperation_of_withElement {container key value : Value} {k : ErrorKind}
    (h : container.withElement key value = .error k) : k.OfOperation := by
  unfold Value.withElement at h
  split at h
  · cases h
  · split at h
    · cases h
    · cases h
      trivial
  · cases h
    trivial

theorem Registry.ofOperation_of_resolve {modules : Registry} {store : ScopeStore} {owner member : Name}
    {k : ErrorKind} (h : modules.resolve store owner member = .error k) : k.OfOperation := by
  unfold Registry.resolve at h
  split at h
  · cases h
    trivial
  · split at h
    all_goals cases h
    trivial

theorem ofOperation_of_assigned {targets : Nat} {values : List Value} {k : ErrorKind}
    (h : assigned targets values = .error k) : k.OfOperation := by
  unfold assigned at h
  repeat' split at h
  all_goals cases h
  all_goals trivial

theorem ofOperation_of_declared {names : List Name} {values : List Value} {k : ErrorKind}
    (h : declared names values = .error k) : k.OfOperation := by
  unfold declared at h
  split at h
  all_goals cases h
  trivial

/-- The names that are declared are those of the declaration. -/
theorem fst_mem_of_declared {names : List Name} {values : List Value}
    {bindings : List (Name × Value)} (h : declared names values = .ok bindings) {b : Name × Value}
    (hb : b ∈ bindings) : b.1 ∈ names := by
  unfold declared at h
  split at h
  · cases h
  · cases h
    exact (List.of_mem_zip hb).1

/-- What a traversal fails with is what it fails with at one of the elements. -/
theorem exists_of_mapM_error {f : α → Except ε β} {e : ε} :
    ∀ {as : List α}, as.mapM f = .error e → ∃ a ∈ as, f a = .error e
  | [], h => by
      rw [List.mapM_nil] at h
      cases h
  | a :: as, h => by
      rw [List.mapM_cons] at h
      cases ha : f a with
      | error e' =>
          rw [ha] at h
          cases h
          exact ⟨a, List.mem_cons_self, ha⟩
      | ok b =>
          rw [ha] at h
          cases hrest : as.mapM f with
          | error e' =>
              simp only [bind, Except.bind, hrest] at h
              cases h
              obtain ⟨c, hc, hf⟩ := exists_of_mapM_error hrest
              exact ⟨c, List.mem_cons_of_mem a hc, hf⟩
          | ok bs =>
              simp only [bind, Except.bind, hrest] at h
              cases h

theorem ofOperation_of_rows {iterable : Value} {arity : Nat} {k : ErrorKind}
    (h : rows iterable arity = .error k) : k.OfOperation := by
  unfold rows at h
  split at h
  · split at h
    · cases h
    · obtain ⟨item, -, hitem⟩ := exists_of_mapM_error h
      split at hitem
      · cases hitem
      · cases hitem
        trivial
  · split at h
    all_goals cases h
    trivial
  · split at h
    all_goals cases h
    trivial
  · cases h
    trivial

end StatementEngine
