import StatementEngine.Engine.Interpreter

/-!
# The functions that results hold

**No operation makes a function**: what an operator, an index, an element assignment, a loop over a
value or an assignment yields holds only functions that its operands hold. So if the operands hold
only functions of a set (`Value.Only`) then so do the results.

What a statement completes with and what an expression throws are values as well
(`Completion.Only`, `Raise.Only`).
-/

namespace StatementEngine

variable {fn fn' : FunctionRef → Prop}

/-! ## Operations -/

theorem BinaryOp.only_apply {op : BinaryOp} {a b v : Value} (h : op.apply a b = .ok v)
    (ha : a.Only fn) (hb : b.Only fn) : v.Only fn := by
  unfold apply at h
  split at h
  all_goals cases h
  -- only a list can hold functions, and it is the operands joined
  all_goals simp_all [or_imp]

theorem AssignOp.only_apply {op : AssignOp} {a b v : Value} (h : op.apply a b = .ok v)
    (ha : a.Only fn) (hb : b.Only fn) : v.Only fn := by
  unfold apply at h
  split at h
  · exact BinaryOp.only_apply h ha hb
  · cases h

namespace Value

theorem only_element {target key v : Value} (h : target.element key = .ok v)
    (ht : target.Only fn) : v.Only fn := by
  unfold element at h
  split at h
  · cases h
    exact only_getD fun w hw => only_map.mp ht _ (Dictionary.mem_of_find? hw)
  · cases h
    exact only_getD (only_index? (only_list.mp ht) _)
  · cases h

theorem only_withElement {container key v changed : Value}
    (h : container.withElement key v = .ok changed) (hc : container.Only fn) (hv : v.Only fn) :
    changed.Only fn := by
  unfold withElement at h
  split at h
  · cases h
    refine only_map.mpr fun e he => ?_
    rcases Dictionary.mem_insert he with rfl | he
    · exact hv
    · exact only_map.mp hc e he
  · split at h
    · cases h
      refine only_list.mpr fun w hw => ?_
      rcases List.mem_or_eq_of_mem_set hw with hw | rfl
      · exact only_list.mp hc w hw
      · exact hv
    · cases h
  · cases h

end Value

/-! ## Rows and pairs -/

theorem only_resized {items : List Value} (h : ∀ v ∈ items, v.Only fn) (length : Nat) :
    ∀ v ∈ resized length items, v.Only fn := by
  intro v hv
  rcases List.mem_append.mp hv with hv | hv
  · exact h v (List.mem_of_mem_take hv)
  · rw [List.eq_of_mem_replicate hv]
    exact Value.only_nil

/-- What is made of the members of a list is made of one of them each. -/
theorem List.exists_of_mem_mapM {f : α → Except ε β} {as : List α} {bs : List β} {b : β}
    (h : as.mapM f = .ok bs) (hb : b ∈ bs) : ∃ a ∈ as, f a = .ok b := by
  induction as generalizing bs with
  | nil =>
      cases h
      cases hb
  | cons a rest ih =>
      rw [List.mapM_cons] at h
      cases ha : f a with
      | error e =>
          rw [ha] at h
          cases h
      | ok c =>
          cases hrest : rest.mapM f with
          | error e =>
              rw [ha, hrest] at h
              cases h
          | ok cs =>
              rw [ha, hrest] at h
              cases h
              rcases List.mem_cons.mp hb with rfl | hb
              · exact ⟨a, List.mem_cons_self, ha⟩
              · obtain ⟨a', ha', found⟩ := ih hrest hb
                exact ⟨a', List.mem_cons_of_mem _ ha', found⟩

theorem only_rows {v : Value} {arity : Nat} {rs : List (List Value)} (h : rows v arity = .ok rs)
    (hv : v.Only fn) : ∀ row ∈ rs, ∀ w ∈ row, w.Only fn := by
  intro row hrow w hw
  unfold rows at h
  split at h
  · next items =>
      have items_only := Value.only_list.mp hv
      split at h
      · cases h
        obtain ⟨item, hitem, rfl⟩ := List.mem_map.mp hrow
        rw [List.mem_singleton.mp hw]
        exact items_only item hitem
      · obtain ⟨item, hitem, made⟩ := List.exists_of_mem_mapM h hrow
        split at made
        · cases made
          exact only_resized (Value.only_list.mp (items_only _ hitem)) arity w hw
        · cases made
  · next entries =>
      have entries_only := Value.only_map.mp hv
      split at h
      · cases h
        obtain ⟨e, -, rfl⟩ := List.mem_map.mp hrow
        rw [List.mem_singleton.mp hw]
        exact Value.only_str _
      · cases h
        obtain ⟨e, -, rfl⟩ := List.mem_map.mp hrow
        rw [List.mem_singleton.mp hw]
        exact Value.only_str _
      · cases h
        obtain ⟨e, he, rfl⟩ := List.mem_map.mp hrow
        rcases List.mem_cons.mp hw with rfl | hw
        · exact Value.only_str _
        · rw [List.mem_singleton.mp hw]
          exact entries_only e he
      · cases h
  · split at h
    · cases h
      obtain ⟨c, -, rfl⟩ := List.mem_map.mp hrow
      rw [List.mem_singleton.mp hw]
      exact Value.only_str _
    · cases h
  · cases h

theorem only_assigned {targets : Nat} {vs paired : List Value} (h : assigned targets vs = .ok paired)
    (hvs : ∀ v ∈ vs, v.Only fn) : ∀ v ∈ paired, v.Only fn := by
  unfold assigned at h
  split at h
  · cases h
    exact hvs
  · split at h
    · split at h
      · split at h
        · cases h
          exact Value.only_list.mp (hvs _ List.mem_cons_self)
        · cases h
      · cases h
    · cases h

theorem only_padded {vs : List Value} (h : ∀ v ∈ vs, v.Only fn) (names : List Name) (n : Nat) :
    ∀ b ∈ names.zip (vs ++ List.replicate n .nil), b.2.Only fn := by
  intro b hb
  rcases List.mem_append.mp (List.of_mem_zip hb).2 with hv | hv
  · exact h _ hv
  · rw [List.eq_of_mem_replicate hv]
    exact Value.only_nil

theorem only_declared {names : List Name} {vs : List Value} {bindings : List (Name × Value)}
    (h : declared names vs = .ok bindings) (hvs : ∀ v ∈ vs, v.Only fn) :
    ∀ b ∈ bindings, b.2.Only fn := by
  unfold declared at h
  split at h
  · cases h
  · cases h
    refine only_padded ?_ names _
    split
    · next items =>
        split
        · exact Value.only_list.mp (hvs _ List.mem_cons_self)
        · exact hvs
    · exact hvs

/-! ## Ends -/

/-- The values of a signal only hold functions of a set. -/
def Signal.Only (fn : FunctionRef → Prop) : Signal → Prop
  | .returned vs => ∀ v ∈ vs, v.Only fn
  | .thrown v _ => v.Only fn
  | .none | .breakLoop | .continueLoop => True

/-- The values of a completion only hold functions of a set. -/
def Completion.Only (fn : FunctionRef → Prop) (c : Completion) : Prop :=
  (∀ v ∈ c.value, v.Only fn) ∧ c.signal.Only fn

theorem Raise.Only.fillPosition {r : Raise} (h : r.Only fn) (p : Position) :
    (r.fillPosition p).Only fn := by
  cases r with
  | thrown v at? => exact h
  | failed e => trivial

theorem Completion.only_empty : Completion.empty.Only fn := ⟨fun _ h => (by cases h), trivial⟩

theorem Completion.only_ofValue {v : Value} (h : v.Only fn) : (Completion.ofValue v).Only fn :=
  ⟨fun _ hw => Option.some.inj hw ▸ h, trivial⟩

theorem Completion.only_ofSignal {signal : Signal} (h : signal.Only fn) :
    (Completion.ofSignal signal).Only fn :=
  ⟨fun _ hw => (by cases hw), h⟩

theorem Completion.Only.orValue {c : Completion} (h : c.Only fn) {last : Option Value}
    (hlast : ∀ v ∈ last, v.Only fn) : ∀ v ∈ c.value.or last, v.Only fn := by
  intro v hv
  rcases Option.or_eq_some_iff.mp hv with hv | ⟨-, hv⟩
  · exact h.1 v hv
  · exact hlast v hv

/-- A loop hands on the signal of its body. -/
theorem Signal.Only.handOn {signal handed : Signal} (h : signal.Only fn)
    (after : signal.afterIteration = .handOn handed) : handed.Only fn := by
  cases signal with
  | none | continueLoop | breakLoop => cases after
  | returned vs | thrown v p =>
      cases after
      exact h

end StatementEngine
