import StatementEngine.Proofs.Laws

/-!
# Who has done it

**The registry and the names of scopes can be put down to what has happened.** At any moment of a
session (`Ascribed`)

* the registry is what the module statements that have succeeded have made of it
  (`Chronicle.registry`);
* a scope that was made on an occasion that is over (`Chronicle.Left`) has the names that it had
  then, for good, and nothing is asked in it any more (`Chronicle.Open`), unless the host does so.

As a scope is nobody's but the host's once the question is over in which it was made, only its
bindings can still change. That holds of the scopes of functions and loops as well as of those of
modules.

The main result is `ascribed_of_session`.
-/

namespace StatementEngine

variable {config : Config} {start s t u : State} {past : Chronicle} {e : Occurrence}
  {i : ScopeId} {hosts K : ScopeId → Prop}

/-! ## What a chronicle tells -/

namespace Chronicle

/-- What has become of a registry. -/
def registry (past : Chronicle) (modules : Registry) : Registry :=
  past.foldl (fun modules e => e.registers modules) modules

/-- The scope was made on an occasion that is over. -/
def Left (past : Chronicle) (i : ScopeId) : Prop :=
  ∃ (o : Occasion) (s : State) (a : o.Reply) (t : State), .answered o s a t ∈ past ∧
    s.scopes.scopes.size ≤ i.index ∧ i.index < t.scopes.scopes.size

/-- Something may still be asked in the scope: it is the host's, or the occasion on which it was made
is not over. -/
def Open (hosts : ScopeId → Prop) (past : Chronicle) (s : State) (i : ScopeId) : Prop :=
  hosts i ∨ i.index < s.scopes.scopes.size ∧ ¬ past.Left i

theorem registry_concat (past : Chronicle) (e : Occurrence) (modules : Registry) :
    registry (past ++ [e]) modules = e.registers (past.registry modules) := by
  unfold registry
  rw [List.foldl_append]
  rfl

end Chronicle

/-- What has become of modules and scopes can be put down to what has happened. -/
structure Ascribed (hosts : ScopeId → Prop) (start : State) (past : Chronicle) (s : State) :
    Prop where
  modules : s.modules = past.registry start.modules
  /-- A scope that was made on an occasion that is over has the names that it had then. -/
  names : ∀ (o : Occasion) (u : State) (a : o.Reply) (t : State), .answered o u a t ∈ past →
    ∀ i : ScopeId, u.scopes.scopes.size ≤ i.index → i.index < t.scopes.scopes.size → ¬ hosts i →
    s.scopes.names i = t.scopes.names i
  /-- There are ever more scopes. -/
  ordered : past.Pairwise fun e e' => e.state.scopes.scopes.size ≤ e'.state.scopes.scopes.size
  later : ∀ e ∈ past, e.state.scopes.scopes.size ≤ s.scopes.scopes.size

namespace Ascribed

theorem initial (start : State) : Ascribed hosts start [] start where
  modules := rfl
  names _ _ _ _ there := by simp at there
  ordered := .nil
  later _ there := by simp at there

/-- Something has happened in scopes that somebody still has. -/
theorem onlyIn (h : Ascribed hosts start past s) (only : s.OnlyIn K t)
    (owned : ∀ i, K i → past.Open hosts s i) : Ascribed hosts start past t where
  modules := only.modules.trans h.modules
  names o u a v there i made before other := by
    have old : i.index < s.scopes.scopes.size := Nat.lt_of_lt_of_le before (h.later _ there)
    rw [only.scopes.names_same old fun _ mine => ((owned i mine).resolve_left other).2
      ⟨o, u, a, v, there, made, before⟩]
    exact h.names o u a v there i made before other
  ordered := h.ordered
  later e there := Nat.le_trans (h.later e there) only.size_le

/-- Scopes and modules are as they were. -/
theorem change (h : Ascribed hosts start past s) (scopes : t.scopes = s.scopes)
    (modules : t.modules = s.modules) : Ascribed hosts start past t where
  modules := modules.trans h.modules
  names := scopes ▸ h.names
  ordered := h.ordered
  later := scopes ▸ h.later

/-- Something has happened, and what it has made of modules is known. -/
theorem concat (h : Ascribed hosts start past s) (scopes : e.state.scopes = s.scopes)
    (modules : e.state.modules = e.registers s.modules) :
    Ascribed hosts start (past ++ [e]) e.state where
  modules := by rw [modules, h.modules, Chronicle.registry_concat]
  names o u a t there i made before other := by
    rcases List.mem_append.mp there with there | there
    · rw [scopes]
      exact h.names o u a t there i made before other
    · obtain rfl := List.mem_singleton.mp there
      rfl
  ordered := by
    refine List.pairwise_append.mpr ⟨h.ordered, List.pairwise_singleton _ _, fun x hx y hy => ?_⟩
    obtain rfl := List.mem_singleton.mp hy
    rw [scopes]
    exact h.later x hx
  later x there := by
    rcases List.mem_append.mp there with there | there
    · rw [scopes]
      exact h.later x there
    · obtain rfl := List.mem_singleton.mp there
      exact Nat.le_refl _

end Ascribed

/-! ## Scopes that are still used -/

namespace Chronicle.Open

theorem later (h : past.Open hosts s i)
    (more : s.scopes.scopes.size ≤ t.scopes.scopes.size) : past.Open hosts t i :=
  h.imp_right fun ⟨there, used⟩ => ⟨Nat.lt_of_lt_of_le there more, used⟩

theorem asked (h : past.Open hosts s i) (o : Occasion) (u : State) :
    Chronicle.Open hosts (past ++ [.asked o u]) s i :=
  h.imp_right fun ⟨there, used⟩ => ⟨there, fun ⟨o', v, a, t, before, made⟩ =>
    used ⟨o', v, a, t, (List.mem_append.mp before).resolve_right (by simp), made⟩⟩

/-- Whoever asks a question still has his scopes when it is answered. -/
theorem answered {o : Occasion} {inner : Chronicle} {a : o.Reply} (h : past.Open hosts s i)
    (run : Resumption.Unfolds (watched config) (watched config o s) inner a t)
    (so : Ascribed hosts start (past ++ .asked o s :: inner ++ [.answered o s a t]) t) :
    Chronicle.Open hosts (past ++ .asked o s :: inner ++ [.answered o s a t]) t i := by
  refine h.imp_right fun ⟨there, used⟩ => ⟨?_, ?_⟩
  · exact Nat.lt_of_lt_of_le there (so.later (.asked o s) (by simp))
  rintro ⟨o', u, b, v, left, made, before⟩
  simp only [List.append_assoc, List.cons_append, List.mem_append, List.mem_cons,
    List.not_mem_nil, or_false] at left
  rcases left with earlier | same | inside | same
  · exact used ⟨o', u, b, v, earlier, made, before⟩
  · cases same
  · -- what is asked in between is asked when there are at least as many scopes
    have ordered := (List.pairwise_append.mp (List.pairwise_append.mp so.ordered).1).2.1
    have more := (List.pairwise_cons.mp ordered).1 _ (run.mem_asked inside)
    exact Nat.not_le_of_lt there (Nat.le_trans more made)
  · cases same
    exact Nat.not_le_of_lt there made

end Chronicle.Open

/-- A scope that somebody has made just now is used by nobody else. -/
theorem Ascribed.open_of_having (h : Ascribed hosts start past s) (only : s.OnlyIn K t)
    (owned : ∀ i, K i → past.Open hosts s i) (mine : Having K s t i) : past.Open hosts t i := by
  rcases mine with mine | ⟨made, there⟩
  · exact (owned i mine).later only.size_le
  · refine Or.inr ⟨there, fun ⟨o, u, a, v, past, _, before⟩ => ?_⟩
    exact Nat.not_le_of_lt before (Nat.le_trans (h.later _ past) made)

/-! ## Sessions -/

theorem Ascribed.law (hosts : ScopeId → Prop) (start : State) :
    Law (Ascribed hosts start) (Chronicle.Open hosts) where
  onlyIn h owned only := h.onlyIn only owned
  having h owned only mine := h.open_of_having only owned mine
  change h scopes modules _ := h.change scopes modules
  concat h scopes modules _ := h.concat scopes modules
  asked h o u := h.asked o u
  answered h run so := h.answered run so

/-- A host keeps to its scopes: it runs things in them, and otherwise it changes nothing else. -/
def Act.KeepsTo (hosts : ScopeId → Prop) : Act → Prop
  | .command _ | .call .. => True
  | .script _ scope | .body _ scope | .block _ scope _ | .statement _ scope _
  | .evaluate _ scope => hosts scope
  | .arrange change _ => ∀ s : State, s.OnlyIn hosts (change s)

theorem Act.KeepsTo.within {act : Act} (keeps : act.KeepsTo hosts) :
    act.Within hosts (Ascribed hosts start) (Chronicle.Open hosts) := by
  cases act with
  | arrange change apart =>
      exact fun past s h owned =>
        ⟨h.onlyIn (keeps s) owned, fun i mine => (owned i mine).later (keeps s).size_le⟩
  | command | call => trivial
  | script | body | block | statement | evaluate => exact keeps

/-- **Whatever happens in a session** can be put down to what has happened before. -/
theorem ascribed_of_session {acts : List Act} (keeps : ∀ act ∈ acts, act.KeepsTo hosts)
    (shown : Resumption.Shows (watched config) (session config acts start) past e) :
    Lawful (Ascribed hosts start) (Chronicle.Open hosts) past e :=
  (Ascribed.law hosts start).of_session (.initial start) (fun _ => Or.inl)
    (fun act mem => (keeps act mem).within) shown

end StatementEngine
