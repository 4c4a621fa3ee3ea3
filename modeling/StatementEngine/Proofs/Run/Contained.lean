import StatementEngine.Proofs.Sealing
import StatementEngine.Proofs.Task.Drift

/-!
# Bodies keep to their scopes

**Between two questions nothing happens but in the scopes that somebody has** (`State.OnlyIn`):
those that he has been given, and those that he has made himself. Other scopes get no new names;
modules, and tasks, are left alone. What he asks, he asks in scopes that he has.

So a scope that is made while a question is answered is nobody's afterwards: whoever has asked the
question goes on with the scopes that he had (`Contained`). Every body but those of the queue is
like this (`Exec.walk_keepsTo`). Where one registers a module or does something to tasks, it does so at
its end, which `Contained` leaves open.
-/

namespace StatementEngine

variable {K K' : ScopeId → Prop} {s t u : State} {α β ε : Type}

/-- A scope that has just been made is there. -/
theorem State.next_lt_newChild (s : State) (scope : ScopeId) :
    s.scopes.next.index < (s.newChild scope).2.scopes.scopes.size := by
  show s.scopes.scopes.size < (s.scopes.add _).scopes.size
  rw [ScopeStore.size_add]
  exact Nat.lt_succ_self _

/-- Since the first state only scopes of a kind have been given names. Modules and tasks are as they
were. -/
structure State.OnlyIn (K : ScopeId → Prop) (s t : State) : Prop where
  scopes : s.scopes.Grows (fun i _ => K i) t.scopes
  modules : t.modules = s.modules
  scheduler : t.scheduler = s.scheduler

namespace State.OnlyIn

theorem refl (s : State) : s.OnlyIn K s := ⟨.refl _, rfl, rfl⟩

theorem size_le (h : s.OnlyIn K t) : s.scopes.scopes.size ≤ t.scopes.scopes.size := h.scopes.size_le

/-- It only matters who has the scopes that were there from the start. -/
theorem trans (h : s.OnlyIn K t) (h' : t.OnlyIn K' u)
    (le : ∀ i, i.index < s.scopes.scopes.size → K' i → K i) : s.OnlyIn K u where
  scopes := h.scopes.trans h'.scopes fun i there _ =>
    le i (ScopeStore.lt_of_scope? (Option.ne_none_iff_exists'.mp there).choose_spec)
  modules := h'.modules.trans h.modules
  scheduler := h'.scheduler.trans h.scheduler

end State.OnlyIn

theorem State.Change.onlyIn (h : s.Change K t) : s.OnlyIn K t := by
  cases h with
  | none => exact .refl s
  | define mine bindings => exact ⟨(ScopeStore.Grows.refl _).defineAll (fun _ => mine) _, rfl, rfl⟩
  | overwrite v found => exact ⟨(ScopeStore.Grows.refl _).overwrite found, rfl, rfl⟩
  | capture | record | hold | note => exact ⟨.refl _, rfl, rfl⟩

theorem Request.In.mono {q : Request} (h : q.In K) (le : ∀ i, K i → K' i) : q.In K' := by
  cases q with
  | evaluate | execute | block | iterate => exact le _ h
  | call | work | drain | await => trivial

/-- The scopes that somebody has in the second state if he has had those of a kind in the first:
they, and those that have been made since. -/
def Having (K : ScopeId → Prop) (s t : State) (i : ScopeId) : Prop :=
  K i ∨ s.scopes.scopes.size ≤ i.index ∧ i.index < t.scopes.scopes.size

/-- From a state on, the computation changes nothing but scopes that it has, and it asks in no
others. It has those of a kind, and those that it makes between two questions. `ends` says how it
ends in the state that it has come to. -/
def Contained (ends : State → α → State → Prop) : (ScopeId → Prop) → State → Asking α → Prop
  | K, s, .done a t => ∃ u, s.OnlyIn K u ∧ ends u a t
  | K, s, .ask q t resume => s.OnlyIn K t ∧ q.In (Having K s t) ∧
      ∀ a u, Contained ends (Having K s t) u (resume a u)

namespace Having

variable {i : ScopeId}

theorem old (h : Having K s t i) (there : i.index < s.scopes.scopes.size) : K i :=
  h.resolve_right fun new => Nat.not_le_of_lt there new.1

theorem trans (h : Having K' t u i) (before : s.OnlyIn K t) (only : t.OnlyIn K' u)
    (owned : ∀ i, K' i → Having K s t i) : Having K s u i := by
  have first := before.size_le
  have second := only.size_le
  rcases h with mine | new
  · exact (owned i mine).imp_right fun made => ⟨made.1, by omega⟩
  · exact Or.inr ⟨by omega, new.2⟩

end Having

variable {ends : State → α → State → Prop} {ends' : State → β → State → Prop}

/-- What is contained later is contained, with the scopes that have been made until then. -/
theorem Contained.after {r : Asking α} (h : Contained ends K' t r) (before : s.OnlyIn K t)
    (owned : ∀ i, K' i → Having K s t i) : Contained ends K s r := by
  induction r generalizing s t K K' with
  | done a v =>
      obtain ⟨u, only, ended⟩ := h
      exact ⟨u, before.trans only fun i there mine => (owned i mine).old there, ended⟩
  | ask q u resume ih =>
      obtain ⟨only, place, rest⟩ := h
      have later : ∀ i, Having K' t u i → Having K s u i := fun i mine =>
        mine.trans before only owned
      refine ⟨before.trans only fun i there mine => (owned i mine).old there, place.mono later, ?_⟩
      -- between the answer and what comes next no scope is made
      exact fun a v => ih a v (rest a v) (.refl v) fun i mine => Or.inl (later i mine)

theorem Contained.mono {r : Asking α} (h : Contained ends K s r) (le : ∀ i, K i → K' i) :
    Contained ends K' s r :=
  h.after (.refl s) fun i mine => Or.inl (le i mine)

/-- Nothing is asked. -/
theorem contained_done {a : α} (only : s.OnlyIn K t) : Contained Calmly K s (.done a t) :=
  ⟨t, only, rfl⟩

/-- A question that is asked at once, and whose answer is the end. -/
theorem contained_ask (q : Request) (place : q.In K) (result : Answer q → α) :
    Contained Calmly K s (.ask q s fun a t => .done (result a) t) :=
  ⟨.refl s, place.mono fun _ => Or.inl, fun _ t => contained_done (.refl t)⟩

/-- What comes after a contained computation goes on from its end. -/
theorem contained_bind {r : Asking α} {next : α → State → Asking β}
    (hr : Contained Calmly K s r) (hnext : ∀ a t, Contained ends' K t (next a t)) :
    Contained ends' K s (r.bind next) := by
  induction r generalizing s K with
  | done a t =>
      obtain ⟨_, only, rfl⟩ := hr
      exact (hnext a t).after only fun _ => Or.inl
  | ask q t resume ih =>
      refine ⟨hr.1, hr.2.1, fun a u => ih a u (hr.2.2 a u) fun b v => ?_⟩
      exact (hnext b v).mono fun _ => Or.inl

/-- The result of a computation is changed, and not its state. -/
theorem Contained.map {r : Asking α} {f : α → β} (h : Contained ends K s r)
    (le : ∀ u a t, ends u a t → ends' u (f a) t) :
    Contained ends' K s (r.bind fun a t => .done (f a) t) := by
  induction r generalizing s K with
  | done a t =>
      obtain ⟨u, only, ended⟩ := h
      exact ⟨u, only, le u a t ended⟩
  | ask q t resume ih => exact ⟨h.1, h.2.1, fun a u => ih a u (h.2.2 a u)⟩

namespace Exec

/-- The computation keeps to the scopes of a kind, and leaves modules and tasks alone. -/
def KeepsTo (K : ScopeId → Prop) (x : Exec ε α) : Prop := ∀ s, Contained Calmly K s (x s)

/-- A computation that keeps to its scopes and then something that ends in its own way. -/
theorem contained_exec_bind {x : Exec ε α} {f : α → Exec ε β}
    {ends : State → Outcome ε β → State → Prop} (hx : x.KeepsTo K)
    (hf : ∀ a s, Contained ends K s (f a s)) (raised : ∀ e s, ends s (.raised e) s)
    (panicked : ∀ m s, ends s (.panicked m) s) (s : State) : Contained ends K s ((x >>= f) s) := by
  refine contained_bind (hx s) fun o t => ?_
  cases o with
  | ok a => exact hf a t
  | raised e => exact ⟨t, .refl t, raised e t⟩
  | panicked m => exact ⟨t, .refl t, panicked m t⟩

theorem keepsTo_bind {x : Exec ε α} {f : α → Exec ε β} (hx : x.KeepsTo K)
    (hf : ∀ a, (f a).KeepsTo K) : (x >>= f).KeepsTo K :=
  contained_exec_bind hx hf (fun _ _ => rfl) fun _ _ => rfl

theorem keepsTo_mapError {δ : Type} {x : Exec ε α} (hx : x.KeepsTo K) (f : ε → δ) :
    (x.mapError f).KeepsTo K :=
  fun s => (hx s).map fun _ _ _ ended => ended

theorem keepsTo_located {x : Exec Raise Completion} (hx : x.KeepsTo K) (p : Position) :
    (located p x).KeepsTo K := by
  exact fun s => (hx s).map fun _ _ _ ended => ended

theorem Plain.keepsTo {fail : EngineError → ε} {x : Exec ε α} (h : Plain K fail x) :
    x.KeepsTo K := by
  intro s
  obtain ⟨o, t, hx, change, -⟩ := h s
  rw [hx]
  exact contained_done change.onlyIn

theorem keepsTo_checkStop : checkStop.KeepsTo K := by
  intro s
  unfold checkStop
  split
  · exact contained_done (.refl s)
  · exact contained_done (.refl s)

/-- Whoever makes a scope has it from then on. -/
theorem keepsTo_child {f : ScopeId → Exec ε α} (scope : ScopeId)
    (hf : ∀ child, (f child).KeepsTo fun i => i = child ∨ K i) :
    (newChild scope >>= f).KeepsTo K := by
  intro s
  refine (hf s.scopes.next (s.newChild scope).2).after ?_ fun i mine => ?_
  · exact ⟨(ScopeStore.Grows.refl _).add _, rfl, rfl⟩
  · rcases mine with rfl | mine
    · exact Or.inr ⟨Nat.le_refl _, s.next_lt_newChild scope⟩
    · exact Or.inl mine

theorem keepsTo_entered {limit : Option Nat} {fail : EngineError → ε} {x : Exec ε α}
    (hx : x.KeepsTo K) : (entered limit fail x).KeepsTo K := by
  intro s
  unfold entered
  split
  · exact contained_done (.refl s)
  · refine contained_bind ((hx _).after ⟨.refl _, rfl, rfl⟩ fun _ => Or.inl) fun _ t => ?_
    exact contained_done ⟨.refl _, rfl, rfl⟩

theorem keepsTo_runPending : (runPending : Exec ε Nat).KeepsTo K := by
  intro s
  unfold runPending
  split
  · exact contained_done (.refl s)
  · exact contained_ask (.drain 0) trivial _

theorem keepsTo_waitFor (what : Awaited) : (waitFor what : Exec ε Unit).KeepsTo K := by
  intro s
  unfold waitFor
  show Contained Calmly K s ((if s.scheduler.strategy.isBackground then await what else pure ()) s)
  split
  · exact contained_ask (.await what) trivial _
  · exact contained_done (.refl s)

/-- Bodies that are not about the queue, modules or tasks keep to their scopes. -/
theorem walk_keepsTo : Walk fun K => fun _ x => x.KeepsTo K where
  plain h := h.keepsTo
  stop := keepsTo_checkStop
  stopAt _ := keepsTo_mapError keepsTo_checkStop _
  child scope _ hf := keepsTo_child scope hf
  bind := keepsTo_bind
  failing hx := keepsTo_mapError hx _
  fillPosition hx _ := keepsTo_mapError hx _
  located := keepsTo_located
  entered := keepsTo_entered
  evaluate {_ scope} mine e _ := contained_ask (.evaluate e scope) mine id
  call f args _ := contained_ask (.call f args) trivial id
  execute {_ scope} mine stmt cx _ := contained_ask (.execute stmt scope cx) mine id
  runBlock {_ scope} mine body cx _ := contained_ask (.block body scope cx) mine id
  iterate {_ loop} mine _ := contained_ask (.iterate loop) mine id
  runPending := keepsTo_runPending

/-! ## Modules and spawned tasks -/

/-- A module statement runs its body in a new scope, and registers that scope under its name if the
body ends normally. -/
theorem executeBody_module (p : Position) (name : Name) (body : Block) (scope : ScopeId)
    (cx : Context) (s : State) : executeBody ⟨p, .moduleBlock name body⟩ scope cx s =
      .ask (.block body s.scopes.next .ofModule) (s.newChild scope).2 fun o u =>
        match o with
        | .ok c =>
          if c.isNormal then
            .done (.ok .empty) { u with modules := u.modules.register name s.scopes.next }
          else .done (.raised ((EngineError.ofKind (.moduleEscape name c.signal.kind)).locate p)) u
        | .raised e => .done (.raised (e.fillPosition p)) u
        | .panicked m => .done (.panicked m) u := by
  show Resumption.ask _ _ _ = _
  congr 1
  funext o u
  cases o with
  | raised e | panicked m => rfl
  | ok c =>
      cases normal : c.isNormal with
      | true =>
          simp only [Resumption.done_bind, normal, if_true]
          rfl
      | false =>
          simp only [Resumption.done_bind, normal, Bool.false_eq_true, if_false]
          rfl

/-- A scope has been registered under a name, or the statement has failed and nothing is changed. -/
def Registers (name : Name) (d : ScopeId) (u : State) (o : Outcome EngineError Completion)
    (t : State) : Prop :=
  (o = .ok .empty ∧ t = { u with modules := u.modules.register name d }) ∨ ((∀ c, o ≠ .ok c) ∧ t = u)

theorem contained_module (p : Position) (name : Name) (body : Block) (scope : ScopeId)
    (cx : Context) (s : State) : Contained (Registers name s.scopes.next) K s
      (executeBody ⟨p, .moduleBlock name body⟩ scope cx s) := by
  rw [executeBody_module]
  refine ⟨⟨(ScopeStore.Grows.refl _).add _, rfl, rfl⟩,
    Or.inr ⟨Nat.le_refl _, s.next_lt_newChild scope⟩, fun o u => ?_⟩
  cases o with
  | raised e | panicked m => exact ⟨u, .refl u, Or.inr ⟨nofun, rfl⟩⟩
  | ok c =>
      dsimp only
      split
      · exact ⟨u, .refl u, Or.inl ⟨rfl, rfl⟩⟩
      · exact ⟨u, .refl u, Or.inr ⟨nofun, rfl⟩⟩

/-- A spawn statement adds its task at its end. -/
theorem contained_runSpawn (p : Position) (e : Expr) {scope : ScopeId} (mine : K scope)
    (s : State) : Contained (Spawns p) K s (located p (runSpawn p e scope) s) := by
  unfold located
  cases e with
  | call callee args =>
      have evaluated : Contained (fun u o t => Spawns p u (o.located p) t) K s
          (runSpawn p (.call callee args) scope s) := by
        refine contained_exec_bind (walk_keepsTo.evaluateCall mine callee args) ?_
          (Spawns.failed p) (Spawns.panicked p) s
        exact fun fvs t => ⟨t, .refl t, Or.inl ⟨rfl, .call fvs.1 fvs.2, rfl⟩⟩
      exact evaluated.map fun _ _ _ ended => ended
  | _ => exact ⟨s, .refl s, Spawns.failed p _ s⟩

end Exec

end StatementEngine
