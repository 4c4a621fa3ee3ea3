import StatementEngine.Proofs.Lexical.Obedience
import StatementEngine.Proofs.Run.Lockstep
import StatementEngine.Proofs.Value.Functions

/-!
# Pairs of runs

**Two runs over different heaps.** The scopes, the captured functions and the modules of a state are
its `Heap`. A `Pairing` says which heaps go together, which scope of one stands for which scope of
the other, and which functions may be met; everything else of the two states is the same
(`Pairing.Twin`). Values are the same in both runs, since a function value is only the number of a
captured function.

A pairing has to withstand the steps that the engine makes in a heap, side by side. Then the whole
engine does: `Exec.Pairs` is the judgment for two computations, with one rule for each way of
building a computation, and the rules follow the text of the bodies.

* Several scopes of one heap may stand for the same scope of the other, as long as no name is bound
  in any of them but one: names are looked up from all of them (`Pairing.scope`), and bound only in
  scopes that stand for each other alone (`Pairing.own`).
* Which scopes are paired may depend on how many there are. They are never removed, so what is
  paired once is paired from then on.
* A script only meets the functions that its variables and its literals hold, so what a pairing says
  of functions is said of all values on the way (`Value.Only`), and of the literals in all trees
  (`Rule.literals`). A queued task may hold any function; only a pairing that allows all functions
  is one of runs that come to the queue.
-/

namespace StatementEngine

/-! ## Heaps -/

/-- What scripts share: scopes, captured functions and modules. -/
structure Heap where
  scopes : ScopeStore
  closures : Array Closure
  modules : Registry

namespace Heap

/-- The number of scopes. -/
def size (h : Heap) : Nat := h.scopes.scopes.size

/-- Adds a scope below another one. -/
def newChild (h : Heap) (parent : ScopeId) : Heap := { h with scopes := h.scopes.add (some parent) }

/-- Binds a name in a scope. -/
def define (h : Heap) (scope : ScopeId) (name : Name) (v : Value) : Heap :=
  { h with scopes := h.scopes.define scope name v }

/-- Makes a function of a literal. -/
def capture (h : Heap) (literal : FunctionLiteral) (scope : ScopeId) : Heap :=
  { h with closures := h.closures.push ⟨literal, scope⟩ }

/-- Registers a scope as a module. -/
def register (h : Heap) (name : Name) (scope : ScopeId) : Heap :=
  { h with modules := h.modules.register name scope }

@[simp] theorem size_newChild (h : Heap) (parent : ScopeId) :
    (h.newChild parent).size = h.size + 1 := Array.size_push _

@[simp] theorem size_define (h : Heap) (scope : ScopeId) (name : Name) (v : Value) :
    (h.define scope name v).size = h.size := Array.size_modify

end Heap

namespace State

def heap (s : State) : Heap := ⟨s.scopes, s.closures, s.modules⟩

/-- The state with another heap. -/
def withHeap (s : State) (h : Heap) : State :=
  { s with scopes := h.scopes, closures := h.closures, modules := h.modules }

end State

/-! ## Pairings -/

/-- The literals in a tree only hold functions of a set. -/
def Rule.literals (fn : FunctionRef → Prop) : Rule where
  expr e := ∀ v, e = .literal v → v.Only fn
  stmt _ _ := True

/-- The captured functions have the same code, which the rule allows, and paired scopes. -/
structure Closure.Pairs (scope : ScopeId → ScopeId → Prop) (R : Rule) (c c' : Closure) : Prop where
  literal : c'.literal = c.literal
  scope : scope c.scope c'.scope
  obeys : BlockObeys R .function c.literal.body

/-- What goes together in two runs: scopes, heaps, and the functions that may be met. The steps of
the engine, made in both heaps, lead to heaps that go together again. -/
structure Pairing where
  /-- Names are looked up alike in the scopes, in heaps of which the first has so many scopes. -/
  scope : Nat → ScopeId → ScopeId → Prop
  /-- Names may be bound in the scopes as well. -/
  own : Nat → ScopeId → ScopeId → Prop
  fn : FunctionRef → Prop
  heap : Heap → Heap → Prop
  scope_of_own : ∀ {n i i'}, own n i i' → scope n i i'
  scope_mono : ∀ {n m i i'}, n ≤ m → scope n i i' → scope m i i'
  own_mono : ∀ {n m i i'}, n ≤ m → own n i i' → own m i i'
  newChild : ∀ {h h' i i'}, heap h h' → scope h.size i i' →
    heap (h.newChild i) (h'.newChild i') ∧ own (h.size + 1) h.scopes.next h'.scopes.next
  define : ∀ {h h' i i'} name v, heap h h' → own h.size i i' → v.Only fn →
    heap (h.define i name v) (h'.define i' name v)
  definer : ∀ {h h' i i'} name, heap h h' → scope h.size i i' →
    Option.Rel (own h.size) (h.scopes.definer? i name) (h'.scopes.definer? i' name)
  bound : ∀ {h h' i i'} name, heap h h' → own h.size i i' →
    h'.scopes.local? i' name = h.scopes.local? i name ∧
      ∀ v ∈ h.scopes.local? i name, v.Only fn
  capture : ∀ {h h' i i'} literal, heap h h' → scope h.size i i' →
    BlockObeys (.literals fn) .function literal.body →
    heap (h.capture literal i) (h'.capture literal i') ∧
      h'.closures.size = h.closures.size ∧ fn (.closure h.closures.size literal.name)
  captured : ∀ {h h'} k name, heap h h' → fn (.closure k name) →
    Option.Rel (Closure.Pairs (scope h.size) (.literals fn)) h.closures[k]? h'.closures[k]?
  register : ∀ {h h' i i'} name, heap h h' → own h.size i i' →
    heap (h.register name i) (h'.register name i')
  module : ∀ {h h'} name, heap h h' →
    Option.Rel (own h.size) (h.modules.find? name) (h'.modules.find? name)
  /-- A function that has the queue run may meet any function there. -/
  eager : fn (.builtin .runPending) → ∀ f, fn f

namespace Pairing

variable (P : Pairing)

/-- What trees have to obey. -/
def rule : Rule := .literals P.fn

/-- The states have paired heaps and are the same otherwise. There are at least `n` scopes. -/
inductive Twin (n : Nat) (s : State) : State → Prop
  | intro (h' : Heap) (paired : P.heap s.heap h') (room : n ≤ s.heap.size) :
    Twin n s (s.withHeap h')

/-- The questions are the same but for their scopes, which are paired where there are `n` scopes. -/
inductive Question (n : Nat) : Request → Request → Prop
  | evaluate {e : Expr} {i i' : ScopeId} (obeys : e.Obeys P.rule) (paired : P.scope n i i') :
      Question n (.evaluate e i) (.evaluate e i')
  | call {f : FunctionRef} {args : List Value} (hf : P.fn f) (hargs : ∀ v ∈ args, v.Only P.fn) :
      Question n (.call f args) (.call f args)
  | execute {stmt : Stmt} {i i' : ScopeId} {cx : Context} (obeys : stmt.Obeys P.rule cx.site)
      (paired : P.own n i i') : Question n (.execute stmt i cx) (.execute stmt i' cx)
  | block {body : Block} {i i' : ScopeId} {cx : Context} (obeys : BlockObeys P.rule cx.site body)
      (paired : P.own n i i') : Question n (.block body i cx) (.block body i' cx)
  | iterate {loop : LoopHead} {i' : ScopeId} (obeys : (Request.iterate loop).Obeys P.rule)
      (paired : P.scope n loop.scope i') :
      Question n (.iterate loop) (.iterate { loop with scope := i' })
  | work {w : Work} (all : ∀ f, P.fn f) : Question n (.work w) (.work w)
  | drain {ran : Nat} (all : ∀ f, P.fn f) : Question n (.drain ran) (.drain ran)
  | await {what : Awaited} : Question n (.await what) (.await what)

namespace Twin

variable {P : Pairing} {n m : Nat} {s s' : State} {i i' : ScopeId}

theorem mono (twin : P.Twin n s s') (le : m ≤ n) : P.Twin m s s' := by
  cases twin with
  | intro h' paired room => exact .intro h' paired (Nat.le_trans le room)

theorem room (twin : P.Twin n s s') : n ≤ s.heap.size := by
  cases twin with
  | intro h' paired room => exact room

/-- The states are paired with all the scopes that there are. -/
theorem here (twin : P.Twin n s s') : P.Twin s.heap.size s s' := by
  cases twin with
  | intro h' paired room => exact .intro h' paired (Nat.le_refl _)

/-- The step is made in both heaps. -/
theorem step {f f' : State → State} {g k : Heap → Heap} (twin : P.Twin n s s')
    (hf : ∀ s, f s = s.withHeap (g s.heap)) (hf' : ∀ s, f' s = s.withHeap (k s.heap))
    (paired : ∀ h h', n ≤ h.size → P.heap h h' → P.heap (g h) (k h'))
    (grows : ∀ h, h.size ≤ (g h).size) : P.Twin n (f s) (f' s') := by
  cases twin with
  | intro h' twin room =>
      rw [hf, hf']
      exact .intro (k h') (paired s.heap h' room twin) (Nat.le_trans room (grows s.heap))

theorem define (twin : P.Twin n s s') (paired : P.own n i i') (name : Name) {v : Value}
    (only : v.Only P.fn) :
    P.Twin n { s with scopes := s.scopes.define i name v }
      { s' with scopes := s'.scopes.define i' name v } :=
  twin.step (g := fun h => h.define i name v) (k := fun h => h.define i' name v) (fun _ => rfl)
    (fun _ => rfl) (fun _ _ room h => P.define name v h (P.own_mono room paired) only)
    fun h => Nat.le_of_eq (h.size_define i name v).symm

/-- A name is found in paired scopes, or in none. -/
theorem definer (twin : P.Twin n s s') (paired : P.scope n i i') (name : Name) :
    Option.Rel (P.own s.heap.size) (s.scopes.definer? i name) (s'.scopes.definer? i' name) := by
  cases twin with
  | intro h' twin room => exact P.definer name twin (P.scope_mono room paired)

theorem bound (twin : P.Twin n s s') (paired : P.own n i i') (name : Name) :
    s'.scopes.local? i' name = s.scopes.local? i name ∧
      ∀ v ∈ s.scopes.local? i name, v.Only P.fn := by
  cases twin with
  | intro h' twin room => exact P.bound name twin (P.own_mono room paired)

theorem seen (twin : P.Twin n s s') (paired : P.scope n i i') (name : Name) :
    s'.scopes.get? i' name = s.scopes.get? i name ∧ ∀ v ∈ s.scopes.get? i name, v.Only P.fn := by
  rw [ScopeStore.get?_eq, ScopeStore.get?_eq]
  match s.scopes.definer? i name, s'.scopes.definer? i' name, twin.definer paired name with
  | some d, some d', .some there => exact twin.here.bound there name
  | none, none, .none => exact ⟨rfl, fun v hv => by cases hv⟩

/-- A member of a module is the same in both states. -/
theorem resolve (twin : P.Twin n s s') (owner member : Name) :
    s'.modules.resolve s'.scopes owner member = s.modules.resolve s.scopes owner member ∧
      ∀ v, s.modules.resolve s.scopes owner member = .ok v → v.Only P.fn := by
  have found : Option.Rel (P.own s.heap.size) (s.modules.find? owner) (s'.modules.find? owner) := by
    cases twin with
    | intro h' twin room => exact P.module owner twin
  unfold Registry.resolve
  match s.modules.find? owner, s'.modules.find? owner, found with
  | none, none, .none => exact ⟨rfl, fun v hv => by cases hv⟩
  | some d, some d', .some there =>
      obtain ⟨same, only⟩ := twin.here.bound there member
      dsimp only
      rw [same]
      refine ⟨rfl, fun v hv => ?_⟩
      cases known : s.scopes.local? d member with
      | none =>
          rw [known] at hv
          cases hv
      | some w =>
          rw [known] at hv
          cases hv
          exact only _ known

end Twin

/-- The questions are paired, and are asked in paired states. -/
def Asks (q : Request) (s : State) (q' : Request) (s' : State) : Prop :=
  P.Question s.heap.size q q' ∧ P.Twin s.heap.size s s'

end Pairing

/-- Both are the same, and have a property. -/
def Same (M : α → Prop) (a b : α) : Prop := b = a ∧ M a

/-- The outcomes are of the same kind. Errors and panics are the same; values are related. -/
inductive Outcome.Pairs (ok : α → β → Prop) (bad : ε → Prop) : Outcome ε α → Outcome ε β → Prop
  | ok {a : α} {b : β} (h : ok a b) : Pairs ok bad (.ok a) (.ok b)
  | raised {e : ε} (h : bad e) : Pairs ok bad (.raised e) (.raised e)
  | panicked (m : String) : Pairs ok bad (.panicked m) (.panicked m)

/-- Outcomes with the same values are the same. -/
theorem Outcome.Pairs.eq {M : α → Prop} {bad : ε → Prop} {o o' : Outcome ε α}
    (h : o.Pairs (Same M) bad o') : o' = o := by
  cases h with
  | ok h => rw [h.1]
  | raised _ | panicked _ => rfl

/-- The answers to paired questions are the same, and hold only functions that may be met. -/
def Pairing.Replies (P : Pairing) : (q q' : Request) → Answer q → Answer q' → Prop
  | .evaluate .., .evaluate .., o, o' =>
    Outcome.Pairs (Same (Value.Only P.fn)) (Raise.Only P.fn) o o'
  | .call .., .call .., o, o' => Outcome.Pairs (Same (Value.Only P.fn)) (Raise.Only P.fn) o o'
  | .execute .., .execute .., o, o' =>
    Outcome.Pairs (Same (Completion.Only P.fn)) (fun _ => True) o o'
  | .block .., .block .., o, o' => Outcome.Pairs (Same (Completion.Only P.fn)) (fun _ => True) o o'
  | .iterate _, .iterate _, o, o' =>
    Outcome.Pairs (Same (Completion.Only P.fn)) (Raise.Only P.fn) o o'
  | .work _, .work _, o, o' => Outcome.Pairs (Same (Value.Only P.fn)) (Raise.Only P.fn) o o'
  | .drain _, .drain _, ran, ran' => ran' = ran
  | .await _, .await _, _, _ => True
  | _, _, _, _ => False

/-- The answers go together, and so do the states afterwards, with no fewer scopes than before. -/
def Pairing.Answers (P : Pairing) (q : Request) (s : State) (q' : Request) (_ : State)
    (a : Answer q) (t : State) (a' : Answer q') (t' : State) : Prop :=
  P.Twin s.heap.size t t' ∧ P.Replies q q' a a'

namespace Exec

variable {P : Pairing} {n m : Nat} {α β γ δ ε ζ κ : Type}

/-- From paired states with at least `n` scopes the computations ask paired questions, and given
paired answers they can only end in such states, with related values or with the same error. -/
def Pairs (P : Pairing) (n : Nat) (ok : α → β → Prop) (bad : ε → Prop) (x : Exec ε α)
    (x' : Exec ε β) : Prop :=
  ∀ s s', P.Twin n s s' → Resumption.Lockstep P.Asks P.Answers (x s) (x' s') fun o t o' t' =>
    P.Twin n t t' ∧ o.Pairs ok bad o'

/-- The computations evaluate something: they end with the same value, or raise the same. -/
abbrev PairsRaise (P : Pairing) (n : Nat) (M : α → Prop) (x x' : Exec Raise α) : Prop :=
  Pairs P n (Same M) (Raise.Only P.fn) x x'

/-- The computations run something: they end with the same value, or fail with the same error. -/
abbrev PairsError (P : Pairing) (n : Nat) (M : α → Prop) (x x' : Exec ε α) : Prop :=
  Pairs P n (Same M) (fun _ => True) x x'

/-! ## Ways of building computations -/

theorem pairs_pure {ok : α → β → Prop} {bad : ε → Prop} {a : α} {b : β} (h : ok a b) :
    Pairs P n ok bad (pure a) (pure b) :=
  fun _ _ twin => ⟨twin, .ok h⟩

theorem pairs_value {M : α → Prop} {bad : ε → Prop} {a : α} (h : M a) :
    Pairs P n (Same M) bad (pure a) (pure a) :=
  pairs_pure ⟨rfl, h⟩

theorem pairs_raise {ok : α → β → Prop} {bad : ε → Prop} {e : ε} (h : bad e) :
    Pairs P n ok bad (raise e) (raise e) :=
  fun _ _ twin => ⟨twin, .raised h⟩

theorem pairs_panic {ok : α → β → Prop} {bad : ε → Prop} (m : String) :
    Pairs P n ok bad (panic m) (panic m) :=
  fun _ _ twin => ⟨twin, .panicked m⟩

theorem pairs_read {ok : α → β → Prop} {bad : ε → Prop} {f : State → α} {f' : State → β}
    (h : ∀ s s', P.Twin n s s' → ok (f s) (f' s')) : Pairs P n ok bad (read f) (read f') :=
  fun s s' twin => ⟨twin, .ok (h s s' twin)⟩

theorem pairs_modify {bad : ε → Prop} {f f' : State → State}
    (h : ∀ s s', P.Twin n s s' → P.Twin n (f s) (f' s')) :
    Pairs P n (Same fun _ => True) bad (modify f) (modify f') :=
  fun s s' twin => ⟨h s s' twin, .ok ⟨rfl, trivial⟩⟩

theorem pairs_modifyGet {ok : α → β → Prop} {bad : ε → Prop} {f : State → α × State}
    {f' : State → β × State}
    (h : ∀ s s', P.Twin n s s' → P.Twin n (f s).2 (f' s').2 ∧ ok (f s).1 (f' s').1) :
    Pairs P n ok bad (modifyGet f) (modifyGet f') :=
  fun s s' twin => ⟨(h s s' twin).1, .ok (h s s' twin).2⟩

theorem pairs_ofExcept {M : α → Prop} {bad : ε → Prop} {lift : κ → ε} {r : Except κ α}
    (hok : ∀ a, r = .ok a → M a) (hbad : ∀ k, bad (lift k)) :
    Pairs P n (Same M) bad (ofExcept lift r) (ofExcept lift r) := by
  cases r with
  | ok a => exact pairs_value (hok a rfl)
  | error k => exact pairs_raise (hbad k)

/-- Sequences are paired if their first parts are, and their second parts for related values. -/
theorem pairs_bind {M : α → β → Prop} {ok : γ → δ → Prop} {bad : ε → Prop} {x : Exec ε α}
    {x' : Exec ε β} {f : α → Exec ε γ} {f' : β → Exec ε δ} (hx : Pairs P n M bad x x')
    (hf : ∀ a b, M a b → Pairs P n ok bad (f a) (f' b)) : Pairs P n ok bad (x >>= f) (x' >>= f') := by
  intro s s' twin
  refine Resumption.Lockstep.bind ((hx s s' twin).mono fun o t o' t' ended => ?_)
  cases ended.2 with
  | ok h => exact hf _ _ h t t' ended.1
  | raised h => exact ⟨ended.1, .raised h⟩
  | panicked m => exact ⟨ended.1, .panicked m⟩

/-- A sequence whose first parts end with the same values. -/
theorem pairs_then {M : α → Prop} {ok : γ → δ → Prop} {bad : ε → Prop} {x x' : Exec ε α}
    {f : α → Exec ε γ} {f' : α → Exec ε δ} (hx : Pairs P n (Same M) bad x x')
    (hf : ∀ a, M a → Pairs P n ok bad (f a) (f' a)) : Pairs P n ok bad (x >>= f) (x' >>= f') :=
  pairs_bind hx fun a b same => by
    obtain ⟨rfl, h⟩ := same
    exact hf b h

theorem pairs_mapError {ok : α → β → Prop} {B : ε → Prop} {bad : ζ → Prop} {f : ε → ζ}
    {x : Exec ε α} {x' : Exec ε β} (hx : Pairs P n ok B x x') (h : ∀ e, B e → bad (f e)) :
    Pairs P n ok bad (x.mapError f) (x'.mapError f) := by
  intro s s' twin
  refine Resumption.Lockstep.bind ((hx s s' twin).mono fun o t o' t' ended => ⟨ended.1, ?_⟩)
  cases ended.2 with
  | ok h => exact .ok h
  | raised hb => exact .raised (h _ hb)
  | panicked m => exact .panicked m

/-- A failure holds no values. -/
theorem pairs_failing {ok : α → β → Prop} {x : Exec EngineError α} {x' : Exec EngineError β}
    (hx : Pairs P n ok (fun _ => True) x x') :
    Pairs P n ok (Raise.Only P.fn) (failing x) (failing x') :=
  pairs_mapError hx fun _ _ => trivial

theorem pairs_ofKind {ok : α → β → Prop} {x : Exec ErrorKind α} {x' : Exec ErrorKind β}
    (hx : Pairs P n ok (fun _ => True) x x') :
    Pairs P n ok (Raise.Only P.fn) (x.mapError .ofKind) (x'.mapError .ofKind) :=
  pairs_mapError hx fun _ _ => trivial

theorem pairs_fillPosition {ok : α → β → Prop} {x : Exec Raise α} {x' : Exec Raise β}
    (hx : Pairs P n ok (Raise.Only P.fn) x x') (p : Position) :
    Pairs P n ok (Raise.Only P.fn) (x.mapError (·.fillPosition p)) (x'.mapError (·.fillPosition p)) :=
  pairs_mapError hx fun _ h => h.fillPosition p

/-- Paired scopes are used for as long as there are enough scopes for them to be paired. -/
theorem pairs_readThen {ok : γ → δ → Prop} {bad : ε → Prop} {f : State → α} {f' : State → β}
    {g : α → Exec ε γ} {g' : β → Exec ε δ}
    (h : ∀ s s', P.Twin n s s' → Pairs P s.heap.size ok bad (g (f s)) (g' (f' s'))) :
    Pairs P n ok bad (read f >>= g) (read f' >>= g') :=
  fun s s' twin => (h s s' twin s s' twin.here).mono fun _ _ _ _ ended =>
    ⟨ended.1.mono twin.room, ended.2⟩

/-! ## Small steps -/

section Steps
variable {i i' : ScopeId}

/-- What goes on with a new scope goes on with paired ones, which are there alone for each other. -/
theorem pairs_withChild {ok : γ → δ → Prop} {bad : ε → Prop} {f : ScopeId → Exec ε γ}
    {f' : ScopeId → Exec ε δ} (paired : P.scope n i i')
    (hf : ∀ m c c', n ≤ m → P.own m c c' → Pairs P m ok bad (f c) (f' c')) :
    Pairs P n ok bad (newChild i >>= f) (newChild i' >>= f') := by
  intro s s' twin
  cases twin with
  | intro h' twin room =>
      obtain ⟨grown, next⟩ := P.newChild twin (P.scope_mono room paired)
      have le : n ≤ s.heap.size + 1 := Nat.le_succ_of_le room
      have child : P.Twin (s.heap.size + 1) (s.newChild i).2 ((s.withHeap h').newChild i').2 :=
        .intro (h'.newChild i') grown (Nat.le_of_eq (s.heap.size_newChild i).symm)
      exact (hf _ _ _ le next _ _ child).mono fun _ _ _ _ ended => ⟨ended.1.mono le, ended.2⟩

theorem pairs_defineAll {bad : ε → Prop} {bindings : List (Name × Value)} (paired : P.own n i i')
    (only : ∀ b ∈ bindings, b.2.Only P.fn) :
    Pairs P n (Same fun _ => True) bad (defineAll i bindings) (defineAll i' bindings) := by
  refine pairs_modify fun s s' twin => ?_
  induction bindings generalizing s s' with
  | nil => exact twin
  | cons b rest ih =>
      have bound := twin.define paired b.1 (only b List.mem_cons_self)
      exact ih (fun c hc => only c (List.mem_cons_of_mem _ hc)) _ _ bound

theorem pairs_readVariable (paired : P.scope n i i') (name : Name) :
    PairsError P n (Value.Only P.fn) (readVariable i name) (readVariable i' name) := by
  intro s s' twin
  obtain ⟨same, only⟩ := twin.seen paired name
  unfold readVariable
  rw [same]
  split
  · next v known => exact ⟨twin, .ok ⟨rfl, only v known⟩⟩
  · exact ⟨twin, .raised trivial⟩

theorem pairs_setVariable (paired : P.scope n i i') (name : Name) {v : Value}
    (only : v.Only P.fn) :
    PairsError P n (fun _ => True) (setVariable i name v) (setVariable i' name v) := by
  intro s s' twin
  rw [setVariable_apply, setVariable_apply]
  match s.scopes.definer? i name, s'.scopes.definer? i' name, twin.definer paired name with
  | some d, some d', .some there =>
      exact ⟨(twin.here.define there name only).mono twin.room, .ok ⟨rfl, trivial⟩⟩
  | none, none, .none => exact ⟨twin, .raised trivial⟩

theorem pairs_checkStop : PairsError P n (fun _ => True) checkStop checkStop := by
  intro s s' twin
  cases twin with
  | intro h' twin room =>
      unfold checkStop
      rw [show (s.withHeap h').stopRequested = s.stopRequested from rfl]
      split
      · exact ⟨.intro h' twin room, .raised trivial⟩
      · exact ⟨.intro h' twin room, .ok ⟨rfl, trivial⟩⟩

end Steps

end Exec

/-! ## Questions -/

namespace Pairing

variable {P : Pairing} {n m : Nat}

/-- Questions that are paired stay so when there are more scopes. -/
theorem Question.mono {q q' : Request} (h : P.Question n q q') (le : n ≤ m) :
    P.Question m q q' := by
  cases h with
  | evaluate obeys paired => exact .evaluate obeys (P.scope_mono le paired)
  | call hf hargs => exact .call hf hargs
  | execute obeys paired => exact .execute obeys (P.own_mono le paired)
  | block obeys paired => exact .block obeys (P.own_mono le paired)
  | iterate obeys paired => exact .iterate obeys (P.scope_mono le paired)
  | work all => exact .work all
  | drain all => exact .drain all
  | await => exact .await

/-- Paired questions may be asked in paired states. -/
theorem Question.lockstep {q q' : Request} {s s' : State} {α β : Type}
    {r : Answer q → State → Asking α} {r' : Answer q' → State → Asking β}
    {post : α → State → β → State → Prop} (h : P.Question n q q') (twin : P.Twin n s s')
    (go : ∀ a t a' t', P.Twin n t t' → P.Replies q q' a a' →
      Resumption.Lockstep P.Asks P.Answers (r a t) (r' a' t') post) :
    Resumption.Lockstep P.Asks P.Answers (.ask q s r) (.ask q' s' r') post :=
  ⟨⟨h.mono twin.room, twin.here⟩, fun a t a' t' answered =>
    go a t a' t' (answered.1.mono twin.room) answered.2⟩

end Pairing

namespace Exec

variable {P : Pairing} {n : Nat} {i i' : ScopeId} {ε : Type}

theorem pairs_evaluate {e : Expr} (obeys : e.Obeys P.rule) (paired : P.scope n i i') :
    PairsRaise P n (Value.Only P.fn) (evaluate e i) (evaluate e i') :=
  fun _ _ twin => Pairing.Question.lockstep (.evaluate obeys paired) twin
    fun _ _ _ _ twin reply => ⟨twin, reply⟩

theorem pairs_call {f : FunctionRef} {args : List Value} (hf : P.fn f)
    (hargs : ∀ v ∈ args, v.Only P.fn) :
    PairsRaise P n (Value.Only P.fn) (call f args) (call f args) :=
  fun _ _ twin => Pairing.Question.lockstep (.call hf hargs) twin
    fun _ _ _ _ twin reply => ⟨twin, reply⟩

theorem pairs_execute {stmt : Stmt} {cx : Context} (obeys : stmt.Obeys P.rule cx.site)
    (paired : P.own n i i') :
    PairsError P n (Completion.Only P.fn) (execute stmt i cx) (execute stmt i' cx) :=
  fun _ _ twin => Pairing.Question.lockstep (.execute obeys paired) twin
    fun _ _ _ _ twin reply => ⟨twin, reply⟩

theorem pairs_runBlock {body : Block} {cx : Context} (obeys : BlockObeys P.rule cx.site body)
    (paired : P.own n i i') :
    PairsError P n (Completion.Only P.fn) (runBlock body i cx) (runBlock body i' cx) :=
  fun _ _ twin => Pairing.Question.lockstep (.block obeys paired) twin
    fun _ _ _ _ twin reply => ⟨twin, reply⟩

theorem pairs_iterate {loop : LoopHead} (obeys : (Request.iterate loop).Obeys P.rule)
    (paired : P.scope n loop.scope i') :
    PairsRaise P n (Completion.Only P.fn) (iterate loop) (iterate { loop with scope := i' }) :=
  fun _ _ twin => Pairing.Question.lockstep (.iterate obeys paired) twin
    fun _ _ _ _ twin reply => ⟨twin, reply⟩

theorem pairs_doWork {w : Work} (all : ∀ f, P.fn f) :
    PairsRaise P n (Value.Only P.fn) (doWork w) (doWork w) :=
  fun _ _ twin => Pairing.Question.lockstep (.work all) twin
    fun _ _ _ _ twin reply => ⟨twin, reply⟩

theorem pairs_drain {bad : ε → Prop} (all : ∀ f, P.fn f) :
    Pairs P n (Same fun _ => True) bad drain drain :=
  fun _ _ twin => Pairing.Question.lockstep (.drain all) twin
    fun _ _ _ _ twin reply => ⟨twin, .ok ⟨reply, trivial⟩⟩

theorem pairs_await {bad : ε → Prop} {what : Awaited} :
    Pairs P n (Same fun _ => True) bad (await what) (await what) :=
  fun _ _ twin => Pairing.Question.lockstep .await twin
    fun _ _ _ _ twin _ => ⟨twin, .ok ⟨rfl, trivial⟩⟩

end Exec

end StatementEngine
