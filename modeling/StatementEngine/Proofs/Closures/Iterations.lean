import StatementEngine.Proofs.Closures.Accessors
import StatementEngine.Proofs.EmptyScopes

/-!
# Functions keep the iteration that they were captured in

**Each round of a loop has a variable of its own**, and the functions that the round has captured go
on sharing it when the loop is over. Nothing else can get at it: the scope of the round is sealed.
So a getter returns the element of its round, whatever is run later (`State.Later`). If the round
has captured a setter as well, then the getter returns what that setter was last given
(`State.Given`), and calls of the functions of other rounds make no difference.

* `Register.given`: a round whose scope is sealed holds what its setter was given last.
* `Rounds.accesses`: getters and setters of several rounds, called one after the other.
* `closures_keep_iterations`: both, for the functions that a loop over a list has collected.
-/

namespace StatementEngine

variable {config : Config} {s t u : State} {cell scope : ScopeId} {x : Name} {v a : Value}
  {g k : Nat} {vs args : List Value} {name : String}

/-! ## One round -/

/-- A call of the function yields the value. -/
def State.Yields (config : Config) (s : State) (g : Nat) (v : Value) : Prop :=
  s.MayCall config → ∀ name args, ∃ t, Runs config (Exec.call (.closure g name) args) s (.ok v) t

/-- What the setters of a scope have done so far: the first state has had a value in a variable of
the scope, and the state has another one there. It comes later than the first one, and meanwhile
setters have only been called one after the other. -/
inductive State.Given (config : Config) (cell : ScopeId) (setters : Nat → Prop) (s : State)
    (v : Value) : State → Value → Prop
  | start : Given config cell setters s v s v
  | later {t u : State} {a : Value} (given : Given config cell setters s v t a)
      (later : t.Later config cell setters u) : Given config cell setters s v u a
  | set {t u : State} {a : Value} {k : Nat} {name : String} {args : List Value}
      {o : Outcome Raise Value} (given : Given config cell setters s v t a) (setter : setters k)
      (may : t.MayCall config) (run : Runs config (Exec.call (.closure k name) args) t o u) :
      Given config cell setters s v u (firstArgument args)

/-- The scope of a round holds a value, and functions get and set it. -/
structure State.Round (x : Name) (cell : ScopeId) (g : Nat) (setters : Nat → Prop) (t : State)
    (v : Value) : Prop where
  holds : t.scopes.local? cell x = some v
  getter : ∃ literal : FunctionLiteral, literal.Gets x ∧ t.closures[g]? = some ⟨literal, cell⟩
  setter : ∀ k, setters k →
    ∃ literal : FunctionLiteral, literal.Sets x ∧ t.closures[k]? = some ⟨literal, cell⟩

namespace State.Round

variable {setters : Nat → Prop}

theorem yields (h : t.Round x cell g setters v) : t.Yields config g v := by
  intro may name args
  obtain ⟨literal, gets, known⟩ := h.getter
  exact ⟨_, runs_getter gets known h.holds may⟩

/-- A round is about its scope and its functions. -/
theorem of_same (h : t.Round x cell g setters v)
    (same : u.scopes.scope? cell = t.scopes.scope? cell)
    (kept : ∀ (k : Nat) c, t.closures[k]? = some c → u.closures[k]? = some c) :
    u.Round x cell g setters v where
  holds := (ScopeStore.local?_congr same x).trans h.holds
  getter := by
    obtain ⟨literal, gets, known⟩ := h.getter
    exact ⟨literal, gets, kept g _ known⟩
  setter k hk := by
    obtain ⟨literal, sets, known⟩ := h.setter k hk
    exact ⟨literal, sets, kept k _ known⟩

/-- The state after a call of a setter. -/
theorem exists_set (h : t.Round x cell g setters v) (setter : setters k)
    (may : t.MayCall config) (name : String) (args : List Value) :
    ∃ u, Runs config (Exec.call (.closure k name) args) t (.ok (firstArgument args)) u ∧
      u.Round x cell g setters (firstArgument args) ∧ u.closures = t.closures ∧
      u.MayCall config ∧ ∀ d, d ≠ cell → d.index < t.scopes.scopes.size →
        u.scopes.scope? d = t.scopes.scope? d := by
  obtain ⟨literal, sets, known⟩ := h.setter k setter
  have there : cell.index < (t.framed ⟨literal, cell⟩ args).scopes.scopes.size :=
    Nat.lt_of_lt_of_eq (Nat.lt_succ_of_lt (ScopeStore.lt_of_local? h.holds))
      ScopeStore.size_framed.symm
  refine ⟨_, runs_setter sets known h.holds may, ⟨?_, h.getter, h.setter⟩, rfl, ⟨may.1, may.2⟩, ?_⟩
  · rw [ScopeStore.local?_define there, if_pos ⟨rfl, rfl⟩]
  · intro d other old
    rw [ScopeStore.scope?_define, if_neg other.symm, scope?_framed old]

end State.Round

/-- A round whose scope is sealed: nothing but its functions can get at it. -/
structure State.Register (x : Name) (cell : ScopeId) (g : Nat) (setters : Nat → Prop) (t : State)
    (v : Value) : Prop extends t.Round x cell g setters v where
  sealed : t.Sealed cell setters t

namespace State.Register

variable {setters : Nat → Prop}

/-- Whatever is run meanwhile, the value stays. -/
theorem later (h : t.Register x cell g setters v) (later : t.Later config cell setters u) :
    u.Register x cell g setters v := by
  have sealed := later.sealed h.sealed
  exact ⟨h.of_same sealed.same sealed.kept, sealed.rebase⟩

/-- A setter changes the value. -/
theorem set {o : Outcome Raise Value} (h : t.Register x cell g setters v) (setter : setters k)
    (may : t.MayCall config) (run : Runs config (Exec.call (.closure k name) args) t o u) :
    u.Register x cell g setters (firstArgument args) := by
  obtain ⟨w, run', round, closures, -⟩ := h.exists_set setter may name args
  obtain ⟨-, rfl⟩ := run.unique run'
  exact ⟨round, h.sealed.of_grows (kept_of_answer run).scopes closures⟩

/-- The value is the one that was given last. -/
theorem given (h : s.Register x cell g setters v) (given : s.Given config cell setters v t a) :
    t.Register x cell g setters a := by
  induction given with
  | start => exact h
  | later _ later ih => exact ih.later later
  | set _ setter may run ih => exact ih.set setter may run

end State.Register

/-! ## The rounds of a loop -/

/-- The number of the function that a collector captures in a round of a loop, given the place of
the collector and the state before the loop. -/
def State.captureNumber (s : State) (cs : List Collector) (j i : Nat) : Nat :=
  s.closures.size + i * cs.length + j

section Rounds
variable {cs : List Collector} {c : Collector} {i j : Nat}

/-- A scope that was there before the loop is outside of the scopes of its rounds. -/
theorem Collected.outside {d : ScopeId} (collected : Collected cs x scope vs s t)
    (old : d.index < s.scopes.scopes.size) (i : Nat) :
    t.scopes.Outside ⟨s.scopes.scopes.size + i⟩ d := by
  refine .of_lt ?_ (Nat.lt_of_lt_of_le old (Nat.le_add_right _ _))
  rw [collected.size]
  exact Nat.lt_of_lt_of_le old (Nat.le_add_right _ _)

/-- If only getters and setters have been collected, then nothing else can get at the scope of a
round. -/
theorem Collected.sealed {setters : Nat → Prop} (collected : Collected cs x scope vs s t)
    (sound : s.Sound) (there : scope.index < s.scopes.scopes.size) (inside : i < vs.length)
    (accessors : ∀ j c, cs[j]? = some c → c.literal.Gets x ∨ setters (s.captureNumber cs j i)) :
    t.Sealed ⟨s.scopes.scopes.size + i⟩ setters t where
  there := by
    rw [collected.size]
    exact Nat.add_lt_add_left inside _
  same := rfl
  kept _ _ known := known
  captured k d known := by
    rcases collected.only k d known with old | ⟨m, j, c, hm, at_j, rfl, rfl⟩
    · have before := sound.captured d (Array.mem_of_getElem? old)
      exact Or.inr (Or.inr (collected.outside before i))
    · by_cases same : m = i
      · subst same
        rcases accessors j c at_j with gets | sets
        · exact Or.inr (Or.inl gets.reads)
        · exact Or.inl sets
      · -- the scope of another round stands below the scope of the loop
        have known' := collected.cells m _ (List.getElem?_eq_getElem hm)
        refine Or.inr (Or.inr (.child ?_ ?_ (collected.outside there i)))
        · exact fun h => same (Nat.add_left_cancel (ScopeId.mk.inj h))
        · rw [ScopeStore.parent?_eq, known']
          rfl

theorem Collected.register {setters : Nat → Prop} (collected : Collected cs x scope vs s t)
    (sound : s.Sound) (there : scope.index < s.scopes.scopes.size) (at_i : vs[i]? = some v)
    (at_j : cs[j]? = some c) (gets : c.literal.Gets x)
    (accessors : ∀ j c, cs[j]? = some c → c.literal.Gets x ∨ setters (s.captureNumber cs j i))
    (setter : ∀ k, setters k → ∃ j c, cs[j]? = some c ∧ c.literal.Sets x ∧
      k = s.captureNumber cs j i) :
    t.Register x ⟨s.scopes.scopes.size + i⟩ (s.captureNumber cs j i) setters v := by
  obtain ⟨inside, -⟩ := List.getElem?_eq_some_iff.mp at_i
  refine {
    sealed := collected.sealed sound there inside accessors
    holds := ?_
    getter := ⟨c.literal, gets, collected.captured i j c inside at_j⟩
    setter := fun k hk => ?_ }
  · rw [ScopeStore.local?_of_single (collected.cells i v at_i), if_pos rfl]
  · obtain ⟨m, d, at_m, sets, rfl⟩ := setter k hk
    exact ⟨d.literal, sets, collected.captured i m d inside at_m⟩

end Rounds

/-! ## Calls one after the other -/

/-- Calls functions one after the other and yields what they yield. -/
def Exec.callInTurn : List (FunctionRef × List Value) → Exec Raise (List Value)
  | [] => pure []
  | (f, args) :: rest => do
    let v ← call f args
    let vs ← callInTurn rest
    pure (v :: vs)

/-- A call of the getter or of the setter of a round. -/
inductive Access where
  | get (round : Nat) (args : List Value)
  | set (round : Nat) (args : List Value)

namespace Access

/-- The round whose function is called. -/
def round : Access → Nat
  | get i _ | set i _ => i

/-- The call, given which functions are the getters and setters of the rounds. -/
def call (getter setter : Nat → FunctionRef) : Access → FunctionRef × List Value
  | get i args => (getter i, args)
  | set i args => (setter i, args)

/-- The value that the setter of a round is given. -/
def given? (i : Nat) : Access → Option Value
  | get .. => none
  | set j args => if j = i then some (firstArgument args) else none

/-- The value that the setter of a round has been given last. -/
def lastGiven? (i : Nat) (accesses : List Access) : Option Value :=
  (accesses.filterMap (given? i)).getLast?

theorem lastGiven?_cons (i : Nat) (a : Access) (rest : List Access) :
    lastGiven? i (a :: rest) = (lastGiven? i rest).or (a.given? i) := by
  unfold lastGiven?
  rw [List.filterMap_cons]
  cases a.given? i with
  | none => simp
  | some v => cases rest.filterMap (given? i) <;> simp [List.getLast?_cons]

/-- What the rounds hold after a call. -/
def after (vs : List Value) : Access → List Value
  | get .. => vs
  | set i args => vs.set i (firstArgument args)

theorem getElem?_after (a : Access) (vs : List Value) (i : Nat) :
    (a.after vs)[i]? = vs[i]?.map fun v => (a.given? i).getD v := by
  cases a with
  | get j args => simp [after, given?]
  | set j args =>
      by_cases same : j = i
      · subst same
        rw [after, given?, if_pos rfl, List.getElem?_set_self']
        rfl
      · simp [after, given?, same]

end Access

/-- Every round of a loop holds its value. -/
def State.Rounds (x : Name) (cells : Nat → ScopeId) (g k : Nat → Nat) (t : State)
    (vs : List Value) : Prop :=
  ∀ (i : Nat) v, vs[i]? = some v → t.Round x (cells i) (g i) (· = k i) v

/-- Functions by their numbers. -/
def numbered (g : Nat → Nat) (name : String) (i : Nat) : FunctionRef := .closure (g i) name

section Accesses
variable {cells : Nat → ScopeId} {getters setters : Nat → Nat} {getName setName : String}

/-- A call of a getter or a setter reads or writes one round. -/
theorem State.Rounds.access (h : t.Rounds x cells getters setters vs)
    (apart : ∀ i j, cells i = cells j → i = j) (may : t.MayCall config) (a : Access)
    (inside : a.round < vs.length) : ∃ v u,
      Runs config (Exec.call (a.call (numbered getters getName) (numbered setters setName)).1
        (a.call (numbered getters getName) (numbered setters setName)).2) t (.ok v) u ∧
      u.Rounds x cells getters setters (a.after vs) ∧ u.MayCall config ∧
      ∀ i args, a = .get i args → vs[i]? = some v := by
  have known := List.getElem?_eq_getElem inside
  cases a with
  | get i args =>
      have round := h i _ known
      obtain ⟨literal, gets, captured⟩ := round.getter
      refine ⟨_, _, runs_getter gets captured round.holds may, fun j w at_j => ?_,
        ⟨may.1, may.2⟩, ?_⟩
      · have there := ScopeStore.lt_of_local? (h j w at_j).holds
        exact (h j w at_j).of_same (scope?_framed there) fun _ _ known => known
      · rintro _ _ ⟨⟩
        exact known
  | set i args =>
      obtain ⟨u, run, round, closures, may', others⟩ :=
        (h i _ known).exists_set rfl may setName args
      refine ⟨_, u, run, fun j w at_j => ?_, may', by simp⟩
      rw [Access.getElem?_after, Option.map_eq_some_iff] at at_j
      obtain ⟨old, at_j, rfl⟩ := at_j
      by_cases same : i = j
      · subst same
        rw [Access.given?, if_pos rfl, Option.getD_some]
        exact round
      · have there := ScopeStore.lt_of_local? (h j old at_j).holds
        rw [Access.given?, if_neg same, Option.getD_none]
        refine (h j old at_j).of_same (others (cells j) ?_ there) fun k c known => ?_
        · exact fun equal => same (apart j i equal).symm
        · rw [closures, known]

/-- **Getters and setters of several rounds do not interfere.** Whatever is called in turn, a getter
yields what the setter of its round was given last, or what the round has held at first. -/
theorem State.Rounds.accesses (h : t.Rounds x cells getters setters vs)
    (apart : ∀ i j, cells i = cells j → i = j) (may : t.MayCall config) (accesses : List Access)
    (inside : ∀ a ∈ accesses, a.round < vs.length) : ∃ results u,
      Runs config (Exec.callInTurn (accesses.map
        (Access.call (numbered getters getName) (numbered setters setName)))) t (.ok results) u ∧
      ∀ (m i : Nat) args v, accesses[m]? = some (.get i args) → vs[i]? = some v →
        results[m]? = some ((Access.lastGiven? i (accesses.take m)).getD v) := by
  induction accesses generalizing t vs with
  | nil => exact ⟨[], t, runs_pure_iff.mpr ⟨rfl, rfl⟩, by simp⟩
  | cons a rest ih =>
      obtain ⟨here, inside⟩ := List.forall_mem_cons.mp inside
      obtain ⟨v, u, first, rounds, may', reads⟩ := h.access apart may a here
      have length : (a.after vs).length = vs.length := by
        cases a <;> simp [Access.after]
      obtain ⟨results, w, later, replies⟩ := ih rounds may' (by rwa [length])
      refine ⟨v :: results, w, ?_, fun m i args old at_m at_i => ?_⟩
      · refine (runs_bind_of_ok first).mpr ((runs_bind_of_ok later).mpr ?_)
        exact runs_pure_iff.mpr ⟨rfl, rfl⟩
      · cases m with
        | zero =>
            have same := reads i args (Option.some.inj at_m)
            obtain rfl := Option.some.inj (same.symm.trans at_i)
            rfl
        | succ m =>
            have known : (a.after vs)[i]? = some ((a.given? i).getD old) := by
              rw [Access.getElem?_after, at_i, Option.map_some]
            rw [List.getElem?_cons_succ, replies m i args _ at_m known, List.take_succ_cons,
              Access.lastGiven?_cons]
            cases Access.lastGiven? i (rest.take m) <;> rfl

end Accesses

/-! ## The statement -/

/-- The functions with one name, in the order of their rounds. -/
def functionList (g : Nat → Nat) (name : String) (count : Nat) : Value :=
  .list ((List.range count).map fun i => .function (numbered g name i))

/-- A loop over the values has collected getters, and has changed scopes and functions only. The
scopes that there were before it are outside of those of its rounds. -/
structure KeepsElements (config : Config) (gets : Collector) (scope : ScopeId) (vs : List Value)
    (s t : State) (g : Nat → Nat) : Prop where
  rest : t = { s with scopes := t.scopes, closures := t.closures }
  list : t.scopes.get? scope gets.list = some (functionList g gets.literal.name vs.length)
  /-- Whatever is run outside of the scope of a round, its getter yields the element. -/
  yields : ∀ (i : Nat) v, vs[i]? = some v → ∃ cell,
    (∀ d, d.index < s.scopes.scopes.size → t.scopes.Outside cell d) ∧
    ∀ w, t.Later config cell (fun _ => False) w → w.Yields config (g i) v

/-- A loop over the values has collected getters and setters. -/
structure KeepsGiven (config : Config) (gets sets : Collector) (scope : ScopeId) (vs : List Value)
    (s t : State) (g k : Nat → Nat) : Prop where
  rest : t = { s with scopes := t.scopes, closures := t.closures }
  getters : t.scopes.get? scope gets.list = some (functionList g gets.literal.name vs.length)
  setters : t.scopes.get? scope sets.list = some (functionList k sets.literal.name vs.length)
  /-- Whatever is run outside of the scope of a round, its getter yields what its setter was given
  last, and the element until then. -/
  yields : ∀ (i : Nat) v, vs[i]? = some v → ∃ cell,
    (∀ d, d.index < s.scopes.scopes.size → t.scopes.Outside cell d) ∧
    ∀ w a, t.Given config cell (· = k i) v w a → w.Yields config (g i) a
  /-- Calls of getters and setters in turn come to an end, and each getter yields what the setter of
  its round was given last, and the element until then. -/
  accesses : ∀ w, w.scopes = t.scopes → w.closures = t.closures → w.MayCall config →
    ∀ accesses : List Access, (∀ a ∈ accesses, a.round < vs.length) → ∃ results w',
      Runs config (Exec.callInTurn (accesses.map (Access.call (numbered g gets.literal.name)
        (numbered k sets.literal.name)))) w (.ok results) w' ∧
      ∀ (m i : Nat) args v, accesses[m]? = some (.get i args) → vs[i]? = some v →
        results[m]? = some ((Access.lastGiven? i (accesses.take m)).getD v)

section Statement
variable {gets sets : Collector}

theorem Collected.keepsElements (collected : Collected [gets] x scope vs u t) (sound : u.Sound)
    (there : scope.index < u.scopes.scopes.size) (getter : gets.literal.Gets x)
    (empty : u.scopes.get? scope gets.list = some (.list [])) :
    KeepsElements config gets scope vs u t (u.captureNumber [gets] 0) where
  rest := collected.rest
  list := collected.lists 0 gets [] rfl empty
  yields i v at_i := by
    refine ⟨⟨u.scopes.scopes.size + i⟩, fun d old => collected.outside old i, fun w later => ?_⟩
    -- there is no setter in this loop
    have register : t.Register x ⟨u.scopes.scopes.size + i⟩ (u.captureNumber [gets] 0 i)
        (fun _ => False) v := by
      refine collected.register sound there at_i rfl getter (fun j c at_j => ?_) (by simp)
      obtain rfl := List.mem_singleton.mp (List.mem_of_getElem? at_j)
      exact Or.inl getter
    exact (register.later later).yields

theorem Collected.registerGiven {i : Nat} (collected : Collected [gets, sets] x scope vs u t)
    (sound : u.Sound) (there : scope.index < u.scopes.scopes.size) (getter : gets.literal.Gets x)
    (setter : sets.literal.Sets x) (at_i : vs[i]? = some v) :
    t.Register x ⟨u.scopes.scopes.size + i⟩ (u.captureNumber [gets, sets] 0 i)
      (· = u.captureNumber [gets, sets] 1 i) v := by
  refine collected.register sound there at_i rfl getter (fun j c at_j => ?_) ?_
  · match j, at_j with
    | 0, at_j => exact Or.inl (Option.some.inj at_j ▸ getter)
    | 1, _ => exact Or.inr rfl
  · rintro _ rfl
    exact ⟨1, sets, rfl, setter, rfl⟩

theorem Collected.keepsGiven (collected : Collected [gets, sets] x scope vs u t) (sound : u.Sound)
    (there : scope.index < u.scopes.scopes.size) (getter : gets.literal.Gets x)
    (setter : sets.literal.Sets x) (empty : u.scopes.get? scope gets.list = some (.list []))
    (empty' : u.scopes.get? scope sets.list = some (.list [])) :
    KeepsGiven config gets sets scope vs u t (u.captureNumber [gets, sets] 0)
      (u.captureNumber [gets, sets] 1) where
  rest := collected.rest
  getters := collected.lists 0 gets [] rfl empty
  setters := collected.lists 1 sets [] rfl empty'
  yields i v at_i := by
    refine ⟨⟨u.scopes.scopes.size + i⟩, fun d old => collected.outside old i, fun w a given => ?_⟩
    exact ((collected.registerGiven sound there getter setter at_i).given given).yields
  accesses w scopes closures may accesses inside := by
    have rounds : w.Rounds x (fun i => ⟨u.scopes.scopes.size + i⟩)
        (u.captureNumber [gets, sets] 0) (u.captureNumber [gets, sets] 1) vs := by
      intro i v at_i
      have register := collected.registerGiven sound there getter setter at_i
      refine register.of_same (by rw [scopes]) fun k c known => ?_
      rw [closures, known]
    refine rounds.accesses (fun i j same => ?_) may accesses inside
    exact Nat.add_left_cancel (ScopeId.mk.inj same)

/-- **Functions that are captured in a loop over a list keep their own iteration.** A loop whose
body collects getters of the loop variable leaves a list of as many functions as there are elements.
Each of them yields the element of its round, whenever it is called and whatever is run meanwhile.
If the body collects setters as well, then each getter yields what the setter of its round was given
last, in every sequence of calls and whatever else is run meanwhile: iterations do not interfere. -/
theorem closures_keep_iterations (config : Config) (p : Position) {e : Expr} (cx : Context)
    (sound : s.Sound) (there : scope.index < s.scopes.scopes.size)
    (evaluated : Runs config (Exec.evaluate e scope) s (.ok (.list vs)) u)
    (awake : u.stopRequested = false) (getter : gets.literal.Gets x) (apart : gets.list ≠ x)
    (empty : u.scopes.get? scope gets.list = some (.list [])) :
    (∃ t g, Runs config (Exec.execute ⟨p, .forIn [x] e [gets.stmt]⟩ scope cx) s (.ok .empty) t ∧
      KeepsElements config gets scope vs u t g) ∧
    ∀ sets : Collector, sets.literal.Sets x → sets.list ≠ x → sets.list ≠ gets.list →
      u.scopes.get? scope sets.list = some (.list []) →
      ∃ t g k, Runs config (Exec.execute ⟨p, .forIn [x] e [gets.stmt, sets.stmt]⟩ scope cx) s
          (.ok .empty) t ∧ KeepsGiven config gets sets scope vs u t g k := by
  have sound' : u.Sound := sound.evaluate there evaluated
  have there' : scope.index < u.scopes.scopes.size := (kept_of_answer evaluated).scopes.lt there
  constructor
  · obtain ⟨t, run, collected⟩ : ∃ t,
        Runs config (Exec.execute ⟨p, .forIn [x] e ([gets].map Collector.stmt)⟩ scope cx) s
          (.ok .empty) t ∧ Collected [gets] x scope vs u t :=
      runs_collectingLoop evaluated there' awake (by simp) (by simpa using apart)
        (by simpa using ⟨[], empty⟩)
    exact ⟨t, _, run, collected.keepsElements sound' there' getter empty⟩
  · intro sets setter apart' different empty'
    obtain ⟨t, run, collected⟩ : ∃ t,
        Runs config (Exec.execute ⟨p, .forIn [x] e ([gets, sets].map Collector.stmt)⟩ scope cx) s
          (.ok .empty) t ∧ Collected [gets, sets] x scope vs u t :=
      runs_collectingLoop evaluated there' awake (by simpa using different.symm)
        (by simpa using ⟨apart, apart'⟩) (by simpa using ⟨⟨[], empty⟩, ⟨[], empty'⟩⟩)
    exact ⟨t, _, _, run, collected.keepsGiven sound' there' getter setter empty empty'⟩

end Statement

/-! ## Two rounds -/

/-- Two variables that hold empty lists. -/
def emptyLists : State :=
  { State.initial .deferred .log with
    scopes := ((ScopeStore.empty.add none).define ⟨0⟩ "gets" (.list [])).define ⟨0⟩ "sets"
      (.list []) }

/-- Adds a getter of the loop variable to one of the lists. -/
def getCollector : Collector :=
  ⟨⟨2, 3⟩, ⟨2, 3⟩, "gets", ⟨"func", [], [⟨⟨2, 26⟩, .returnValues [.variable "x"]⟩]⟩⟩

/-- Adds a setter of the loop variable to the other one. -/
def setCollector : Collector :=
  ⟨⟨3, 3⟩, ⟨3, 3⟩, "sets",
    ⟨"func", ["y"], [⟨⟨3, 27⟩, .assign [.variable ⟨3, 27⟩ "x"] .assign [.variable "y"]⟩]⟩⟩

/-- The setter of the first round is called, and then both getters. -/
theorem closures_keep_iterations_of_two :
    emptyLists.Sound ∧ (⟨0⟩ : ScopeId).index < emptyLists.scopes.scopes.size ∧
    Runs .standard (Exec.evaluate (.literal (.list [.int 1, .int 2])) ⟨0⟩) emptyLists
      (.ok (.list [.int 1, .int 2])) emptyLists ∧
    emptyLists.stopRequested = false ∧
    getCollector.literal.Gets "x" ∧ getCollector.list ≠ "x" ∧
    emptyLists.scopes.get? ⟨0⟩ getCollector.list = some (.list []) ∧
    setCollector.literal.Sets "x" ∧ setCollector.list ≠ "x" ∧
    setCollector.list ≠ getCollector.list ∧
    emptyLists.scopes.get? ⟨0⟩ setCollector.list = some (.list []) ∧
    ∃ t g k results w,
      Runs .standard (Exec.execute ⟨⟨1, 1⟩, .forIn ["x"] (.literal (.list [.int 1, .int 2]))
        [getCollector.stmt, setCollector.stmt]⟩ ⟨0⟩ .function) emptyLists (.ok .empty) t ∧
      KeepsGiven .standard getCollector setCollector ⟨0⟩ [.int 1, .int 2] emptyLists t g k ∧
      Runs .standard (Exec.callInTurn ([.set 0 [.int 7], .get 0 [], .get 1 []].map
        (Access.call (numbered g "func") (numbered k "func")))) t (.ok results) w ∧
      results[1]? = some (.int 7) ∧ results[2]? = some (.int 2) := by
  have sound : emptyLists.Sound := State.sound_of_empty rfl rfl
  have there : (⟨0⟩ : ScopeId).index < emptyLists.scopes.scopes.size := by decide
  have evaluated : Runs .standard (Exec.evaluate (.literal (.list [.int 1, .int 2])) ⟨0⟩)
      emptyLists (.ok (.list [.int 1, .int 2])) emptyLists := asks_literal.runs
  have getter : getCollector.literal.Gets "x" := .intro ..
  have setter : setCollector.literal.Sets "x" := .intro _ _ _ _ (by decide)
  have loop := closures_keep_iterations .standard ⟨1, 1⟩ .function sound there evaluated rfl getter
    (by decide) rfl
  obtain ⟨t, g, k, run, keeps⟩ := loop.2 setCollector setter (by decide) (by decide) rfl
  have start : emptyLists.MayCall .standard := ⟨rfl, by decide⟩
  have may : t.MayCall .standard := by
    rw [keeps.rest]
    exact ⟨start.awake, start.below⟩
  obtain ⟨results, w, calls, replies⟩ := keeps.accesses t rfl rfl may
    [.set 0 [.int 7], .get 0 [], .get 1 []] (by decide)
  refine ⟨sound, there, evaluated, rfl, getter, by decide, rfl, setter, by decide, by decide, rfl,
    t, g, k, results, w, run, keeps, calls, ?_, ?_⟩
  · exact replies 1 0 [] (.int 1) rfl rfl
  · exact replies 2 1 [] (.int 2) rfl rfl

end StatementEngine
