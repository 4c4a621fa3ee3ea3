import StatementEngine.Proofs.Contract.Keeping
import StatementEngine.Proofs.DepthLimit
import StatementEngine.Proofs.Scope.Lookup

/-!
# Scopes that only functions can get at

**A scope changes only through what stands in it or below it.** Statements see the scopes above
their own. So if nothing is run at or below a scope, except for functions that have been captured
there, then it depends on these functions alone what becomes of it. It is sealed (`State.Sealed`) if
each of them only reads a variable; some may be barred, which means that they are not called.

A sealed scope stays as it is, at the end of whatever is run outside of it and on the way there, as
long as no barred function is called (`State.Later.sealed`). That is one contract (`sealing`), which
every body keeps that is not a call of a barred function (`sealing_ensures`).
-/

namespace StatementEngine

/-! ## Outside of a scope -/

namespace ScopeStore

variable {store t : ScopeStore} {cell d e p : ScopeId} {n : Name}

/-- The scope is in the store, and neither it nor a scope above it is the given one. -/
inductive Outside (store : ScopeStore) (cell : ScopeId) : ScopeId → Prop
  | root {d : ScopeId} (there : d.index < store.scopes.size) (other : d ≠ cell)
      (top : store.parent? d = none) : Outside store cell d
  | child {d p : ScopeId} (other : d ≠ cell) (above : store.parent? d = some p)
      (outside : Outside store cell p) : Outside store cell d

theorem lt_of_parent?_some (above : store.parent? d = some p) : d.index < store.scopes.size := by
  obtain ⟨c, there, -⟩ := Option.bind_eq_some_iff.mp above
  exact (Array.getElem?_eq_some_iff.mp there).1

namespace Outside

theorem there (h : store.Outside cell d) : d.index < store.scopes.size := by
  cases h with
  | root there _ _ => exact there
  | child _ above _ => exact lt_of_parent?_some above

theorem ne (h : store.Outside cell d) : d ≠ cell := by
  cases h with
  | root _ other _ | child other _ _ => exact other

/-- A scope that was there before the given one is outside of it. -/
theorem of_lt (there : d.index < store.scopes.size) (before : d.index < cell.index) :
    store.Outside cell d := by
  have other : d ≠ cell := fun same => Nat.lt_irrefl _ (same ▸ before)
  induction d using store.wellFounded_parent.induction with
  | _ d ih =>
    cases above : store.parent? d with
    | none => exact .root there other above
    | some p =>
        have lt := lt_of_parent? above
        have before' : p.index < cell.index := Nat.lt_trans lt before
        refine .child other above (ih p above (Nat.lt_trans lt there) before' ?_)
        exact fun same => Nat.lt_irrefl _ (same ▸ before')

/-- Names are found outside if they are looked for outside. -/
theorem definer? (h : store.Outside cell d) (found : store.definer? d n = some e) :
    store.Outside cell e := by
  obtain ⟨path, -⟩ := definer?_eq_some_iff.mp found
  clear found
  induction path with
  | here => exact h
  | up _ above _ ih =>
      cases h with
      | root _ _ top => simp [top] at above
      | child _ above' outside =>
          obtain rfl := Option.some.inj (above'.symm.trans above)
          exact ih outside

/-- What is outside stays outside when the scopes grow. -/
theorem grows {may : ScopeId → Name → Prop} (h : store.Outside cell d) (grows : store.Grows may t) :
    t.Outside cell d := by
  have kept : ∀ {d}, d.index < store.scopes.size → t.parent? d = store.parent? d := by
    intro d there
    obtain ⟨a, known⟩ := scope?_of_lt there
    obtain ⟨b, known', grown⟩ := grows d a known
    rw [parent?_eq, parent?_eq, known, known']
    exact grown.parent
  induction h with
  | root there other top => exact .root (grows.lt there) other ((kept there).trans top)
  | child other above _ ih =>
      exact .child other ((kept (lt_of_parent?_some above)).trans above) ih

theorem add (h : store.Outside cell d) (parent : Option ScopeId) :
    (store.add parent).Outside cell d := by
  have grown : store.Grows (fun _ _ => True) (store.add parent) := .add (.refl store) parent
  exact h.grows grown

theorem define (h : store.Outside cell d) (e : ScopeId) (n : Name) (v : Value) :
    (store.define e n v).Outside cell d := by
  have grown : store.Grows (fun _ _ => True) (store.define e n v) :=
    .define (.refl store) fun _ _ _ => Or.inr trivial
  exact h.grows grown

/-- A new scope below a scope that is outside is outside as well. -/
theorem next (h : store.Outside cell p) (there : cell.index < store.scopes.size) :
    (store.add (some p)).Outside cell store.next := by
  refine .child ?_ ?_ (h.add (some p))
  · rintro rfl
    exact Nat.lt_irrefl _ there
  · rw [parent?_eq, scope?_add, if_pos rfl]
    simp [h.there]

end Outside

end ScopeStore

/-! ## Sealed scopes -/

/-- The function returns the value of a variable and does nothing else. -/
def FunctionLiteral.Reads (literal : FunctionLiteral) : Prop :=
  ∃ p x, literal.body = [⟨p, .returnValues [.variable x]⟩]

/-- The scope is as it was in the first state, and what can get at it are functions that only read a
variable, and barred ones. The functions of the first state are still there. -/
structure Sealed (cell : ScopeId) (barred : Nat → Prop) (s : State) (scopes : ScopeStore)
    (closures : Array Closure) : Prop where
  there : cell.index < scopes.scopes.size
  same : scopes.scope? cell = s.scopes.scope? cell
  kept : ∀ (k : Nat) c, s.closures[k]? = some c → closures[k]? = some c
  captured : ∀ (k : Nat) c, closures[k]? = some c →
    barred k ∨ c.literal.Reads ∨ scopes.Outside cell c.scope

/-- Since the first state the scope has been sealed. -/
def State.Sealed (cell : ScopeId) (barred : Nat → Prop) (s t : State) : Prop :=
  StatementEngine.Sealed cell barred s t.scopes t.closures

namespace Sealed

variable {cell d : ScopeId} {barred : Nat → Prop} {s : State} {scopes : ScopeStore}
  {closures : Array Closure} {n : Name} {v : Value}

theorem add (h : Sealed cell barred s scopes closures) (p : Option ScopeId) :
    Sealed cell barred s (scopes.add p) closures where
  there := by
    rw [ScopeStore.size_add]
    exact Nat.lt_succ_of_lt h.there
  same := by
    rw [ScopeStore.scope?_add, if_neg, h.same]
    rintro rfl
    exact Nat.lt_irrefl _ h.there
  kept := h.kept
  captured k c known :=
    (h.captured k c known).imp_right (Or.imp_right fun outside => outside.add p)

theorem define (h : Sealed cell barred s scopes closures) (other : d ≠ cell) :
    Sealed cell barred s (scopes.define d n v) closures where
  there := by
    rw [ScopeStore.size_define]
    exact h.there
  same := by rw [ScopeStore.scope?_define, if_neg other, h.same]
  kept := h.kept
  captured k c known :=
    (h.captured k c known).imp_right (Or.imp_right fun outside => outside.define d n v)

theorem capture (h : Sealed cell barred s scopes closures) (literal : FunctionLiteral)
    (outside : scopes.Outside cell d) :
    Sealed cell barred s scopes (closures.push ⟨literal, d⟩) where
  there := h.there
  same := h.same
  kept k c known := by
    have known := h.kept k c known
    obtain ⟨inside, -⟩ := Array.getElem?_eq_some_iff.mp known
    rw [Array.getElem?_push_lt inside, ← Array.getElem?_eq_getElem inside, known]
  captured k c known := by
    rw [Array.getElem?_push] at known
    split at known
    · cases known
      exact Or.inr (Or.inr outside)
    · exact h.captured k c known

end Sealed

/-- What has been sealed since a state is sealed from now on. -/
theorem State.Sealed.rebase {cell : ScopeId} {barred : Nat → Prop} {s t : State}
    (h : s.Sealed cell barred t) : t.Sealed cell barred t :=
  ⟨h.there, rfl, fun _ _ known => known, h.captured⟩

/-- A sealed scope may be changed and is sealed again, if functions are not captured meanwhile. -/
theorem State.Sealed.of_grows {cell : ScopeId} {barred : Nat → Prop}
    {may : ScopeId → Name → Prop} {s t : State} (h : s.Sealed cell barred s)
    (grows : s.scopes.Grows may t.scopes) (closures : t.closures = s.closures) :
    t.Sealed cell barred t where
  there := grows.lt h.there
  same := rfl
  kept _ _ known := known
  captured k c known := by
    rw [closures] at known
    exact (h.captured k c known).imp_right (Or.imp_right fun outside => outside.grows grows)

/-! ## The contract -/

/-- The question is asked in a scope of a kind, if it is asked in one. -/
def Request.In (kind : ScopeId → Prop) : Request → Prop
  | .evaluate _ d | .execute _ d _ | .block _ d _ => kind d
  | .iterate loop => kind loop.scope
  | .call .. | .work _ | .drain _ | .await _ => True

/-- The question comes up when the value of a variable is returned. -/
inductive Request.Reads : Request → Prop
  | evaluate (x : Name) (d : ScopeId) : Reads (.evaluate (.variable x) d)
  | execute (p : Position) (x : Name) (d : ScopeId) (cx : Context) :
      Reads (.execute ⟨p, .returnValues [.variable x]⟩ d cx)
  | block (p : Position) (x : Name) (d : ScopeId) (cx : Context) :
      Reads (.block [⟨p, .returnValues [.variable x]⟩] d cx)

/-- The question is a call of one of the functions. -/
def Request.Calls (these : Nat → Prop) : Request → Prop
  | .call (.closure k _) _ => these k
  | _ => False

variable {cell : ScopeId} {barred : Nat → Prop} {s t u : State} {config : Config}

/-- The scope is sealed, and some scopes are outside of it. -/
def State.SealedFrom (cell : ScopeId) (barred : Nat → Prop) (s : State) (among : ScopeId → Prop)
    (t : State) : Prop :=
  s.Sealed cell barred t ∧ ∀ d, among d → t.scopes.Outside cell d

/-- A sealed scope stays sealed, and what is outside of it stays outside. Whatever is asked is asked
outside, or it only reads a variable. -/
def sealing (cell : ScopeId) (barred : Nat → Prop) (s : State) : Contract where
  requires q t := s.Sealed cell barred t ∧ (q.In (t.scopes.Outside cell) ∨ q.Reads)
  promises _ t _ u :=
    s.Sealed cell barred u ∧ ∀ d, t.scopes.Outside cell d → u.scopes.Outside cell d

section Contract
variable {among : ScopeId → Prop} {scope : ScopeId}

theorem steady_sealedFrom : Steady (s.SealedFrom cell barred among) where
  register _ _ h := h
  schedule _ _ _ h := h
  tell _ _ h := h
  record _ _ h := h
  hold _ _ h := h
  note _ _ h := h

theorem State.SealedFrom.newChild (h : s.SealedFrom cell barred among t) (scope : ScopeId) :
    s.SealedFrom cell barred among (t.newChild scope).2 :=
  ⟨h.1.add _, fun d hd => (h.2 d hd).add _⟩

theorem State.SealedFrom.define {d : ScopeId} (h : s.SealedFrom cell barred among t)
    (other : d ≠ cell) (n : Name) (v : Value) :
    s.SealedFrom cell barred among { t with scopes := t.scopes.define d n v } :=
  ⟨h.1.define other, fun e he => (h.2 e he).define d n v⟩

theorem State.SealedFrom.defineAll {d : ScopeId} (h : s.SealedFrom cell barred among t)
    (other : d ≠ cell) (bindings : List (Name × Value)) :
    s.SealedFrom cell barred among { t with scopes := t.scopes.defineAll d bindings } := by
  induction bindings generalizing t with
  | nil => exact h
  | cons b rest ih => exact ih (h.define other b.1 b.2)

/-- A call makes a new scope. It is outside if the function has been captured outside. -/
theorem State.SealedFrom.framed (h : s.SealedFrom cell barred among t) (c : Closure)
    (args : List Value) :
    s.SealedFrom cell barred (fun d => among d ∨ t.scopes.Outside cell c.scope ∧ d = t.scopes.next)
      (t.framed c args) := by
  have made : s.SealedFrom cell barred
      (fun d => among d ∨ t.scopes.Outside cell c.scope ∧ d = t.scopes.next)
      (t.newChild c.scope).2 := by
    refine ⟨h.1.add _, fun d hd => ?_⟩
    rcases hd with hd | ⟨outside, rfl⟩
    · exact (h.2 d hd).add _
    · exact outside.next h.1.there
  have other : t.scopes.next ≠ cell := by
    rintro rfl
    exact Nat.lt_irrefl _ h.1.there
  exact made.defineAll other _

/-- What is done in a scope that is outside of a sealed one keeps it sealed. -/
theorem stableAt_sealedFrom (outside : among scope) : StableAt (s.SealedFrom cell barred among)
    scope fun child => s.SealedFrom cell barred fun d => among d ∨ d = child where
  toSteady := steady_sealedFrom
  steady _ := steady_sealedFrom
  newChild t h := by
    have later := h.newChild scope
    refine ⟨later.1, fun d hd => ?_⟩
    rcases hd with hd | rfl
    · exact later.2 d hd
    · exact (h.2 scope outside).next h.1.there
  outer _ _ h := ⟨h.1, fun d hd => h.2 d (Or.inl hd)⟩
  bind child _ n v h := h.define (h.2 child (Or.inr rfl)).ne n v
  overwrite _ n d v found h := h.define ((h.2 scope outside).definer? found).ne n v

/-- A question may be asked outside of a sealed scope, and anywhere if it only reads a variable. -/
theorem sealing_lets {q : Request} (place : q.In among ∨ q.Reads) :
    (sealing cell barred s).Lets (s.SealedFrom cell barred among) q := by
  intro t ht
  refine ⟨⟨ht.1, place.imp_left fun inside => ?_⟩, fun _ u hu => ⟨⟨hu.1, fun d hd => ?_⟩, trivial⟩⟩
  · cases q with
    | evaluate e d | execute stmt d cx | block body d cx => exact ht.2 d inside
    | iterate loop => exact ht.2 loop.scope inside
    | call | work | drain | await => trivial
  · exact hu.2 d (ht.2 d hd)

/-- Returning the value of a variable changes nothing. -/
theorem keeps_returnVariable (p : Position) (x : Name) (d : ScopeId) (cx : Context) :
    Exec.Keeps (sealing cell barred s) (s.SealedFrom cell barred among)
      (Exec.executeBody ⟨p, .returnValues [.variable x]⟩ d cx) := by
  have form : Exec.Keeps (sealing cell barred s) (s.SealedFrom cell barred among)
      (Exec.runForm p (.returnValues [.variable x]) d cx) := by
    unfold Exec.runForm
    dsimp only
    split
    · refine Exec.meets_bind (Exec.meets_evaluateAll fun e he => ?_) fun _ _ =>
        Exec.meets_pure trivial
      obtain rfl := List.mem_singleton.mp he
      exact Exec.keeps_evaluate (sealing_lets (Or.inr (.evaluate x d)))
    · exact Exec.meets_raise trivial
  exact Exec.keeps_located form

/-- A function is called outside of a sealed scope, or it only reads a variable. -/
theorem ensures_callClosure {c : Closure} (h : s.SealedFrom cell barred among t)
    (harmless : c.literal.Reads ∨ t.scopes.Outside cell c.scope) (args : List Value) :
    Resumption.Ensures (sealing cell barred s).requires (sealing cell barred s).promises
      (Exec.callBlock config c.literal.body t.scopes.next (t.framed c args))
      fun _ u => s.SealedFrom cell barred among u := by
  have block : Request.In
        (fun d => among d ∨ t.scopes.Outside cell c.scope ∧ d = t.scopes.next)
        (.block c.literal.body t.scopes.next .function) ∨
      Request.Reads (.block c.literal.body t.scopes.next .function) := by
    rcases harmless with ⟨p, x, same⟩ | outside
    · rw [same]
      exact Or.inr (.block p x _ _)
    · exact Or.inl (Or.inr ⟨outside, rfl⟩)
  have keeps : Exec.Keeps (sealing cell barred s) (s.SealedFrom cell barred
        fun d => among d ∨ t.scopes.Outside cell c.scope ∧ d = t.scopes.next)
      (Exec.callBlock config c.literal.body t.scopes.next) :=
    Exec.keeps_callBlock (fun _ h _ => h) (fun _ h => h) (sealing_lets block)
  refine (keeps _ (h.framed c args)).mono fun _ u hu => ⟨hu.1.1, fun d hd => ?_⟩
  exact hu.1.2 d (Or.inl hd)

/-- A function that is not barred may be called. -/
theorem ensures_callBody {f : FunctionRef} {args : List Value}
    (h : s.SealedFrom cell barred among t) (allowed : ¬ Request.Calls barred (.call f args))
    (calls : ∀ f args, (sealing cell barred s).Lets (s.SealedFrom cell barred among) (.call f args))
    (drained : (sealing cell barred s).Lets (s.SealedFrom cell barred among) (.drain 0)) :
    Resumption.Ensures (sealing cell barred s).requires (sealing cell barred s).promises
      (Exec.callBody config f args t) fun _ u => s.SealedFrom cell barred among u := by
  have host : (∀ k name, f ≠ .closure k name) →
      Exec.Keeps (sealing cell barred s) (s.SealedFrom cell barred among)
        (Exec.callBody config f args) := by
    intro host
    refine Exec.meets_callHost (fun _ _ => trivial) (fun _ _ => ?_) (Exec.keeps_drain drained)
      steady_sealedFrom host
    exact Exec.meets_runHost (fun _ _ _ => trivial) fun g vs _ _ => Exec.keeps_call (calls g vs)
  cases f with
  | host | recorder | builtin => exact (host (by simp) t h).mono fun _ _ hu => hu.1
  | closure k name =>
      cases known : t.closures[k]? with
      | none =>
          show Resumption.Ensures _ _ ((Exec.read (fun u => u.closures[k]?) >>= _) t) _
          rw [Exec.bind_apply, Exec.read, known]
          exact h
      | some c =>
          rw [callBody_closure name args known]
          exact ensures_callClosure h ((h.1.captured k c known).resolve_left allowed) args

end Contract

/-- **Every body keeps a sealed scope sealed**, except for those of calls of barred functions. -/
theorem sealing_ensures {q : Request} (allowed : ¬ q.Calls barred)
    (required : (sealing cell barred s).requires q t) :
    Resumption.Ensures (sealing cell barred s).requires (sealing cell barred s).promises
      (Interpreter.bodies config q t) ((sealing cell barred s).promises q t) := by
  obtain ⟨ht, place⟩ := required
  have start : s.SealedFrom cell barred (t.scopes.Outside cell) t := ⟨ht, fun _ hd => hd⟩
  have close : ∀ {α ε : Type} {x : Exec ε α},
      Exec.Keeps (sealing cell barred s) (s.SealedFrom cell barred (t.scopes.Outside cell)) x →
      Resumption.Ensures (sealing cell barred s).requires (sealing cell barred s).promises (x t)
        fun _ u => s.SealedFrom cell barred (t.scopes.Outside cell) u :=
    fun h => (h t start).mono fun _ _ hu => hu.1
  have calls : ∀ f args, (sealing cell barred s).Lets
      (s.SealedFrom cell barred (t.scopes.Outside cell)) (.call f args) :=
    fun _ _ => sealing_lets (Or.inl trivial)
  have drained : (sealing cell barred s).Lets
      (s.SealedFrom cell barred (t.scopes.Outside cell)) (.drain 0) := sealing_lets (Or.inl trivial)
  rcases place with outside | reads
  · cases q with
    | evaluate e d =>
        refine close (Exec.keeps_evaluateBody (stableAt_sealedFrom outside) ?_ calls ?_)
        · exact fun _ _ => sealing_lets (Or.inl outside)
        · intro literal _ u hu
          exact ⟨hu.1.capture literal (hu.2 d outside), hu.2⟩
    | call f args => exact ensures_callBody start allowed calls drained
    | execute stmt d cx =>
        refine close (Exec.keepsAt_executeBody (stableAt_sealedFrom outside) ?_ ?_ ?_ ?_ ?_)
        · exact fun _ _ => sealing_lets (Or.inl outside)
        · exact fun _ _ _ => sealing_lets (Or.inl (Or.inr rfl))
        · exact fun _ _ _ => sealing_lets (Or.inl (Or.inr rfl))
        · exact fun _ _ _ _ =>
            ⟨sealing_lets (Or.inl outside), fun _ => sealing_lets (Or.inl (Or.inr rfl))⟩
        · exact fun n _ u v hu => hu.define (hu.2 d outside).ne n v
    | block body d cx =>
        exact close (Exec.keeps_blockBody fun _ _ => sealing_lets (Or.inl outside))
    | iterate loop =>
        refine close (Exec.keepsAt_iterateBody (stableAt_sealedFrom outside) ?_ ?_ ?_ ?_)
        · exact fun _ _ => sealing_lets (Or.inl outside)
        · exact fun _ _ => sealing_lets (Or.inl outside)
        · exact fun _ => sealing_lets (Or.inl (Or.inr rfl))
        · exact sealing_lets (Or.inl outside)
    | work w =>
        exact close (Exec.keeps_workBody steady_sealedFrom calls
          (fun _ => sealing_lets (Or.inl trivial)) drained)
    | drain ran =>
        refine Exec.ensures_drainBody steady_sealedFrom start (fun job => ?_)
          (sealing_lets (Or.inl trivial))
        exact Exec.meets_runJob steady_sealedFrom
          (J := s.SealedFrom cell barred (t.scopes.Outside cell))
          (Exec.keeps_doWork (sealing_lets (Or.inl trivial))) (fun _ hu => hu) fun _ _ _ hu => hu
    | await what => exact start
  · cases reads with
    | evaluate x d =>
        exact close (Exec.meets_mapError (Exec.meets_readVariable d x) fun _ _ => trivial)
    | execute p x d cx => exact close (keeps_returnVariable p x d cx)
    | block p x d cx =>
        refine close (Exec.keeps_blockBody fun stmt hstmt => sealing_lets (Or.inr ?_))
        obtain rfl := List.mem_singleton.mp hstmt
        exact .execute p x d cx

/-! ## Later states -/

/-- A state that comes after the first one. What has been run meanwhile has been run outside of a
scope and without calls of barred functions: to its end, or up to one of the questions that it comes
to. Apart from scopes and functions the host may have changed anything. -/
inductive State.Later (config : Config) (cell : ScopeId) (barred : Nat → Prop) (s : State) :
    State → Prop
  | here : Later config cell barred s s
  | elsewhere {t u : State} (later : Later config cell barred s t) (scopes : u.scopes = t.scopes)
      (closures : u.closures = t.closures) : Later config cell barred s u
  | ended {t u : State} {q : Request} {asked : List (Request × State)} {a : Answer q}
      (later : Later config cell barred s t) (outside : q.In (t.scopes.Outside cell))
      (run : Resumption.Traces (Interpreter.bodies config) (.ask q t .done) asked a u)
      (allowed : ∀ p ∈ asked, ¬ p.1.Calls barred) : Later config cell barred s u
  | reached {t u : State} {q r : Request} {before : List (Request × State)}
      (later : Later config cell barred s t) (outside : q.In (t.scopes.Outside cell))
      (reached : Resumption.Reaches (Interpreter.bodies config) (fun _ => True)
        (.ask q t .done : Asking (Answer q)) before r u)
      (allowed : ∀ p ∈ before, ¬ p.1.Calls barred) : Later config cell barred s u

/-- **A sealed scope stays as it is**, however long one waits. -/
theorem State.Later.sealed (later : State.Later config cell barred s t)
    (start : s.Sealed cell barred s) : s.Sealed cell barred t := by
  have asking : ∀ {q : Request} {u : State}, s.Sealed cell barred u →
      q.In (u.scopes.Outside cell) →
      Resumption.Ensures (sealing cell barred s).requires (sealing cell barred s).promises
        (.ask q u .done : Asking (Answer q)) fun _ w => s.Sealed cell barred w :=
    fun sealed outside => ⟨⟨sealed, Or.inl outside⟩, fun _ _ promised => promised.1⟩
  have each : ∀ q u, (sealing cell barred s).requires q u → ¬ q.Calls barred →
      Resumption.Ensures (sealing cell barred s).requires (sealing cell barred s).promises
        (Interpreter.bodies config q u) ((sealing cell barred s).promises q u) :=
    fun _ _ required allowed => sealing_ensures allowed required
  induction later with
  | here => exact start
  | elsewhere _ scopes closures ih =>
      unfold State.Sealed
      rw [scopes, closures]
      exact ih
  | ended _ outside run allowed ih => exact run.ensures_of_fit each allowed (asking ih outside)
  | reached _ outside reached allowed ih =>
      exact (reached.asked_of_fit each allowed (asking ih outside)).1

end StatementEngine
