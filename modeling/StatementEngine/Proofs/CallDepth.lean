import Mathlib.Logic.Relation
import StatementEngine.Proofs.Contract.Keeping
import StatementEngine.Proofs.Run.Asked
import StatementEngine.Proofs.Run.Reached
import StatementEngine.Session.Entries

/-!
# The call depth

**Every call that is entered is left.** A question is answered at the call depth at which it is
asked, whatever comes in between: returns, throws, errors that unwind through many calls, tasks that
fail. So the depth after a run is the one before it (`Exec.Balanced`).

* `depths` is the contract behind this. It is about the depths at which questions may be asked, so
  it also bounds them: only an entry goes deeper, and a limit refuses it in time.
* `Exec.EntersUnlessRefused` says what a limit does to an entry: it is refused exactly at the limit
  and above it, and then nothing else happens.
* `Entries.Reachable` is about guards that are held by hand. The depth counts them, in whatever
  order they are dropped, so a guard is never dropped at depth zero.

The main result is `callDepth_balanced`.
-/

namespace StatementEngine

/-- Questions are asked at allowed depths, and each is answered at the depth at which it is
asked. -/
def depths (allowed : Nat → Prop) : Contract where
  requires _ s := allowed s.callDepth
  promises _ s _ t := t.callDepth = s.callDepth

/-- So many calls are entered, and that is allowed. -/
def State.AtDepth (allowed : Nat → Prop) (depth : Nat) (s : State) : Prop :=
  s.callDepth = depth ∧ allowed depth

variable {config : Config} {allowed : Nat → Prop} {depth : Nat} {s t : State} {ε α : Type}

theorem stable_atDepth : Stable (State.AtDepth allowed depth) fun _ => True where
  newChild _ _ h := ⟨h, trivial⟩
  defineFresh _ _ _ _ _ h := h
  overwrite _ _ _ _ _ _ h := h
  register _ _ h := h
  schedule _ _ _ h := h
  tell _ _ h := h
  record _ _ h := h
  hold _ _ h := h
  note _ _ h := h

theorem depths_lets (q : Request) : (depths allowed).Lets (State.AtDepth allowed depth) q := by
  intro s hs
  refine ⟨?_, fun a t ht => ⟨⟨ht.trans hs.1, hs.2⟩, trivial⟩⟩
  show allowed s.callDepth
  rw [hs.1]
  exact hs.2

section Honored
variable (entry : ∀ d, allowed d → (∀ max ∈ config.maxCallDepth, d < max) → allowed (d + 1))
include entry

theorem State.AtDepth.enter (h : s.AtDepth allowed depth)
    (within : ∀ max ∈ config.maxCallDepth, s.callDepth < max) :
    State.AtDepth allowed (depth + 1) { s with callDepth := s.callDepth + 1 } := by
  obtain ⟨rfl, ok⟩ := h
  exact ⟨rfl, entry s.callDepth ok within⟩

omit entry in
/-- The depth to come back to was allowed when it was left. -/
theorem State.AtDepth.leave (ok : allowed depth) (h : t.AtDepth allowed (depth + 1)) :
    State.AtDepth allowed depth { t with callDepth := t.callDepth - 1 } := by
  refine ⟨?_, ok⟩
  show t.callDepth - 1 = depth
  rw [h.1]
  exact Nat.add_sub_cancel depth 1

/-- Whatever is asked, the depth is the same afterwards. -/
theorem depths_honored : (depths allowed).Honored config := by
  intro q s ok
  have start : s.AtDepth allowed s.callDepth := ⟨rfl, ok⟩
  have close : ∀ {α ε : Type} {x : Exec ε α},
      Exec.Keeps (depths allowed) (State.AtDepth allowed s.callDepth) x →
      Resumption.Ensures (depths allowed).requires (depths allowed).promises (x s)
        fun _ t => t.callDepth = s.callDepth :=
    fun h => (h s start).mono fun _ _ ht => ht.1.1
  cases q with
  | evaluate e scope =>
      exact close (Exec.keeps_evaluateBody (stable_atDepth.at scope) (fun _ _ => depths_lets _)
        (fun _ _ => depths_lets _) fun _ _ _ ht => ht)
  | call f args =>
      exact close (Exec.keeps_callBody (fun _ hu within => hu.enter entry within)
        (fun _ hu => State.AtDepth.leave ok hu) stable_atDepth (C := fun _ => True)
        (fun _ _ _ _ => trivial) (fun _ _ _ => depths_lets _) (depths_lets _)
        fun _ _ _ _ => depths_lets _)
  | execute stmt scope cx =>
      exact close (Exec.keeps_executeBody stable_atDepth (fun _ _ => depths_lets _)
        (fun _ _ _ _ => depths_lets _) (fun _ _ _ _ => depths_lets _)
        (fun _ _ _ _ _ => depths_lets _) fun _ _ _ _ ht => ht)
  | block body scope cx => exact close (Exec.keeps_blockBody fun _ _ => depths_lets _)
  | iterate loop =>
      exact close (Exec.keeps_iterateBody stable_atDepth (fun _ _ => depths_lets _)
        (fun _ _ => depths_lets _) (fun _ _ => depths_lets _) (depths_lets _))
  | work w =>
      exact close (Exec.keeps_workBody stable_atDepth.toSteady (fun _ _ => depths_lets _)
        (fun _ => depths_lets _) (depths_lets _))
  | drain ran =>
      refine (Exec.ensures_drainBody stable_atDepth.toSteady start (fun job => ?_)
        (depths_lets _)).mono fun _ _ ht => ht.1
      exact Exec.meets_runJob stable_atDepth.toSteady (Exec.keeps_doWork (depths_lets _))
        (fun _ hu => hu) fun _ _ _ hu => hu
  | await what => exact rfl

/-- Everything that a host can run stays at its depth. -/
theorem keepsDepth_everywhere (ok : allowed depth) : Exec.Everywhere config fun x _ =>
    Exec.Keeps (depths allowed) (State.AtDepth allowed depth) x where
  execute _ _ _ := Exec.keeps_execute (depths_lets _)
  runBlock _ _ _ := Exec.keeps_runBlock (depths_lets _)
  evaluate _ _ := Exec.keeps_evaluate (depths_lets _)
  call _ _ := Exec.keeps_call (depths_lets _)
  callBlock _ _ := Exec.keeps_callBlock (fun _ hu within => hu.enter entry within)
    (fun _ hu => State.AtDepth.leave ok hu) (depths_lets _)
  runScript _ _ := Exec.keeps_runScript (fun _ hu within => hu.enter entry within)
    (fun _ hu => State.AtDepth.leave ok hu) (depths_lets _)

end Honored

theorem keepsDepth_runCommand (c : TaskCommand) :
    Exec.Keeps (depths allowed) (State.AtDepth allowed depth)
      (Exec.runCommand c : Exec ε TaskReply) :=
  Exec.meets_runCommand (fun _ => Exec.keeps_await (depths_lets _))
    (Exec.keeps_drain (depths_lets _)) stable_atDepth.toSteady c

/-! ## Runs -/

/-- Every call is left that the computation enters, and none is entered beyond the limit.

* However it ends, the depth at the end is the one at the start.
* The same holds of every question that it comes to, at whatever depth.
* No question is asked at a depth above the limit, or above the depth at the start if that is
  larger. -/
structure Exec.Balanced (config : Config) (x : Exec ε α) : Prop where
  restored : ∀ s o t, Runs config x s o t → t.callDepth = s.callDepth
  answered : ∀ s before q u a v,
    Resumption.Reaches (Interpreter.bodies config) (fun _ => True) (x s) before q u →
    Resumption.Evaluates (Interpreter.bodies config) (Interpreter.bodies config q u) a v →
    v.callDepth = u.callDepth
  bounded : ∀ limit, config.maxCallDepth = some limit → ∀ s before q u,
    Resumption.Reaches (Interpreter.bodies config) (fun _ => True) (x s) before q u →
    u.callDepth ≤ max s.callDepth limit

/-- A computation that stays at its depth, whatever depths are allowed, is balanced. -/
theorem Exec.balanced_of_keeps {x : Exec ε α}
    (h : ∀ (allowed : Nat → Prop) (depth : Nat), allowed depth →
      (∀ d, allowed d → (∀ max ∈ config.maxCallDepth, d < max) → allowed (d + 1)) →
      Exec.Keeps (depths allowed) (State.AtDepth allowed depth) x) : x.Balanced config where
  restored s o t run := by
    have keeps := h (fun _ => True) s.callDepth trivial fun _ _ _ => trivial
    exact (keeps.runs (depths_honored fun _ _ _ => trivial) ⟨rfl, trivial⟩ run).1.1
  answered s before q u a v _ answered := by
    have honored : (depths fun _ => True).Honored config := depths_honored fun _ _ _ => trivial
    exact honored.answer trivial answered
  bounded limit hlimit s before q u reached := by
    -- an entry is refused at the limit, so one that is admitted does not pass it
    have entry : ∀ d, d ≤ max s.callDepth limit → (∀ max ∈ config.maxCallDepth, d < max) →
        d + 1 ≤ max s.callDepth limit := by
      intro d _ within
      have below : d < limit := within limit hlimit
      exact Nat.le_trans below (Nat.le_max_right _ _)
    have honored := depths_honored entry
    have keeps := h (· ≤ max s.callDepth limit) s.callDepth (Nat.le_max_left _ _) entry
    refine reached.asked (fun q t hq _ => (honored q t hq).mono fun _ _ _ => trivial)
      (fun q t b v hq => honored.answer hq) (keeps s ⟨rfl, Nat.le_max_left _ _⟩)

theorem balanced_everywhere (config : Config) :
    Exec.Everywhere config fun x _ => x.Balanced config := by
  have keeps (allowed : Nat → Prop) (depth : Nat) (ok : allowed depth)
      (entry : ∀ d, allowed d → (∀ max ∈ config.maxCallDepth, d < max) → allowed (d + 1)) :
      Exec.Everywhere config fun x _ =>
        Exec.Keeps (depths allowed) (State.AtDepth allowed depth) x :=
    keepsDepth_everywhere entry ok
  constructor
  all_goals intros
  all_goals refine Exec.balanced_of_keeps fun allowed depth ok entry => ?_
  · exact (keeps allowed depth ok entry).execute _ _ _
  · exact (keeps allowed depth ok entry).runBlock _ _ _
  · exact (keeps allowed depth ok entry).evaluate _ _
  · exact (keeps allowed depth ok entry).call _ _
  · exact (keeps allowed depth ok entry).callBlock _ _
  · exact (keeps allowed depth ok entry).runScript _ _

theorem balanced_runCommand (config : Config) (c : TaskCommand) :
    (Exec.runCommand c : Exec ε TaskReply).Balanced config :=
  Exec.balanced_of_keeps fun _ _ _ _ => keepsDepth_runCommand c

/-! ## Entries -/

/-- The computation enters a call to run a block, unless the limit refuses it.

* It is refused exactly if as many calls are entered as the limit allows, or more. Then it ends at
  once with an error that names the limit, and in the state in which it started.
* Otherwise the first thing that it does is to run the block, with one more call entered. -/
structure Exec.EntersUnlessRefused (config : Config) (x : Exec ε α) (fail : EngineError → ε)
    (body : Block) (scope : ScopeId) : Prop where
  refused : ∀ limit, config.maxCallDepth = some limit → ∀ s,
    x s = .done (.raised (fail (.ofKind (.recursionLimit limit)))) s ↔ limit ≤ s.callDepth
  admitted : ∀ s, (∀ limit, config.maxCallDepth = some limit → s.callDepth < limit) →
    ∃ resume, x s =
      .ask (.block body scope .function) { s with callDepth := s.callDepth + 1 } resume

/-- A call whose first question is a block is entered like one. -/
theorem Exec.entersUnlessRefused_entered {fail : EngineError → ε} {body : Block} {scope : ScopeId}
    {x : Exec ε α} (first : ∀ s, ∃ resume, x s = .ask (.block body scope .function) s resume) :
    (entered config.maxCallDepth fail x).EntersUnlessRefused config fail body scope := by
  have admitted : ∀ s : State, (∀ limit, config.maxCallDepth = some limit → s.callDepth < limit) →
      ∃ resume, entered config.maxCallDepth fail x s =
        .ask (.block body scope .function) { s with callDepth := s.callDepth + 1 } resume := by
    intro s below
    rcases entered_cases config.maxCallDepth fail x s with ⟨limit, hlimit, reached, -⟩ | ⟨-, entry⟩
    · exact absurd (below limit hlimit) (Nat.not_lt_of_le reached)
    · obtain ⟨resume, hx⟩ := first { s with callDepth := s.callDepth + 1 }
      rw [entry, thenAlways, hx]
      exact ⟨_, rfl⟩
  refine ⟨fun limit hlimit s => ⟨fun refusal => ?_, fun reached => ?_⟩, admitted⟩
  · refine Nat.le_of_not_lt fun below => ?_
    -- it would be admitted, and then it asks something
    obtain ⟨resume, asks⟩ := admitted s fun other hother => by
      rw [hlimit] at hother
      cases hother
      exact below
    rw [asks] at refusal
    cases refusal
  · rcases entered_cases config.maxCallDepth fail x s with ⟨other, hother, -, refusal⟩ | ⟨below, -⟩
    · rw [hlimit] at hother
      cases hother
      exact refusal
    · exact absurd (below limit hlimit) (Nat.not_lt_of_le reached)

/-! ## Guards held by hand -/

namespace Entries

/-- What can become of guards: calls are entered with any limit, and any guard may be dropped. -/
inductive Move (e : Entries) : Entries → Prop
  | enter (limit : Option Nat) : Move e (e.step (.enter limit)).2
  | drop (i : Nat) (held : i < e.guards.length) : Move e (e.leave (e.guards.eraseIdx i)).2

/-- Some sequence of entering and dropping leads here. -/
abbrev Reachable (e : Entries) : Prop := Relation.ReflTransGen Move .none e

/-- The command of a host is such a move, or nothing happens. -/
theorem move_or_eq_of_step (e : Entries) (c : EntryCommand) :
    Move e (e.step c).2 ∨ (e.step c).2 = e := by
  by_cases held : e.guards = []
  · cases c with
    | enter limit => exact Or.inl (.enter limit)
    | leaveNewest | leaveOldest => exact Or.inr (by simp [step, leave, held])
  · have positive : 0 < e.guards.length := List.length_pos_iff.mpr held
    cases c with
    | enter limit => exact Or.inl (.enter limit)
    | leaveNewest =>
        have newest : e.guards.dropLast = e.guards.eraseIdx (e.guards.length - 1) := by
          rw [List.eraseIdx_length_sub_one]
        rw [step, newest]
        exact Or.inl (.drop _ (by omega))
    | leaveOldest =>
        rw [step, ← List.eraseIdx_zero]
        exact Or.inl (.drop 0 positive)

/-- Dropping a guard leaves a call that has been entered. -/
theorem depth_drop {e : Entries} (counted : e.depth = e.guards.length) {i : Nat}
    (held : i < e.guards.length) : (e.leave (e.guards.eraseIdx i)).2.depth + 1 = e.depth := by
  have some : e.guards.isEmpty = false := by
    cases h : e.guards with
    | nil =>
        rw [h] at held
        exact absurd held (Nat.not_lt_zero i)
    | cons _ _ => rfl
  rw [leave, some]
  show e.depth - 1 + 1 = e.depth
  omega

theorem Move.counted {e e' : Entries} (h : e.depth = e.guards.length) (move : Move e e') :
    e'.depth = e'.guards.length := by
  cases move with
  | enter limit =>
      rw [step]
      cases entry : enterCall limit e.depth with
      | error k => exact h
      | ok d =>
          obtain ⟨rfl, -⟩ := Exec.enterCall_eq_ok entry
          show e.depth + 1 = (e.guards ++ [e.depth]).length
          rw [List.length_append, h]
          rfl
  | drop i held =>
      have one := depth_drop h held
      have some : e.guards.isEmpty = false := by
        rw [List.isEmpty_eq_false_iff]
        exact List.ne_nil_of_length_pos (Nat.zero_lt_of_lt held)
      have shorter : (e.leave (e.guards.eraseIdx i)).2.guards = e.guards.eraseIdx i := by
        rw [leave, some]
        rfl
      rw [shorter, List.length_eraseIdx_of_lt held]
      omega

theorem Reachable.step {e : Entries} (h : Reachable e) (c : EntryCommand) :
    Reachable (e.step c).2 := by
  rcases move_or_eq_of_step e c with move | same
  · exact h.tail move
  · rwa [same]

theorem Reachable.counted {e : Entries} (h : Reachable e) : e.depth = e.guards.length := by
  induction h with
  | refl => rfl
  | tail _ move ih => exact move.counted ih

end Entries

/-- **The call depth is balanced and bounded.**

* Everything that a host can run, from any state, ends at the depth at which it started, and never
  goes deeper than the limit; so do the commands of a host, which run tasks that may fail.
* A script and the body of a function are refused exactly at the limit and above it, and a refusal
  changes nothing.
* Guards that are held by hand are counted by the depth, whatever the host does with them, so
  dropping one never finds it at zero. -/
theorem callDepth_balanced (config : Config) :
    (Exec.Everywhere config fun x _ => x.Balanced config) ∧
    (∀ {ε : Type} (c : TaskCommand), (Exec.runCommand c : Exec ε TaskReply).Balanced config) ∧
    (∀ script scope,
      (Exec.runScript config script scope).EntersUnlessRefused config id script scope) ∧
    (∀ body scope,
      (Exec.callBlock config body scope).EntersUnlessRefused config .failed body scope) ∧
    ∀ e : Entries, e.Reachable → (∀ c, (e.step c).2.Reachable) ∧ e.depth = e.guards.length ∧
      ∀ i < e.guards.length, (e.leave (e.guards.eraseIdx i)).2.depth + 1 = e.depth := by
  refine ⟨balanced_everywhere config, balanced_runCommand config, fun script scope => ?_,
    fun body scope => ?_, fun e reachable => ⟨reachable.step, reachable.counted, fun i held => ?_⟩⟩
  · exact Exec.entersUnlessRefused_entered fun s => ⟨_, rfl⟩
  · exact Exec.entersUnlessRefused_entered fun s => ⟨_, rfl⟩
  · exact Entries.depth_drop reachable.counted held

/-- A function that calls itself fails at the limit of two calls, which unwinds through the call and
the script. -/
theorem callDepth_balanced_recursion :
    let config : Config := ⟨some 2⟩
    let call : Expr := .call (.variable "f") []
    let f : Expr := .function ⟨"f", [], [⟨⟨2, 1⟩, .expr call⟩]⟩
    let script : Block := [⟨⟨1, 1⟩, .var ["f"] [f]⟩, ⟨⟨3, 1⟩, .expr call⟩]
    let started := (State.initial .deferred .log).newRoot
    ∃ t, Runs config (Exec.runScript config script started.1) started.2
        (.raised ⟨.recursionLimit 2, some ⟨2, 1⟩⟩) t ∧
      t.callDepth = started.2.callDepth := by
  intro config call f script started
  -- the script declares and calls, the function calls again, and that call is refused
  obtain ⟨t, run⟩ : ∃ t, Runs config (Exec.runScript config script started.1) started.2
      (.raised ⟨.recursionLimit 2, some ⟨2, 1⟩⟩) t :=
    ⟨_, .ask (.ask (.ask (.done _ _) (.done _ _))
      (.ask (.ask (.ask (.done _ _)
        (.ask (.ask (.ask (.ask (.ask (.done _ _)
          (.ask (.done _ _) (.done _ _))) (.done _ _)) (.done _ _)) (.done _ _)) (.done _ _)))
      (.done _ _)) (.done _ _))) (.done _ _)⟩
  exact ⟨t, run, ((callDepth_balanced config).1.runScript script started.1).restored _ _ _ run⟩

end StatementEngine
