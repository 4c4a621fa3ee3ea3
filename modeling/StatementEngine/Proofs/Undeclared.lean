import StatementEngine.Proofs.Frame
import StatementEngine.Proofs.Run.Asked
import StatementEngine.Proofs.Run.Reached
import StatementEngine.Proofs.Scope.Lookup

/-!
# Names keep their meaning

**While an expression is evaluated, no scope that was there before is given a name.** This holds at
its end (`frame_honored`), and it holds at each question on the way as well: whatever runs in between
declares its names in scopes that are new (`undeclared_honored`). So a name means the same variable
throughout, in every scope that was there at the start (`definer?_of_asked`).
-/

namespace StatementEngine

/-! ## A variable stays what it is -/

namespace ScopeStore

variable {store t : ScopeStore} {i : ScopeId}

/-- If scopes have been given no names, every name is found in the scope that it was found in. -/
theorem Grows.definer?_eq (grows : store.Grows (fun _ _ => False) t)
    (there : i.index < store.scopes.size) (name : Name) :
    t.definer? i name = store.definer? i name := by
  induction i using store.wellFounded_parent.induction with
  | _ i ih =>
    obtain ⟨a, known⟩ := scope?_of_lt there
    obtain ⟨b, known', parent, new, names, -, none⟩ := grows i a known
    have same : b.names = a.names := by
      rw [names, List.eq_nil_iff_forall_not_mem.mpr fun n hn => (none n hn).2, List.append_nil]
    have here : (t.local? i name).isSome = (store.local? i name).isSome := by
      rw [Bool.eq_iff_iff, ← mem_names_iff, ← mem_names_iff, names_eq, names_eq, known, known']
      simp only [Option.map_some, Option.getD_some, same]
    have above : t.parent? i = store.parent? i := by
      rw [parent?_eq, parent?_eq, known, known']
      exact parent
    rw [ScopeStore.definer?_eq t, ScopeStore.definer?_eq store, here, above]
    split
    · rfl
    · cases up : store.parent? i with
      | none => rfl
      | some p => exact ih p up (Nat.lt_trans (lt_of_parent? up) there)

end ScopeStore

/-! ## Nothing is declared on the way -/

/-- The scopes of the store are there, and none of them has been given a name. -/
def State.KeepsNames (store : ScopeStore) (t : State) : Prop :=
  store.Grows (fun _ _ => False) t.scopes

/-- No scope of the store has been given a name, and none may be given one. -/
def undeclared (store : ScopeStore) : Contract where
  requires q t := t.KeepsNames store ∧ ∀ i n, q.declares i n → store.scope? i = none
  promises _ _ _ t := t.KeepsNames store

variable {store : ScopeStore} {config : Config} {s t : State}

/-- The steps of the engine give no names to the scopes of the store. -/
theorem stable_undeclared (store : ScopeStore) :
    Stable (State.KeepsNames store) fun i => store.scope? i = none where
  newChild _ _ h := ⟨ScopeStore.Grows.add h _, ScopeStore.Grows.scope?_next h⟩
  defineFresh _ _ _ _ fresh h := ScopeStore.Grows.defineNew h fresh
  overwrite _ _ _ _ _ found h := ScopeStore.Grows.overwrite h found
  register _ _ h := h
  schedule _ _ _ h := h
  tell _ _ h := h
  record _ _ h := h
  hold _ _ h := h
  note _ _ h := h

/-- A question may be asked if it only declares names in new scopes. -/
theorem undeclared_lets {q : Request} (new : ∀ i n, q.declares i n → store.scope? i = none) :
    (undeclared store).Lets (State.KeepsNames store) q :=
  fun _ ht => ⟨⟨ht, new⟩, fun _ _ hu => ⟨hu, trivial⟩⟩

theorem undeclared_lets_silent {q : Request} (silent : ∀ i n, ¬ q.declares i n) :
    (undeclared store).Lets (State.KeepsNames store) q :=
  undeclared_lets fun i n h => absurd h (silent i n)

theorem undeclared_block (body : Block) (cx : Context) (child : ScopeId)
    (fresh : store.scope? child = none) :
    (undeclared store).Lets (State.KeepsNames store) (.block body child cx) :=
  undeclared_lets fun _ _ h => h.1 ▸ fresh

/-- Every run that starts without declarations for the scopes of the store goes on like that. -/
theorem undeclared_honored (store : ScopeStore) (config : Config) :
    (undeclared store).Honored config := by
  intro q s required
  obtain ⟨hs, new⟩ := required
  have stable := stable_undeclared store
  -- however the body ends, no scope of the store has a new name
  have close : ∀ {α ε : Type} {x : Exec ε α},
      Exec.Keeps (undeclared store) (State.KeepsNames store) x →
      Resumption.Ensures (undeclared store).requires (undeclared store).promises (x s)
        fun _ t => t.KeepsNames store :=
    fun h => (h s hs).mono fun _ _ ht => ht.1
  cases q with
  | evaluate e scope =>
      refine close (Exec.keeps_evaluateBody (stable.at scope) ?_ ?_ fun _ _ _ ht => ht)
      · exact fun _ _ => undeclared_lets_silent fun _ _ h => h
      · exact fun _ _ => undeclared_lets_silent fun _ _ h => h
  | call f args =>
      refine close (Exec.keeps_callBody (J := State.KeepsNames store) (fun _ h _ => h)
        (fun _ h => h) stable (C := fun _ => True) (fun _ _ _ _ => trivial) (fun _ _ _ => ?_) ?_
        fun c _ => ?_)
      · exact undeclared_lets_silent fun _ _ h => h
      · exact undeclared_lets_silent fun _ _ h => h
      · exact undeclared_block c.literal.body .function
  | execute stmt scope cx =>
      refine close (Exec.keeps_executeBody stable ?_ ?_ ?_ ?_ fun n hn _ _ ht => ?_)
      · exact fun _ _ => undeclared_lets_silent fun _ _ h => h
      · exact fun b _ => undeclared_block b.2 b.1
      · exact fun _ _ _ fresh => undeclared_lets fun _ _ h => h.1 ▸ fresh
      · exact fun _ _ _ _ _ => undeclared_lets_silent fun _ _ h => h
      · exact ScopeStore.Grows.defineNew ht (new scope n ⟨rfl, hn⟩)
  | block body scope cx =>
      refine close (Exec.keeps_blockBody fun stmt hstmt => undeclared_lets fun i n h => ?_)
      obtain ⟨rfl, hn⟩ := h
      exact new _ n ⟨rfl, List.mem_flatMap.mpr ⟨stmt, hstmt, hn⟩⟩
  | iterate loop =>
      refine close (Exec.keeps_iterateBody stable ?_ ?_ ?_ ?_)
      · exact fun _ _ => undeclared_lets_silent fun _ _ h => h
      · exact fun _ _ => undeclared_lets_silent fun _ _ h => h
      · exact undeclared_block loop.body loop.context
      · exact undeclared_lets_silent fun _ _ h => h
  | work w =>
      refine close (Exec.keeps_workBody stable.toSteady ?_ ?_ ?_)
      · exact fun _ _ => undeclared_lets_silent fun _ _ h => h
      · exact fun _ => undeclared_lets_silent fun _ _ h => h
      · exact undeclared_lets_silent fun _ _ h => h
  | drain ran =>
      refine Exec.ensures_drainBody stable.toSteady hs (fun job => ?_)
        (undeclared_lets_silent fun _ _ h => h)
      exact Exec.meets_runJob stable.toSteady
        (J := State.KeepsNames store) (Exec.keeps_doWork (undeclared_lets_silent fun _ _ h => h))
        (fun _ ht => ht) fun _ _ _ hu => hu
  | await what => exact hs

/-- On the way through a computation that only asks what it may, each name means the variable that it
meant at the start. -/
theorem definer?_of_asked {x : Exec ε α} {asked : Questions} {o : Outcome ε α}
    (keeps : Exec.Keeps (undeclared s.scopes) (State.KeepsNames s.scopes) x)
    (run : Asks config x s asked o t) {i : ScopeId} (there : i.index < s.scopes.scopes.size)
    (name : Name) : ∀ q ∈ asked, q.2.scopes.definer? i name = s.scopes.definer? i name := by
  intro q hq
  have honored := undeclared_honored s.scopes config
  have asked := Resumption.Traces.asked honored run (keeps s (.refl _)) q hq
  exact asked.1.definer?_eq there name

/-- Expressions may be evaluated. -/
theorem undeclared_evaluateAll (scope : ScopeId) (es : List Expr) :
    Exec.Keeps (undeclared store) (State.KeepsNames store) (Exec.evaluateAll scope es) :=
  Exec.meets_evaluateAll fun _ _ => Exec.keeps_evaluate (undeclared_lets_silent fun _ _ h => h)

end StatementEngine
