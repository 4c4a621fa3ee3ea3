import StatementEngine.Proofs.Lexical.Positions
import StatementEngine.Proofs.Pairing.Calls
import StatementEngine.Proofs.Scope.Padding

/-!
# Empty scopes make no difference

**A run does not notice scopes that hold no names.** Put empty scopes in between those of a state:
what captured functions and modules refer to is moved along, and everything else is the same. A
computation in a scope of the first state and the same computation in one that stands for it in the
second then do the same, and lead to such states again. That is one invariant of two runs, a
`Pairing` (`padding`), for every `Padding` of scopes.

* Captured functions and modules must only refer to scopes that there are (`State.Sound`). Otherwise
  a scope that is put in between could be one that somebody refers to already. The engine never
  makes anything else: an initial state is sound, and a run from a sound state ends in one
  (`State.Sound.runScript`).
* `State.PaddedSince` is what two such runs have to show for it in the end: the outcome aside, the
  scopes that were there before are the same, and the others are so up to their places.
-/

namespace StatementEngine

/-! ## Every function may be met -/

section Literals
variable {fn : FunctionRef → Prop} (all : ∀ f, fn f)
include all

theorem stmt_obeys_literals (site : Site) (stmt : Stmt) : stmt.Obeys (.literals fn) site := by
  have any : stmt.Obeys (.positions fun _ => True) site := Stmt.obeys_positions fun _ _ => trivial
  exact any.mono (fun _ _ _ _ f _ => all f) fun _ _ _ => trivial

theorem expr_obeys_literals (e : Expr) : e.Obeys (.literals fn) := by
  have any : e.Obeys (.positions fun _ => True) := Expr.obeys_positions fun _ _ => trivial
  exact any.mono (fun _ _ _ _ f _ => all f) fun _ _ _ => trivial

theorem blockObeys_literals (site : Site) (body : Block) : BlockObeys (.literals fn) site body :=
  fun stmt _ => stmt_obeys_literals all site stmt

end Literals

/-! ## Other names for the scopes of modules -/

namespace Dictionary

variable {β γ : Type} (f : β → γ) {low : Option String}

/-- The same keys with other values. -/
def mapValues {low : Option String} : Dictionary β low → Dictionary γ low
  | nil => nil
  | cons key above value rest => cons key above (f value) rest.mapValues

theorem find?_mapValues (key : String) (d : Dictionary β low) :
    (d.mapValues f).find? key = (d.find? key).map f := by
  induction d with
  | nil => rfl
  | cons k _ v rest ih =>
      simp only [mapValues, find?]
      split
      · rfl
      · exact ih

theorem insert_mapValues (key : String) (b : β) (d : Dictionary β low) (above) :
    (d.insert key b above).mapValues f = (d.mapValues f).insert key (f b) above := by
  induction d with
  | nil => rfl
  | cons k _ v rest ih =>
      simp only [mapValues, insert]
      split
      · rfl
      · split
        · rfl
        · rw [mapValues, ih]

/-- Functions that agree on the values lead to the same dictionary. -/
theorem mapValues_congr {f g : β → γ} {d : Dictionary β low} (same : ∀ e ∈ d, f e.2 = g e.2) :
    d.mapValues f = d.mapValues g := by
  induction d with
  | nil => rfl
  | cons k _ v rest ih =>
      rw [mapValues, mapValues, same _ (mem_cons.mpr (Or.inl rfl)),
        ih fun e he => same e (mem_cons.mpr (Or.inr he))]

theorem mapValues_id (d : Dictionary β low) : d.mapValues id = d := by
  induction d with
  | nil => rfl
  | cons k _ v rest ih => rw [mapValues, ih, id]

end Dictionary

/-! ## Sound heaps -/

/-- Captured functions and modules refer to scopes that there are. -/
structure Heap.Sound (h : Heap) : Prop where
  captured : ∀ c ∈ h.closures, c.scope.index < h.size
  registered : ∀ e ∈ h.modules, e.2.index < h.size

/-- Captured functions and modules refer to scopes that there are. -/
def State.Sound (s : State) : Prop := s.heap.Sound

/-- Without functions and modules nothing refers to a scope. -/
theorem State.sound_of_empty {s : State} (closures : s.closures = #[]) (modules : s.modules = .nil) :
    s.Sound := by
  refine ⟨fun c hc => ?_, fun e he => ?_⟩
  · rw [heap, closures] at hc
    exact absurd hc (Array.not_mem_empty c)
  · rw [heap, modules] at he
    exact absurd he List.not_mem_nil

theorem State.sound_initial (strategy : Strategy) (sink : SinkKind) :
    (State.initial strategy sink).Sound :=
  sound_of_empty rfl rfl

namespace Heap.Sound

variable {h : Heap} {i : ScopeId}

theorem newChild (sound : h.Sound) (i : ScopeId) : (h.newChild i).Sound where
  captured c hc := by
    have there := sound.captured c hc
    rw [size_newChild]
    omega
  registered e he := by
    have there := sound.registered e he
    rw [size_newChild]
    omega

theorem define (sound : h.Sound) (i : ScopeId) (name : Name) (v : Value) :
    (h.define i name v).Sound where
  captured c hc := by
    rw [size_define]
    exact sound.captured c hc
  registered e he := by
    rw [size_define]
    exact sound.registered e he

theorem capture (sound : h.Sound) (literal : FunctionLiteral) (there : i.index < h.size) :
    (h.capture literal i).Sound where
  captured c hc := by
    rcases Array.mem_push.mp hc with hc | rfl
    · exact sound.captured c hc
    · exact there
  registered e he := sound.registered e he

theorem register (sound : h.Sound) (name : Name) (there : i.index < h.size) :
    (h.register name i).Sound where
  captured c hc := sound.captured c hc
  registered e he := by
    rcases Dictionary.mem_insert he with rfl | he
    · exact there
    · exact sound.registered e he

end Heap.Sound

/-! ## Heaps with empty scopes in between -/

/-- The captured function with its scope under another name. -/
def Closure.renamed (f : ScopeId → ScopeId) (c : Closure) : Closure := { c with scope := f c.scope }

/-- The second heap is the first one with empty scopes put in between. A function that has captured
one of them has captured the scope that this one stands for. -/
structure Heap.Padded (m : Padding) (h h' : Heap) : Prop where
  scopes : h.scopes.Padded m h'.scopes
  closures : h'.closures.map (·.renamed m.behind) = h.closures
  modules : h'.modules = h.modules.mapValues m.place
  sound : h.Sound

namespace Heap.Padded

variable {m : Padding} {h h' : Heap} {i j : ScopeId}

theorem none {n : Nat} (sound : h.Sound) (grown : n ≤ h.size) : h.Padded (.none n) h where
  scopes := .none grown
  closures := by
    have same : Closure.renamed (Padding.none n).behind = id := rfl
    rw [same, Array.map_id]
  modules := by
    have same : (Padding.none n).place = id := rfl
    rw [same, Dictionary.mapValues_id]
  sound := sound

variable (padded : h.Padded m h')
include padded

theorem behind_lt_iff : (m.behind j).index < h.size ↔ j.index < h'.size :=
  padded.scopes.behind_lt_iff

theorem newChild (there : j.index < h'.size) :
    (h.newChild (m.behind j)).Padded m (h'.newChild j) where
  scopes := padded.scopes.add there
  closures := padded.closures
  modules := padded.modules
  sound := padded.sound.newChild _

theorem define (i : ScopeId) (name : Name) (v : Value) :
    (h.define i name v).Padded m (h'.define (m.place i) name v) where
  scopes := padded.scopes.define i name v
  closures := padded.closures
  modules := padded.modules
  sound := padded.sound.define i name v

theorem capture (literal : FunctionLiteral) (there : j.index < h'.size) :
    (h.capture literal (m.behind j)).Padded m (h'.capture literal j) where
  scopes := padded.scopes
  closures := by
    show Array.map _ (h'.closures.push _) = _
    rw [Array.map_push, padded.closures]
    rfl
  modules := padded.modules
  sound := padded.sound.capture literal (padded.behind_lt_iff.mpr there)

theorem register (name : Name) (there : i.index < h.size) :
    (h.register name i).Padded m (h'.register name (m.place i)) where
  scopes := padded.scopes
  closures := padded.closures
  modules := by
    show h'.modules.register name _ = _
    rw [padded.modules]
    exact (Dictionary.insert_mapValues ..).symm
  sound := padded.sound.register name there

/-- A name is found in a scope at the same place. -/
theorem definer (there : j.index < h'.size) (name : Name) :
    Option.Rel (fun i i' => i.index < h.size ∧ i' = m.place i)
      (h.scopes.definer? (m.behind j) name) (h'.scopes.definer? j name) := by
  rw [padded.scopes.definer? there]
  cases found : h.scopes.definer? (m.behind j) name with
  | none => exact .none
  | some d =>
      -- the scope binds the name, so it is there
      obtain ⟨v, bound⟩ := Option.isSome_iff_exists.mp (ScopeStore.local?_of_definerWithin found)
      rw [ScopeStore.local?_eq] at bound
      obtain ⟨a, known, -⟩ := Option.bind_eq_some_iff.mp bound
      exact .some ⟨ScopeStore.lt_of_scope? known, rfl⟩

/-- A captured function has the same code, and the scope that its scope stands for. -/
theorem captured (k : Nat) :
    Option.Rel (Closure.Pairs (fun i i' => i.index < h.size ∧ i = m.behind i')
      (.literals fun _ => True)) h.closures[k]? h'.closures[k]? := by
  cases known : h'.closures[k]? with
  | none =>
      rw [← padded.closures, Array.getElem?_map, known]
      exact .none
  | some c =>
      have here : h.closures[k]? = some (c.renamed m.behind) := by
        rw [← padded.closures, Array.getElem?_map, known]
        rfl
      rw [here]
      have there := padded.sound.captured _ (Array.mem_of_getElem? here)
      exact .some ⟨rfl, ⟨there, rfl⟩, blockObeys_literals (fun _ => trivial) _ _⟩

theorem module (name : Name) :
    Option.Rel (fun i i' => i.index < h.size ∧ i' = m.place i) (h.modules.find? name)
      (h'.modules.find? name) := by
  rw [padded.modules, Dictionary.find?_mapValues]
  cases found : h.modules.find? name with
  | none => exact .none
  | some i => exact .some ⟨padded.sound.registered _ (Dictionary.mem_of_find? found), rfl⟩

/-- What captured functions refer to is there in the second heap as well. -/
theorem captured_lt {c : Closure} (hc : c ∈ h'.closures) : c.scope.index < h'.size := by
  have known : c.renamed m.behind ∈ h.closures := by
    rw [← padded.closures]
    exact Array.mem_map_of_mem hc
  exact padded.behind_lt_iff.mp (padded.sound.captured _ known)

/-- One more empty scope is put in between, below another scope. -/
theorem interpose {outer : ScopeId} (there : outer.index < h.size + m.extra) :
    h.Padded (m.interpose padded.scopes.grown outer there) (h'.newChild outer) where
  scopes := padded.scopes.interpose there
  closures := by
    rw [← padded.closures]
    refine Array.map_congr_left fun c hc => ?_
    have old := padded.captured_lt hc
    have size : h'.size = h.size + m.extra := padded.scopes.size
    rw [Closure.renamed, Closure.renamed,
      m.interpose_behind padded.scopes.grown there (size ▸ old)]
  modules := by
    show h'.modules = _
    rw [padded.modules]
    refine Dictionary.mapValues_congr fun e he => ?_
    rw [m.interpose_place padded.scopes.grown there (padded.sound.registered e he)]
  sound := padded.sound

end Heap.Padded

/-- The pairing of two runs, the second one with empty scopes in between. -/
def padding (m : Padding) : Pairing where
  scope n i i' := i.index < n ∧ i = m.behind i'
  own n i i' := i.index < n ∧ i' = m.place i
  fn _ := True
  heap := Heap.Padded m
  scope_of_own own := ⟨own.1, by rw [own.2, m.behind_place]⟩
  scope_mono le paired := ⟨Nat.lt_of_lt_of_le paired.1 le, paired.2⟩
  own_mono le paired := ⟨Nat.lt_of_lt_of_le paired.1 le, paired.2⟩
  newChild padded paired := by
    obtain ⟨there, rfl⟩ := paired
    refine ⟨padded.newChild (padded.behind_lt_iff.mp there), Nat.lt_succ_self _, ?_⟩
    exact padded.scopes.next
  define name v padded own _ := by
    obtain ⟨-, rfl⟩ := own
    exact padded.define _ name v
  definer name padded paired := by
    obtain ⟨there, rfl⟩ := paired
    exact padded.definer (padded.behind_lt_iff.mp there) name
  bound name padded own := by
    obtain ⟨-, rfl⟩ := own
    exact ⟨padded.scopes.local? _ name, fun _ _ _ _ => trivial⟩
  capture literal padded paired _ := by
    obtain ⟨there, rfl⟩ := paired
    refine ⟨padded.capture literal (padded.behind_lt_iff.mp there), ?_, trivial⟩
    rw [← padded.closures, Array.size_map]
  captured k _ padded _ := padded.captured k
  register name padded own := by
    obtain ⟨there, rfl⟩ := own
    exact padded.register name there
  module name padded := padded.module name
  eager _ _ := trivial

/-! ## What can be seen in the end -/

/-- The second state is the first one with `extra` empty scopes put in between, none of them among
the first `n` scopes. -/
structure State.PaddedSince (n extra : Nat) (t t' : State) : Prop where
  rest : t' = t.withHeap t'.heap
  heap : ∃ m : Padding, m.extra = extra ∧ (∀ i, i.index < n → m.place i = i) ∧
    t.heap.Padded m t'.heap

namespace State.PaddedSince

variable {n extra : Nat} {t t' : State} (padded : t.PaddedSince n extra t')
include padded

/-- The scopes that were there before are the same. -/
theorem scope?_eq {i : ScopeId} (old : i.index < n) :
    t'.scopes.scope? i = t.scopes.scope? i := by
  obtain ⟨m, -, keeps, padded⟩ := padded.heap
  have same := padded.scopes.same i
  rw [keeps i old] at same
  refine Eq.trans ?_ same
  cases known : t'.scopes.scope? i with
  | none =>
      rw [show t'.heap.scopes = t'.scopes from rfl, known]
      rfl
  | some a =>
      -- a scope that was there has a parent that was there, and this one stands for itself
      rw [show t'.heap.scopes = t'.scopes from rfl, known, Option.map_some]
      obtain ⟨parent, bindings⟩ := a
      cases parent with
      | none => rfl
      | some p =>
          have lower : p.index < i.index :=
            ScopeStore.lt_of_parent? (by rw [ScopeStore.parent?_eq, known]; rfl)
          have itself : m.behind p = p := by
            conv => lhs; rw [← keeps p (Nat.lt_trans lower old), m.behind_place]
          rw [Scope.renamed, Option.map_some, itself]

end State.PaddedSince

section Twins
variable {m : Padding} {n : Nat} {s t t' : State}

theorem paddedSince_of_twin {start : Nat} (keeps : ∀ i, i.index < start → m.place i = i)
    (twin : (padding m).Twin n t t') : t.PaddedSince start m.extra t' := by
  cases twin with
  | intro h' padded _ => exact ⟨rfl, m, rfl, keeps, padded⟩

theorem padding_twin_self (sound : s.Sound) (grown : n ≤ s.heap.size) :
    (padding (.none n)).Twin n s s :=
  .intro s.heap (.none sound grown) grown

/-! ## Sound states stay sound -/

variable {config : Config} {ε α : Type} {M : α → Prop} {bad : ε → Prop} {x : Exec ε α}
  {o : Outcome ε α}

/-- A computation that is paired with itself leads from sound states to sound states. -/
theorem sound_of_pairs (h : Exec.Pairs (padding (.none n)) n (Same M) bad x x) (sound : s.Sound)
    (grown : n ≤ s.heap.size) (run : Runs config x s o t) : t.Sound := by
  obtain ⟨t', -, twin⟩ := h.runs (padding_twin_self sound grown) run
  cases twin with
  | intro h' padded _ => exact padded.sound

/-- An expression leaves a sound state behind. -/
theorem State.Sound.evaluate {e : Expr} {scope : ScopeId} {o : Outcome Raise Value}
    (sound : s.Sound) (there : scope.index < s.heap.size)
    (run : Runs config (Exec.evaluate e scope) s o t) : t.Sound :=
  sound_of_pairs (Exec.pairs_evaluate (expr_obeys_literals (fun _ => trivial) e) ⟨there, rfl⟩) sound
    (Nat.le_refl _) run

/-- A script leaves a sound state behind. -/
theorem State.Sound.runScript {script : Block} {scope : ScopeId}
    {o : Outcome EngineError Execution} (sound : s.Sound) (there : scope.index < s.heap.size)
    (run : Runs config (Exec.runScript config script scope) s o t) : t.Sound := by
  have paired : Exec.PairsError (padding (.none s.heap.size)) s.heap.size (fun _ => True)
      (Exec.runScript config script scope) (Exec.runScript config script scope) :=
    Exec.pairs_runScript (blockObeys_literals (fun _ => trivial) _ script) ⟨there, rfl⟩
  exact sound_of_pairs paired sound (Nat.le_refl _) run

end Twins

end StatementEngine
