import StatementEngine.Proofs.Contract.Calls
import StatementEngine.Proofs.Contract.Forms

/-!
# Rules for trees

**A rule says what may stand where.** It looks at one expression or at one statement at a time, the
latter with its lexical `Site`: whether it stands in a loop, and whether it may return. A tree
obeys a rule if all its nodes do (`Expr.Obeys`, `Stmt.Obeys`), and the bodies of function literals
belong to it.

* `Form.expressions` and `Form.blocks` say what a statement is made of, and at which sites
  its blocks stand. The body of a loop stands in a loop; the start of a loop with clauses does not.
* Site and context go together: what runs under a context stands at `Context.site`.
* Trees do not change, and functions only come from literals. So a run that starts from trees and
  functions that obey a rule only ever meets such trees and functions (`Request.Obeys`,
  `State.Obeys`).
-/

namespace StatementEngine

/-- Where a statement stands in its function or module. -/
structure Site where
  inLoop : Bool
  callable : Bool

namespace Site

/-- Directly in the body of a function, or in a script. -/
def function : Site := ⟨false, true⟩

/-- Directly in the body of a module. -/
def ofModule : Site := ⟨false, false⟩

/-- In the body of a loop that stands at a site. -/
def loopBody (site : Site) : Site := { site with inLoop := true }

end Site

namespace Context

/-- The site of what runs under a context. -/
def site (cx : Context) : Site := ⟨cx.inLoop, cx.callable⟩

@[simp] theorem site_enterLoop (cx : Context) : cx.enterLoop.site = cx.site.loopBody := by
  have entered : cx.enterLoop.inLoop = true := by
    refine decide_eq_true ?_
    show 0 < min (cx.loopDepth + 1) maxLoopDepth
    rw [maxLoopDepth]
    omega
  rw [site, entered]
  rfl

end Context

/-! ## What trees are made of -/

/-- The body of a function literal. -/
def Expr.body : Expr → Block
  | .function f => f.body
  | _ => []

/-- The expression in a target. -/
def Target.places : Target → List Expr
  | .variable .. => []
  | .place _ e => [e]

namespace Form

/-- The expressions that stand in a statement outside of its blocks. -/
def expressions : Form → List Expr
  | .expr e => [e]
  | .ifChain branches _ => branches.map (·.condition)
  | .forIn _ iterable _ => [iterable]
  | .forClauses _ condition update _ => condition.toList ++ update.toList
  | .loop condition _ => condition.toList
  | .returnValues values => values
  | .throwValue value => [value]
  | .switch subject cases _ => subject :: cases.flatMap (·.values)
  | .var _ values => values
  | .assign targets _ values => values ++ targets.flatMap (·.places)
  | .assignFound targets value => value :: targets.flatMap (·.places)
  | .spawn e => [e]
  | .tryCatch .. | .breakLoop | .continueLoop | .moduleBlock .. => []

/-- The blocks that stand in a statement, each with its site. -/
def blocks (site : Site) : Form → List (Site × Block)
  | .ifChain branches otherwise =>
    branches.map (fun b => (site, b.body)) ++ otherwise.toList.map fun b => (site, b)
  | .tryCatch body handler cleanup =>
    (site, body) :: handler.toList.map (fun h => (site, h.body)) ++
      cleanup.toList.map fun b => (site, b)
  | .forIn _ _ body => [(site.loopBody, body)]
  | .forClauses init _ _ body =>
    (site.loopBody, body) :: init.toList.map fun stmt => (site, [stmt])
  | .loop _ body => [(site.loopBody, body)]
  | .moduleBlock _ body => [(.ofModule, body)]
  | .switch _ cases default =>
    cases.map (fun c => (site, c.body)) ++ default.toList.map fun b => (site, b)
  | .expr _ | .breakLoop | .continueLoop | .returnValues _ | .throwValue _ | .var .. | .assign ..
  | .assignFound .. | .spawn _ => []

end Form

/-! ### What a statement evaluates and runs is part of it -/

/-- What is evaluated for a target stands in it. -/
theorem Target.place_of_expression {target : Target} {e : Expr} (h : e ∈ target.expressions) :
    ∃ o ∈ target.places, e = o ∨ e ∈ o.operands := by
  cases target with
  | «variable» p name => cases h
  | place p whole =>
      refine ⟨whole, List.mem_cons_self, ?_⟩
      cases whole with
      | index t key =>
          rcases List.mem_cons.mp h with rfl | h
          · exact Or.inl rfl
          · obtain rfl := List.mem_singleton.mp h
            exact Or.inr (by simp [Expr.operands])
      | _ => exact Or.inl (List.mem_singleton.mp h)

namespace Form

/-- What a statement evaluates stands in it. -/
theorem expression_of_evaluated {form : Form} {e : Expr} (h : e ∈ form.evaluated) :
    ∃ o ∈ form.expressions, e = o ∨ e ∈ o.operands := by
  cases form with
  | switch subject cases default =>
      refine ⟨e, ?_, Or.inl rfl⟩
      rcases List.mem_cons.mp h with rfl | h
      · exact List.mem_cons_self
      · obtain ⟨c, hc, rfl⟩ := List.mem_map.mp h
        obtain ⟨whole, hwhole, hc⟩ := List.mem_flatMap.mp hc
        obtain ⟨o, ho, rfl⟩ := List.mem_map.mp hc
        exact List.mem_cons_of_mem _ (List.mem_flatMap.mpr ⟨whole, hwhole, ho⟩)
  | assign targets op values =>
      rcases List.mem_append.mp h with h | h
      · exact ⟨e, List.mem_append_left _ h, Or.inl rfl⟩
      · obtain ⟨t, ht, h⟩ := List.mem_flatMap.mp h
        obtain ⟨o, ho, h⟩ := Target.place_of_expression h
        exact ⟨o, List.mem_append_right _ (List.mem_flatMap.mpr ⟨t, ht, ho⟩), h⟩
  | assignFound targets value =>
      rcases List.mem_cons.mp h with rfl | h
      · exact ⟨e, List.mem_cons_self, Or.inl rfl⟩
      · obtain ⟨t, ht, h⟩ := List.mem_flatMap.mp h
        obtain ⟨o, ho, h⟩ := Target.place_of_expression h
        exact ⟨o, List.mem_cons_of_mem _ (List.mem_flatMap.mpr ⟨t, ht, ho⟩), h⟩
  | spawn call => exact ⟨call, List.mem_cons_self, Or.inr h⟩
  | tryCatch | forClauses | loop | breakLoop | continueLoop | moduleBlock => cases h
  | expr | ifChain | forIn | returnValues | throwValue | var => exact ⟨e, h, Or.inl rfl⟩

/-- What a statement runs stands in it, at the site of the context that it is run under. -/
theorem block_of_bodies {form : Form} {cx : Context} {b : Context × Block}
    (h : b ∈ form.bodies cx) : (b.1.site, b.2) ∈ form.blocks cx.site := by
  cases form with
  | ifChain branches otherwise =>
      rcases List.mem_append.mp h with h | h
      · obtain ⟨branch, hbranch, rfl⟩ := List.mem_map.mp h
        exact List.mem_append_left _ (List.mem_map_of_mem hbranch)
      · obtain ⟨last, hlast, rfl⟩ := List.mem_map.mp h
        exact List.mem_append_right _ (List.mem_map_of_mem hlast)
  | tryCatch body handler cleanup =>
      rcases List.mem_cons.mp h with rfl | h
      · exact List.mem_cons_self
      · refine List.mem_cons_of_mem _ ?_
        rcases List.mem_append.mp h with h | h
        · obtain ⟨c, hc, rfl⟩ := List.mem_map.mp h
          exact List.mem_append_left _ (List.mem_map_of_mem hc)
        · obtain ⟨last, hlast, rfl⟩ := List.mem_map.mp h
          exact List.mem_append_right _ (List.mem_map_of_mem hlast)
  | forIn vars iterable body =>
      obtain rfl := List.mem_singleton.mp h
      rw [Context.site_enterLoop]
      exact List.mem_cons_self
  | moduleBlock name body =>
      obtain rfl := List.mem_singleton.mp h
      exact List.mem_cons_self
  | switch subject cases default =>
      rcases List.mem_append.mp h with h | h
      · obtain ⟨c, hc, rfl⟩ := List.mem_map.mp h
        obtain ⟨whole, hwhole, hc⟩ := List.mem_flatMap.mp hc
        obtain ⟨o, -, rfl⟩ := List.mem_map.mp hc
        exact List.mem_append_left _ (List.mem_map_of_mem hwhole)
      · obtain ⟨last, hlast, rfl⟩ := List.mem_map.mp h
        exact List.mem_append_right _ (List.mem_map_of_mem hlast)
  | _ => cases h

/-- What a statement starts with stands in it as a block of its own. -/
theorem block_of_start {form : Form} {first : Stmt} (h : first ∈ form.start) (site : Site) :
    (site, [first]) ∈ form.blocks site := by
  cases form with
  | forClauses init condition update body =>
      obtain rfl : init = some first := h
      simp [blocks]
  | _ => cases h

/-- What a loop goes round stands in it. -/
theorem block_of_round {form : Form} {c u : Option Expr} {b : Block}
    (h : form.round = some (c, u, b)) (site : Site) :
    (∀ e ∈ c, e ∈ form.expressions) ∧ (∀ e ∈ u, e ∈ form.expressions) ∧
      (site.loopBody, b) ∈ form.blocks site := by
  cases form with
  | forClauses init condition update body =>
      cases h
      refine ⟨fun e he => ?_, fun e he => ?_, List.mem_cons_self⟩
      · exact List.mem_append_left _ (Option.mem_toList.mpr he)
      · exact List.mem_append_right _ (Option.mem_toList.mpr he)
  | loop condition body =>
      cases h
      refine ⟨fun e he => Option.mem_toList.mpr he, fun e he => ?_, List.mem_cons_self⟩
      cases he
  | _ => cases h

end Form

/-! ## Rules -/

/-- What may stand where. -/
structure Rule where
  expr : Expr → Prop
  stmt : Site → Stmt → Prop

mutual

/-- Every node of an expression obeys the rule. -/
inductive Expr.Obeys (R : Rule) : Expr → Prop
  | intro {e : Expr} (here : R.expr e) (operands : ∀ o ∈ e.operands, Expr.Obeys R o)
      (body : ∀ stmt ∈ e.body, Stmt.Obeys R .function stmt) : Expr.Obeys R e

/-- Every node of a statement obeys the rule. -/
inductive Stmt.Obeys (R : Rule) : Site → Stmt → Prop
  | intro {site : Site} {stmt : Stmt} (here : R.stmt site stmt)
      (expressions : ∀ e ∈ stmt.form.expressions, Expr.Obeys R e)
      (blocks : ∀ b ∈ stmt.form.blocks site, ∀ inner ∈ b.2, Stmt.Obeys R b.1 inner) :
      Stmt.Obeys R site stmt

end

/-- Every statement of a block obeys the rule. -/
def BlockObeys (R : Rule) (site : Site) (body : Block) : Prop := ∀ stmt ∈ body, stmt.Obeys R site

variable {R : Rule} {site : Site}

mutual

/-- What obeys a rule obeys a rule that allows more. -/
theorem Expr.Obeys.mono {R' : Rule} (expr : ∀ e, R.expr e → R'.expr e)
    (stmt : ∀ site inner, R.stmt site inner → R'.stmt site inner) {e : Expr} :
    e.Obeys R → e.Obeys R'
  | .intro here operands body => .intro (expr e here)
    (fun o ho => (operands o ho).mono expr stmt) fun inner h => (body inner h).mono expr stmt

theorem Stmt.Obeys.mono {R' : Rule} (expr : ∀ e, R.expr e → R'.expr e)
    (stmt : ∀ site inner, R.stmt site inner → R'.stmt site inner) {site : Site} {s : Stmt} :
    s.Obeys R site → s.Obeys R' site
  | .intro here expressions blocks => .intro (stmt site s here)
    (fun e he => (expressions e he).mono expr stmt)
    fun b hb inner h => (blocks b hb inner h).mono expr stmt

end

/-! ## Going down -/

namespace Expr.Obeys

theorem here {e : Expr} (h : e.Obeys R) : R.expr e := by
  cases h with
  | intro here _ _ => exact here

theorem operand {e o : Expr} (h : e.Obeys R) (ho : o ∈ e.operands) : o.Obeys R := by
  cases h with
  | intro _ operands _ => exact operands o ho

theorem body {literal : FunctionLiteral} (h : (Expr.function literal).Obeys R) :
    BlockObeys R .function literal.body := by
  cases h with
  | intro _ _ body => exact body

end Expr.Obeys

namespace Stmt.Obeys

theorem here {stmt : Stmt} (h : stmt.Obeys R site) : R.stmt site stmt := by
  cases h with
  | intro here _ _ => exact here

theorem expression {stmt : Stmt} {e : Expr} (h : stmt.Obeys R site)
    (he : e ∈ stmt.form.expressions) : e.Obeys R := by
  cases h with
  | intro _ expressions _ => exact expressions e he

theorem block {stmt : Stmt} {inner : Site} {b : Block} (h : stmt.Obeys R site)
    (hb : (inner, b) ∈ stmt.form.blocks site) : BlockObeys R inner b := by
  cases h with
  | intro _ _ blocks => exact blocks _ hb

/-! ### What a statement evaluates and runs -/

theorem evaluated {stmt : Stmt} {e : Expr} (h : stmt.Obeys R site)
    (he : e ∈ stmt.form.evaluated) : e.Obeys R := by
  obtain ⟨o, ho, rfl | he⟩ := Form.expression_of_evaluated he
  · exact h.expression ho
  · exact (h.expression ho).operand he

theorem bodies {stmt : Stmt} {cx : Context} {b : Context × Block} (h : stmt.Obeys R cx.site)
    (hb : b ∈ stmt.form.bodies cx) : BlockObeys R b.1.site b.2 :=
  h.block (Form.block_of_bodies hb)

theorem start {stmt first : Stmt} (h : stmt.Obeys R site) (hfirst : first ∈ stmt.form.start) :
    first.Obeys R site := by
  have alone : BlockObeys R site [first] := h.block (Form.block_of_start hfirst site)
  exact alone first List.mem_cons_self

theorem round {stmt : Stmt} {c u : Option Expr} {b : Block} (h : stmt.Obeys R site)
    (hround : stmt.form.round = some (c, u, b)) :
    (∀ e ∈ c, e.Obeys R) ∧ (∀ e ∈ u, e.Obeys R) ∧ BlockObeys R site.loopBody b := by
  obtain ⟨hc, hu, hb⟩ := Form.block_of_round hround site
  exact ⟨fun e he => h.expression (hc e he), fun e he => h.expression (hu e he), h.block hb⟩

end Stmt.Obeys

/-! ## Runs -/

/-- The captured functions obey the rule. -/
def State.Obeys (R : Rule) (s : State) : Prop :=
  ∀ c ∈ s.closures, BlockObeys R .function c.literal.body

/-- The trees in a question obey the rule at the site of its context. -/
def Request.Obeys (R : Rule) : Request → Prop
  | .evaluate e _ => e.Obeys R
  | .execute stmt _ cx => stmt.Obeys R cx.site
  | .block body _ cx => BlockObeys R cx.site body
  | .iterate loop =>
    (∀ e ∈ loop.condition, e.Obeys R) ∧ (∀ e ∈ loop.update, e.Obeys R) ∧
      BlockObeys R loop.context.site loop.body
  | .call .. | .work _ | .drain _ | .await _ => True

/-- The loop of a statement obeys the rule as the statement does. -/
theorem Stmt.Obeys.iterate {stmt : Stmt} {cx : Context} {c u : Option Expr} {b : Block}
    (h : stmt.Obeys R cx.site) (hround : stmt.form.round = some (c, u, b)) (i : ScopeId) :
    (Request.iterate ⟨c, u, b, i, cx.enterLoop⟩).Obeys R := by
  obtain ⟨hcondition, hupdate, hbody⟩ := h.round hround
  rw [← Context.site_enterLoop] at hbody
  exact ⟨hcondition, hupdate, hbody⟩

/-- Scopes, modules and tasks only refer to functions. -/
theorem stable_obeys : Stable (State.Obeys R) fun _ => True where
  newChild _ _ h := ⟨h, trivial⟩
  defineFresh _ _ _ _ _ h := h
  overwrite _ _ _ _ _ _ h := h
  register _ _ h := h
  schedule _ _ _ h := h
  tell _ _ h := h
  record _ _ h := h
  hold _ _ h := h
  note _ _ h := h

theorem State.Obeys.capture {s : State} {literal : FunctionLiteral} (hs : s.Obeys R)
    (h : BlockObeys R .function literal.body) (scope : ScopeId) :
    State.Obeys R { s with closures := s.closures.push ⟨literal, scope⟩ } := by
  intro c hc
  rcases Array.mem_push.mp hc with hc | rfl
  · exact hs c hc
  · exact h

theorem Exec.obeys_capture {A : Contract} {bad : ε → Prop} {literal : FunctionLiteral}
    {scope : ScopeId} (h : BlockObeys R .function literal.body) :
    Meets A (State.Obeys R) (fun _ => True) bad (capture literal scope : Exec ε Value) :=
  meets_modifyGet fun _ hs => ⟨hs.capture h scope, trivial⟩

end StatementEngine
