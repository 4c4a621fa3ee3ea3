import StatementEngine.Proofs.Lexical.Obedience

/-!
# Parts are smaller

**Whatever stands in a tree is smaller than the tree**, the bodies of function literals included. So
what a statement evaluates, runs and starts with is smaller than the statement.
-/

namespace StatementEngine

namespace Expr

theorem sizeOf_operand {e o : Expr} (h : o ∈ e.operands) : sizeOf o < sizeOf e := by
  cases e with
  | list items =>
      have item : sizeOf o < sizeOf items := List.sizeOf_lt_of_mem h
      simp only [Expr.list.sizeOf_spec]
      omega
  | call callee args =>
      simp only [Expr.call.sizeOf_spec]
      rcases List.mem_cons.mp h with rfl | h
      · omega
      · have arg := List.sizeOf_lt_of_mem h
        omega
  | binary _ left right | index left right =>
      simp only [Expr.binary.sizeOf_spec, Expr.index.sizeOf_spec]
      have either : o = left ∨ o = right := by simpa [operands] using h
      rcases either with rfl | rfl
      all_goals omega
  | raise value | set name value =>
      obtain rfl := List.mem_singleton.mp h
      simp only [Expr.raise.sizeOf_spec, Expr.set.sizeOf_spec]
      omega
  | literal | «variable» | function | member | fail => cases h

theorem sizeOf_body {e : Expr} {stmt : Stmt} (h : stmt ∈ e.body) : sizeOf stmt < sizeOf e := by
  cases e with
  | function f =>
      obtain ⟨name, params, body⟩ := f
      have inner : sizeOf stmt < sizeOf body := List.sizeOf_lt_of_mem h
      simp only [Expr.function.sizeOf_spec, FunctionLiteral.mk.sizeOf_spec]
      omega
  | _ => cases h

end Expr

theorem Target.sizeOf_place {target : Target} {e : Expr} (h : e ∈ target.places) :
    sizeOf e < sizeOf target := by
  cases target with
  | «variable» p name => cases h
  | place p whole =>
      obtain rfl := List.mem_singleton.mp h
      simp only [Target.place.sizeOf_spec]
      omega

theorem sizeOf_lt_of_mem_toList [SizeOf α] {a : α} {o : Option α} (h : a ∈ o.toList) :
    sizeOf a < sizeOf o := by
  obtain rfl := Option.mem_toList.mp h
  simp

namespace Form

theorem sizeOf_expression {form : Form} {e : Expr} (h : e ∈ form.expressions) :
    sizeOf e < sizeOf form := by
  have inTargets : ∀ targets : List Target, e ∈ targets.flatMap (·.places) →
      sizeOf e < sizeOf targets := by
    intro targets he
    obtain ⟨t, ht, he⟩ := List.mem_flatMap.mp he
    exact Nat.lt_trans (Target.sizeOf_place he) (List.sizeOf_lt_of_mem ht)
  cases form with
  | expr e' | forIn vars e' body | throwValue e' | spawn e' =>
      obtain rfl := List.mem_singleton.mp h
      simp only [expr.sizeOf_spec, forIn.sizeOf_spec, throwValue.sizeOf_spec, spawn.sizeOf_spec]
      omega
  | ifChain branches otherwise =>
      obtain ⟨b, hb, rfl⟩ := List.mem_map.mp h
      have branch := List.sizeOf_lt_of_mem hb
      cases b
      simp only [ifChain.sizeOf_spec, Branch.mk.sizeOf_spec] at branch ⊢
      omega
  | forClauses init condition update body =>
      simp only [forClauses.sizeOf_spec]
      rcases List.mem_append.mp h with h | h
      all_goals
        have clause := sizeOf_lt_of_mem_toList h
        omega
  | loop condition body =>
      have clause := sizeOf_lt_of_mem_toList (o := condition) h
      simp only [loop.sizeOf_spec]
      omega
  | returnValues values | var names values =>
      have value : sizeOf e < sizeOf values := List.sizeOf_lt_of_mem h
      simp only [returnValues.sizeOf_spec, var.sizeOf_spec]
      omega
  | switch subject cases default =>
      simp only [switch.sizeOf_spec]
      rcases List.mem_cons.mp h with rfl | h
      · omega
      · obtain ⟨c, hc, he⟩ := List.mem_flatMap.mp h
        have whole := List.sizeOf_lt_of_mem hc
        obtain ⟨p, values, body⟩ := c
        have value : sizeOf e < sizeOf values := List.sizeOf_lt_of_mem he
        simp only [Case.mk.sizeOf_spec] at whole
        omega
  | assign targets op values =>
      simp only [assign.sizeOf_spec]
      rcases List.mem_append.mp h with h | h
      · have value := List.sizeOf_lt_of_mem h
        omega
      · have target := inTargets targets h
        omega
  | assignFound targets value =>
      simp only [assignFound.sizeOf_spec]
      rcases List.mem_cons.mp h with rfl | h
      · omega
      · have target := inTargets targets h
        omega
  | tryCatch | breakLoop | continueLoop | moduleBlock => cases h

theorem sizeOf_block {form : Form} {site : Site} {b : Site × Block} (h : b ∈ form.blocks site) :
    sizeOf b.2 < sizeOf form := by
  have last : ∀ body : Option Block, b ∈ body.toList.map (fun b => (site, b)) →
      sizeOf b.2 < sizeOf body := by
    intro body hb
    obtain ⟨b', hb', rfl⟩ := List.mem_map.mp hb
    exact sizeOf_lt_of_mem_toList hb'
  cases form with
  | ifChain branches otherwise =>
      simp only [ifChain.sizeOf_spec]
      rcases List.mem_append.mp h with h | h
      · obtain ⟨branch, hb, rfl⟩ := List.mem_map.mp h
        have whole := List.sizeOf_lt_of_mem hb
        cases branch
        simp only [Branch.mk.sizeOf_spec] at whole ⊢
        omega
      · have := last otherwise h
        omega
  | tryCatch body handler cleanup =>
      simp only [tryCatch.sizeOf_spec]
      rcases List.mem_append.mp h with h | h
      · rcases List.mem_cons.mp h with rfl | h
        · dsimp only
          omega
        · obtain ⟨c, hc, rfl⟩ := List.mem_map.mp h
          have whole := sizeOf_lt_of_mem_toList hc
          cases c
          simp only [Handler.mk.sizeOf_spec] at whole ⊢
          omega
      · have := last cleanup h
        omega
  | forIn vars iterable body | loop condition body | moduleBlock name body =>
      obtain rfl := List.mem_singleton.mp h
      simp only [forIn.sizeOf_spec, loop.sizeOf_spec, moduleBlock.sizeOf_spec]
      omega
  | forClauses init condition update body =>
      simp only [forClauses.sizeOf_spec]
      rcases List.mem_cons.mp h with rfl | h
      · dsimp only
        omega
      · obtain ⟨first, hfirst, rfl⟩ := List.mem_map.mp h
        obtain rfl := Option.mem_toList.mp hfirst
        have positive : 0 < sizeOf body := by
          cases body
          all_goals
            simp only [List.nil.sizeOf_spec, List.cons.sizeOf_spec]
            omega
        simp only [Option.some.sizeOf_spec, List.cons.sizeOf_spec, List.nil.sizeOf_spec]
        omega
  | switch subject cases default =>
      simp only [switch.sizeOf_spec]
      rcases List.mem_append.mp h with h | h
      · obtain ⟨c, hc, rfl⟩ := List.mem_map.mp h
        have whole := List.sizeOf_lt_of_mem hc
        cases c
        simp only [Case.mk.sizeOf_spec] at whole ⊢
        omega
      · have := last default h
        omega
  | expr | breakLoop | continueLoop | returnValues | throwValue | var | assign | assignFound
  | spawn => cases h

end Form

namespace Stmt

variable {stmt : Stmt}

theorem sizeOf_form (stmt : Stmt) : sizeOf stmt.form < sizeOf stmt := by
  cases stmt
  simp only [Stmt.mk.sizeOf_spec]
  omega

theorem sizeOf_evaluated {e : Expr} (h : e ∈ stmt.form.evaluated) : sizeOf e < sizeOf stmt := by
  obtain ⟨o, ho, h⟩ := Form.expression_of_evaluated h
  have outer := Nat.lt_trans (Form.sizeOf_expression ho) stmt.sizeOf_form
  rcases h with rfl | h
  · exact outer
  · exact Nat.lt_trans (Expr.sizeOf_operand h) outer

theorem sizeOf_bodies {cx : Context} {b : Context × Block} (h : b ∈ stmt.form.bodies cx) :
    sizeOf b.2 < sizeOf stmt :=
  Nat.lt_trans (Form.sizeOf_block (Form.block_of_bodies h)) stmt.sizeOf_form

theorem sizeOf_start {first : Stmt} (h : first ∈ stmt.form.start) : sizeOf first < sizeOf stmt := by
  have alone := Form.sizeOf_block (Form.block_of_start h .function)
  have inside : sizeOf first < sizeOf [first] := List.sizeOf_lt_of_mem List.mem_cons_self
  exact Nat.lt_trans (Nat.lt_trans inside alone) stmt.sizeOf_form

end Stmt

end StatementEngine
