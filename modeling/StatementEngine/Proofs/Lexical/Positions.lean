import StatementEngine.Proofs.Lexical.Size

/-!
# The positions in a tree

**A tree bears the positions of its statements, branches, cases and targets** (`Stmt.Bears`,
`Expr.Bears`), those in the bodies of its function literals included. A state bears the positions in
the functions that have been captured.

To bear only positions of a set is to obey a rule, `Rule.positions`, so runs only ever meet trees
that do.
-/

namespace StatementEngine

mutual

/-- The position stands in a function literal of the expression. -/
inductive Expr.Bears : Expr → Position → Prop
  | operand {e o : Expr} {p : Position} (ho : o ∈ e.operands) (h : Expr.Bears o p) : Expr.Bears e p
  | body {e : Expr} {stmt : Stmt} {p : Position} (hstmt : stmt ∈ e.body) (h : Stmt.Bears stmt p) :
      Expr.Bears e p

/-- The position is one of the statement, of a statement inside of it, or of one of their branches,
cases and targets. -/
inductive Stmt.Bears : Stmt → Position → Prop
  | here {stmt : Stmt} {p : Position} (h : p ∈ stmt.position :: stmt.form.marks) : Stmt.Bears stmt p
  | expression {stmt : Stmt} {e : Expr} {p : Position} (he : e ∈ stmt.form.expressions)
      (h : Expr.Bears e p) : Stmt.Bears stmt p
  | block {stmt inner : Stmt} {site : Site} {b : Site × Block} {p : Position}
      (hb : b ∈ stmt.form.blocks site) (hinner : inner ∈ b.2) (h : Stmt.Bears inner p) :
      Stmt.Bears stmt p

end

/-- The position stands in one of the statements. -/
def BlockBears (body : Block) (p : Position) : Prop := ∃ stmt ∈ body, stmt.Bears p

/-- The position stands in a function that has been captured. -/
def State.Bears (s : State) (p : Position) : Prop := ∃ c ∈ s.closures, BlockBears c.literal.body p

/-- All positions are in a set. -/
def Rule.positions (P : Position → Prop) : Rule where
  expr _ := True
  stmt _ stmt := ∀ p ∈ stmt.position :: stmt.form.marks, P p

variable {P : Position → Prop} {site : Site}

mutual

theorem Expr.obeys_positions {e : Expr} (h : ∀ p, e.Bears p → P p) : e.Obeys (.positions P) :=
  .intro trivial
    (fun _ ho => Expr.obeys_positions fun p hp => h p (.operand ho hp))
    (fun _ hstmt => Stmt.obeys_positions fun p hp => h p (.body hstmt hp))
termination_by sizeOf e
decreasing_by
  · exact Expr.sizeOf_operand ho
  · exact Expr.sizeOf_body hstmt

theorem Stmt.obeys_positions {stmt : Stmt} {site : Site} (h : ∀ p, stmt.Bears p → P p) :
    stmt.Obeys (.positions P) site :=
  .intro (fun p hp => h p (.here hp))
    (fun _ he => Expr.obeys_positions fun p hp => h p (.expression he hp))
    (fun _ hb _ hinner => Stmt.obeys_positions fun p hp => h p (.block hb hinner hp))
termination_by sizeOf stmt
decreasing_by
  · exact Nat.lt_trans (Form.sizeOf_expression he) stmt.sizeOf_form
  · have inner := Nat.lt_trans (List.sizeOf_lt_of_mem hinner) (Form.sizeOf_block hb)
    exact Nat.lt_trans inner stmt.sizeOf_form

end

theorem blockObeys_positions {body : Block} (h : ∀ p, BlockBears body p → P p) :
    BlockObeys (.positions P) site body :=
  fun stmt hstmt => Stmt.obeys_positions fun p hp => h p ⟨stmt, hstmt, hp⟩

theorem State.obeys_positions {s : State} (h : ∀ p, s.Bears p → P p) : s.Obeys (.positions P) :=
  fun c hc => blockObeys_positions fun p hp => h p ⟨c, hc, hp⟩

end StatementEngine
