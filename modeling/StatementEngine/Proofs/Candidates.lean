import StatementEngine.Engine.Statement

/-!
# The candidates of a switch

**A switch goes through its cases, and through the candidates of each.** The two loops are one walk
over a flat list (`Exec.runCases_eq`): the candidates of all cases in order, each with the position
of its case and the block that it selects. Where cases do not matter, a switch is this walk.
-/

namespace StatementEngine

/-- The candidates of a switch in the order in which they are tried, each with its position and the
block that it selects. -/
def Case.candidates (cases : List Case) : List (Expr × Position × Block) :=
  cases.flatMap fun c => c.values.map fun e => (e, c.position, c.body)

namespace Exec

variable {subject : Value} {default : Option Block} {scope : ScopeId} {cx : Context}

/-- The block of the first candidate that equals the subject, or else the default. -/
def runCandidates (subject : Value) (default : Option Block) (scope : ScopeId) (cx : Context) :
    List (Expr × Position × Block) → Exec Raise Completion
  | [] => failing (runOptional default scope cx)
  | (e, p, body) :: rest => do
    let v ← (evaluate e scope).mapError (·.fillPosition p)
    if v.equal subject then failing (runChild body scope cx)
    else runCandidates subject default scope cx rest

/-- The candidates of a case stand before all others. -/
theorem runCandidates_values (p : Position) (body : Block) (values : List Expr)
    (rest : List (Expr × Position × Block)) :
    runCandidates subject default scope cx (values.map (fun e => (e, p, body)) ++ rest) = (do
      if ← anyEquals subject scope p values then failing (runChild body scope cx)
      else runCandidates subject default scope cx rest) := by
  induction values with
  | nil => rfl
  | cons e values ih =>
      rw [anyEquals, bind_assoc, List.map_cons, List.cons_append, runCandidates]
      congr 1
      funext v
      split
      · rfl
      · exact ih

/-- **The loop over cases and the loop over their candidates are one walk.** -/
theorem runCases_eq (cases : List Case) : runCases subject default scope cx cases =
    runCandidates subject default scope cx (Case.candidates cases) := by
  induction cases with
  | nil => rfl
  | cons c rest ih =>
      rw [Case.candidates, List.flatMap_cons, runCandidates_values, runCases]
      congr 1
      funext found
      rw [ih]
      rfl

end Exec

end StatementEngine
