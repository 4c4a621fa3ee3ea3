/-!
# Positions

**A line and a column of a script.** Every statement, branch, case and assignment target has one;
errors and throws may have one. `Position.start`, `0:0`, stands for a place that is not known.
-/

namespace StatementEngine

/-- A place in a script. -/
structure Position where
  line : Nat
  column : Nat
  deriving DecidableEq, Inhabited

namespace Position

/-- The position of what has none of its own. -/
def start : Position := ⟨0, 0⟩

/-- Positions are ordered by line, then by column. -/
def compare (a b : Position) : Ordering :=
  (Ord.compare a.line b.line).then (Ord.compare a.column b.column)

/-- A position as it is written in messages. -/
def text (p : Position) : String := toString p.line ++ ":" ++ toString p.column

end Position

end StatementEngine
