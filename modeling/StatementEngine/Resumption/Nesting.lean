import StatementEngine.Resumption.Basic

/-!
# Deep nesting

**Questions may be nested as deeply as one likes.** Question `n + 1` asks question `n` and counts
one; running it is a loop over the frames that wait.
-/

namespace StatementEngine

namespace Nesting

/-- Counts how deeply the questions below it are nested. -/
def bodies : Bodies (fun _ : Nat => Nat) Unit
  | 0, s => .done 0 s
  | n + 1, s => .ask n s fun m s => .done (m + 1) s

/-- The depth that is reached by nesting questions; each level is entered once and left once. -/
def depth (levels : Nat) : Option Nat :=
  (Resumption.run bodies (2 * levels + 4) (.ask levels () .done)).map (·.1)

end Nesting

end StatementEngine
