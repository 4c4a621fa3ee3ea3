import StatementEngine.Engine.Call

/-!
# Entering and leaving calls by hand

**A host may enter calls without running anything.** Every call that was entered is held by a guard;
dropping a guard, in any order, leaves one call.
-/

namespace StatementEngine

/-- A step of entering or leaving. -/
inductive EntryCommand where
  | enter (limit : Option Nat)
  | leaveNewest
  | leaveOldest

/-- The answer to a step of entering or leaving. -/
inductive EntryReply where
  | entered
  | refused (e : EngineError)
  | left (yes : Bool)

/-- The call depth, and the guards that are held, oldest first. A guard is the depth that it was
entered at. -/
structure Entries where
  depth : Nat
  guards : List Nat

namespace Entries

/-- No call has been entered. -/
def none : Entries := ⟨0, []⟩

/-- Drops a guard if there is one. -/
def leave (e : Entries) (guards : List Nat) : EntryReply × Entries :=
  if e.guards.isEmpty then (.left false, e) else (.left true, ⟨e.depth - 1, guards⟩)

/-- Carries out a step. -/
def step (e : Entries) : EntryCommand → EntryReply × Entries
  | .enter limit =>
    match enterCall limit e.depth with
    | .ok depth => (.entered, ⟨depth, e.guards ++ [e.depth]⟩)
    | .error k => (.refused (.ofKind k), e)
  | .leaveNewest => e.leave e.guards.dropLast
  | .leaveOldest => e.leave e.guards.tail

/-- Carries out steps; each reply comes with the depth after it. -/
def steps (e : Entries) : List EntryCommand → List (EntryReply × Nat)
  | [] => []
  | c :: rest =>
    let (reply, e) := e.step c
    (reply, e.depth) :: e.steps rest

end Entries

end StatementEngine
