import StatementEngine.Value.Text

/-!
# Shared lists

**A list behind handles.** Several handles may share one list: what is added through one is seen
through all of them.
-/

namespace StatementEngine

/-- A step on a shared list. -/
inductive SharedCommand where
  | new
  | clone
  | push (value : Int)
  | read
  | same (other : Nat)
  | describe

/-- The answer to a step on a shared list. -/
inductive SharedReply where
  | done
  | handle (h : Nat)
  | items (items : List Int)
  | same (yes : Bool)
  | description (text : String)

/-- The lists, and for each handle the list it leads to. -/
structure SharedLists where
  lists : Array (List Int)
  handles : Array Nat

namespace SharedLists

/-- One empty list with handle 0. -/
def start : SharedLists := ⟨#[[]], #[0]⟩

/-- The list that a handle leads to. -/
def target (s : SharedLists) (handle : Nat) : Nat := s.handles[handle]?.getD 0

def items (s : SharedLists) (handle : Nat) : List Int := s.lists[s.target handle]?.getD []

/-- Carries out a step on a handle. -/
def step (s : SharedLists) (handle : Nat) : SharedCommand → SharedReply × SharedLists
  | .new =>
    (.handle s.handles.size, ⟨s.lists.push [], s.handles.push s.lists.size⟩)
  | .clone => (.handle s.handles.size, { s with handles := s.handles.push (s.target handle) })
  | .push value => (.done, { s with lists := s.lists.modify (s.target handle) (· ++ [value]) })
  | .read => (.items (s.items handle), s)
  | .same other => (.same (s.target handle == s.target other), s)
  | .describe =>
    (.description ("SharedMutableRegistry(" ++ Value.brackets ((s.items handle).map toString)
      ++ ")"), s)

/-- Carries out steps, each on a handle. -/
def steps (s : SharedLists) : List (Nat × SharedCommand) → List SharedReply
  | [] => []
  | (handle, c) :: rest =>
    let (reply, s) := s.step handle c
    reply :: s.steps rest

end SharedLists

end StatementEngine
