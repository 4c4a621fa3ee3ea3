/-!
# Queues

**Two lists, one view.** What a queue holds is `Queue.toList`, oldest first. Elements are added
behind all others and leave at either end. Inside, the last elements stand in a list of their own,
newest first, so that adding one takes one step.

Each operation has its equations through the view: `toList_push`, `pop?_eq_none_iff` and
`toList_of_pop?`, `popNewest?_eq_none_iff` and `toList_of_popNewest?`.
-/

namespace StatementEngine

/-- A queue. -/
structure Queue (α : Type) where
  front : List α
  /-- The elements after those in front, newest first. -/
  back : List α
  deriving Inhabited

namespace Queue

variable {α : Type}

def empty : Queue α := ⟨[], []⟩

/-- What the queue holds, oldest first. -/
def toList (q : Queue α) : List α := q.front ++ q.back.reverse

def size (q : Queue α) : Nat := q.front.length + q.back.length

/-- Adds an element behind all others. -/
def push (q : Queue α) (a : α) : Queue α := { q with back := a :: q.back }

/-- The oldest element, and the queue without it. -/
def pop? (q : Queue α) : Option (α × Queue α) :=
  match q.front with
  | a :: rest => some (a, { q with front := rest })
  | [] =>
    match q.back.reverse with
    | a :: rest => some (a, ⟨rest, []⟩)
    | [] => none

/-- The newest element, and the queue without it. -/
def popNewest? (q : Queue α) : Option (α × Queue α) :=
  match q.back with
  | a :: rest => some (a, { q with back := rest })
  | [] =>
    match q.front.reverse with
    | a :: rest => some (a, ⟨[], rest⟩)
    | [] => none

@[simp] theorem toList_empty : (empty : Queue α).toList = [] := rfl

theorem length_toList (q : Queue α) : q.toList.length = q.size := by simp [toList, size]

@[simp] theorem toList_push (q : Queue α) (a : α) : (q.push a).toList = q.toList ++ [a] := by
  simp [toList, push]

theorem pop?_eq_none_iff {q : Queue α} : q.pop? = none ↔ q.toList = [] := by
  unfold pop? toList
  split
  · next h => simp [h]
  · next h => split <;> simp_all

theorem toList_of_pop? {q r : Queue α} {a : α} (h : q.pop? = some (a, r)) :
    q.toList = a :: r.toList := by
  unfold pop? at h
  split at h
  · next hq =>
    simp only [Option.some.injEq, Prod.mk.injEq] at h
    obtain ⟨rfl, rfl⟩ := h
    simp [toList, hq]
  · next hq =>
    split at h
    · next hb =>
      simp only [Option.some.injEq, Prod.mk.injEq] at h
      obtain ⟨rfl, rfl⟩ := h
      simp [toList, hq, hb]
    · simp at h

theorem popNewest?_eq_none_iff {q : Queue α} : q.popNewest? = none ↔ q.toList = [] := by
  unfold popNewest? toList
  split
  · next h => simp [h]
  · next h => split <;> simp_all

theorem toList_of_popNewest? {q r : Queue α} {a : α} (h : q.popNewest? = some (a, r)) :
    q.toList = r.toList ++ [a] := by
  unfold popNewest? at h
  split at h
  · next hq =>
    simp only [Option.some.injEq, Prod.mk.injEq] at h
    obtain ⟨rfl, rfl⟩ := h
    simp [toList, hq]
  · next hq =>
    split at h
    · next hf =>
      simp only [Option.some.injEq, Prod.mk.injEq] at h
      obtain ⟨rfl, rfl⟩ := h
      simpa [toList, hq] using congrArg List.reverse hf
    · simp at h

end Queue

end StatementEngine
