import Mathlib.Data.String.Basic
import StatementEngine.Proofs.Value.Functions

/-!
# The rows of a value

**A value is split into rows before a loop over it begins.** A list has a row for each of its
elements, a map for each of its entries and a string for each of its characters (`SplitsInto`). For
several loop variables the elements of a list have to be lists themselves, and each of them is
brought to the number of variables (`resized`). A value that cannot be split like this is refused as
a whole (`Refuses`).

The entries of a map come in rising order of their keys, which is part of their type
(`Dictionary.keys_rise`).
-/

namespace StatementEngine

/-! ## Lists of a length -/

variable {n : Nat} {v : Value} {rs : List (List Value)}

theorem length_resized (n : Nat) (items : List Value) : (resized n items).length = n := by
  rw [resized, List.length_append, List.length_take, List.length_replicate]
  omega

/-- Missing positions are `nil`, and surplus ones are dropped. -/
theorem getElem?_resized {i : Nat} (inside : i < n) (items : List Value) :
    (resized n items)[i]? = some (items[i]?.getD .nil) := by
  rw [resized, List.getElem?_append, List.length_take, List.getElem?_replicate, List.getElem?_take]
  grind

/-! ## Splitting -/

/-- The rows of a value for a number of loop variables. -/
inductive SplitsInto (n : Nat) : Value → List (List Value) → Prop
  | elements (items : List Value) (single : n ≤ 1) :
      SplitsInto n (.list items) (items.map fun item => [item])
  | parts (items : List (List Value)) (several : 1 < n) :
      SplitsInto n (.list (items.map .list)) (items.map (resized n))
  | keys (entries : Dictionary Value none) (single : n ≤ 1) :
      SplitsInto n (.map entries) (entries.keys.map fun k => [.str k])
  | entries (entries : Dictionary Value none) (pair : n = 2) :
      SplitsInto n (.map entries) (entries.toList.map fun e => [.str e.1, e.2])
  | characters (text : String) (single : n ≤ 1) :
      SplitsInto n (.str text) (text.toList.map fun c => [.str (String.singleton c)])

/-- Why a value has no rows for a number of loop variables. -/
inductive Refuses (n : Nat) : Value → ErrorKind → Prop
  | element {items : List Value} {item : Value} (several : 1 < n) (inside : item ∈ items)
      (single : ∀ parts, item ≠ .list parts) : Refuses n (.list items) (.cardinalityMismatch n 1)
  | entries (entries : Dictionary Value none) (many : 2 < n) :
      Refuses n (.map entries) (.cardinalityMismatch n 2)
  | characters (text : String) (several : 1 < n) : Refuses n (.str text) (.cardinalityMismatch n 1)
  | other {v : Value} (notList : ∀ items, v ≠ .list items) (notMap : ∀ entries, v ≠ .map entries)
      (notText : ∀ text, v ≠ .str text) : Refuses n v (.notIterable v.type)

/-- The rows of a list of lists, or the refusal of its first element that is none. -/
theorem rows_list_cases (several : 1 < n) (items : List Value) :
    (∃ parts : List (List Value), items = parts.map .list ∧
      rows (.list items) n = .ok (parts.map (resized n))) ∨
    (∃ item ∈ items, (∀ parts, item ≠ .list parts) ∧
      rows (.list items) n = .error (.cardinalityMismatch n 1)) := by
  have wide : ¬ n ≤ 1 := Nat.not_le_of_lt several
  simp only [rows, if_neg wide]
  induction items with
  | nil => exact Or.inl ⟨[], rfl, rfl⟩
  | cons item rest ih =>
      cases item with
      | list parts =>
          rcases ih with ⟨others, rfl, whole⟩ | ⟨item, inside, single, whole⟩
          · refine Or.inl ⟨parts :: others, rfl, ?_⟩
            rw [List.mapM_cons, whole]
            rfl
          · refine Or.inr ⟨item, List.mem_cons_of_mem _ inside, single, ?_⟩
            rw [List.mapM_cons, whole]
            rfl
      | nil | bool | int | float | str | map | function =>
          exact Or.inr ⟨_, List.mem_cons_self, by simp, rfl⟩

/-- A value is split or refused. -/
theorem rows_cases (v : Value) (n : Nat) :
    (∃ rs, rows v n = .ok rs ∧ SplitsInto n v rs) ∨ ∃ k, rows v n = .error k ∧ Refuses n v k := by
  cases v with
  | list items =>
      by_cases single : n ≤ 1
      · exact Or.inl ⟨_, by simp only [rows, if_pos single], .elements items single⟩
      · have several : 1 < n := Nat.lt_of_not_le single
        rcases rows_list_cases several items with ⟨parts, rfl, whole⟩ |
          ⟨item, inside, single, whole⟩
        · exact Or.inl ⟨_, whole, .parts parts several⟩
        · exact Or.inr ⟨_, whole, .element several inside single⟩
  | map entries =>
      match n with
      | 0 => exact Or.inl ⟨_, rfl, .keys entries (Nat.zero_le 1)⟩
      | 1 => exact Or.inl ⟨_, rfl, .keys entries (Nat.le_refl 1)⟩
      | 2 => exact Or.inl ⟨_, rfl, .entries entries rfl⟩
      | n + 3 => exact Or.inr ⟨_, rfl, .entries entries (by omega)⟩
  | str text =>
      by_cases single : n ≤ 1
      · exact Or.inl ⟨_, by simp only [rows, if_pos single], .characters text single⟩
      · have several : 1 < n := Nat.lt_of_not_le single
        exact Or.inr ⟨_, by simp only [rows, if_neg single], .characters text several⟩
  | nil | bool | int | float | function =>
      exact Or.inr ⟨_, rfl, .other (by simp) (by simp) (by simp)⟩

theorem SplitsInto.rows_eq (splits : SplitsInto n v rs) : rows v n = .ok rs := by
  cases splits with
  | elements items single => simp only [rows, if_pos single]
  | parts items several =>
      rcases rows_list_cases several (items.map .list) with ⟨parts, same, whole⟩ |
        ⟨item, inside, single, -⟩
      · obtain rfl : items = parts := List.map_injective_iff.mpr (fun _ _ => Value.list.inj) same
        exact whole
      · obtain ⟨parts, -, rfl⟩ := List.mem_map.mp inside
        exact absurd rfl (single parts)
  | keys entries single =>
      match n, single with
      | 0, _ | 1, _ => rfl
  | entries entries pair =>
      subst pair
      rfl
  | characters text single => simp only [rows, if_pos single]

theorem Refuses.rows_eq {k : ErrorKind} (refuses : Refuses n v k) : rows v n = .error k := by
  cases refuses with
  | @element items item several inside single =>
      rcases rows_list_cases several items with ⟨parts, rfl, -⟩ | ⟨-, -, -, whole⟩
      · obtain ⟨part, -, rfl⟩ := List.mem_map.mp inside
        exact absurd rfl (single part)
      · exact whole
  | entries entries many =>
      match n, many with
      | n + 3, _ => rfl
  | characters text several => simp only [rows, if_neg (Nat.not_le_of_lt several)]
  | other notList notMap notText =>
      cases v with
      | list items => exact absurd rfl (notList items)
      | map entries => exact absurd rfl (notMap entries)
      | str text => exact absurd rfl (notText text)
      | nil | bool | int | float | function => rfl

/-- Every row has a value for each loop variable. -/
theorem SplitsInto.long (splits : SplitsInto n v rs) : ∀ row ∈ rs, n ≤ row.length := by
  intro row inside
  cases splits with
  | parts items several =>
      obtain ⟨parts, -, rfl⟩ := List.mem_map.mp inside
      exact Nat.le_of_eq (length_resized n parts).symm
  | elements _ single | keys _ single | characters _ single =>
      obtain ⟨_, -, rfl⟩ := List.mem_map.mp inside
      exact single
  | entries _ pair =>
      obtain ⟨_, -, rfl⟩ := List.mem_map.mp inside
      exact Nat.le_of_eq pair

/-- For several loop variables, the row of an element has the parts of the element, and `nil` where
there is none. -/
theorem SplitsInto.padded {items : List Value} (splits : SplitsInto n (.list items) rs)
    (several : 1 < n) : rs.length = items.length ∧
      ∀ (i : Nat) row, rs[i]? = some row → row.length = n ∧ ∃ parts, items[i]? = some (.list parts) ∧
        ∀ j < n, row[j]? = some (parts[j]?.getD .nil) := by
  cases splits with
  | elements _ single => exact absurd several (Nat.not_lt_of_le single)
  | parts items _ =>
      refine ⟨by simp, fun i row here => ?_⟩
      obtain ⟨parts, element, rfl⟩ :=
        Option.map_eq_some_iff.mp ((List.getElem?_map ..).symm.trans here)
      refine ⟨length_resized n parts, parts, by rw [List.getElem?_map, element]; rfl, ?_⟩
      exact fun j inside => getElem?_resized inside parts

/-- The first values of the rows of a map are its keys. -/
theorem SplitsInto.heads {entries : Dictionary Value none}
    (splits : SplitsInto n (.map entries) rs) :
    rs.map List.head? = entries.keys.map fun k => some (.str k) := by
  cases splits with
  | keys | entries => simp [Dictionary.keys, Function.comp_def]

/-- The rows of a string are its characters. -/
theorem SplitsInto.characters_eq {text : String} (splits : SplitsInto n (.str text) rs) :
    rs = (text.toList.map String.singleton).map fun piece => [.str piece] := by
  cases splits with
  | characters => simp [Function.comp_def]

/-- The characters of a string make up the string. -/
theorem join_characters (text : String) :
    String.join (text.toList.map String.singleton) = text := by
  rw [← String.toList_inj, String.toList_join, List.flatMap_map]
  simp

end StatementEngine
