import StatementEngine.Value.Basic

/-!
# The functions that a value holds

**A value holds functions at any depth** of its lists and maps (`Value.Holds`). `Value.Only` says
that all of them are of a set.
-/

namespace StatementEngine

/-- The function occurs in the value. -/
inductive Value.Holds : Value → FunctionRef → Prop
  | function (f : FunctionRef) : Holds (.function f) f
  | item {items : List Value} {v : Value} {f : FunctionRef} (hv : v ∈ items) (h : Holds v f) :
      Holds (.list items) f
  | entry {entries : Dictionary Value none} {e : String × Value} {f : FunctionRef}
      (he : e ∈ entries) (h : Holds e.2 f) : Holds (.map entries) f

/-- The value only holds functions of a set. -/
def Value.Only (fn : FunctionRef → Prop) (v : Value) : Prop := ∀ f, v.Holds f → fn f

variable {fn fn' : FunctionRef → Prop}

namespace Value

theorem Only.mono {v : Value} (h : v.Only fn) (le : ∀ f, fn f → fn' f) : v.Only fn' :=
  fun f hf => le f (h f hf)

@[simp] theorem only_nil : nil.Only fn := fun _ h => by cases h

@[simp] theorem only_bool (b : Bool) : (bool b).Only fn := fun _ h => by cases h

@[simp] theorem only_int (n : Int64) : (int n).Only fn := fun _ h => by cases h

@[simp] theorem only_float (x : Double) : (float x).Only fn := fun _ h => by cases h

@[simp] theorem only_str (s : String) : (str s).Only fn := fun _ h => by cases h

@[simp] theorem only_function {f : FunctionRef} : (function f).Only fn ↔ fn f := by
  constructor
  · exact fun h => h f (.function f)
  · intro h g hg
    cases hg
    exact h

@[simp] theorem only_list {items : List Value} : (list items).Only fn ↔ ∀ v ∈ items, v.Only fn := by
  constructor
  · exact fun h v hv f hf => h f (.item hv hf)
  · intro h f hf
    cases hf with
    | item hv hf => exact h _ hv f hf

@[simp] theorem only_map {entries : Dictionary Value none} :
    (map entries).Only fn ↔ ∀ e ∈ entries, e.2.Only fn := by
  constructor
  · exact fun h e he f hf => h f (.entry he hf)
  · intro h f hf
    cases hf with
    | entry he hf => exact h _ he f hf

theorem only_getD {v? : Option Value} (h : ∀ v ∈ v?, v.Only fn) : (v?.getD nil).Only fn := by
  cases v? with
  | none => exact only_nil
  | some v => exact h v rfl

theorem only_collapse {vs : List Value} (h : ∀ v ∈ vs, v.Only fn) : (collapse vs).Only fn := by
  unfold collapse
  split
  · exact only_nil
  · exact h _ List.mem_cons_self
  · exact only_list.mpr h

theorem only_index? {items : List Value} (h : ∀ v ∈ items, v.Only fn) (n : Int64) :
    ∀ v ∈ index? items n, v.Only fn := by
  intro v hv
  unfold index? at hv
  split at hv
  · cases hv
  · exact h v (List.mem_of_getElem? hv)

end Value

end StatementEngine
