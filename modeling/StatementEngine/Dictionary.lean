/-!
# Dictionaries

**Entries in rising order of their keys.** Both the map values of a script and the registry of
modules are read in that order, so it is part of their type: in a `Dictionary β low` every key is
above the one before it, and the first one above `low`. `Dictionary.insert` puts a key where it
belongs and replaces the value of one that is there already.
-/

namespace StatementEngine

/-- Entries by key, the keys rising and all of them above `low`. -/
inductive Dictionary (β : Type) : Option String → Type
  | nil {low : Option String} : Dictionary β low
  | cons {low : Option String} (key : String) (above : ∀ k ∈ low, k < key) (value : β)
      (rest : Dictionary β (some key)) : Dictionary β low

/-- Every key may stand in a dictionary without a bound. -/
theorem above_none {key : String} : ∀ k ∈ (none : Option String), k < key := nofun

theorem above_some {k key : String} (lt : k < key) : ∀ l ∈ some k, l < key := by
  simpa using lt

/-- Of two keys, one that is neither the other one nor before it is after it. -/
theorem key_lt {key k : String} (other : k ≠ key) (notBefore : ¬ key < k) : k < key :=
  String.not_le.mp fun le => other (String.le_antisymm (String.not_lt.mp notBefore) le)

namespace Dictionary

variable {β : Type} {low : Option String}

instance : Inhabited (Dictionary β low) := ⟨nil⟩

/-- The entries in their order. -/
def toList {low : Option String} : Dictionary β low → List (String × β)
  | nil => []
  | cons key _ value rest => (key, value) :: rest.toList

instance : CoeOut (Dictionary β low) (List (String × β)) := ⟨toList⟩

instance : Membership (String × β) (Dictionary β low) := ⟨fun d e => e ∈ d.toList⟩

/-- The keys, rising. -/
def keys (d : Dictionary β low) : List String := d.toList.map (·.1)

/-- The values, in the order of their keys. -/
def values (d : Dictionary β low) : List β := d.toList.map (·.2)

def isEmpty : Dictionary β low → Bool
  | nil => true
  | cons .. => false

/-- The value of a key. -/
def find? (key : String) {low : Option String} : Dictionary β low → Option β
  | nil => none
  | cons k _ value rest => if k = key then some value else rest.find? key

/-- Sets the value of a key. -/
def insert {low : Option String} (d : Dictionary β low) (key : String) (value : β)
    (above : ∀ k ∈ low, k < key) : Dictionary β low :=
  match d with
  | nil => cons key above value nil
  | cons k above' v rest =>
    if same : k = key then cons k above' value rest
    else if less : key < k then cons key above value (cons k (above_some less) v rest)
    else cons k above' v (rest.insert key value (above_some (key_lt same less)))

/-- The dictionary of a list of entries; the last value of a repeated key counts. -/
def ofEntries (entries : List (String × β)) : Dictionary β none :=
  entries.foldl (fun d (k, v) => d.insert k v above_none) nil

variable {d : Dictionary β low} {key k : String} {b : β} {e : String × β}
  {above : ∀ k ∈ low, k < key}

/-! ## Entries -/

@[simp] theorem mem_cons {rest : Dictionary β (some key)} :
    e ∈ cons key above b rest ↔ e = (key, b) ∨ e ∈ rest :=
  List.mem_cons

theorem mem_of_find? (h : d.find? key = some b) : (key, b) ∈ d := by
  induction d with
  | nil => cases h
  | cons k _ v rest ih =>
      rw [find?] at h
      split at h
      · next found =>
          cases h
          exact mem_cons.mpr (Or.inl (by rw [found]))
      · exact mem_cons.mpr (Or.inr (ih h))

theorem mem_insert (h : e ∈ d.insert key b above) : e = (key, b) ∨ e ∈ d := by
  induction d with
  | nil => exact Or.inl (List.mem_singleton.mp h)
  | cons k _ v rest ih =>
      rw [insert] at h
      split at h
      · next same =>
          subst same
          exact (mem_cons.mp h).imp_right fun he => mem_cons.mpr (Or.inr he)
      · split at h
        · exact mem_cons.mp h
        · rcases mem_cons.mp h with rfl | h
          · exact Or.inr (mem_cons.mpr (Or.inl rfl))
          · exact (ih h).imp_right fun he => mem_cons.mpr (Or.inr he)

/-! ## The order of the keys -/

theorem lt_of_mem_keys (d : Dictionary β low) (h : k ∈ d.keys) : ∀ l ∈ low, l < k := by
  induction d with
  | nil => cases h
  | cons key above _ rest ih =>
      intro l hl
      rcases List.mem_cons.mp h with rfl | h
      · exact above l hl
      · exact String.lt_trans (above l hl) (ih h key rfl)

/-- **The keys rise**, whatever the dictionary has been made of. -/
theorem keys_rise (d : Dictionary β low) : d.keys.Pairwise (· < ·) := by
  induction d with
  | nil => exact .nil
  | cons key _ _ rest ih => exact .cons (fun k hk => lt_of_mem_keys rest hk key rfl) ih

/-! ## Insertion -/

theorem find?_insert (d : Dictionary β low) (key k : String) (b : β) (above) :
    (d.insert key b above).find? k = if k = key then some b else d.find? k := by
  induction d with
  | nil => simp [insert, find?, eq_comm]
  | cons l _ v rest ih => grind [insert, find?]

theorem insert_insert (d : Dictionary β low) (key : String) (a b : β) (above) :
    (d.insert key a above).insert key b above = d.insert key b above := by
  induction d with
  | nil => simp [insert]
  | cons l _ v rest ih => grind [insert]

theorem insert_comm {k l : String} (apart : k ≠ l) (a b : β) (d : Dictionary β low) (hk) (hl) :
    (d.insert k a hk).insert l b hl = (d.insert l b hl).insert k a hk := by
  induction d with
  | nil => grind [insert]
  | cons m _ v rest ih => grind [insert]

theorem mem_keys_insert : k ∈ (d.insert key b above).keys ↔ k = key ∨ k ∈ d.keys := by
  induction d with
  | nil => simp [insert, keys, toList]
  | cons l _ v rest ih => grind [insert, keys, toList]

end Dictionary

end StatementEngine
