/-!
# Dictionaries

Finite maps as lists of pairs in which each key stands at most once when they are built by
`insert` and `erase`.  A key that is written again moves to the end.
-/

namespace VehicleGateway

/-- A finite map from `κ` to `α`. -/
structure Dictionary (κ α : Type) where
  entries : List (κ × α) := []
  deriving DecidableEq, Repr

namespace Dictionary

variable {κ α : Type} [DecidableEq κ]

/-- The dictionary without entries. -/
def empty : Dictionary κ α := {}

instance : EmptyCollection (Dictionary κ α) := ⟨empty⟩

instance : Inhabited (Dictionary κ α) := ⟨empty⟩

/-- The value of `k` in a list of pairs. -/
def look (k : κ) : List (κ × α) → Option α
  | [] => none
  | (k', a) :: rest => if k' = k then some a else look k rest

/-- The value written for `k`. -/
def get? (d : Dictionary κ α) (k : κ) : Option α :=
  look k d.entries

/-- Whether there is a value for `k`. -/
def contains (d : Dictionary κ α) (k : κ) : Bool :=
  (d.get? k).isSome

/-- Forgets the value of `k`. -/
def erase (d : Dictionary κ α) (k : κ) : Dictionary κ α :=
  ⟨d.entries.filter fun e => e.1 ≠ k⟩

/-- Writes `a` for `k`, in place of any value written before. -/
def insert (d : Dictionary κ α) (k : κ) (a : α) : Dictionary κ α :=
  ⟨(d.erase k).entries ++ [(k, a)]⟩

/-- The keys, in the order in which they were last written. -/
def keys (d : Dictionary κ α) : List κ :=
  d.entries.map (·.1)

/-- The number of entries. -/
def size (d : Dictionary κ α) : Nat :=
  d.entries.length

theorem look_filter_ne (k : κ) (l : List (κ × α)) : look k (l.filter fun e => e.1 ≠ k) = none := by
  induction l with
  | nil => rfl
  | cons e l ih =>
    obtain ⟨k', a⟩ := e
    by_cases h : k' = k
    · simpa [List.filter_cons, h] using ih
    · simpa [List.filter_cons, h, look] using ih

theorem look_filter_of_ne {k k' : κ} (h : k' ≠ k) (l : List (κ × α)) :
    look k' (l.filter fun e => e.1 ≠ k) = look k' l := by
  induction l with
  | nil => rfl
  | cons e l ih =>
    obtain ⟨k₀, a⟩ := e
    by_cases h₀ : k₀ = k
    · subst h₀
      simpa [look, Ne.symm h] using ih
    · by_cases h₁ : k₀ = k' <;> simp_all [look]

theorem look_append (k : κ) (l₁ l₂ : List (κ × α)) :
    look k (l₁ ++ l₂) = (look k l₁).or (look k l₂) := by
  induction l₁ with
  | nil => rfl
  | cons e l ih =>
    obtain ⟨k', a⟩ := e
    by_cases h : k' = k <;> simp [look, h, ih]

@[simp] theorem get?_empty (k : κ) : (∅ : Dictionary κ α).get? k = none := rfl

@[simp] theorem get?_erase_self (d : Dictionary κ α) (k : κ) : (d.erase k).get? k = none :=
  look_filter_ne k d.entries

theorem get?_erase_of_ne (d : Dictionary κ α) {k k' : κ} (h : k' ≠ k) :
    (d.erase k).get? k' = d.get? k' :=
  look_filter_of_ne h d.entries

@[simp] theorem get?_insert_self (d : Dictionary κ α) (k : κ) (a : α) :
    (d.insert k a).get? k = some a := by
  have h := d.get?_erase_self k
  simp only [get?] at h
  simp [get?, insert, look_append, h, look]

theorem get?_insert_of_ne (d : Dictionary κ α) {k k' : κ} (h : k' ≠ k) (a : α) :
    (d.insert k a).get? k' = d.get? k' := by
  have h' := d.get?_erase_of_ne h
  simp only [get?] at h'
  simp [get?, insert, look_append, h', look, Ne.symm h]

theorem keys_insert (d : Dictionary κ α) (k : κ) (a : α) :
    (d.insert k a).keys = d.keys.filter (· ≠ k) ++ [k] := by
  simp [keys, insert, erase, List.filter_map, Function.comp_def]

/-- A key that is written stands once, and all others as often as before. -/
theorem nodup_keys_insert {d : Dictionary κ α} (h : d.keys.Nodup) (k : κ) (a : α) :
    (d.insert k a).keys.Nodup := by
  rw [keys_insert, List.nodup_append]
  refine ⟨List.Pairwise.filter _ h, by simp, ?_⟩
  intro k' hk' k'' hk''
  obtain rfl := List.mem_singleton.mp hk''
  simpa using (List.mem_filter.mp hk').2

theorem look_eq_some_iff {l : List (κ × α)} (h : (l.map (·.1)).Nodup) (k : κ) (a : α) :
    look k l = some a ↔ (k, a) ∈ l := by
  induction l with
  | nil => simp [look]
  | cons e l ih =>
    obtain ⟨k', a'⟩ := e
    obtain ⟨hnew, hrest⟩ := List.nodup_cons.mp h
    by_cases hk : k' = k
    · subst hk
      have hnot : (k', a) ∉ l := fun hmem => hnew (List.mem_map.mpr ⟨_, hmem, rfl⟩)
      simp [look, hnot, eq_comm]
    · simp [look, hk, ih hrest, Ne.symm hk]

/-- Where no key stands twice, the values that are found are those that are listed. -/
theorem get?_eq_some_iff {d : Dictionary κ α} (h : d.keys.Nodup) (k : κ) (a : α) :
    d.get? k = some a ↔ (k, a) ∈ d.entries :=
  look_eq_some_iff h k a

end Dictionary
end VehicleGateway
