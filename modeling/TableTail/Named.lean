/-!
# Values by name

Finite maps from names, kept as lists of pairs in the order of the names, each name once. Names are
ordered by their characters' code points.
-/

namespace TableTail

/-- Values by name. -/
abbrev Named (α : Type) := List (String × α)

namespace Named

variable {α : Type}

/-- The map with a name set to a value: in its place in the order, or instead of the value that the
name had. -/
def set (name : String) (value : α) : Named α → Named α
  | [] => [(name, value)]
  | (n, v) :: rest =>
    if name < n then (name, value) :: (n, v) :: rest
    else if name = n then (name, value) :: rest
    else (n, v) :: set name value rest

/-- The value of a name. -/
def get? (name : String) : Named α → Option α
  | [] => none
  | (n, v) :: rest => if name = n then some v else get? name rest

/-- Whether a name has a value. -/
def has (name : String) (m : Named α) : Bool := (get? name m).isSome

/-- The names in order. -/
def names (m : Named α) : List String := m.map (·.1)

/-- The values in the order of their names. -/
def values (m : Named α) : List α := m.map (·.2)

/-- The map of a list of pairs, of which the last one of a name counts. -/
def ofPairs (pairs : List (String × α)) : Named α :=
  pairs.foldl (fun m (n, v) => set n v m) []

/-- The map with the value of a name changed, if it has one. -/
def change (name : String) (f : α → α) (m : Named α) : Named α :=
  m.map fun (n, v) => (n, if n = name then f v else v)

/-- The names of a list in order, each once. -/
def sortedNames (l : List String) : List String := names (ofPairs (l.map fun n => (n, ())))

@[simp] theorem get?_nil (name : String) : get? name ([] : Named α) = none := rfl

theorem get?_set_self (name : String) (value : α) (m : Named α) :
    get? name (set name value m) = some value := by
  induction m with
  | nil => simp [set, get?]
  | cons f rest ih =>
    obtain ⟨n, v⟩ := f
    unfold set
    split
    · simp [get?]
    · split
      · simp [get?]
      · next h₁ h₂ => simp [get?, h₂, ih]

theorem get?_set_of_ne {name other : String} (h : other ≠ name) (value : α) (m : Named α) :
    get? other (set name value m) = get? other m := by
  induction m with
  | nil => simp [set, get?, h]
  | cons f rest ih =>
    obtain ⟨n, v⟩ := f
    unfold set
    split
    · simp [get?, h]
    · split
      · next h₁ h₂ => subst h₂; simp [get?, h]
      · simp [get?, ih]

theorem get?_change (name other : String) (f : α → α) (m : Named α) :
    get? other (change name f m) = (get? other m).map fun v => if other = name then f v else v := by
  induction m with
  | nil => rfl
  | cons p rest ih =>
    obtain ⟨n, v⟩ := p
    by_cases h : other = n
    · subst h; simp [change, get?]
    · simpa [change, get?, h] using ih

end Named

end TableTail
