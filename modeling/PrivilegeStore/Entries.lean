/-!
# Named entries

Entries are a list of names with values. A name is looked up at its first place. Inserting under a
name that is present replaces the value at that place, and under a new name adds the entry at
the end. `Entries.names` lists every name once, by first appearance.
-/
namespace PrivilegeStore

abbrev Entries (α : Type) := List (String × α)

namespace Entries

variable {α β : Type}

def find? (name : String) : Entries α → Option α
  | [] => none
  | (n, v) :: rest => if n = name then some v else find? name rest

def insert (name : String) (value : α) : Entries α → Entries α
  | [] => [(name, value)]
  | (n, v) :: rest => if n = name then (n, value) :: rest else (n, v) :: insert name value rest

def erase (name : String) : Entries α → Entries α
  | [] => []
  | (n, v) :: rest => if n = name then erase name rest else (n, v) :: erase name rest

def contains (name : String) (entries : Entries α) : Bool := (find? name entries).isSome

def names : Entries α → List String
  | [] => []
  | (n, _) :: rest => n :: (names rest).filter (· != n)

/-- Changes every value, under the same names. -/
def mapValues (f : α → β) (entries : Entries α) : Entries β := entries.map fun (n, v) => (n, f v)

@[simp] theorem find?_nil (name : String) : find? name ([] : Entries α) = none := rfl

theorem find?_insert (name other : String) (value : α) (entries : Entries α) :
    find? other (insert name value entries) =
      if name = other then some value else find? other entries := by
  induction entries with
  | nil => simp [insert, find?]
  | cons entry rest ih =>
    obtain ⟨n, v⟩ := entry
    by_cases same : n = name
    · subst same
      simp only [insert, find?, if_true]
      split <;> rfl
    · simp only [insert, if_neg same, find?, ih]
      by_cases here : n = other
      · have : name ≠ other := fun eq => same (here.trans eq.symm)
        simp [here, this]
      · simp [here]

@[simp] theorem find?_insert_self (name : String) (value : α) (entries : Entries α) :
    find? name (insert name value entries) = some value := by simp [find?_insert]

theorem find?_insert_of_ne {name other : String} (ne : name ≠ other) (value : α)
    (entries : Entries α) : find? other (insert name value entries) = find? other entries := by
  simp [find?_insert, ne]

/-- Of two values inserted under a name, the later one counts, at the place of the former. -/
theorem insert_insert (name : String) (former value : α) (entries : Entries α) :
    insert name value (insert name former entries) = insert name value entries := by
  induction entries with
  | nil => simp [insert]
  | cons entry rest ih =>
    obtain ⟨n, v⟩ := entry
    by_cases same : n = name
    · simp [insert, same]
    · simp [insert, same, ih]

/-- Inserting what is found anyway changes nothing. -/
theorem insert_of_find? {name : String} {value : α} {entries : Entries α}
    (found : find? name entries = some value) : insert name value entries = entries := by
  induction entries with
  | nil => cases found
  | cons entry rest ih =>
    obtain ⟨n, v⟩ := entry
    rw [find?] at found
    rw [insert]
    split at found
    next same =>
      cases found
      rw [if_pos same]
    next other => rw [if_neg other, ih found]

theorem find?_erase (name other : String) (entries : Entries α) :
    find? other (erase name entries) = if name = other then none else find? other entries := by
  induction entries with
  | nil => simp [erase, find?]
  | cons entry rest ih =>
    obtain ⟨n, v⟩ := entry
    by_cases same : n = name
    · subst same
      simp only [erase, if_true, ih, find?]
      split <;> rfl
    · simp only [erase, if_neg same, find?, ih]
      by_cases here : n = other
      · have : name ≠ other := fun eq => same (here.trans eq.symm)
        simp [here, this]
      · simp [here]

theorem find?_mapValues (f : α → β) (name : String) (entries : Entries α) :
    find? name (mapValues f entries) = (find? name entries).map f := by
  induction entries with
  | nil => rfl
  | cons entry rest ih =>
    obtain ⟨n, v⟩ := entry
    have step : mapValues f ((n, v) :: rest) = (n, f v) :: mapValues f rest := rfl
    rw [step]
    simp only [find?, ih]
    split <;> rfl

/-- The listed names are those that are found. -/
theorem mem_names {name : String} {entries : Entries α} :
    name ∈ names entries ↔ ∃ value, find? name entries = some value := by
  induction entries with
  | nil => simp [names]
  | cons entry rest ih =>
    obtain ⟨n, v⟩ := entry
    by_cases here : n = name
    · simp [names, find?, here]
    · have there : name ≠ n := fun eq => here eq.symm
      simp [names, find?, here, there, ih]

/-- Every name is listed once. -/
theorem names_nodup (entries : Entries α) : (names entries).Nodup := by
  induction entries with
  | nil => simp [names]
  | cons entry rest ih =>
    obtain ⟨n, v⟩ := entry
    exact List.nodup_cons.2 ⟨by simp, ih.filter _⟩

end Entries

end PrivilegeStore
