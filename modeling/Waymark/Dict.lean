/-!
Finite maps from text to values, held as a list of entries in key order.

A `Dict` is a plain list, so that a value type may nest in it. Every dictionary built by `insert`
and `erase` from the empty one is sorted, and the view is `get?`: `get?_insert` and
`get?_erase_of_ne` say what each operation does to it.
-/

namespace Waymark

universe u v

/-- Entries in key order, each key at most once. -/
abbrev Dict (α : Type u) := List (String × α)

namespace Dict

variable {α : Type u} {β : Type v}

/-- Keys increase from each entry to all later ones. -/
def Sorted (dict : Dict α) : Prop :=
  dict.Pairwise fun left right => left.1 < right.1

/-- The keys in order. -/
def keys (dict : Dict α) : List String :=
  dict.map Prod.fst

/-- The value held under a key. -/
def get? : Dict α → String → Option α
  | [], _ => none
  | (k, v) :: rest, key => if k = key then some v else get? rest key

/-- Whether a key is held. -/
def contains (dict : Dict α) (key : String) : Bool :=
  (get? dict key).isSome

/-- Hold a value under a key, in place of any earlier one. -/
def insert : Dict α → String → α → Dict α
  | [], key, value => [(key, value)]
  | (k, v) :: rest, key, value =>
      if key < k then (key, value) :: (k, v) :: rest
      else if key = k then (key, value) :: rest
      else (k, v) :: insert rest key value

/-- Drop a key. -/
def erase : Dict α → String → Dict α
  | [], _ => []
  | (k, v) :: rest, key => if k = key then rest else (k, v) :: erase rest key

/-- Gather entries, a later one replacing an earlier one of the same key. -/
def ofList (entries : List (String × α)) : Dict α :=
  entries.foldl (fun dict entry => insert dict entry.1 entry.2) []

@[simp] theorem get?_nil (key : String) : get? ([] : Dict α) key = none := rfl

theorem get?_cons (k : String) (v : α) (rest : Dict α) (key : String) :
    get? ((k, v) :: rest) key = if k = key then some v else get? rest key := rfl

theorem get?_insert (dict : Dict α) (key : String) (value : α) (other : String) :
    get? (insert dict key value) other = if key = other then some value else get? dict other := by
  induction dict with
  | nil => rfl
  | cons entry rest ih =>
      obtain ⟨k, v⟩ := entry
      simp only [insert]
      split
      · simp [get?_cons]
      · split
        · next heq =>
          subst heq
          by_cases hkey : key = other <;> simp [get?_cons, hkey]
        · next hne =>
          rw [get?_cons, get?_cons, ih]
          by_cases hother : k = other
          · simp only [hother, ↓reduceIte]
            rw [if_neg]
            rintro rfl
            exact hne hother.symm
          · simp [hother]

@[simp] theorem get?_insert_self (dict : Dict α) (key : String) (value : α) :
    get? (insert dict key value) key = some value := by
  simp [get?_insert]

theorem get?_insert_of_ne (dict : Dict α) {key other : String} (value : α) (hne : key ≠ other) :
    get? (insert dict key value) other = get? dict other := by
  simp [get?_insert, hne]

theorem get?_erase_of_ne (dict : Dict α) {key other : String} (hne : key ≠ other) :
    get? (erase dict key) other = get? dict other := by
  induction dict with
  | nil => rfl
  | cons entry rest ih =>
      obtain ⟨k, v⟩ := entry
      by_cases hk : k = key
      · subst hk
        simp [erase, get?_cons, hne]
      · simp [erase, hk, get?_cons, ih]

end Dict

end Waymark
