/-!
# Ordered fields

The entries of an object in the order of their first insertion. A new value for a key takes the
place of the old one. Removing a key moves the last entry into the gap, so the order of the
remaining keys is part of the result.
-/

set_option autoImplicit false

namespace ToolSpec

abbrev Fields (α : Type) := List (String × α)

namespace Fields

variable {α : Type}

def keys (fs : Fields α) : List String := fs.map Prod.fst

def has (key : String) (fs : Fields α) : Bool := (fs.lookup key).isSome

def insert (key : String) (value : α) : Fields α → Fields α
  | [] => [(key, value)]
  | (k, v)::rest => if k = key then (key, value)::rest else (k, v)::insert key value rest

/-- The last entry takes the place of the removed one. -/
def erase (key : String) : Fields α → Fields α
  | [] => []
  | (k, v)::rest =>
    if k = key then
      match rest.getLast? with
      | none => []
      | some last => last::rest.dropLast
    else (k, v)::erase key rest

def insertAll (entries : Fields α) (fs : Fields α) : Fields α :=
  entries.foldl (fun acc (k, v) => insert k v acc) fs

theorem lookup_cons_ite (key k : String) (v : α) (fs : Fields α) :
    List.lookup key ((k, v)::fs) = if key = k then some v else fs.lookup key := by
  by_cases h : key = k <;> simp [List.lookup_cons, h, beq_eq_false_iff_ne.2]

theorem lookup_insert (key k : String) (value : α) (fs : Fields α) :
    (insert key value fs).lookup k = if k = key then some value else fs.lookup k := by
  induction fs with
  | nil => simp [insert, lookup_cons_ite]
  | cons e rest ih =>
    obtain ⟨k', v⟩ := e
    by_cases h' : k' = key
    · subst h'
      by_cases h : k = k' <;> simp [insert, lookup_cons_ite, h]
    · by_cases h : k = k'
      · subst h; simp [insert, h']
      · simp [insert, h', lookup_cons_ite, h, ih]

theorem keys_insert_of_mem {key : String} {fs : Fields α} (value : α) (h : key ∈ keys fs) :
    keys (insert key value fs) = keys fs := by
  induction fs with
  | nil => simp [keys] at h
  | cons e rest ih =>
    obtain ⟨k, v⟩ := e
    by_cases hk : k = key
    · simp [insert, keys, hk]
    · have hr : key ∈ keys rest := by
        simpa [keys, show ¬ key = k from fun h => hk h.symm] using h
      simp only [keys] at ih hr
      simp [insert, keys, hk, ih hr]

theorem keys_insert_of_not_mem {key : String} {fs : Fields α} (value : α) (h : key ∉ keys fs) :
    keys (insert key value fs) = keys fs ++ [key] := by
  induction fs with
  | nil => rfl
  | cons e rest ih =>
    obtain ⟨k, v⟩ := e
    simp only [keys, List.map_cons, List.mem_cons, not_or] at h ih
    simp [insert, keys, Ne.symm h.1, ih h.2]

end Fields

end ToolSpec
