/-
Tables: keys with their values in the order of first entry.

`put` gives a key a value: a key that is there keeps its place and takes the new value, a new key goes to the end.
`putSorted` does the same in a table that is kept in the order of its keys. `lookup?` finds the value of a key.
-/
namespace RackMap

/-- keys with their values, in order -/
abbrev Table (κ ν : Type) := List (κ × ν)

namespace Table

variable {κ ν μ : Type} [DecidableEq κ]

def lookup? : Table κ ν → κ → Option ν
  | [], _ => none
  | (k, v) :: rest, key => if k = key then some v else lookup? rest key

def has (t : Table κ ν) (key : κ) : Bool := (t.lookup? key).isSome

def keys (t : Table κ ν) : List κ := List.map Prod.fst t

def values (t : Table κ ν) : List ν := List.map Prod.snd t

/-- `key` with value `value`, in its old place or else at the end -/
def put : Table κ ν → κ → ν → Table κ ν
  | [], key, value => [(key, value)]
  | (k, v) :: rest, key, value => if k = key then (k, value) :: rest else (k, v) :: put rest key value

/-- `key` with value `value`, in its old place or else before the first greater key -/
def putSorted [LT κ] [DecidableLT κ] : Table κ ν → κ → ν → Table κ ν
  | [], key, value => [(key, value)]
  | (k, v) :: rest, key, value =>
    if k = key then (k, value) :: rest
    else if key < k then (key, value) :: (k, v) :: rest
    else (k, v) :: putSorted rest key value

/-- the pairs entered one after the other -/
def ofPairs (ps : List (κ × ν)) : Table κ ν := ps.foldl (fun t p => t.put p.1 p.2) []

/-- the pairs entered one after the other, in the order of the keys -/
def sortedOfPairs [LT κ] [DecidableLT κ] (ps : List (κ × ν)) : Table κ ν :=
  ps.foldl (fun t p => t.putSorted p.1 p.2) []

@[simp] theorem lookup?_nil (key : κ) : lookup? ([] : Table κ ν) key = none := rfl

theorem lookup?_put (t : Table κ ν) (key other : κ) (value : ν) :
    (t.put key value).lookup? other = if other = key then some value else t.lookup? other := by
  induction t with
  | nil => simp only [put, lookup?, eq_comm]
  | cons p rest ih =>
    obtain ⟨k, v⟩ := p
    by_cases hk : k = key
    · subst hk
      by_cases h : k = other
      · simp [put, lookup?, h]
      · simp [put, lookup?, h, Ne.symm h]
    · by_cases h : k = other
      · subst h; simp [put, lookup?, hk]
      · simp [put, lookup?, hk, h, ih]

theorem keys_put (t : Table κ ν) (key : κ) (value : ν) :
    (t.put key value).keys = if key ∈ t.keys then t.keys else t.keys ++ [key] := by
  induction t with
  | nil => simp [put, keys]
  | cons p rest ih =>
    obtain ⟨k, v⟩ := p
    by_cases hk : k = key
    · simp [put, keys, hk]
    · have hne : ¬key = k := fun h => hk h.symm
      simp only [keys] at ih
      simp only [put, hk, ↓reduceIte, keys, List.map_cons, ih, List.mem_cons, hne, false_or]
      by_cases h : key ∈ List.map Prod.fst rest <;> simp [h]

/-- entering a pair keeps the keys pairwise different -/
theorem nodup_keys_put {t : Table κ ν} (h : t.keys.Nodup) (key : κ) (value : ν) : (t.put key value).keys.Nodup := by
  rw [keys_put]
  split
  · exact h
  · rename_i hkey
    refine List.nodup_append.2 ⟨h, by simp, fun a ha b hb => ?_⟩
    rw [List.mem_singleton] at hb
    rintro rfl
    exact hkey (hb ▸ ha)

end Table

end RackMap
