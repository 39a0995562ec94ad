/-!
# Dictionaries in insertion order

A dictionary is a list of keys with values whose order is part of the data: definitions, properties
and the members of a JSON object are all printed in the order in which they first appeared. The
operations keep that order; that no key occurs twice is the separate predicate `Dict.Distinct`.

Results:

1. a look-up after `insert` or `insertNew` sees the written value, and other keys are untouched;
2. both writes leave the existing keys in place and add a missing key at the end;
3. both writes keep the keys distinct;
4. a list of pairs without repeated keys is a dictionary as it is.
-/

namespace ManifestSchema

universe u v

/-- A dictionary that keeps the order in which its keys were first written. -/
abbrev Dict (α : Type u) := List (String × α)

namespace Dict

variable {α : Type u} {β : Type v}

/-- The keys in order. -/
def keys (d : Dict α) : List String := d.map Prod.fst

/-- The value of a key, that of its first occurrence. -/
def find? : Dict α → String → Option α
  | [], _ => none
  | (k, v) :: rest, key => if k = key then some v else find? rest key

/-- Whether a key is present. -/
def contains (d : Dict α) (key : String) : Bool := (d.find? key).isSome

/-- Write a value: in place when the key is present, at the end otherwise. -/
def insert : Dict α → String → α → Dict α
  | [], key, value => [(key, value)]
  | (k, v) :: rest, key, value =>
      if k = key then (k, value) :: rest else (k, v) :: insert rest key value

/-- Write a value only when the key is missing. -/
def insertNew (d : Dict α) (key : String) (value : α) : Dict α :=
  if d.contains key then d else d ++ [(key, value)]

/-- Change the value of a key where it stands; a missing key changes nothing. -/
def adjust : Dict α → String → (α → α) → Dict α
  | [], _, _ => []
  | (k, v) :: rest, key, f => if k = key then (k, f v) :: rest else (k, v) :: adjust rest key f

/-- Write every pair in turn, so that a repeated key keeps its place and takes the last value. -/
def insertAll (d : Dict α) (pairs : List (String × α)) : Dict α :=
  pairs.foldl (fun acc p => acc.insert p.1 p.2) d

/-- The dictionary of a list of pairs: a repeated key keeps its place and takes the last value. -/
def ofList (pairs : List (String × α)) : Dict α := insertAll [] pairs

/-- No key occurs twice. -/
def Distinct (d : Dict α) : Prop := d.keys.Nodup

instance (d : Dict α) : Decidable d.Distinct := inferInstanceAs (Decidable d.keys.Nodup)

/-! ## Look-up -/

@[simp] theorem find?_nil (key : String) : find? ([] : Dict α) key = none := rfl

theorem find?_cons (k : String) (v : α) (rest : Dict α) (key : String) :
    find? ((k, v) :: rest) key = if k = key then some v else find? rest key := rfl

theorem find?_eq_none_iff {d : Dict α} {key : String} : d.find? key = none ↔ key ∉ d.keys := by
  induction d with
  | nil => simp [keys]
  | cons p rest ih =>
      obtain ⟨k, v⟩ := p
      by_cases h : k = key
      · simp [find?_cons, keys, h]
      · have h' : ¬key = k := fun e => h e.symm
        simp only [find?_cons, if_neg h, ih]
        simp [keys, h']

theorem contains_iff {d : Dict α} {key : String} : d.contains key = true ↔ key ∈ d.keys := by
  rw [contains, Option.isSome_iff_ne_none, ne_eq, find?_eq_none_iff, Classical.not_not]

theorem mem_of_find? {d : Dict α} {key : String} {value : α} (found : d.find? key = some value) :
    (key, value) ∈ d := by
  induction d with
  | nil => simp at found
  | cons p rest ih =>
      obtain ⟨k, v⟩ := p
      rw [find?_cons] at found
      split at found
      · next h => cases h; cases found; exact List.mem_cons_self
      · exact List.mem_cons_of_mem _ (ih found)

theorem find?_append (d e : Dict α) (key : String) :
    find? (d ++ e) key = (d.find? key).or (e.find? key) := by
  induction d with
  | nil => simp
  | cons p rest ih =>
      obtain ⟨k, v⟩ := p
      simp only [List.cons_append, find?_cons]
      split <;> simp_all

/-! ## Writes -/

theorem find?_insert (d : Dict α) (key : String) (value : α) (other : String) :
    (d.insert key value).find? other = if key = other then some value else d.find? other := by
  induction d with
  | nil => rfl
  | cons p rest ih =>
      obtain ⟨k, v⟩ := p
      by_cases h : k = key
      · by_cases ho : key = other <;> simp [insert, find?_cons, h, ho]
      · by_cases hk : k = other
        · subst hk
          simp [insert, find?_cons, h, Ne.symm h]
        · simp [insert, find?_cons, h, hk, ih]

theorem keys_insert (d : Dict α) (key : String) (value : α) :
    (d.insert key value).keys = if key ∈ d.keys then d.keys else d.keys ++ [key] := by
  induction d with
  | nil => simp [insert, keys]
  | cons p rest ih =>
      obtain ⟨k, v⟩ := p
      by_cases h : k = key
      · simp [insert, keys, h]
      · have h' : ¬key = k := fun e => h e.symm
        simp only [keys] at ih
        by_cases hm : key ∈ List.map Prod.fst rest <;> simp_all [insert, keys]

theorem keys_insertNew (d : Dict α) (key : String) (value : α) :
    (d.insertNew key value).keys = if key ∈ d.keys then d.keys else d.keys ++ [key] := by
  by_cases h : key ∈ d.keys
  · simp [insertNew, contains_iff.2 h, h]
  · have missing : ¬d.contains key = true := fun e => h (contains_iff.1 e)
    rw [insertNew, if_neg missing, if_neg h]
    simp [keys]

theorem find?_insertNew (d : Dict α) (key : String) (value : α) (other : String) :
    (d.insertNew key value).find? other =
      (d.find? other).or (if key = other then some value else none) := by
  unfold insertNew
  split
  · next h =>
      by_cases ho : key = other
      · subst ho
        obtain ⟨v, hv⟩ := Option.isSome_iff_exists.1 h
        simp [hv]
      · simp [ho]
  · simp [find?_append, find?_cons]

theorem keys_adjust (d : Dict α) (key : String) (f : α → α) : (d.adjust key f).keys = d.keys := by
  induction d with
  | nil => rfl
  | cons p rest ih =>
      obtain ⟨k, v⟩ := p
      simp only [keys] at ih
      by_cases h : k = key <;> simp [adjust, keys, h, ih]

theorem find?_adjust (d : Dict α) (key : String) (f : α → α) (other : String) :
    (d.adjust key f).find? other =
      if key = other then (d.find? other).map f else d.find? other := by
  induction d with
  | nil => simp [adjust]
  | cons p rest ih =>
      obtain ⟨k, v⟩ := p
      by_cases h : k = key
      · by_cases ho : key = other <;> simp [adjust, find?_cons, h, ho]
      · by_cases hk : k = other
        · subst hk
          simp [adjust, find?_cons, h, Ne.symm h]
        · simp [adjust, find?_cons, h, hk, ih]

theorem Distinct.insert {d : Dict α} (h : d.Distinct) (key : String) (value : α) :
    (Dict.insert d key value).Distinct := by
  unfold Distinct at *
  rw [keys_insert]
  split
  · exact h
  · next hm =>
      refine List.nodup_append.2 ⟨h, by simp, fun a ha b hb e => hm ?_⟩
      rw [← List.mem_singleton.1 hb, ← e]
      exact ha

theorem Distinct.insertNew {d : Dict α} (h : d.Distinct) (key : String) (value : α) :
    (Dict.insertNew d key value).Distinct := by
  unfold Distinct at *
  rw [keys_insertNew]
  split
  · exact h
  · next hm =>
      refine List.nodup_append.2 ⟨h, by simp, fun a ha b hb e => hm ?_⟩
      rw [← List.mem_singleton.1 hb, ← e]
      exact ha

theorem distinct_insertAll {d : Dict α} (h : d.Distinct) (pairs : List (String × α)) :
    (insertAll d pairs).Distinct := by
  induction pairs generalizing d with
  | nil => exact h
  | cons p rest ih => exact ih (h.insert p.1 p.2)

theorem distinct_ofList (pairs : List (String × α)) : (ofList pairs).Distinct :=
  distinct_insertAll (by simp [Distinct, keys]) pairs

theorem insert_of_missing {d : Dict α} {key : String} (missing : key ∉ d.keys) (value : α) :
    d.insert key value = d ++ [(key, value)] := by
  induction d with
  | nil => rfl
  | cons p rest ih =>
      obtain ⟨k, v⟩ := p
      simp only [keys, List.map_cons, List.mem_cons, not_or] at missing
      rw [insert, if_neg fun e => missing.1 e.symm, ih missing.2, List.cons_append]

theorem insertAll_of_distinct {d : Dict α} {pairs : List (String × α)}
    (h : Distinct (d ++ pairs)) : insertAll d pairs = d ++ pairs := by
  induction pairs generalizing d with
  | nil => simp [insertAll]
  | cons p rest ih =>
      obtain ⟨k, v⟩ := p
      have missing : k ∉ d.keys := by
        intro hk
        simp only [Distinct, keys, List.map_append, List.nodup_append] at h
        exact h.2.2 k hk k (by simp) rfl
      have joined : d ++ (k, v) :: rest = (d ++ [(k, v)]) ++ rest := by simp
      rw [joined] at h ⊢
      rw [← ih h, ← insert_of_missing missing v]
      rfl

theorem ofList_of_distinct {pairs : List (String × α)} (h : Distinct pairs) :
    ofList pairs = pairs := insertAll_of_distinct h

end Dict

end ManifestSchema
