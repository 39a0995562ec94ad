import ManifestSchema.Dict

/-!
# Writing to dictionaries

What a dictionary holds after writes of one and of many pairs. A key stays where it was written
first. Whether a later value replaces the one that is there is what the two ways to write many pairs
differ in: `Dict.insertAll` replaces it, and `Dict.insertAllNew` passes the later one over.

Results:

1. `Dict.find?_insertAll` and `Dict.find?_insertAllNew`: which of two values is found afterwards;
2. `Dict.keys_insertAll_eq` and `Dict.keys_insertAllNew`: both ways add new keys in order;
3. `Dict.exists_insertAllNew` and `Dict.insertAllNew_of_subset`: what is passed over leaves no
   trace;
4. `Dict.filter_ofList` and `Dict.map_insertAll`: pairs may be left out by their keys, and values
   changed one by one, before or after the pairs are written;
5. `Dict.adjust_middle`: a value is changed where its key stands.
-/

namespace ManifestSchema

namespace Dict

universe u

variable {α : Type u}

theorem keys_append (d e : Dict α) : Dict.keys (d ++ e) = d.keys ++ e.keys := List.map_append

theorem find?_map {β : Type u} (f : α → β) (d : Dict α) (key : String) :
    Dict.find? (d.map fun p => (p.1, f p.2)) key = (d.find? key).map f := by
  induction d with
  | nil => rfl
  | cons p rest ih =>
      rw [List.map_cons, find?_cons, find?_cons, ih]
      split <;> rfl

theorem mem_keys_of_find? {d : Dict α} {key : String} {value : α}
    (found : d.find? key = some value) : key ∈ d.keys :=
  List.mem_map_of_mem (mem_of_find? found)

theorem find?_eq_some_iff {d : Dict α} (distinct : d.Distinct) {key : String} {value : α} :
    d.find? key = some value ↔ (key, value) ∈ d := by
  refine ⟨mem_of_find?, fun member => ?_⟩
  induction d with
  | nil => simp at member
  | cons p rest ih =>
      obtain ⟨other, v⟩ := p
      obtain ⟨missing, distinct⟩ := List.nodup_cons.1 distinct
      rw [find?_cons]
      rcases List.mem_cons.1 member with same | member
      · cases same
        rw [if_pos rfl]
      · have apart : other ≠ key := by
          rintro rfl
          exact missing (List.mem_map.2 ⟨_, member, rfl⟩)
        rw [if_neg apart, ih distinct member]

/-- The order of distinct pairs makes no difference to what is found. -/
theorem find?_perm {d e : Dict α} (same : d.Perm e) (distinct : d.Distinct) (key : String) :
    d.find? key = e.find? key := by
  have distinct' : e.Distinct := (same.map Prod.fst).nodup_iff.1 distinct
  refine Option.ext fun value => ?_
  rw [find?_eq_some_iff distinct, find?_eq_some_iff distinct', same.mem_iff]

theorem find?_insertAll {pairs : Dict α} (distinct : pairs.Distinct) (d : Dict α)
    (key : String) : (d.insertAll pairs).find? key = (pairs.find? key).or (d.find? key) := by
  induction pairs generalizing d with
  | nil => rfl
  | cons p rest ih =>
      obtain ⟨first, value⟩ := p
      obtain ⟨missing, distinct⟩ := List.nodup_cons.1 distinct
      have step : insertAll d ((first, value) :: rest) =
          Dict.insertAll (d.insert first value) rest := rfl
      rw [step, ih distinct, find?_insert, find?_cons]
      by_cases same : first = key
      · have absent : find? rest key = none := find?_eq_none_iff.2 (same ▸ missing)
        simp [same, absent]
      · simp [same]

theorem adjust_middle {d : Dict α} {key : String} (missing : key ∉ d.keys) (value : α)
    (e : Dict α) (f : α → α) :
    Dict.adjust (d ++ (key, value) :: e) key f = d ++ (key, f value) :: e := by
  induction d with
  | nil => simp [adjust]
  | cons p rest ih =>
      obtain ⟨k, v⟩ := p
      simp only [keys, List.map_cons, List.mem_cons, not_or] at missing
      rw [List.cons_append, adjust, if_neg fun e => missing.1 e.symm, ih missing.2,
        List.cons_append]

end Dict

/-! ## Names in order -/

/-- Names behind those that are known, each where it first comes up. -/
def appendNew (known : List String) : List String → List String
  | [] => known
  | name :: rest =>
      if name ∈ known then appendNew known rest else appendNew (known ++ [name]) rest

theorem appendNew_append (known names more : List String) :
    appendNew known (names ++ more) = appendNew (appendNew known names) more := by
  induction names generalizing known with
  | nil => rfl
  | cons name rest ih => by_cases old : name ∈ known <;> simp [appendNew, old, ih]

theorem mem_appendNew_iff {known names : List String} {name : String} :
    name ∈ appendNew known names ↔ name ∈ known ∨ name ∈ names := by
  induction names generalizing known with
  | nil => simp [appendNew]
  | cons first rest ih =>
      by_cases old : first ∈ known
      · simp only [appendNew, if_pos old, ih, List.mem_cons]
        exact ⟨fun h => h.imp_right .inr,
          fun h => h.elim .inl fun h => h.elim (fun e => .inl (e ▸ old)) .inr⟩
      · simp [appendNew, old, ih, or_assoc]

/-- Names may be put in order before they are appended. -/
theorem appendNew_appendNew (known names more : List String) :
    appendNew known (appendNew names more) = appendNew (appendNew known names) more := by
  induction more generalizing names with
  | nil => rfl
  | cons name rest ih =>
      by_cases old : name ∈ names
      · have old' : name ∈ appendNew known names := mem_appendNew_iff.2 (.inr old)
        rw [appendNew, if_pos old, ih, appendNew, if_pos old']
      · rw [appendNew, if_neg old, ih, appendNew_append, ← appendNew_append _ [name],
          List.singleton_append]

theorem removeAll_concat (names known : List String) (name : String) :
    names.removeAll (known ++ [name]) = (names.removeAll known).filter fun n => !n == name := by
  unfold List.removeAll
  rw [List.filter_filter]
  refine List.filter_congr fun other _ => ?_
  by_cases same : other = name <;> simp [same]

/-- With nothing known, each name is kept where it first comes up. -/
theorem appendNew_nil (names : List String) : appendNew [] names = names.eraseDups := by
  have behind : ∀ known, appendNew known names = known ++ (names.removeAll known).eraseDups := by
    induction names with
    | nil => simp [appendNew]
    | cons name rest ih =>
        intro known
        by_cases old : name ∈ known
        · simp [appendNew, old, ih, List.cons_removeAll]
        · rw [appendNew, if_neg old, ih, removeAll_concat]
          simp [List.cons_removeAll, old, List.eraseDups_cons]
  rw [behind, List.removeAll_nil, List.nil_append]

namespace Dict

variable {α : Type} {d : Dict α}

/-! ## Many pairs -/

/-- Write every pair whose key is missing. -/
def insertAllNew (d pairs : Dict α) : Dict α :=
  pairs.foldl (fun acc p => acc.insertNew p.1 p.2) d

theorem insertAllNew_cons (d : Dict α) (p : String × α) (rest : Dict α) :
    d.insertAllNew (p :: rest) = (d.insertNew p.1 p.2).insertAllNew rest := rfl

theorem insertAllNew_append (d pairs more : Dict α) :
    d.insertAllNew (pairs ++ more) = (d.insertAllNew pairs).insertAllNew more := List.foldl_append

theorem Distinct.insertAllNew (h : d.Distinct) (pairs : Dict α) :
    (d.insertAllNew pairs).Distinct := by
  induction pairs generalizing d with
  | nil => exact h
  | cons p rest ih => exact ih (h.insertNew p.1 p.2)

/-- Writes that add missing keys at the end add new keys in order. -/
theorem keys_foldl {write : Dict α → String → α → Dict α}
    (adds : ∀ d key value, (write d key value).keys =
      if key ∈ d.keys then d.keys else d.keys ++ [key]) (d pairs : Dict α) :
    Dict.keys (pairs.foldl (fun acc p => write acc p.1 p.2) d) = appendNew d.keys pairs.keys := by
  induction pairs generalizing d with
  | nil => rfl
  | cons p rest ih =>
      have split : keys (p :: rest) = p.1 :: keys rest := rfl
      rw [List.foldl_cons, ih, adds, split, appendNew]
      split <;> rfl

theorem keys_insertAll_eq (d pairs : Dict α) :
    (d.insertAll pairs).keys = appendNew d.keys pairs.keys := keys_foldl keys_insert d pairs

theorem keys_insertAllNew (d pairs : Dict α) :
    (d.insertAllNew pairs).keys = appendNew d.keys pairs.keys := keys_foldl keys_insertNew d pairs

theorem find?_insertAllNew (d pairs : Dict α) (key : String) :
    (d.insertAllNew pairs).find? key = (d.find? key).or (pairs.find? key) := by
  induction pairs generalizing d with
  | nil => simp [insertAllNew]
  | cons p rest ih =>
      rw [insertAllNew_cons, ih, find?_insertNew, find?_cons, Option.or_assoc]
      split <;> simp

/-- Of pairs with one key the last one is found. -/
theorem find?_ofList (pairs : Dict α) (key : String) :
    (ofList pairs).find? key = ((pairs.filter fun p => p.1 = key).getLast?).map Prod.snd := by
  have behind : ∀ d : Dict α, (d.insertAll pairs).find? key =
      ((List.find? (fun p => p.1 = key) pairs.reverse).map Prod.snd).or (d.find? key) := by
    induction pairs with
    | nil => exact fun _ => rfl
    | cons p rest ih =>
        intro d
        have step : d.insertAll (p :: rest) = (d.insert p.1 p.2).insertAll rest := rfl
        rw [step, ih, find?_insert, List.reverse_cons, List.find?_append]
        by_cases same : p.1 = key <;>
          cases List.find? (fun p => decide (p.1 = key)) rest.reverse <;> simp [same]
  rw [ofList, behind, List.getLast?_filter]
  simp

/-- What is written comes behind what is there. -/
theorem exists_insertAllNew (d pairs : Dict α) :
    ∃ added, d.insertAllNew pairs = d ++ added ∧ added ⊆ pairs := by
  induction pairs generalizing d with
  | nil => exact ⟨[], by simp [insertAllNew], List.Subset.refl _⟩
  | cons p rest ih =>
      obtain ⟨added, grown, part⟩ := ih (d.insertNew p.1 p.2)
      by_cases present : d.contains p.1 = true
      · refine ⟨added, ?_, List.subset_cons_of_subset p part⟩
        rw [insertAllNew_cons, grown, insertNew, if_pos present]
      · refine ⟨p :: added, ?_, List.cons_subset_cons p part⟩
        rw [insertAllNew_cons, grown, insertNew, if_neg present, List.append_assoc]
        rfl

theorem insertAllNew_of_subset {d pairs : Dict α} (known : pairs.keys ⊆ d.keys) :
    d.insertAllNew pairs = d := by
  induction pairs with
  | nil => rfl
  | cons p rest ih =>
      have present : d.contains p.1 = true := contains_iff.2 (known List.mem_cons_self)
      rw [insertAllNew_cons, insertNew, if_pos present]
      exact ih fun key member => known (List.mem_cons_of_mem _ member)

theorem filter_insert (keep : String → Bool) (d : Dict α) (key : String) (value : α) :
    (d.insert key value).filter (fun p => keep p.1) =
      if keep key then Dict.insert (d.filter fun p => keep p.1) key value
      else d.filter fun p => keep p.1 := by
  induction d with
  | nil => cases kept : keep key <;> simp [insert, kept]
  | cons p rest ih =>
      obtain ⟨k, v⟩ := p
      by_cases same : k = key
      · subst same
        cases kept : keep k <;> simp [insert, kept]
      · cases kept : keep k <;> cases kept' : keep key <;>
          simp [insert, same, kept, kept', ih]

theorem filter_insertAll (keep : String → Bool) (d pairs : Dict α) :
    (d.insertAll pairs).filter (fun p => keep p.1) =
      Dict.insertAll (d.filter fun p => keep p.1) (pairs.filter fun p => keep p.1) := by
  induction pairs generalizing d with
  | nil => rfl
  | cons p rest ih =>
      have step : d.insertAll (p :: rest) = (d.insert p.1 p.2).insertAll rest := rfl
      rw [step, ih, filter_insert]
      cases kept : keep p.1 <;> simp [kept, insertAll]

/-- Pairs may be left out by their keys before or after repeated keys are settled. -/
theorem filter_ofList (keep : String → Bool) (pairs : Dict α) :
    (ofList pairs).filter (fun p => keep p.1) = ofList (pairs.filter fun p => keep p.1) :=
  filter_insertAll keep [] pairs

theorem mem_of_mem_insert {d : Dict α} {key : String} {value : α} {p : String × α}
    (member : p ∈ d.insert key value) : p ∈ d ∨ p = (key, value) := by
  induction d with
  | nil => exact .inr (List.mem_singleton.1 member)
  | cons q rest ih =>
      rw [insert] at member
      split at member
      · next same =>
          rcases List.mem_cons.1 member with rfl | member
          · exact .inr (by rw [same])
          · exact .inl (List.mem_cons_of_mem _ member)
      · rcases List.mem_cons.1 member with rfl | member
        · exact .inl List.mem_cons_self
        · exact (ih member).imp_left (List.mem_cons_of_mem _)

theorem mem_of_mem_insertAll {d pairs : Dict α} {p : String × α}
    (member : p ∈ d.insertAll pairs) : p ∈ d ∨ p ∈ pairs := by
  induction pairs generalizing d with
  | nil => exact .inl member
  | cons q rest ih =>
      rcases ih member with member | member
      · rcases mem_of_mem_insert member with member | rfl
        · exact .inl member
        · exact .inr List.mem_cons_self
      · exact .inr (List.mem_cons_of_mem _ member)

theorem mem_of_mem_ofList {pairs : Dict α} {p : String × α} (member : p ∈ ofList pairs) :
    p ∈ pairs := (mem_of_mem_insertAll member).resolve_left List.not_mem_nil

/-! ## Values changed one by one -/

section

variable {β : Type} (g : α → β)

theorem keys_map (d : Dict α) : Dict.keys (d.map fun p => (p.1, g p.2)) = d.keys := by
  simp [keys, Function.comp_def]

theorem contains_map (d : Dict α) (key : String) :
    Dict.contains (d.map fun p => (p.1, g p.2)) key = d.contains key := by
  simp [contains, find?_map]

theorem map_insert (d : Dict α) (key : String) (value : α) :
    (d.insert key value).map (fun p => (p.1, g p.2)) =
      Dict.insert (d.map fun p => (p.1, g p.2)) key (g value) := by
  induction d with
  | nil => rfl
  | cons p rest ih => by_cases same : p.1 = key <;> simp [insert, same, ih]

theorem map_insertNew (d : Dict α) (key : String) (value : α) :
    (d.insertNew key value).map (fun p => (p.1, g p.2)) =
      Dict.insertNew (d.map fun p => (p.1, g p.2)) key (g value) := by
  unfold insertNew
  rw [contains_map]
  split <;> simp

theorem map_insertAll (d pairs : Dict α) :
    (d.insertAll pairs).map (fun p => (p.1, g p.2)) =
      Dict.insertAll (d.map fun p => (p.1, g p.2)) (pairs.map fun p => (p.1, g p.2)) := by
  induction pairs generalizing d with
  | nil => rfl
  | cons p rest ih => exact (ih _).trans (by rw [map_insert]; rfl)

theorem map_insertAllNew (d pairs : Dict α) :
    (d.insertAllNew pairs).map (fun p => (p.1, g p.2)) =
      Dict.insertAllNew (d.map fun p => (p.1, g p.2)) (pairs.map fun p => (p.1, g p.2)) := by
  induction pairs generalizing d with
  | nil => rfl
  | cons p rest ih => exact (ih _).trans (by rw [map_insertNew]; rfl)

end

end Dict

end ManifestSchema
