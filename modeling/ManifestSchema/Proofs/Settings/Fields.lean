import ManifestSchema.Proofs.Settings.Arranged
import ManifestSchema.Proofs.Settings.Rewritten

/-!
# Fields of configurations

A field is what a section of a configuration holds under a key. A write changes one field at most, so
what two configurations hold in a field can be compared while the same variables are put over both.
The layer of printed settings holds their fields, in whatever order it is gone through.

Results:

1. `Configured.field_write_entry`: a field after a write;
2. `Configured.Carried.overlay`: a field under the same variables over two configurations;
3. `Settings.field_overlay_printed`: the fields of the printed layer.
-/

namespace ManifestSchema

namespace Configured

/-! ## Fields -/

/-- What a table in a section of a table holds under a key. -/
def field (section_ key : String) (v : Configured) : Option Configured :=
  ((v.entry section_).getD nothing).entry key

section Field

variable {section_ key : String} {v u x y : Configured}

theorem exists_section (found : v.field section_ key = some u) :
    ∃ w, v.entry section_ = some w ∧ w.entry key = some u := by
  unfold field at found
  cases there : v.entry section_ with
  | none =>
      rw [there] at found
      cases found
  | some w =>
      rw [there] at found
      exact ⟨w, rfl, found⟩

theorem field_write_other {outer : String} (other : outer ≠ section_) (inner : Write) :
    ((Write.entry outer inner).apply v).field section_ key = v.field section_ key := by
  rw [field, Write.apply, entry_atKey, if_neg other, field]

theorem field_write (inner : Write) : ((Write.entry section_ inner).apply v).field section_ key =
    (inner.apply ((v.entry section_).getD nothing)).entry key := by
  rw [field, Write.apply, entry_atKey, if_pos rfl, Option.getD_some]

theorem field_write_entry (k : String) (rest : Write) :
    ((Write.entry section_ (.entry k rest)).apply v).field section_ key =
      if k = key then some (rest.apply ((v.field section_ k).getD nothing))
      else v.field section_ key := by
  rw [field_write, Write.apply, entry_atKey]
  rfl

/-- A relation between what two configurations hold in one field that stays when both are written to
in the same way. -/
structure Carried (R : Option Configured → Option Configured → Prop) : Prop where
  refl : ∀ a, R a a
  write : ∀ {a b}, R a b → ∀ w : Write,
    R (some (w.apply (a.getD nothing))) (some (w.apply (b.getD nothing)))

namespace Carried

variable {R : Option Configured → Option Configured → Prop}

theorem apply (carried : Carried R) (h : R (x.field section_ key) (y.field section_ key))
    (outer : String) (inner : Write) :
    R (((Write.entry outer inner).apply x).field section_ key)
      (((Write.entry outer inner).apply y).field section_ key) := by
  rcases Decidable.em (outer = section_) with rfl | other
  · cases inner with
    | replace value =>
        rw [field_write, field_write]
        exact carried.refl _
    | element index rest =>
        rw [field_write, field_write, Write.apply, entry_eq_none (isTable_atIndex _ _ _),
          entry_eq_none (isTable_atIndex _ _ _)]
        exact carried.refl _
    | entry k rest =>
        rw [field_write_entry, field_write_entry]
        rcases Decidable.em (k = key) with rfl | apart
        · rw [if_pos rfl, if_pos rfl]
          exact carried.write h rest
        · rw [if_neg apart, if_neg apart]
          exact h
  · rw [field_write_other other, field_write_other other]
    exact h

theorem overlay (carried : Carried R) {layer : List (String × Configured)}
    (writes : ∀ p ∈ layer, IsVariable p) (h : R (x.field section_ key) (y.field section_ key)) :
    R ((overlay x layer).field section_ key) ((overlay y layer).field section_ key) := by
  induction layer generalizing x y with
  | nil => exact h
  | cons p layer ih =>
      obtain ⟨variable_, writes⟩ := List.forall_mem_cons.1 writes
      obtain ⟨outer, inner, write, _⟩ := overlayEntry_eq variable_
      refine ih writes ?_
      rw [write, write]
      exact carried.apply h outer inner

theorem eq : Carried Eq := ⟨fun _ => rfl, fun same w => by rw [same]⟩

theorem covers : Carried fun a b => Covers (a.getD nothing) (b.getD nothing) :=
  ⟨fun _ _ => id, fun covers w => covers.apply w⟩

end Carried

end Field

/-! ## Layers of sections -/

/-- The sections of a layer are put into those that are there. -/
theorem entry_overlay_tables {layer : List (String × Configured)}
    (tables : ∀ p ∈ layer, p.1 ∈ Settings.names ∧ p.2.isTable = true)
    (distinct : Dict.Distinct layer) (root : Configured) (key : String) :
    (overlay root layer).entry key =
      match Dict.find? layer key with
      | some v => some (putAll v.asTable.1 ((root.entry key).getD emptyTable))
      | none => root.entry key := by
  induction layer generalizing root with
  | nil => rfl
  | cons p layer ih =>
      obtain ⟨name, v⟩ := p
      obtain ⟨fields, origin, rfl⟩ := isTable_iff.1 (tables _ List.mem_cons_self).2
      obtain ⟨⟨known, _⟩, tables⟩ := List.forall_mem_cons.1 tables
      obtain ⟨missing, distinct⟩ := List.nodup_cons.1 distinct
      have put : overlayEntry name (.table fields origin) root =
          put name (.table fields origin) root := by
        rw [overlayEntry, Settings.place_of_mem_names name known]
        rfl
      rw [overlay, put, ih tables distinct, entry_put_table, Settings.lower_of_mem_names name known,
        Dict.find?_cons]
      rcases Decidable.em (name = key) with rfl | other
      · rw [if_pos rfl, if_pos rfl, Dict.find?_eq_none_iff.2 missing]
        rfl
      · rw [if_neg other, if_neg other]

end Configured

namespace Settings

open Configured

variable {origin : String} {s : Settings}

/-! ## The printed layer -/

theorem isTable_printed (origin : String) (e : Toml.Entry) :
    (printed origin e).isTable = false := by
  cases e <;> rfl

/-- The fields of a section in some order, put into a table. -/
theorem entry_putAll_printed {entries : Dict Toml.Entry} (distinct : entries.Distinct)
    (known : ∀ e ∈ entries, e.1 ∈ names) {v : Configured}
    (arranged : Arranged (.table (printedFields origin entries) (some origin)) v)
    (target : Configured) (key : String) : (putAll v.asTable.1 target).entry key =
      ((Dict.find? entries key).map (printed origin)).or (target.entry key) := by
  have simple : ∀ p ∈ printedFields origin entries,
      p.2.isTable = false ∧ Text.lower p.1 = p.1 := by
    intro p member
    obtain ⟨e, given, rfl⟩ := List.mem_map.1 member
    exact ⟨isTable_printed origin e.2, lower_of_mem_names _ (known e given)⟩
  have distinct' : Dict.Distinct (printedFields origin entries) := by
    rw [Dict.Distinct, printedFields, Dict.keys_map]
    exact distinct
  have order : (printedFields origin entries).Perm v.asTable.1 :=
    (arranged.perm_of_flat fun p member => (simple p member).1).symm
  rw [entry_putAll (fun p member => simple p (order.mem_iff.2 member))
    ((order.map Prod.fst).nodup_iff.1 distinct'), ← Dict.find?_perm order distinct',
    printedFields, Dict.find?_map]

section Layer

variable {layer : List (String × Configured)}
  (arranged : Arranged (.table (sectionLayer origin (s.printedSections origin)) none)
    (.table layer none))

include arranged

theorem keys_arranged : (Dict.keys layer).Perm s.sections.keys := by
  have keys : Dict.keys (sectionLayer origin (s.printedSections origin)) = s.sections.keys := by
    rw [sectionLayer, printedSections, List.map_map]
    rfl
  exact keys ▸ arranged.keys_perm

theorem exists_section_arranged : ∀ p ∈ layer, ∃ entries, (p.1, entries) ∈ s.sections ∧
    Arranged (.table (printedFields origin entries) (some origin)) p.2 := by
  intro p member
  obtain ⟨u, listed, arranged⟩ := arranged.exists_entry p member
  obtain ⟨fields, inside, same⟩ := List.mem_map.1 listed
  obtain ⟨⟨name, entries⟩, given, rfl⟩ := List.mem_map.1 inside
  cases same
  exact ⟨entries, given, arranged⟩

theorem find?_arranged {name : String} {entries : Dict Toml.Entry}
    (member : (name, entries) ∈ s.sections) : ∃ v, Dict.find? layer name = some v ∧
      Arranged (.table (printedFields origin entries) (some origin)) v := by
  have listed : name ∈ Dict.keys layer :=
    (keys_arranged arranged).mem_iff.2 (List.mem_map_of_mem member)
  obtain ⟨v, found⟩ := Option.isSome_iff_exists.1 (Dict.contains_iff.2 listed)
  obtain ⟨entries', given, fields⟩ :=
    exists_section_arranged arranged _ (Dict.mem_of_find? found)
  have first := (Dict.find?_eq_some_iff s.distinct_sections).2 member
  rw [(Dict.find?_eq_some_iff s.distinct_sections).2 given] at first
  exact ⟨v, found, Option.some.inj first ▸ fields⟩

/-- A field of a section is the printed one, or the one that is there if none is printed. -/
theorem field_overlay_printed (root : Configured) {name : String} {entries : Dict Toml.Entry}
    (member : (name, entries) ∈ s.sections) (key : String) :
    (overlay root layer).field name key =
      ((Dict.find? entries key).map (printed origin)).or (root.field name key) := by
  have tables : ∀ p ∈ layer, p.1 ∈ names ∧ p.2.isTable = true := by
    intro p inside
    obtain ⟨entries, given, fields⟩ := exists_section_arranged arranged p inside
    exact ⟨s.mem_names_of_sections _ given, fields.isTable_eq⟩
  obtain ⟨v, found, fields⟩ := find?_arranged arranged member
  obtain ⟨distinct, known⟩ := s.fields_sections _ member
  rw [field, entry_overlay_tables tables
    ((keys_arranged arranged).nodup_iff.2 s.distinct_sections), found]
  simp only [Option.getD_some]
  rw [entry_putAll_printed distinct known fields, field]
  cases root.entry name <;> rfl

end Layer

end Settings

end ManifestSchema
