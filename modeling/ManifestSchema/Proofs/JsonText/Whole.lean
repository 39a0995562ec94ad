import ManifestSchema.Manifest.Decode
import ManifestSchema.Proofs.JsonText.Complete
import ManifestSchema.Proofs.JsonText.Sound
import ManifestSchema.Proofs.Registry

/-!
# How much of a text is accepted

A decoder accepts a text for the value that it starts with. What follows that value is neither read
nor refused, so an accepted text is a JSON document only if nothing but blanks follows, and a second
assembly behind the first one is lost without an error.

Results:

1. `JsonText.ofText_skip_iff`: which texts start with a value, as the reader sees it;
2. `JsonText.isWhole_iff_document`: which of them are documents;
3. `Target`: decoders that go over the whole value that they accept, with those of values and of
   assemblies;
4. `Target.accepted_document_iff`: what an accepted text is made of;
5. `Assembly.ofText_two_assemblies`: an accepted text that is no document.
-/

namespace ManifestSchema

namespace JsonText

open Located

/-! ## Texts -/

theorem skipBlanks_rest_nil (cs : List Char) (n : Nat) :
    (Cursor.skipBlanks cs n).rest = [] ↔ Blank cs := by
  constructor
  · intro none
    obtain ⟨blanks, all, split⟩ := skipBlanks_sound cs n
    rw [split, none, List.append_nil]
    exact all
  · intro all
    induction cs generalizing n with
    | nil => rfl
    | cons c rest ih =>
        obtain ⟨blank, others⟩ := List.forall_mem_cons.1 all
        unfold IsBlank at blank
        rw [Cursor.skipBlanks, if_pos blank]
        exact ih (n + 1) others

/-- What the reader makes of a text that starts with a value, whatever follows the value. -/
theorem ofText_complete {before value : List Char} (allBlank : Blank before)
    (isValue : Spells .value value) : ∃ tree, tree.skip = none ∧ ∀ {text : String} {after},
      text.toList = before ++ (value ++ after) → Ends value after →
        ofText text = tree ∧ (isWhole text = true ↔ Blank after) := by
  obtain ⟨tree, stop, sound, reads⟩ := reader_complete isValue before.length
  refine ⟨tree, sound, fun {text after} split ends => ?_⟩
  have enough : 3 * value.length ≤ 3 * text.length + 3 := by
    have total := congrArg List.length split
    rw [String.length_toList, List.length_append, List.length_append] at total
    omega
  have begins : Cursor.next ⟨text.toList, 0⟩ = ⟨value ++ after, before.length⟩ := by
    rw [split, next_complete allBlank isValue, Nat.zero_add]
  have read := reads _ after enough ends
  constructor
  · rw [ofText, begins, read]
  · rw [isWhole, begins, read, List.isEmpty_iff]
    exact skipBlanks_rest_nil after stop

/-- A tree without faults was read from a text that starts with a value. -/
theorem ofText_sound {text : String} (sound : (ofText text).skip = none) :
    ∃ before value after, text.toList = before ++ (value ++ after) ∧ Blank before ∧
      Spells .value value ∧ Ends value after := by
  obtain ⟨before, allBlank, split⟩ := next_sound ⟨text.toList, 0⟩
  obtain ⟨value, behind, isValue, ends⟩ := (reader_sound (3 * text.length + 3)).value rfl sound
  exact ⟨before, value, _, by rw [← behind]; exact split, allBlank, isValue, ends⟩

/-- The reader finds no fault in a text exactly if the text starts with a value. -/
theorem ofText_skip_iff (text : String) : (ofText text).skip = none ↔
    ∃ before value after, text.toList = before ++ (value ++ after) ∧ Blank before ∧
      Spells .value value ∧ Ends value after := by
  constructor
  · exact ofText_sound
  · rintro ⟨before, value, after, split, allBlank, isValue, ends⟩
    obtain ⟨tree, sound, reads⟩ := ofText_complete allBlank isValue
    rw [(reads split ends).1]
    exact sound

/-- A text that starts with a value is a document exactly if nothing but blanks follows. -/
theorem isWhole_iff_document {text : String} (sound : (ofText text).skip = none) :
    isWhole text = true ↔ Document text.toList := by
  constructor
  · intro whole
    obtain ⟨before, value, after, split, allBlank, isValue, ends⟩ := ofText_sound sound
    obtain ⟨_, _, reads⟩ := ofText_complete allBlank isValue
    exact ⟨before, value, after, split, allBlank, isValue, ((reads split ends).2).1 whole⟩
  · -- the reader stops at the end of this value too, so the two cuts of the text are the same
    rintro ⟨before, value, after, split, allBlank, isValue, allBlank'⟩
    have ends : Ends value after := ends_of_head fun c rest same =>
      .inl (allBlank' c (same ▸ List.mem_cons_self))
    obtain ⟨_, _, reads⟩ := ofText_complete allBlank isValue
    exact ((reads split ends).2).2 allBlank'

end JsonText

namespace Located

/-! ## Values that are read -/

theorem skipElements_cons (start : Nat) {first : Located} {rest : Elements}
    (here : first.skip = none) (others : skipElements rest = none) :
    skipElements (.cons start first rest) = none := by
  rw [skipElements, here, others]
  rfl

theorem skipMembers_cons {key : Except Stop String} {afterKey afterValue : Nat} {value : Located}
    {rest : Members} (here : value.skip = none) (others : skipMembers rest = none) :
    skipMembers (.cons key afterKey value afterValue rest) = none := by
  rw [skipMembers, here, others]
  rfl

mutual

/-- A value that is read has no faults. -/
theorem skip_of_read {path : List PathStep} {depth : Nat} {v : Json} :
    {tree : Located} → read path depth tree = .ok v → tree.skip = none
  | .null _, _ | .bool _ _, _ | .num _ _, _ | .str _ _, _ => rfl
  | .broken _ _, h => by
      rw [read] at h
      cases h
  | .arr start elements, h => by
      rw [read] at h
      split at h
      · cases h
      · cases others : readAll path (depth + 1) 0 elements with
        | error stop =>
            rw [others] at h
            cases h
        | ok vs => exact skip_of_readAll others
  | .obj start members, h => by
      rw [read] at h
      split at h
      · cases h
      · cases others : readFields path (depth + 1) members with
        | error stop =>
            rw [others] at h
            cases h
        | ok vs => exact skip_of_readFields others

theorem skip_of_readAll {path : List PathStep} {depth position : Nat} {vs : List Json} :
    {elements : Elements} → readAll path depth position elements = .ok vs →
      skipElements elements = none
  | .close _, _ => rfl
  | .broken _ _, h => by
      rw [readAll] at h
      cases h
  | .cons start first rest, h => by
      rw [readAll] at h
      obtain ⟨v, value, h⟩ := bind_eq_ok_iff.1 h
      obtain ⟨vs, others, _⟩ := bind_eq_ok_iff.1 h
      exact skipElements_cons start (skip_of_read value) (skip_of_readAll others)

theorem skip_of_readFields {path : List PathStep} {depth : Nat} {vs : List (String × Json)} :
    {members : Members} → readFields path depth members = .ok vs → skipMembers members = none
  | .close _, _ => rfl
  | .broken _ _, h | .noColon (.ok _) _ _, h | .noColon (.error _) _ _, h
  | .cons (.error _) _ _ _ _, h => by
      rw [readFields] at h
      cases h
  | .cons (.ok key) _ value _ rest, h => by
      rw [readFields] at h
      obtain ⟨v, value, h⟩ := bind_eq_ok_iff.1 h
      obtain ⟨vs, others, _⟩ := bind_eq_ok_iff.1 h
      exact skipMembers_cons (skip_of_read value) (skip_of_readFields others)

end

/-! ## Assemblies that are read -/

theorem skip_of_readText {path : List PathStep} {tree : Located} {s : String}
    (h : readText path tree = .ok s) : tree.skip = none := by
  cases tree with
  | null | bool | num | str => rfl
  | arr | obj | broken => cases h

theorem skip_of_readKind {path : List PathStep} {tree : Located} {kind : Kind}
    (h : readKind path tree = .ok kind) : tree.skip = none := by
  cases tree with
  | null | bool | num | str => rfl
  | arr | obj | broken => cases h

theorem skip_of_readTagged {path : List PathStep} {tag : Option Kind}
    {read : Kind × List (String × Json)} :
    {members : Members} → readTagged path tag members = .ok read → skipMembers members = none
  | .close _, _ => rfl
  | .broken _ _, h | .noColon (.error _) _ _, h | .cons (.error _) _ _ _ _, h => by
      cases tag <;> cases h
  | .noColon (.ok key) _ _, h => by
      cases tag <;> rw [readTagged] at h <;> split at h <;> cases h
  | .cons (.ok key) _ value _ rest, h => by
      cases tag with
      | none =>
          rw [readTagged] at h
          split at h
          · obtain ⟨kind, tagged, h⟩ := bind_eq_ok_iff.1 h
            exact skipMembers_cons (skip_of_readKind tagged) (skip_of_readTagged h)
          · obtain ⟨v, value, h⟩ := bind_eq_ok_iff.1 h
            obtain ⟨others, h, _⟩ := bind_eq_ok_iff.1 h
            exact skipMembers_cons (skip_of_read value) (skip_of_readTagged h)
      | some kind =>
          rw [readTagged] at h
          split at h
          · cases h
          · obtain ⟨v, value, h⟩ := bind_eq_ok_iff.1 h
            obtain ⟨others, h, _⟩ := bind_eq_ok_iff.1 h
            exact skipMembers_cons (skip_of_read value) (skip_of_readTagged h)

theorem skip_of_readDefinition {path : List PathStep} {after : Nat} {tree : Located}
    {definition : Definition} (h : readDefinition path after tree = .ok definition) :
    tree.skip = none := by
  cases tree with
  | null | bool | num | str => rfl
  | broken => cases h
  | obj start members =>
      obtain ⟨content, h, _⟩ := bind_eq_ok_iff.1 h
      exact skip_of_readTagged h
  | arr start elements =>
      cases elements with
      | close _ => rfl
      | broken _ _ => cases h
      | cons place tag rest =>
          obtain ⟨kind, tagged, h⟩ := bind_eq_ok_iff.1 h
          obtain ⟨content, others, _⟩ := bind_eq_ok_iff.1 h
          exact skipElements_cons place (skip_of_readKind tagged) (skip_of_readAll others)

theorem skip_of_readDefinitions {path : List PathStep} {types types' : Dict Definition} :
    {members : Members} → readDefinitions path types members = .ok types' →
      skipMembers members = none
  | .close _, _ => rfl
  | .broken _ _, h | .noColon (.ok _) _ _, h | .noColon (.error _) _ _, h
  | .cons (.error _) _ _ _ _, h => by
      rw [readDefinitions] at h
      cases h
  | .cons (.ok key) _ value _ rest, h => by
      rw [readDefinitions] at h
      obtain ⟨definition, here, h⟩ := bind_eq_ok_iff.1 h
      exact skipMembers_cons (skip_of_readDefinition here) (skip_of_readDefinitions h)

theorem skip_of_readTypes {path : List PathStep} {tree : Located} {types : Dict Definition}
    (h : readTypes path tree = .ok types) : tree.skip = none := by
  cases tree with
  | null | bool | num | str => rfl
  | arr | broken => cases h
  | obj start members => exact @skip_of_readDefinitions path [] types members h

theorem skip_of_readAssemblyFields {fields fields' : AssemblyFields} :
    {members : Members} → readAssemblyFields fields members = .ok fields' →
      skipMembers members = none
  | .close _, _ => rfl
  | .broken _ _, h | .noColon (.error _) _ _, h | .cons (.error _) _ _ _ _, h => by
      rw [readAssemblyFields] at h
      cases h
  | .noColon (.ok key) _ _, h => by
      rw [readAssemblyFields] at h
      split at h <;> cases h
  | .cons (.ok key) _ value _ rest, h => by
      rw [readAssemblyFields] at h
      split at h
      · cases h
      split at h
      · obtain ⟨name, here, h⟩ := bind_eq_ok_iff.1 h
        exact skipMembers_cons (skip_of_readText here) (skip_of_readAssemblyFields h)
      split at h
      · obtain ⟨types, here, h⟩ := bind_eq_ok_iff.1 h
        exact skipMembers_cons (skip_of_readTypes here) (skip_of_readAssemblyFields h)
      · split at h
        · cases h
        · next here => exact skipMembers_cons here (skip_of_readAssemblyFields h)

/-- Nothing is left over at the end of an array that does not go on. -/
theorem skip_of_surplus {rest : Elements} (h : rest.surplus = none) : skipElements rest = none := by
  cases rest with
  | close => rfl
  | broken reading skipping =>
      rw [Elements.surplus] at h
      split at h <;> cases h
  | cons => cases h

/-- An assembly is read from a value without faults, also where its members are skipped. -/
theorem skip_of_readAssembly {tree : Located} {assembly : Assembly}
    (h : readAssembly tree = .ok assembly) : tree.skip = none := by
  cases tree with
  | null | bool | num | str => rfl
  | broken => cases h
  | obj start members =>
      obtain ⟨fields, h, _⟩ := bind_eq_ok_iff.1 h
      exact skip_of_readAssemblyFields h
  | arr start elements =>
      cases elements with
      | close _ => rfl
      | broken _ _ => cases h
      | cons place name rest =>
          obtain ⟨text, here, h⟩ := bind_eq_ok_iff.1 h
          refine skipElements_cons place (skip_of_readText here) ?_
          cases rest with
          | close _ => rfl
          | broken _ _ => cases h
          | cons place' types rest =>
              obtain ⟨read, here, h⟩ := bind_eq_ok_iff.1 h
              refine skipElements_cons place' (skip_of_readTypes here) ?_
              split at h
              · next ended => exact skip_of_surplus ended
              · cases h

end Located

open JsonText

/-! ## Targets -/

/-- What a text is decoded into: a decoder of the value that the text starts with, which goes over
the whole of a value that it accepts. -/
structure Target (α : Type) where
  decode : Located → Except DecodeError α
  sound : ∀ {tree a}, decode tree = .ok a → tree.skip = none

namespace Target

/-- Decode the value that a text starts with. -/
def ofText {α : Type} (target : Target α) (text : String) : Except DecodeError α :=
  target.decode (Located.ofText text)

/-- A value of JSON as it is. -/
def json : Target Json where
  decode tree := (tree.read [] 0).map Json.collapse
  sound {tree a} h := by
    cases value : tree.read [] 0 with
    | error stop =>
        rw [value] at h
        cases h
    | ok v => exact Located.skip_of_read value

/-- The assembly that a value describes. -/
def assembly : Target Assembly where
  decode := Located.readAssembly
  sound := Located.skip_of_readAssembly

theorem ofText_json (text : String) : json.ofText text = Json.ofText text := rfl

theorem ofText_assembly (text : String) : assembly.ofText text = Assembly.ofText text := rfl

/-- An accepted text starts with a value. What follows the value is accepted whatever it is, and
the text is a document exactly if that is nothing but blanks. -/
theorem accepted_document_iff {α : Type} (target : Target α) {text : String} {a : α}
    (accepted : target.ofText text = .ok a) :
    ∃ before value after, text.toList = before ++ (value ++ after) ∧ Blank before ∧
      Spells .value value ∧ Ends value after ∧
      (∀ after', Ends value after' →
        target.ofText (String.ofList (before ++ (value ++ after'))) = .ok a) ∧
      (Document text.toList ↔ Blank after) := by
  have sound := target.sound accepted
  obtain ⟨before, value, after, split, allBlank, isValue, ends⟩ := ofText_sound sound
  obtain ⟨tree, _, reads⟩ := ofText_complete allBlank isValue
  refine ⟨before, value, after, split, allBlank, isValue, ends, fun after' ends' => ?_, ?_⟩
  · rw [← accepted, ofText, ofText, (reads String.toList_ofList ends').1, (reads split ends).1]
  · rw [← isWhole_iff_document sound, (reads split ends).2]

end Target

namespace Shop

/-- An envelope with a line break behind it. -/
def envelopeText : String := "\x7b\"properties\":\x7b\x7d\x7d\n"

/-- Two assemblies in one text, one behind the other. -/
def twoAssemblies : String :=
  "\x7b\"types\":\x7b\x7d\x7d " ++
    "\x7b\"types\":\x7b\"Lamp\":\x7b\"kind\":\"enum\",\"fqn\":\"Lamp\"\x7d\x7d\x7d"

end Shop

/-- A line break behind an envelope leaves it a document. -/
theorem Target.accepted_envelope :
    Target.json.ofText Shop.envelopeText = .ok (.obj [("properties", .obj [])]) ∧
      ∃ before value after, Shop.envelopeText.toList = before ++ (value ++ after) ∧
        Blank before ∧ Spells .value value ∧ Ends value after ∧
        (∀ after', Ends value after' →
          Target.json.ofText (String.ofList (before ++ (value ++ after'))) =
            .ok (.obj [("properties", .obj [])])) ∧
        (Document Shop.envelopeText.toList ↔ Blank after) :=
  have accepted : Target.json.ofText Shop.envelopeText = .ok (.obj [("properties", .obj [])]) :=
    ok_of_toOption (by decide +kernel)
  ⟨accepted, Target.json.accepted_document_iff accepted⟩

/-- A text with a second assembly is no document, but it is accepted, and the types of the second
assembly are lost. -/
theorem Assembly.ofText_two_assemblies :
    (Assembly.ofText Shop.twoAssemblies).toOption.map (fun a => a.types.keys) = some [] ∧
      ¬Document Shop.twoAssemblies.toList := by
  constructor
  · decide +kernel
  · rw [← isWhole_iff_document (by decide +kernel)]
    decide +kernel

end ManifestSchema
