import ManifestSchema.Proofs.Decoding.Settled

/-!
# Decoding a text and decoding its value

An assembly is decoded straight from a text, or from the value that was read from it before. The
first way sees each member in turn, also those that come up again; the second one sees the value in
which repeated keys are settled. Where both accept, they agree.

Results:

1. `Located.read_eq`: a value that is read is the same at every place and depth;
2. `Located.readTagged_eq`: what is gathered of a definition is its members without the tag;
3. `Located.ofJson_of_readDefinition`, `Located.typesOfJson_of_readTypes` and
   `Located.fieldsOfJson_of_readAssemblyFields`: the two ways agree on a definition, on the types and
   on the members of an assembly;
4. `Assembly.ofJson_of_ofText`: they agree on whole texts.
-/

namespace ManifestSchema

open Json

namespace Located

variable {path path' : List PathStep} {depth depth' : Nat}

/-! ## Values -/

theorem read_arr {start : Nat} {elements : Elements} {v : Json}
    (h : read path depth (.arr start elements) = .ok v) :
    ∃ vs, readAll path (depth + 1) 0 elements = .ok vs ∧ v = .arr vs := by
  rw [read] at h
  split at h
  · cases h
  · cases inner : readAll path (depth + 1) 0 elements with
    | error e =>
        rw [inner] at h
        cases h
    | ok vs =>
        rw [inner] at h
        cases h
        exact ⟨vs, rfl, rfl⟩

theorem read_obj {start : Nat} {members : Members} {v : Json}
    (h : read path depth (.obj start members) = .ok v) :
    ∃ vs, readFields path (depth + 1) members = .ok vs ∧ v = .obj vs := by
  rw [read] at h
  split at h
  · cases h
  · cases inner : readFields path (depth + 1) members with
    | error e =>
        rw [inner] at h
        cases h
    | ok vs =>
        rw [inner] at h
        cases h
        exact ⟨vs, rfl, rfl⟩

theorem readAll_cons {start position : Nat} {first : Located} {rest : Elements} {vs : List Json}
    (h : readAll path depth position (.cons start first rest) = .ok vs) :
    ∃ v others, read (path ++ [.index position]) depth first = .ok v ∧
      readAll path depth (position + 1) rest = .ok others ∧ vs = v :: others := by
  rw [readAll] at h
  obtain ⟨v, here, h⟩ := bind_eq_ok_iff.1 h
  obtain ⟨others, there, done⟩ := bind_eq_ok_iff.1 h
  cases done
  exact ⟨v, others, here, there, rfl⟩

theorem readFields_cons {key : String} {afterKey afterValue : Nat} {value : Located}
    {rest : Members} {vs : List (String × Json)}
    (h : readFields path depth (.cons (.ok key) afterKey value afterValue rest) = .ok vs) :
    ∃ v others, read (path ++ [.key key]) depth value = .ok v ∧
      readFields path depth rest = .ok others ∧ vs = (key, v) :: others := by
  rw [readFields] at h
  obtain ⟨v, here, h⟩ := bind_eq_ok_iff.1 h
  obtain ⟨others, there, done⟩ := bind_eq_ok_iff.1 h
  cases done
  exact ⟨v, others, here, there, rfl⟩

mutual

/-- A value that is read does not depend on where it stands. -/
theorem read_eq {v v' : Json} : {path path' : List PathStep} → {depth depth' : Nat} →
    {tree : Located} → read path depth tree = .ok v → read path' depth' tree = .ok v' → v = v'
  | _, _, _, _, .null _, h, h' | _, _, _, _, .bool _ _, h, h' | _, _, _, _, .num (.ok _) _, h, h'
  | _, _, _, _, .str (.ok _) _, h, h' => by
      rw [read] at h h'
      cases h
      cases h'
      rfl
  | _, _, _, _, .num (.error _) _, h, _ | _, _, _, _, .str (.error _) _, h, _
  | _, _, _, _, .broken _ _, h, _ => by
      rw [read] at h
      cases h
  | _, _, _, _, .arr start elements, h, h' => by
      obtain ⟨vs, here, rfl⟩ := read_arr h
      obtain ⟨vs', here', rfl⟩ := read_arr h'
      rw [readAll_eq here here']
  | _, _, _, _, .obj start members, h, h' => by
      obtain ⟨vs, here, rfl⟩ := read_obj h
      obtain ⟨vs', here', rfl⟩ := read_obj h'
      rw [readFields_eq here here']

theorem readAll_eq {vs vs' : List Json} : {path path' : List PathStep} →
    {depth depth' position position' : Nat} → {elements : Elements} →
    readAll path depth position elements = .ok vs →
    readAll path' depth' position' elements = .ok vs' → vs = vs'
  | _, _, _, _, _, _, .close _, h, h' => by
      rw [readAll] at h h'
      cases h
      cases h'
      rfl
  | _, _, _, _, _, _, .broken _ _, h, _ => by
      rw [readAll] at h
      cases h
  | _, _, _, _, _, _, .cons _ first rest, h, h' => by
      obtain ⟨v, others, here, there, rfl⟩ := readAll_cons h
      obtain ⟨v', others', here', there', rfl⟩ := readAll_cons h'
      rw [read_eq here here', readAll_eq there there']

theorem readFields_eq {vs vs' : List (String × Json)} : {path path' : List PathStep} →
    {depth depth' : Nat} → {members : Members} → readFields path depth members = .ok vs →
    readFields path' depth' members = .ok vs' → vs = vs'
  | _, _, _, _, .close _, h, h' => by
      rw [readFields] at h h'
      cases h
      cases h'
      rfl
  | _, _, _, _, .broken _ _, h, _ | _, _, _, _, .noColon (.ok _) _ _, h, _
  | _, _, _, _, .noColon (.error _) _ _, h, _ | _, _, _, _, .cons (.error _) _ _ _ _, h, _ => by
      rw [readFields] at h
      cases h
  | _, _, _, _, .cons (.ok key) _ value _ rest, h, h' => by
      obtain ⟨v, others, here, there, rfl⟩ := readFields_cons h
      obtain ⟨v', others', here', there', rfl⟩ := readFields_cons h'
      rw [read_eq here here', readFields_eq there there']

end

/-! ## Definitions -/

theorem read_of_readText {tree : Located} {s : String} {v : Json}
    (text : readText path tree = .ok s) (plain : read path' depth tree = .ok v) : v = .str s := by
  cases tree with
  | str value stop =>
      cases value with
      | error e => cases text
      | ok s' =>
          cases text
          rw [read] at plain
          exact (Except.ok.inj plain).symm
  | null | bool | arr | obj | broken => cases text
  | num value stop => cases value <;> cases text

theorem read_of_readKind {tree : Located} {kind : Kind} {v : Json}
    (named : readKind path tree = .ok kind) (plain : read path' depth tree = .ok v) :
    ∃ tag, v = .str tag ∧ Definition.kindOf tag = .ok kind := by
  cases tree with
  | str value stop =>
      cases value with
      | error e => cases named
      | ok tag =>
          rw [read] at plain
          refine ⟨tag, (Except.ok.inj plain).symm, ?_⟩
          rw [readKind] at named
          cases kindOf : Definition.kindOf tag with
          | error cause =>
              rw [kindOf] at named
              cases named
          | ok kind' =>
              rw [kindOf] at named
              cases named
              rfl
  | null | bool | arr | obj | broken => cases named
  | num value stop => cases value <;> cases named

/-- Behind the tag of a definition it has no other one, and everything is gathered. -/
theorem readTagged_some {kind kind' : Kind} {content fields : List (String × Json)} :
    {members : Members} → readTagged path (some kind) members = .ok (kind', content) →
    readFields path' depth members = .ok fields →
    kind' = kind ∧ content = fields ∧ Definition.tagField ∉ Dict.keys fields
  | .close _, h, plain => by
      rw [readTagged] at h
      cases h
      rw [readFields] at plain
      cases plain
      exact ⟨rfl, rfl, List.not_mem_nil⟩
  | .broken _ _, h, _ | .noColon (.error _) _ _, h, _ | .cons (.error _) _ _ _ _, h, _ => by
      cases h
  | .noColon (.ok key) _ _, h, _ => by
      rw [readTagged] at h
      split at h <;> cases h
  | .cons (.ok key) _ value _ rest, h, plain => by
      obtain ⟨v, others, here, there, rfl⟩ := readFields_cons plain
      rw [readTagged] at h
      split at h
      · cases h
      · next other =>
          obtain ⟨v', here', h⟩ := bind_eq_ok_iff.1 h
          obtain ⟨⟨kind1, content1⟩, tagged, done⟩ := bind_eq_ok_iff.1 h
          cases done
          obtain ⟨rfl, rfl, missing⟩ := readTagged_some tagged there
          rw [read_eq here here']
          exact ⟨rfl, rfl, fun member =>
            (List.mem_cons.1 member).elim (fun same => other same.symm) missing⟩

/-- A definition has one tag, and what is gathered is everything but the tag. -/
theorem readTagged_eq {kind : Kind} {content fields : List (String × Json)} :
    {members : Members} → readTagged path none members = .ok (kind, content) →
    readFields path' depth members = .ok fields →
    content = fields.filter (fun m => m.1 ≠ Definition.tagField) ∧
      ∃ tag, fields.filter (fun m => m.1 = Definition.tagField) =
        [(Definition.tagField, .str tag)] ∧ Definition.kindOf tag = .ok kind
  | .close _, h, _ | .broken _ _, h, _ | .noColon (.error _) _ _, h, _
  | .cons (.error _) _ _ _ _, h, _ => by
      cases h
  | .noColon (.ok key) _ _, h, _ => by
      rw [readTagged] at h
      split at h <;> cases h
  | .cons (.ok key) _ value _ rest, h, plain => by
      obtain ⟨v, others, here, there, rfl⟩ := readFields_cons plain
      rw [readTagged] at h
      split at h
      · next same =>
          obtain ⟨kind', named, h⟩ := bind_eq_ok_iff.1 h
          obtain ⟨rfl, rfl, missing⟩ := readTagged_some h there
          obtain ⟨tag, rfl, kindOf⟩ := read_of_readKind named here
          have no : ∀ m ∈ content, m.1 ≠ Definition.tagField :=
            fun m member same => missing (same ▸ List.mem_map_of_mem member)
          subst same
          refine ⟨?_, tag, ?_, kindOf⟩
          · rw [List.filter_cons_of_neg (by simp), List.filter_eq_self.2 (by simpa using no)]
          · rw [List.filter_cons_of_pos (by simp), List.filter_eq_nil_iff.2 (by simpa using no)]
      · next other =>
          obtain ⟨v', here', h⟩ := bind_eq_ok_iff.1 h
          obtain ⟨⟨kind1, content1⟩, tagged, done⟩ := bind_eq_ok_iff.1 h
          cases done
          obtain ⟨rfl, tag, alone, kindOf⟩ := readTagged_eq tagged there
          rw [read_eq here here']
          refine ⟨?_, tag, ?_, kindOf⟩
          · rw [List.filter_cons_of_pos (by simpa using other)]
          · rw [List.filter_cons_of_neg (by simpa using other), alone]

theorem eq_ok_of_conclude {after : Nat} {result : Except DecodeCause Definition} {d : Definition}
    (h : readDefinition.conclude path after result = .ok d) : result = .ok d := by
  cases result with
  | error cause => cases h
  | ok d' =>
      cases h
      rfl

section

variable {place : List PathStep} {kind : Kind} {tag : String} {d : Definition}

theorem ofJson_obj {members : Dict Json}
    (found : members.find? Definition.tagField = some (.str tag))
    (named : Definition.kindOf tag = .ok kind)
    (decoded : Definition.decode kind (.obj (members.filter fun m => m.1 ≠ Definition.tagField)) =
      .ok d) : Definition.ofJson place (.obj members) = .ok d := by
  rw [Definition.ofJson, found]
  refine bind_eq_ok_iff.2 ⟨kind, ?_, ?_⟩
  · rw [Definition.kindOfJson, named]
    rfl
  · rw [decoded]
    rfl

theorem ofJson_arr {content : List Json} (named : Definition.kindOf tag = .ok kind)
    (decoded : Definition.decode kind (.arr content) = .ok d) :
    Definition.ofJson place (.arr (.str tag :: content)) = .ok d := by
  rw [Definition.ofJson]
  refine bind_eq_ok_iff.2 ⟨kind, ?_, ?_⟩
  · rw [Definition.kindOfJson, named]
    rfl
  · rw [decoded]
    rfl

end

/-- A definition that is read is what its settled value is decoded to. -/
theorem ofJson_of_readDefinition {after : Nat} {tree : Located} {d : Definition} {v : Json}
    (direct : readDefinition path after tree = .ok d) (plain : read path' depth tree = .ok v)
    (place : List PathStep) : Definition.ofJson place v.collapse = .ok d := by
  cases tree with
  | null | bool | broken => cases direct
  | num value stop => cases value <;> cases direct
  | str value stop => cases value <;> cases direct
  | obj start members =>
      obtain ⟨⟨kind, content⟩, tagged, direct⟩ := bind_eq_ok_iff.1 direct
      have decoded := eq_ok_of_conclude direct
      obtain ⟨fields, there, rfl⟩ := read_obj plain
      obtain ⟨rfl, tag, alone, kindOf⟩ := readTagged_eq tagged there
      have found : (Dict.ofList (collapseMembers fields)).find? Definition.tagField =
          some (.str tag) := by
        have once := filter_collapseMembers (fun key => key = Definition.tagField) fields
        rw [alone] at once
        rw [Dict.find?_ofList, once]
        rfl
      have others : (Dict.ofList (collapseMembers fields)).filter
            (fun m => m.1 ≠ Definition.tagField) =
          Dict.ofList (collapseMembers (fields.filter fun m => m.1 ≠ Definition.tagField)) := by
        rw [← filter_collapseMembers fun key => key ≠ Definition.tagField]
        exact Dict.filter_ofList (fun key => key ≠ Definition.tagField) _
      have settled := Definition.stable_decode kind (.obj _) d decoded
      rw [collapse, ← others] at settled
      rw [collapse]
      exact ofJson_obj found kindOf settled
  | arr start elements =>
      cases elements with
      | close _ | broken _ _ => cases direct
      | cons at1 tag rest =>
          obtain ⟨kind, named, direct⟩ := bind_eq_ok_iff.1 direct
          obtain ⟨content, gathered, direct⟩ := bind_eq_ok_iff.1 direct
          have decoded := eq_ok_of_conclude direct
          obtain ⟨vs, there, rfl⟩ := read_arr plain
          obtain ⟨v, others, here, behind, rfl⟩ := readAll_cons there
          obtain ⟨tag, rfl, kindOf⟩ := read_of_readKind named here
          cases readAll_eq gathered behind
          have settled := Definition.stable_decode kind (.arr content) d decoded
          rw [collapse] at settled
          rw [collapse, collapseElements, collapse]
          exact ofJson_arr kindOf settled

/-! ## Types -/

theorem allOfJson_of {types : Dict Definition} {read : Dict (Json × Definition)}
    (decoded : ∀ p ∈ read, ∀ place, Definition.ofJson place p.2.1 = .ok p.2.2) :
    Definition.allOfJson path types (read.map fun p => (p.1, p.2.1)) =
      .ok (types.insertAll (read.map fun p => (p.1, p.2.2))) := by
  induction read generalizing types with
  | nil => rfl
  | cons p rest ih =>
      obtain ⟨here, others⟩ := List.forall_mem_cons.1 decoded
      rw [List.map_cons, Definition.allOfJson]
      exact bind_eq_ok_iff.2 ⟨p.2.2, here _, ih others⟩

/-- The members of `types` are read one after the other, each to what its settled value is decoded
to. -/
theorem readDefinitions_eq {types types' : Dict Definition} {fields : List (String × Json)} :
    {members : Members} → readDefinitions path types members = .ok types' →
    readFields path' depth members = .ok fields →
    ∃ read : Dict (Json × Definition), collapseMembers fields = read.map (fun p => (p.1, p.2.1)) ∧
      types' = types.insertAll (read.map fun p => (p.1, p.2.2)) ∧
      ∀ p ∈ read, ∀ place, Definition.ofJson place p.2.1 = .ok p.2.2
  | .close _, h, plain => by
      rw [readDefinitions] at h
      cases h
      rw [readFields] at plain
      cases plain
      exact ⟨[], rfl, rfl, fun _ member => absurd member List.not_mem_nil⟩
  | .broken _ _, h, _ | .noColon (.ok _) _ _, h, _ | .noColon (.error _) _ _, h, _
  | .cons (.error _) _ _ _ _, h, _ => by
      rw [readDefinitions] at h
      cases h
  | .cons (.ok key) _ value afterValue rest, h, plain => by
      obtain ⟨v, others, here, there, rfl⟩ := readFields_cons plain
      rw [readDefinitions] at h
      obtain ⟨d, direct, h⟩ := bind_eq_ok_iff.1 h
      obtain ⟨read, settled, rfl, decoded⟩ := readDefinitions_eq h there
      refine ⟨(key, v.collapse, d) :: read, ?_, rfl, List.forall_mem_cons.2 ⟨?_, decoded⟩⟩
      · rw [collapseMembers, settled, List.map_cons]
      · exact ofJson_of_readDefinition direct here

/-- The types that are read are what their settled value is decoded to: where a key comes up again,
both keep its place and the last type. -/
theorem typesOfJson_of_readTypes {tree : Located} {types : Dict Definition} {v : Json}
    (direct : readTypes path tree = .ok types) (plain : read path' depth tree = .ok v)
    (place : List PathStep) : Definition.typesOfJson place v.collapse = .ok types := by
  cases tree with
  | null | bool | arr | broken => cases direct
  | num value stop => cases value <;> cases direct
  | str value stop => cases value <;> cases direct
  | obj start members =>
      obtain ⟨fields, there, rfl⟩ := read_obj plain
      obtain ⟨read, settled, grown, decoded⟩ := readDefinitions_eq direct there
      have last : Dict.ofList (collapseMembers fields) =
          (Dict.ofList read).map fun p => (p.1, p.2.1) := by
        rw [settled]
        exact (Dict.map_insertAll Prod.fst [] read).symm
      have last' : Dict.ofList (read.map fun p => (p.1, p.2.2)) =
          (Dict.ofList read).map fun p => (p.1, p.2.2) :=
        (Dict.map_insertAll Prod.snd [] read).symm
      rw [collapse, last, Definition.typesOfJson,
        allOfJson_of fun p member => decoded p (Dict.mem_of_mem_ofList member), ← last', grown]
      exact congrArg Except.ok (Dict.ofList_of_distinct (Dict.distinct_ofList _))

/-! ## Assemblies -/

/-- Whether an assembly knows a member. -/
def isField (key : String) : Bool := key = "name" || key = "types"

theorem fieldsOfJson_filter (fields : AssemblyFields) (members : Dict Json) :
    Assembly.fieldsOfJson fields members =
      Assembly.fieldsOfJson fields (members.filter fun m => isField m.1) := by
  induction members generalizing fields with
  | nil => rfl
  | cons m rest ih =>
      obtain ⟨key, value⟩ := m
      cases known : isField key with
      | true =>
          have kept : List.filter (fun m => isField m.1) ((key, value) :: rest) =
              (key, value) :: rest.filter fun m => isField m.1 := List.filter_cons_of_pos known
          rw [kept, Assembly.fieldsOfJson, Assembly.fieldsOfJson]
          simp only [← ih]
      | false =>
          have unknown : key ≠ "name" ∧ key ≠ "types" := by simpa [isField] using known
          have fresh : fields.has key = false := by simp [AssemblyFields.has, unknown]
          rw [List.filter_cons_of_neg (by simp [known]), Assembly.fieldsOfJson, fresh,
            if_neg Bool.false_ne_true, if_neg unknown.1, if_neg unknown.2, ih]

theorem has_of_named {fields : AssemblyFields} {name key : String}
    (new : AssemblyFields.has { fields with name := some name } key = false) :
    key ≠ "name" ∧ fields.has key = false := by
  by_cases same : key = "name" <;> simp_all [AssemblyFields.has]

theorem has_of_typed {fields : AssemblyFields} {types : Dict Definition} {key : String}
    (new : AssemblyFields.has { fields with types := some types } key = false) :
    key ≠ "types" ∧ fields.has key = false := by
  by_cases same : key = "types" <;> simp_all [AssemblyFields.has]

/-- Known members that are decoded are distinct, and none of them was there before. -/
theorem distinct_of_fieldsOfJson {fields fields' : AssemblyFields} {members : Dict Json}
    (h : Assembly.fieldsOfJson fields members = .ok fields') :
    Dict.Distinct (members.filter fun m => isField m.1) ∧
      ∀ key ∈ Dict.keys (members.filter fun m => isField m.1), fields.has key = false := by
  induction members generalizing fields with
  | nil => exact ⟨List.nodup_nil, fun _ member => absurd member List.not_mem_nil⟩
  | cons m rest ih =>
      obtain ⟨key, value⟩ := m
      rw [Assembly.fieldsOfJson] at h
      split at h
      · cases h
      next new =>
      have new : fields.has key = false := by simpa using new
      -- a known member is written to its field, where the members behind it find it
      have known {fields1 : AssemblyFields} (isKnown : isField key = true)
          (h : Assembly.fieldsOfJson fields1 rest = .ok fields')
          (written : ∀ other, fields1.has other = false → other ≠ key ∧ fields.has other = false) :
          Dict.Distinct (((key, value) :: rest).filter fun m => isField m.1) ∧
            ∀ other ∈ Dict.keys (((key, value) :: rest).filter fun m => isField m.1),
              fields.has other = false := by
        have kept : List.filter (fun m => isField m.1) ((key, value) :: rest) =
            (key, value) :: rest.filter fun m => isField m.1 := List.filter_cons_of_pos isKnown
        obtain ⟨distinct, others⟩ := ih h
        rw [kept]
        refine ⟨List.nodup_cons.2 ⟨fun member => ?_, distinct⟩, List.forall_mem_cons.2 ⟨new, ?_⟩⟩
        · exact (written key (others key member)).1 rfl
        · exact fun other member => (written other (others other member)).2
      split at h
      · next same =>
          obtain ⟨name, _, h⟩ := bind_eq_ok_iff.1 h
          exact known (by simp [isField, same]) h fun other new => same ▸ has_of_named new
      split at h
      · next same =>
          obtain ⟨types, _, h⟩ := bind_eq_ok_iff.1 h
          exact known (by simp [isField, same]) h fun other new => same ▸ has_of_typed new
      · next notName notTypes =>
          have unknown : ¬isField key = true := by simp [isField, notName, notTypes]
          have left : List.filter (fun m => isField m.1) ((key, value) :: rest) =
              rest.filter fun m => isField m.1 := List.filter_cons_of_neg unknown
          rw [left]
          exact ih h

/-- It makes no difference to the members of an assembly that repeated ones are settled, since only
unknown ones may be repeated. -/
theorem fieldsOfJson_ofList {fields fields' : AssemblyFields} {members : Dict Json}
    (h : Assembly.fieldsOfJson fields members = .ok fields') :
    Assembly.fieldsOfJson fields (Dict.ofList members) = .ok fields' := by
  rw [fieldsOfJson_filter, Dict.filter_ofList,
    Dict.ofList_of_distinct (distinct_of_fieldsOfJson h).1, ← fieldsOfJson_filter]
  exact h

/-- Members that are read, with others between them that are skipped, are what their settled values
are decoded to. -/
theorem fieldsOfJson_of_readAssemblyFields {fields fields' : AssemblyFields}
    {ms : List (String × Json)} : {members : Members} →
    readAssemblyFields fields members = .ok fields' → readFields path depth members = .ok ms →
    Assembly.fieldsOfJson fields (collapseMembers ms) = .ok fields'
  | .close _, h, plain => by
      rw [readAssemblyFields] at h
      cases h
      rw [readFields] at plain
      cases plain
      rfl
  | .broken _ _, h, _ | .noColon (.error _) _ _, h, _ | .cons (.error _) _ _ _ _, h, _ => by
      rw [readAssemblyFields] at h
      cases h
  | .noColon (.ok key) _ _, h, _ => by
      rw [readAssemblyFields] at h
      split at h <;> cases h
  | .cons (.ok key) _ value _ rest, h, plain => by
      obtain ⟨v, others, here, there, rfl⟩ := readFields_cons plain
      rw [readAssemblyFields] at h
      rw [collapseMembers, Assembly.fieldsOfJson]
      split at h
      · cases h
      next new =>
      rw [if_neg new]
      split at h
      · next isName =>
          obtain ⟨name, text, h⟩ := bind_eq_ok_iff.1 h
          rw [if_pos isName]
          refine bind_eq_ok_iff.2 ⟨name, ?_, fieldsOfJson_of_readAssemblyFields h there⟩
          rw [read_of_readText text here]
          rfl
      next notName =>
      rw [if_neg notName]
      split at h
      · next isTypes =>
          obtain ⟨types, direct, h⟩ := bind_eq_ok_iff.1 h
          rw [if_pos isTypes]
          exact bind_eq_ok_iff.2 ⟨types, typesOfJson_of_readTypes direct here _,
            fieldsOfJson_of_readAssemblyFields h there⟩
      · next notTypes =>
          rw [if_neg notTypes]
          split at h
          · cases h
          · exact fieldsOfJson_of_readAssemblyFields h there

/-- An assembly that is read is what its settled value is decoded to. -/
theorem ofJson_of_readAssembly {tree : Located} {assembly : Assembly} {v : Json}
    (direct : readAssembly tree = .ok assembly) (plain : read path depth tree = .ok v) :
    Assembly.ofJson v.collapse = .ok assembly := by
  cases tree with
  | null | bool | broken => cases direct
  | num value stop => cases value <;> cases direct
  | str value stop => cases value <;> cases direct
  | obj start members =>
      obtain ⟨fields, direct, done⟩ := bind_eq_ok_iff.1 direct
      obtain ⟨ms, there, rfl⟩ := read_obj plain
      rw [collapse, Assembly.ofJson]
      have decoded := fieldsOfJson_of_readAssemblyFields direct there
      exact bind_eq_ok_iff.2 ⟨fields, fieldsOfJson_ofList decoded, done⟩
  | arr start elements =>
      obtain ⟨vs, there, rfl⟩ := read_arr plain
      rw [collapse]
      cases elements with
      | broken _ _ => cases direct
      | close _ =>
          rw [readAll] at there
          cases there
          exact direct
      | cons place name rest =>
          obtain ⟨text, named, direct⟩ := bind_eq_ok_iff.1 direct
          obtain ⟨v, others, here, behind, rfl⟩ := readAll_cons there
          obtain rfl := read_of_readText named here
          cases rest with
          | broken _ _ => cases direct
          | close _ =>
              rw [readAll] at behind
              cases behind
              exact direct
          | cons place' types rest =>
              obtain ⟨read, typed, direct⟩ := bind_eq_ok_iff.1 direct
              obtain ⟨v', others', here', behind', rfl⟩ := readAll_cons behind
              have decoded := typesOfJson_of_readTypes typed here' [.index 1]
              cases rest with
              | broken reading skipping =>
                  rw [readAll] at behind'
                  cases behind'
              | cons => cases direct
              | close _ =>
                  rw [readAll] at behind'
                  cases behind'
                  exact bind_eq_ok_iff.2 ⟨text, rfl, bind_eq_ok_iff.2 ⟨read, decoded, direct⟩⟩

end Located

/-- Where a text is decoded to an assembly and is read as a value, the value is decoded to the same
assembly. -/
theorem Assembly.ofJson_of_ofText {text : String} {assembly : Assembly} {v : Json}
    (direct : Assembly.ofText text = .ok assembly) (plain : Json.ofText text = .ok v) :
    Assembly.ofJson v = .ok assembly := by
  unfold Json.ofText at plain
  cases read : Located.read [] 0 (Located.ofText text) with
  | error e =>
      rw [read] at plain
      cases plain
  | ok w =>
      rw [read] at plain
      cases plain
      exact Located.ofJson_of_readAssembly direct read

/-! ## An example -/

namespace Shop

/-- An assembly as an array: a lamp that is declared twice, as an array each time, and a desk whose
tag stands last, with a repeated member that nobody knows. -/
def listedAssembly : String :=
  "[\"\",\x7b\"Lamp\":[\"enum\",\"A\"]," ++
    "\"Desk\":\x7b\"fqn\":\"B\",\"x\":1,\"x\":2,\"kind\":\"class\"\x7d," ++
    "\"Lamp\":[\"enum\",\"C\"]\x7d]"

end Shop

/-- The lamp keeps its place and is the second one, and the desk is there, on both ways. -/
theorem Assembly.ofJson_of_ofText_listed : ∃ assembly v,
    Assembly.ofText Shop.listedAssembly = .ok assembly ∧
      Json.ofText Shop.listedAssembly = .ok v ∧ Assembly.ofJson v = .ok assembly ∧
      (assembly.types.map fun p => (p.1, p.2.fqn)) = [("Lamp", "C"), ("Desk", "B")] := by
  have names : (Assembly.ofText Shop.listedAssembly).toOption.map
      (fun a => a.types.map fun p => (p.1, p.2.fqn)) = some [("Lamp", "C"), ("Desk", "B")] := by
    decide +kernel
  have isValue : (Json.ofText Shop.listedAssembly).toOption.isSome = true := by decide +kernel
  obtain ⟨assembly, decoded, same⟩ := Option.map_eq_some_iff.1 names
  obtain ⟨v, read⟩ := Option.isSome_iff_exists.1 isValue
  have direct := ok_of_toOption decoded
  have plain := ok_of_toOption read
  exact ⟨assembly, v, direct, plain, Assembly.ofJson_of_ofText direct plain, same⟩

end ManifestSchema
