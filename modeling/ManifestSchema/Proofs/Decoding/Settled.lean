import ManifestSchema.Manifest.Decode
import ManifestSchema.Proofs.Registry

/-!
# Decoding settled values

A record refuses a known member that comes up twice and ignores an unknown one, however often it
comes up. A decoder is stable when all that it accepts it accepts as well once repeated keys are
settled, with the same result (`Stable`). The decoders of manifests are stable, so it makes no
difference to them whether a value was settled before.

Results:

1. `Shape.collect_ok_iff`: what is collected of the members of an object;
2. `Shape.values_collapse`: the fields of a settled record are the settled fields;
3. `stable_record`: a decoder that asks for fields one after the other is stable when the decoders of
   the fields are;
4. `Definition.stable_decode`: the content of a definition is decoded stably.
-/

namespace ManifestSchema

namespace Json

theorem collapseElements_eq_map (elements : List Json) :
    collapseElements elements = elements.map collapse := by
  induction elements with
  | nil => rfl
  | cons v rest ih => rw [collapseElements, ih, List.map_cons]

theorem collapseMembers_eq_map (members : List (String × Json)) :
    collapseMembers members = members.map fun p => (p.1, p.2.collapse) := by
  induction members with
  | nil => rfl
  | cons p rest ih => rw [collapseMembers, ih, List.map_cons]

theorem filter_collapseMembers (keep : String → Bool) (members : List (String × Json)) :
    (collapseMembers members).filter (fun m => keep m.1) =
      collapseMembers (members.filter fun m => keep m.1) := by
  rw [collapseMembers_eq_map, collapseMembers_eq_map, List.filter_map]
  rfl

theorem collapse_collapse (v : Json) : v.collapse.collapse = v.collapse :=
  collapse_of_settled _ (settled_collapse v)

end Json

open Json

/-- What the decoder accepts, it accepts as well when repeated keys are settled, with the same
result. -/
def Stable {α : Type} (decode : Json → Except DecodeCause α) : Prop :=
  ∀ v a, decode v = .ok a → decode v.collapse = .ok a

/-! ## Single values -/

theorem stable_asText : Stable asText := by
  intro v a decoded
  cases v with
  | str => exact decoded
  | null | bool | num | arr | obj => cases decoded

theorem stable_asTextOrNull : Stable asTextOrNull := by
  intro v a decoded
  cases v with
  | str | null => exact decoded
  | bool | num | arr | obj => cases decoded

theorem stable_asBool : Stable asBool := by
  intro v a decoded
  cases v with
  | bool => exact decoded
  | null | num | str | arr | obj => cases decoded

theorem Stable.asList {α : Type} {decode : Json → Except DecodeCause α} (stable : Stable decode) :
    Stable (Json.asList decode) := by
  intro v a decoded
  cases v with
  | null | bool | num | str | obj => cases decoded
  | arr elements =>
      rw [collapse, collapseElements_eq_map]
      rw [Json.asList] at decoded ⊢
      induction elements generalizing a with
      | nil => exact decoded
      | cons v rest ih =>
          rw [List.mapM_cons] at decoded
          obtain ⟨first, here, decoded⟩ := bind_eq_ok_iff.1 decoded
          obtain ⟨others, there, done⟩ := bind_eq_ok_iff.1 decoded
          rw [List.map_cons, List.mapM_cons, stable v first here, ih others there]
          exact done

theorem TypeRef.stable_decode : Stable TypeRef.decode := by
  intro v type decoded
  rw [TypeRef.decode, collapse_collapse]
  exact decoded

/-! ## Records -/

/-- What passes the check of the field passes it as well when repeated keys are settled. -/
def Field.Stable (f : Field) : Prop := ∀ v, f.check v = .ok () → f.check v.collapse = .ok ()

namespace Field

variable {α : Type} {decode : Json → Except DecodeCause α}

theorem check_ok_iff {v : Json} :
    ((decode v).map fun _ => ()) = .ok () ↔ ∃ a, decode v = .ok a := by
  cases decode v <;> simp [Except.map]

theorem stable_needed (name : String) (stable : ManifestSchema.Stable decode) :
    (Field.needed name decode).Stable := by
  intro v passes
  obtain ⟨a, decoded⟩ := check_ok_iff.1 passes
  exact check_ok_iff.2 ⟨a, stable v a decoded⟩

theorem stable_defaulted (name : String) (stable : ManifestSchema.Stable decode) :
    (Field.defaulted name decode).Stable := by
  intro v passes
  obtain ⟨a, decoded⟩ := check_ok_iff.1 passes
  exact check_ok_iff.2 ⟨a, stable v a decoded⟩

end Field

namespace Shape

variable {s : Shape} {members seen d : Dict Json}

/-- The checks of all fields are stable. -/
def Stable (s : Shape) : Prop := ∀ f ∈ s.fields, f.Stable

/-- The field of a name. -/
def field? (s : Shape) (key : String) : Option Field := s.fields.find? fun f => f.name = key

/-- The members that the record knows. -/
def known (s : Shape) (members : Dict Json) : Dict Json :=
  members.filter fun p => (s.field? p.1).isSome

theorem collect_of_unknown {key : String} (value : Json) (rest : Dict Json)
    (unknown : s.field? key = none) :
    s.collect ((key, value) :: rest) seen = s.collect rest seen := by
  rw [field?] at unknown
  rw [collect, unknown]

theorem collect_of_field {key : String} {f : Field} (value : Json) (rest : Dict Json)
    (found : s.field? key = some f) :
    s.collect ((key, value) :: rest) seen =
      if seen.contains key then .error (.duplicateField key)
      else f.check value >>= fun _ => s.collect rest (seen ++ [(key, value)]) := by
  rw [field?] at found
  rw [collect, found]

/-- Known members are collected in order, provided that none is repeated and each passes the check
of its field. -/
theorem collect_ok_iff (distinct : seen.Distinct) : s.collect members seen = .ok d ↔
    d = seen ++ s.known members ∧ d.Distinct ∧
      ∀ p ∈ s.known members, ∀ f, s.field? p.1 = some f → f.check p.2 = .ok () := by
  induction members generalizing seen with
  | nil =>
      have none : s.known [] = [] := rfl
      rw [collect, none, List.append_nil]
      constructor
      · intro collected
        cases collected
        exact ⟨rfl, distinct, fun _ member => absurd member List.not_mem_nil⟩
      · rintro ⟨rfl, _, _⟩
        rfl
  | cons p rest ih =>
      obtain ⟨key, value⟩ := p
      cases found : s.field? key with
      | none =>
          have unknown : s.known ((key, value) :: rest) = s.known rest :=
            List.filter_cons_of_neg (by simp [found])
          rw [collect_of_unknown value rest found, unknown]
          exact ih distinct
      | some f =>
          have split : s.known ((key, value) :: rest) = (key, value) :: s.known rest :=
            List.filter_cons_of_pos (by simp [found])
          have assoc : seen ++ (key, value) :: s.known rest =
              (seen ++ [(key, value)]) ++ s.known rest := by simp
          rw [collect_of_field value rest found, split, assoc]
          by_cases again : seen.contains key = true
          · refine iff_of_false (by simp [again]) ?_
            rintro ⟨rfl, apart, _⟩
            rw [List.append_assoc, Dict.Distinct, Dict.keys_append] at apart
            exact (List.nodup_append.1 apart).2.2 key (Dict.contains_iff.1 again) key
              List.mem_cons_self rfl
          · have new : key ∉ seen.keys := fun member => again (Dict.contains_iff.2 member)
            have distinct1 : Dict.Distinct (seen ++ [(key, value)]) := by
              have inserted := distinct.insert key value
              rwa [Dict.insert_of_missing new] at inserted
            simp only [if_neg again, bind_eq_ok_iff, ih distinct1, List.forall_mem_cons, found,
              Option.some.injEq, forall_eq']
            constructor
            · rintro ⟨_, passes, grown, apart, others⟩
              exact ⟨grown, apart, passes, others⟩
            · rintro ⟨grown, apart, passes, others⟩
              exact ⟨(), passes, grown, apart, others⟩

/-- Settling the members of an object settles what is collected of them. -/
theorem collect_collapse (stable : s.Stable) (collected : s.collect members [] = .ok d) :
    s.collect (Dict.ofList (collapseMembers members)) [] = .ok (collapseMembers d) := by
  have none : Dict.Distinct ([] : Dict Json) := List.nodup_nil
  obtain ⟨rfl, distinct, passes⟩ := (collect_ok_iff none).1 collected
  rw [List.nil_append] at distinct ⊢
  have settled : s.known (collapseMembers members) = collapseMembers (s.known members) :=
    filter_collapseMembers (fun key => (s.field? key).isSome) members
  have distinct' : Dict.Distinct (collapseMembers (s.known members)) := by
    rw [collapseMembers_eq_map, Dict.Distinct, Dict.keys_map]
    exact distinct
  have same : s.known (Dict.ofList (collapseMembers members)) =
      collapseMembers (s.known members) := by
    rw [← Dict.ofList_of_distinct distinct', ← settled]
    exact Dict.filter_ofList (fun key => (s.field? key).isSome) _
  refine (collect_ok_iff none).2 ⟨same.symm, distinct', ?_⟩
  rw [same, collapseMembers_eq_map]
  intro p member f found
  obtain ⟨q, member', rfl⟩ := List.mem_map.1 member
  exact stable f (List.mem_of_find?_eq_some found) q.2 (passes q member' f found)

theorem pair_collapse (stable : s.Stable) {fields : List Field} (part : fields ⊆ s.fields)
    {elements : List Json} {position : Nat} (paired : s.pair fields elements position = .ok d) :
    s.pair fields (collapseElements elements) position = .ok (collapseMembers d) := by
  induction fields generalizing elements position d with
  | nil =>
      cases elements with
      | nil =>
          cases paired
          rfl
      | cons => cases paired
  | cons f rest ih =>
      obtain ⟨inside, part⟩ := List.cons_subset.1 part
      cases elements with
      | nil =>
          rw [collapseElements]
          rw [pair] at paired ⊢
          split at paired
          · cases paired
          · next optional =>
              rw [if_neg optional]
              exact ih part paired
      | cons v others =>
          rw [collapseElements]
          rw [pair] at paired ⊢
          obtain ⟨_, passes, paired⟩ := bind_eq_ok_iff.1 paired
          obtain ⟨d', there, done⟩ := bind_eq_ok_iff.1 paired
          cases done
          rw [stable f inside v passes, ih part there]
          rfl

/-- The fields of a settled record are the settled fields. -/
theorem values_collapse (stable : s.Stable) {v : Json} (read : s.values v = .ok d) :
    s.values v.collapse = .ok (collapseMembers d) := by
  cases v with
  | null | bool | num | str => cases read
  | arr elements => exact pair_collapse stable (List.Subset.refl _) read
  | obj members =>
      obtain ⟨collected, here, done⟩ := bind_eq_ok_iff.1 read
      rw [collapse, values, collect_collapse stable here]
      have missing : (fun f : Field =>
          f.required && !Dict.contains (collapseMembers collected) f.name) =
          fun f : Field => f.required && !collected.contains f.name := by
        funext f
        rw [collapseMembers_eq_map, Dict.contains_map]
      -- the same fields are missing, since the same members were collected
      rw [← missing] at done
      split at done
      · cases done
      · next complete =>
          cases done
          refine bind_eq_ok_iff.2 ⟨_, rfl, ?_⟩
          rw [complete]
          rfl

end Shape

/-! ## Fields one after the other -/

/-- What is made of the fields of a record is made of the settled fields as well. -/
def StableFields {α : Type} (build : Dict Json → Except DecodeCause α) : Prop :=
  ∀ d a, build d = .ok a → build (collapseMembers d) = .ok a

section

variable {α β : Type} {decode : Json → Except DecodeCause α}

theorem stableFields_pure (a : α) : StableFields fun _ => pure a := fun _ _ built => built

theorem StableFields.bind {first : Dict Json → Except DecodeCause α}
    {next : α → Dict Json → Except DecodeCause β} (here : StableFields first)
    (there : ∀ a, StableFields (next a)) : StableFields fun d => first d >>= fun a => next a d := by
  intro d b built
  obtain ⟨a, found, built⟩ := bind_eq_ok_iff.1 built
  exact bind_eq_ok_iff.2 ⟨a, here d a found, there a d b built⟩

theorem stableFields_require (name : String) (stable : Stable decode) :
    StableFields fun d => d.require name decode := by
  intro d a read
  simp only [Dict.require] at read ⊢
  rw [collapseMembers_eq_map, Dict.find?_map]
  cases found : d.find? name with
  | none =>
      rw [found] at read
      cases read
  | some v =>
      rw [found] at read
      exact stable v a read

theorem stableFields_optionally (name : String) (default : α) (stable : Stable decode) :
    StableFields fun d => d.optionally name default decode := by
  intro d a read
  simp only [Dict.optionally] at read ⊢
  rw [collapseMembers_eq_map, Dict.find?_map]
  cases found : d.find? name with
  | none =>
      rw [found] at read
      exact read
  | some v =>
      rw [found] at read
      exact stable v a read

/-- A record is decoded stably when its fields are. -/
theorem stable_record {s : Shape} {build : Dict Json → Except DecodeCause α} (shape : s.Stable)
    (fields : StableFields build) : Stable fun v => s.values v >>= build := by
  intro v a decoded
  obtain ⟨d, read, built⟩ := bind_eq_ok_iff.1 decoded
  exact bind_eq_ok_iff.2 ⟨_, Shape.values_collapse shape read, fields d a built⟩

end

/-! ## Manifests -/

theorem Docs.stable_summaryOf : Stable Docs.summaryOf := by
  refine stable_record ?_ (stableFields_optionally _ _ stable_asTextOrNull)
  exact List.forall_mem_singleton.2 (Field.stable_defaulted _ stable_asTextOrNull)

theorem Property.stable_decode : Stable Property.decode := by
  refine stable_record ?_ ?_
  · simp only [Shape.Stable, Property.shape, List.forall_mem_cons]
    exact ⟨Field.stable_needed _ stable_asText, Field.stable_needed _ TypeRef.stable_decode,
      Field.stable_defaulted _ stable_asBool, Field.stable_defaulted _ stable_asBool,
      Field.stable_defaulted _ Docs.stable_summaryOf, List.forall_mem_nil _⟩
  · refine (stableFields_require _ stable_asText).bind fun _ => ?_
    refine (stableFields_require _ TypeRef.stable_decode).bind fun _ => ?_
    refine (stableFields_optionally _ _ stable_asBool).bind fun _ => ?_
    refine (stableFields_optionally _ _ stable_asBool).bind fun _ => ?_
    exact (stableFields_optionally _ _ Docs.stable_summaryOf).bind fun _ => stableFields_pure _

theorem Parameter.stable_decode : Stable Parameter.decode := by
  refine stable_record ?_ ?_
  · simp only [Shape.Stable, Parameter.shape, List.forall_mem_cons]
    exact ⟨Field.stable_needed _ stable_asText, Field.stable_needed _ TypeRef.stable_decode,
      List.forall_mem_nil _⟩
  · refine (stableFields_require _ stable_asText).bind fun _ => ?_
    exact (stableFields_require _ TypeRef.stable_decode).bind fun _ => stableFields_pure _

theorem Initializer.stable_parametersOf : Stable Initializer.parametersOf := by
  have listed : Stable (asList Parameter.decode) := Parameter.stable_decode.asList
  have shape : Initializer.shape.Stable :=
    List.forall_mem_singleton.2 (Field.stable_defaulted _ listed)
  have record := stable_record shape
    ((stableFields_optionally "parameters" [] listed).bind fun parameters =>
      stableFields_pure (some parameters))
  intro v a decoded
  cases v with
  | null => exact decoded
  | bool | num | str => cases decoded
  | arr elements => exact record (.arr elements) a decoded
  | obj members => exact record (.obj members) a decoded

theorem ClassType.stable_decode : Stable ClassType.decode := by
  have names : Stable (asList asText) := stable_asText.asList
  have properties : Stable (asList Property.decode) := Property.stable_decode.asList
  refine stable_record ?_ ?_
  · simp only [Shape.Stable, ClassType.shape, List.forall_mem_cons]
    exact ⟨Field.stable_needed _ stable_asText, Field.stable_defaulted _ stable_asTextOrNull,
      Field.stable_defaulted _ names, Field.stable_defaulted _ Initializer.stable_parametersOf,
      Field.stable_defaulted _ properties, Field.stable_defaulted _ Docs.stable_summaryOf,
      List.forall_mem_nil _⟩
  · refine (stableFields_require _ stable_asText).bind fun _ => ?_
    refine (stableFields_optionally _ _ stable_asTextOrNull).bind fun _ => ?_
    refine (stableFields_optionally _ _ names).bind fun _ => ?_
    refine (stableFields_optionally _ _ Initializer.stable_parametersOf).bind fun _ => ?_
    refine (stableFields_optionally _ _ properties).bind fun _ => ?_
    exact (stableFields_optionally _ _ Docs.stable_summaryOf).bind fun _ => stableFields_pure _

theorem InterfaceType.stable_decode : Stable InterfaceType.decode := by
  have names : Stable (asList asText) := stable_asText.asList
  have properties : Stable (asList Property.decode) := Property.stable_decode.asList
  refine stable_record ?_ ?_
  · simp only [Shape.Stable, InterfaceType.shape, List.forall_mem_cons]
    exact ⟨Field.stable_needed _ stable_asText, Field.stable_defaulted _ names,
      Field.stable_defaulted _ properties, Field.stable_defaulted _ Docs.stable_summaryOf,
      List.forall_mem_nil _⟩
  · refine (stableFields_require _ stable_asText).bind fun _ => ?_
    refine (stableFields_optionally _ _ names).bind fun _ => ?_
    refine (stableFields_optionally _ _ properties).bind fun _ => ?_
    exact (stableFields_optionally _ _ Docs.stable_summaryOf).bind fun _ => stableFields_pure _

theorem EnumMember.stable_nameOf : Stable EnumMember.nameOf := by
  refine stable_record ?_ (stableFields_require _ stable_asText)
  exact List.forall_mem_singleton.2 (Field.stable_needed _ stable_asText)

theorem EnumType.stable_decode : Stable EnumType.decode := by
  have names : Stable (asList EnumMember.nameOf) := EnumMember.stable_nameOf.asList
  refine stable_record ?_ ?_
  · simp only [Shape.Stable, EnumType.shape, List.forall_mem_cons]
    exact ⟨Field.stable_needed _ stable_asText, Field.stable_defaulted _ names,
      Field.stable_defaulted _ Docs.stable_summaryOf, List.forall_mem_nil _⟩
  · refine (stableFields_require _ stable_asText).bind fun _ => ?_
    refine (stableFields_optionally _ _ names).bind fun _ => ?_
    exact (stableFields_optionally _ _ Docs.stable_summaryOf).bind fun _ => stableFields_pure _

theorem Stable.map {α β : Type} {decode : Json → Except DecodeCause α} (stable : Stable decode)
    (f : α → β) : Stable fun v => (decode v).map f := by
  intro v b decoded
  change (decode v).map f = .ok b at decoded
  change (decode v.collapse).map f = .ok b
  cases read : decode v with
  | error cause =>
      rw [read] at decoded
      cases decoded
  | ok a =>
      rw [read] at decoded
      rw [stable v a read]
      exact decoded

/-- The content of a definition is decoded stably, whatever its kind. -/
theorem Definition.stable_decode (kind : Kind) : Stable (Definition.decode kind) := by
  cases kind with
  | classKind => exact ClassType.stable_decode.map Definition.classDef
  | interfaceKind => exact InterfaceType.stable_decode.map Definition.interfaceDef
  | enumKind => exact EnumType.stable_decode.map Definition.enumDef

end ManifestSchema
