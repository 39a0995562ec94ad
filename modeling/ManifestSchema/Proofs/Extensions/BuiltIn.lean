import ManifestSchema.Proofs.Extensions
import ManifestSchema.Proofs.Pointer

/-!
# Extensions that are built in

The extensions that are built in ask for finished definitions, in a fixed order. Where a registry
holds nothing but finished definitions of extensions, each of these is written if its key is still
free and passed over otherwise, so the first one to ask for a key decides what it holds. That is
harmless for keys that come with one body only. The definition of expressions has a body for each
extension, and only the functions of the first one are in it.

Results:

1. `Extension.extendAll_eq`: registering is writing what is asked for where nothing is there;
2. `Extension.extendAll_composes`: extensions that are built in may be combined and repeated;
3. `Extension.extendAll_expression`: what expressions accept, and when that is every function;
4. `Extension.extendAll_omits_function`: two extensions, and a function that is left out.
-/

namespace ManifestSchema

/-! ## One definition -/

namespace Registry

/-- Every definition belongs to an extension and is finished. -/
def Settled (r : Registry) : Prop := ∀ p ∈ r.slots, ∃ body, p.2 = ⟨.extension, .resolved body⟩

variable {r : Registry}

theorem settled_empty : empty.Settled := fun _ member => absurd member List.not_mem_nil

theorem Settled.insertNew (settled : r.Settled) (key : String) (body : Json) :
    Settled ⟨r.slots.insertNew key ⟨.extension, .resolved body⟩⟩ := by
  intro p member
  unfold Dict.insertNew at member
  split at member
  · exact settled p member
  · rcases List.mem_append.1 member with old | new
    · exact settled p old
    · exact ⟨body, by rw [List.mem_singleton.1 new]⟩

/-- A finished definition of an extension is written if its key is free. -/
theorem Settled.define (settled : r.Settled) (key : String) (body : Json) :
    Registry.define key .extension (pure body) r = .ok (reference key)
      ⟨r.slots.insertNew key ⟨.extension, .resolved (describedBy key body)⟩⟩ := by
  cases found : r.slots.find? key with
  | some slot =>
      obtain ⟨_, rfl⟩ := settled _ (Dict.mem_of_find? found)
      have present : r.slots.contains key = true := by rw [Dict.contains, found]; rfl
      rw [define_of_found found, Dict.insertNew, if_pos present]
      rfl
  | none =>
      have missing : ¬r.slots.contains key = true := by simp [Dict.contains, found]
      have new := Dict.find?_eq_none_iff.1 found
      refine define_ok_iff.2 ⟨rfl, .inr ⟨found, body, _, rfl, resolve_ok_iff.2
        ⟨⟨.extension, .pending⟩, ?_, rfl, ?_⟩⟩⟩
      · simp only [HoldsRegistry.registry, HoldsRegistry.withRegistry, id, Dict.find?_append,
          found, Option.none_or, Dict.find?_cons, if_true]
      · simp only [HoldsRegistry.registry, HoldsRegistry.withRegistry, id, Dict.insertNew,
          if_neg missing, Dict.adjust_middle new]

end Registry

/-! ## What extensions ask for -/

/-- A finished definition of an extension. -/
def CustomDefinition.Finished (d : CustomDefinition) (body : Json) : Prop :=
  d.owner = .extension ∧ d.body = some body

namespace Extension

theorem slot_eq {d : CustomDefinition} {body : Json} (finished : d.Finished body) :
    CustomDefinition.slot d = (d.key, ⟨.extension, .resolved (describedBy d.key body)⟩) := by
  rw [CustomDefinition.slot, finished.1, finished.2]

/-- The extensions that a run knows by itself. -/
def BuiltIn : Extension → Prop
  | .intrinsics _ | .conventions => True
  | .custom _ => False

/-- The entries that extensions ask for, in order. -/
def requests (extensions : List Extension) : Dict Slot :=
  (extensions.flatMap definitions).map CustomDefinition.slot

theorem requests_cons (e : Extension) (rest : List Extension) :
    requests (e :: rest) = e.definitions.map CustomDefinition.slot ++ requests rest := by
  rw [requests, List.flatMap_cons, List.map_append, requests]

theorem exists_of_mem_requests {extensions : List Extension} {p : String × Slot}
    (member : p ∈ requests extensions) :
    ∃ e ∈ extensions, ∃ d ∈ e.definitions, CustomDefinition.slot d = p := by
  obtain ⟨d, asked, rfl⟩ := List.mem_map.1 member
  obtain ⟨e, isExtension, isDefinition⟩ := List.mem_flatMap.1 asked
  exact ⟨e, isExtension, d, isDefinition, rfl⟩

theorem mem_keys_requests {extensions : List Extension} {e : Extension} {d : CustomDefinition}
    (member : e ∈ extensions) (asked : d ∈ e.definitions) :
    d.key ∈ (requests extensions).keys :=
  List.mem_map_of_mem (f := Prod.fst)
    (List.mem_map_of_mem (f := CustomDefinition.slot) (List.mem_flatMap.2 ⟨e, member, asked⟩))

/-- An extension that is built in asks for finished definitions, and these refer to nothing but
each other. -/
theorem BuiltIn.finished {e : Extension} (builtIn : e.BuiltIn) {d : CustomDefinition}
    (member : d ∈ e.definitions) :
    ∃ body, d.Finished body ∧
      ∀ text ∈ body.pointers, ∃ other ∈ e.definitions, text = Pointer.text other.key := by
  cases e with
  | custom _ => exact builtIn.elim
  | conventions =>
      have plain : ∀ d ∈ Conventions.definitions, ∃ body, d.Finished body ∧ body.pointers = [] := by
        simp only [Conventions.definitions, List.forall_mem_cons]
        exact ⟨⟨_, ⟨rfl, rfl⟩, rfl⟩, ⟨_, ⟨rfl, rfl⟩, rfl⟩, ⟨_, ⟨rfl, rfl⟩, rfl⟩,
          ⟨_, ⟨rfl, rfl⟩, rfl⟩, fun _ none => absurd none List.not_mem_nil⟩
      obtain ⟨body, finished, none⟩ := plain d member
      exact ⟨body, finished, by simp [none]⟩
  | intrinsics functions =>
      rcases List.mem_append.1 member with call | expression
      · obtain ⟨f, _, rfl⟩ := List.mem_map.1 call
        have none : (Intrinsics.call f).pointers = [] :=
          Json.pointers_object (by simp [Fragment.ofType, Json.text?]) _ _
        exact ⟨_, ⟨rfl, rfl⟩, by simp [none]⟩
      · rw [List.mem_singleton.1 expression]
        refine ⟨_, ⟨rfl, rfl⟩, fun text refers => ?_⟩
        rw [Intrinsics.expression, Json.pointers_anyOf] at refers
        obtain ⟨_, arm, refers⟩ := List.mem_flatMap.1 refers
        obtain ⟨f, isFunction, rfl⟩ := List.mem_map.1 arm
        rw [Json.pointers_reference, List.mem_singleton] at refers
        exact ⟨_, List.mem_append_left _ (List.mem_map_of_mem isFunction), refers⟩

/-! ## Registering -/

variable {extensions : List Extension} {r : Registry}

theorem register_eq {definitions : List CustomDefinition}
    (finished : ∀ d ∈ definitions, ∃ body, d.Finished body) (settled : r.Settled) :
    register definitions r =
      .ok () ⟨r.slots.insertAllNew (definitions.map CustomDefinition.slot)⟩ ∧
    Registry.Settled ⟨r.slots.insertAllNew (definitions.map CustomDefinition.slot)⟩ := by
  induction definitions generalizing r with
  | nil => exact ⟨rfl, settled⟩
  | cons d rest ih =>
      obtain ⟨body, isFinished⟩ := finished d List.mem_cons_self
      obtain ⟨registered, settledAfter⟩ := ih (fun other member =>
        finished other (List.mem_cons_of_mem _ member))
        (settled.insertNew d.key (describedBy d.key body))
      have written : r.slots.insertAllNew ((d :: rest).map CustomDefinition.slot) =
          (r.slots.insertNew d.key ⟨.extension, .resolved (describedBy d.key body)⟩).insertAllNew
            (rest.map CustomDefinition.slot) := by
        rw [List.map_cons, slot_eq isFinished, Dict.insertAllNew_cons]
      rw [written]
      refine ⟨?_, settledAfter⟩
      unfold register
      simp only [isFinished.2]
      refine Work.bind_ok_iff.2 ⟨(), _, Work.discard_ok_iff.2 ⟨reference d.key, ?_⟩, registered⟩
      rw [isFinished.1]
      exact settled.define d.key body

/-- Registering what extensions that are built in ask for is writing it where nothing is there. -/
theorem extendAll_eq (builtIn : ∀ e ∈ extensions, e.BuiltIn) (settled : r.Settled) :
    extendAll extensions r = .ok () ⟨r.slots.insertAllNew (requests extensions)⟩ ∧
    Registry.Settled ⟨r.slots.insertAllNew (requests extensions)⟩ := by
  induction extensions generalizing r with
  | nil => exact ⟨rfl, settled⟩
  | cons e rest ih =>
      obtain ⟨first, settledBetween⟩ := register_eq (fun d member =>
        ((builtIn e List.mem_cons_self).finished member).imp fun _ h => h.1) settled
      obtain ⟨others, settledAfter⟩ := ih (fun other member =>
        builtIn other (List.mem_cons_of_mem _ member)) settledBetween
      rw [requests_cons, Dict.insertAllNew_append]
      exact ⟨Work.bind_ok_iff.2 ⟨(), _, first, others⟩, settledAfter⟩

theorem extendAll_again (builtIn : ∀ e ∈ extensions, e.BuiltIn) (settled : r.Settled)
    (known : (requests extensions).keys ⊆ r.slots.keys) : extendAll extensions r = .ok () r := by
  have done := (extendAll_eq builtIn settled).1
  rwa [Dict.insertAllNew_of_subset known] at done

/-- Extensions that are built in may be combined, in any order and with any repetitions and
collisions of their names. They always succeed, add finished definitions behind those that are there
and touch none of these. What a key holds is what was there, or else what was asked for first. The
references in what is added lead to definitions, and the same extensions find nothing to add when
they are applied once more. -/
theorem extendAll_composes (builtIn : ∀ e ∈ extensions, e.BuiltIn) (settled : r.Settled)
    (distinct : r.slots.Distinct) :
    ∃ added, extendAll extensions r = .ok () ⟨r.slots ++ added⟩ ∧
      Registry.Settled ⟨r.slots ++ added⟩ ∧ Dict.Distinct (r.slots ++ added) ∧
      (∀ key, Dict.find? (r.slots ++ added) key =
        (r.slots.find? key).or ((requests extensions).find? key)) ∧
      (∀ key body, (key, Slot.mk .extension (.resolved body)) ∈ added →
        ∀ text ∈ body.pointers, ∃ name ∈ Dict.keys (r.slots ++ added), text = Pointer.text name) ∧
      extendAll extensions (Registry.mk (r.slots ++ added)) = .ok () ⟨r.slots ++ added⟩ := by
  obtain ⟨done, settledAfter⟩ := extendAll_eq builtIn settled
  have asked : (requests extensions).keys ⊆
      Dict.keys (r.slots.insertAllNew (requests extensions)) := fun key member => by
    rw [Dict.keys_insertAllNew]
    exact mem_appendNew_iff.2 (.inr member)
  have found := Dict.find?_insertAllNew r.slots (requests extensions)
  have distinctAfter := distinct.insertAllNew (requests extensions)
  obtain ⟨added, grown, part⟩ := Dict.exists_insertAllNew r.slots (requests extensions)
  rw [grown] at done settledAfter asked found distinctAfter
  refine ⟨added, done, settledAfter, distinctAfter, found, fun key body new text refers => ?_,
    extendAll_again builtIn settledAfter asked⟩
  obtain ⟨e, member, d, isDefinition, same⟩ := exists_of_mem_requests (part new)
  obtain ⟨schema, finished, answered⟩ := (builtIn e member).finished isDefinition
  rw [slot_eq finished] at same
  cases same
  rw [Json.pointers_describedBy] at refers
  obtain ⟨other, isOther, rfl⟩ := answered text refers
  exact ⟨other.key, asked (mem_keys_requests member isOther), rfl⟩

/-! ## Expressions -/

/-- The functions of an extension of intrinsic functions. -/
def functions? : Extension → Option (List String)
  | .intrinsics functions => some functions
  | .conventions | .custom _ => none

/-- What an extension of intrinsic functions asks for under the key of expressions: calls of its
functions, unless one of these has that key itself. -/
def expressionOf (functions : List String) : Json :=
  if expressionKey ∈ functions then Intrinsics.call expressionKey
  else Intrinsics.expression functions

theorem find?_calls (functions : List String) (key : String) :
    Dict.find? ((functions.map fun f => CustomDefinition.mk f .extension
      (some (Intrinsics.call f))).map CustomDefinition.slot) key =
        if key ∈ functions then
          some ⟨.extension, .resolved (describedBy key (Intrinsics.call key))⟩
        else none := by
  induction functions with
  | nil => rfl
  | cons f rest ih =>
      rw [List.map_cons, List.map_cons, slot_eq ⟨rfl, rfl⟩, Dict.find?_cons, ih]
      by_cases same : f = key
      · simp [same]
      · simp [same, Ne.symm same]

theorem find?_intrinsics (functions : List String) :
    Dict.find? ((Intrinsics.definitions functions).map CustomDefinition.slot) expressionKey =
      some ⟨.extension, .resolved (describedBy expressionKey (expressionOf functions))⟩ := by
  rw [Intrinsics.definitions, List.map_append, Dict.find?_append, find?_calls, expressionOf]
  split <;> rfl

/-- The first extension of intrinsic functions decides what expressions are. -/
theorem find?_requests_expression (builtIn : ∀ e ∈ extensions, e.BuiltIn) :
    (requests extensions).find? expressionKey =
      (extensions.findSome? functions?).map fun functions =>
        ⟨.extension, .resolved (describedBy expressionKey (expressionOf functions))⟩ := by
  induction extensions with
  | nil => rfl
  | cons e rest ih =>
      have others := ih fun other member => builtIn other (List.mem_cons_of_mem _ member)
      rw [requests_cons, Dict.find?_append, others]
      cases e with
      | intrinsics functions => rw [definitions, find?_intrinsics]; rfl
      | conventions => rfl
      | custom _ => exact (builtIn _ List.mem_cons_self).elim

theorem body?_expression (builtIn : ∀ e ∈ extensions, e.BuiltIn) :
    Registry.body? ⟨Registry.empty.slots.insertAllNew (requests extensions)⟩ expressionKey =
      (extensions.findSome? functions?).map fun functions =>
        describedBy expressionKey (expressionOf functions) := by
  rw [Registry.body?, Registry.entry?, Dict.find?_insertAllNew, find?_requests_expression builtIn]
  cases extensions.findSome? functions? <;> rfl

theorem exists_first {functions : List String} (member : .intrinsics functions ∈ extensions) :
    ∃ first, extensions.findSome? functions? = some first :=
  Option.isSome_iff_exists.1 (List.findSome?_isSome_iff.2 ⟨_, member, rfl⟩)

/-- Expressions accept calls of all functions, whichever extension brings them. -/
def OffersAll (extensions : List Extension) (r : Registry) : Prop :=
  ∀ functions, .intrinsics functions ∈ extensions →
    ∃ arms, (r.body? expressionKey).bind (·.get? "anyOf") = some (.arr arms) ∧
      ∀ function ∈ functions, reference function ∈ arms

theorem reference_mem_map {function : String} {functions : List String} :
    reference function ∈ functions.map reference ↔ function ∈ functions := by
  refine ⟨fun member => ?_, List.mem_map_of_mem⟩
  obtain ⟨other, isFunction, same⟩ := List.mem_map.1 member
  simp only [reference, Json.obj.injEq, List.cons.injEq, Prod.mk.injEq, Json.str.injEq,
    and_true, true_and] at same
  have read := Pointer.key?_text other
  rw [same, Pointer.key?_text] at read
  exact Option.some.inj read ▸ isFunction

/-- The definition that some functions give to expressions accepts calls of others. -/
theorem expressionOf_offers_iff {first functions : List String} :
    (∃ arms, (describedBy expressionKey (expressionOf first)).get? "anyOf" = some (.arr arms) ∧
      ∀ function ∈ functions, reference function ∈ arms) ↔
        expressionKey ∉ first ∧ functions ⊆ first := by
  have arms : (describedBy expressionKey (expressionOf first)).get? "anyOf" =
      if expressionKey ∈ first then none else some (.arr (first.map reference)) := by
    rw [expressionOf]
    split <;> rfl
  rw [arms]
  by_cases own : expressionKey ∈ first
  · simp [own]
  · simp [own, reference_mem_map, List.subset_def]

/-- On a new registry, expressions are what the first extension of intrinsic functions makes of
them. They accept calls of all functions exactly if no other extension has a function that the first
one lacks, and the first one has none with the key of expressions. -/
theorem extendAll_expression (builtIn : ∀ e ∈ extensions, e.BuiltIn) :
    ∃ r, extendAll extensions Registry.empty = .ok () r ∧
      (r.body? expressionKey = (extensions.findSome? functions?).map fun functions =>
        describedBy expressionKey (expressionOf functions)) ∧
      (OffersAll extensions r ↔ ∀ functions, .intrinsics functions ∈ extensions →
        ∃ first, extensions.findSome? functions? = some first ∧ expressionKey ∉ first ∧
          functions ⊆ first) := by
  have body := body?_expression builtIn
  refine ⟨_, (extendAll_eq builtIn Registry.settled_empty).1, body, ?_⟩
  refine forall_congr' fun functions => forall_congr' fun member => ?_
  obtain ⟨first, isFirst⟩ := exists_first member
  rw [body, isFirst, Option.map_some, Option.bind_some, expressionOf_offers_iff]
  simp

end Extension

/-! ## Examples -/

namespace Shop

/-- Functions with the keys of expressions and of conventions, and functions that come twice. -/
def colliding : List Extension :=
  [.intrinsics ["Ref", "Expression", "Ref"], .conventions, .intrinsics ["Tag", "Fn::Ref"],
    .conventions]

/-- A registry in which an extension has defined a function before. -/
def prepared : Registry :=
  ⟨[("Ref", ⟨.extension, .resolved (.obj [("description", .str "A name.")])⟩)]⟩

theorem settled_prepared : prepared.Settled := by
  simp [Registry.Settled, prepared]

/-- The functions of the later extension are among those of the earlier one. -/
def sharing : List Extension := [.conventions, .intrinsics ["Ref", "Fn::Ref"], .intrinsics ["Ref"]]

/-- Two extensions with one function each. -/
def apart : List Extension := [.intrinsics ["Ref"], .intrinsics ["Fn::GetAtt"]]

theorem builtIn_of_colliding : ∀ e ∈ colliding, e.BuiltIn := by
  simp [colliding, Extension.BuiltIn]

theorem builtIn_of_sharing : ∀ e ∈ sharing, e.BuiltIn := by
  simp [sharing, Extension.BuiltIn]

end Shop

namespace Extension

/-- In the example each key is registered once, the function that was there stays, and applying the
extensions again changes nothing. -/
theorem extendAll_composes_colliding : Shop.prepared.Settled ∧ Shop.prepared.slots.Distinct ∧
    ∃ added, extendAll Shop.colliding Shop.prepared = .ok () ⟨Shop.prepared.slots ++ added⟩ ∧
      Dict.keys added = ["Expression", "Call", "Tag", "DependsOn", "Override", "Fn::Ref"] ∧
      Registry.Settled ⟨Shop.prepared.slots ++ added⟩ ∧
      extendAll Shop.colliding (Registry.mk (Shop.prepared.slots ++ added)) =
        .ok () ⟨Shop.prepared.slots ++ added⟩ := by
  have distinct : Shop.prepared.slots.Distinct := by decide
  obtain ⟨added, done, settled, _, _, _, again⟩ :=
    extendAll_composes Shop.builtIn_of_colliding Shop.settled_prepared distinct
  obtain ⟨slots, registered, keys⟩ : ∃ slots,
      extendAll Shop.colliding Shop.prepared = .ok () ⟨Shop.prepared.slots ++ slots⟩ ∧
        Dict.keys slots = ["Expression", "Call", "Tag", "DependsOn", "Override", "Fn::Ref"] :=
    ⟨_, rfl, rfl⟩
  have same := registered.symm.trans done
  simp only [EStateM.Result.ok.injEq, Registry.mk.injEq, List.append_cancel_left_eq,
    true_and] at same
  exact ⟨Shop.settled_prepared, distinct, added, done, same ▸ keys, settled, again⟩

/-- Where the later functions are among the earlier ones, expressions accept calls of all. -/
theorem extendAll_expression_sharing : ∃ r,
    extendAll Shop.sharing Registry.empty = .ok () r ∧
      r.body? expressionKey =
        some (describedBy expressionKey (Intrinsics.expression ["Ref", "Fn::Ref"])) ∧
      OffersAll Shop.sharing r := by
  obtain ⟨r, done, body, offers⟩ := extendAll_expression Shop.builtIn_of_sharing
  refine ⟨r, done, body, offers.2 fun functions member => ⟨["Ref", "Fn::Ref"], rfl, by decide, ?_⟩⟩
  simp only [Shop.sharing, List.mem_cons, reduceCtorEq, intrinsics.injEq, List.not_mem_nil,
    or_false, false_or] at member
  rcases member with rfl | rfl <;> simp

/-- Expressions do not accept calls of the function that the second extension brings. -/
theorem extendAll_omits_function : ∃ r,
    extendAll Shop.apart Registry.empty = .ok () r ∧ r.contains "Fn::GetAtt" = true ∧
      ¬OffersAll Shop.apart r := by
  obtain ⟨r, done, present, body⟩ : ∃ r, extendAll Shop.apart Registry.empty = .ok () r ∧
      r.contains "Fn::GetAtt" = true ∧
      r.body? expressionKey = some (describedBy expressionKey (expressionOf ["Ref"])) :=
    ⟨_, rfl, rfl, rfl⟩
  refine ⟨r, done, present, fun offers => ?_⟩
  have second := offers ["Fn::GetAtt"] (by simp [Shop.apart])
  rw [body, Option.bind_some, expressionOf_offers_iff] at second
  exact absurd second.2 (by simp)

end Extension

end ManifestSchema
