import ManifestSchema.Proofs.Diagnostics
import ManifestSchema.Proofs.Dict
import ManifestSchema.Proofs.Registry
import ManifestSchema.TypeSystem.Inheritance
import ManifestSchema.Schema.Roots

/-!
# The order of declarations

The types of all manifests come into the type system in the order in which they are declared. What
is found under a name does not depend on that order, so neither does which classes descend from
which; only the order of the classes does.

Results:

1. `TypeSystem.addAll_merges`: how far the types of a file come in, and what is answered;
2. `TypeSystem.ofAssemblies_of_distinct`: manifests that declare each name once are all loaded;
3. `RootSelection.among_eq`: which roots are selected, and how many classes are skipped;
4. `RootSelection.among_perm`: the order of declarations makes a difference only to the order of the
   roots.
-/

namespace ManifestSchema

/-! ## Dictionaries -/

namespace Dict

universe u

variable {α : Type u}

/-- Distinct pairs add those of their keys that are not there yet. -/
theorem keys_insertAll {pairs : Dict α} (distinct : pairs.Distinct) (d : Dict α) :
    (d.insertAll pairs).keys = d.keys ++ pairs.keys.filter fun key => key ∉ d.keys := by
  induction pairs generalizing d with
  | nil => simp [insertAll, keys]
  | cons p rest ih =>
      obtain ⟨first, value⟩ := p
      obtain ⟨missing, distinct⟩ := List.nodup_cons.1 distinct
      have step : insertAll d ((first, value) :: rest) =
          Dict.insertAll (d.insert first value) rest := rfl
      have split : keys ((first, value) :: rest) = first :: keys rest := rfl
      rw [step, ih distinct, keys_insert, split]
      by_cases present : first ∈ d.keys
      · rw [if_pos present, List.filter_cons_of_neg (by simpa using present)]
      · have others : (keys rest).filter (fun key => key ∉ d.keys ++ [first]) =
            (keys rest).filter fun key => key ∉ d.keys := by
          refine List.filter_congr fun key member => ?_
          have apart : key ≠ first := fun e => missing (e ▸ member)
          simp [apart]
        rw [if_neg present, others, List.filter_cons_of_pos (by simpa using present),
          List.append_assoc, List.singleton_append]

end Dict

/-! ## Loading -/

namespace TypeSystem

/-- The types that some manifests declare, in the order of the files and of the types in them. -/
def declarations (files : List (String × Assembly)) : Dict Definition :=
  files.flatMap fun f => f.2.types

/-- Every type has an origin. -/
def Tracked (ts : TypeSystem) : Prop := ts.origins.keys = ts.types.keys

/-- The type system with more types behind those that are there, all from one file. -/
def append (ts : TypeSystem) (origin : String) (pairs : Dict Definition) : TypeSystem :=
  ⟨ts.types ++ pairs, ts.origins ++ pairs.map fun p => (p.1, origin)⟩

/-- `Merges origin ts pairs result`: types of a file are added as far as their keys are new.

* `all`: all keys are new, and all types are added.
* `upTo`: the key in the middle is there already, and the types before it are added. -/
inductive Merges (origin : String) (ts : TypeSystem) (pairs : Dict Definition) :
    Except ManifestError Unit × TypeSystem → Prop
  | all : Dict.Distinct (ts.types ++ pairs) →
      Merges origin ts pairs (.ok (), ts.append origin pairs)
  | upTo {before after : Dict Definition} {fqn first : String} {d : Definition} :
      pairs = before ++ (fqn, d) :: after → Dict.Distinct (ts.types ++ before) →
      (ts.append origin before).origins.find? fqn = some first →
      Merges origin ts pairs (.error (.duplicateType fqn first origin), ts.append origin before)

/-- Each key has one type and one origin. -/
structure Recorded (ts : TypeSystem) : Prop where
  tracked : ts.Tracked
  distinct : ts.types.Distinct

variable {ts : TypeSystem} {origin : String}

theorem recorded_empty : empty.Recorded := ⟨rfl, List.nodup_nil⟩

theorem append_nil (ts : TypeSystem) (origin : String) : ts.append origin [] = ts := by
  simp [append]

theorem append_append (ts : TypeSystem) (origin : String) (pairs more : Dict Definition) :
    (ts.append origin pairs).append origin more = ts.append origin (pairs ++ more) := by
  simp [append]

theorem Tracked.append (tracked : ts.Tracked) (origin : String) (pairs : Dict Definition) :
    (ts.append origin pairs).Tracked := by
  unfold Tracked at tracked ⊢
  rw [TypeSystem.append, Dict.keys_append, Dict.keys_append, Dict.keys_map (fun _ => origin), tracked]

theorem addAll_merges (recorded : ts.Recorded) (origin : String) (pairs : Dict Definition) :
    Merges origin ts pairs (addAll origin ts pairs) := by
  induction pairs generalizing ts with
  | nil =>
      have all : Merges origin ts [] (.ok (), ts.append origin []) :=
        .all (by rw [List.append_nil]; exact recorded.distinct)
      rwa [append_nil] at all
  | cons p rest ih =>
      obtain ⟨fqn, d⟩ := p
      rw [addAll]
      cases found : ts.origins.find? fqn with
      | some first =>
          have known : (ts.append origin []).origins.find? fqn = some first := by
            rw [append_nil, found]
          have upTo : Merges origin ts ((fqn, d) :: rest) _ :=
            .upTo rfl (by rw [List.append_nil]; exact recorded.distinct) known
          rwa [append_nil] at upTo
      | none =>
          have missing' : fqn ∉ ts.origins.keys := Dict.find?_eq_none_iff.1 found
          have missing : fqn ∉ ts.types.keys := recorded.tracked ▸ missing'
          have step : (⟨ts.types.insert fqn d, ts.origins.insert fqn origin⟩ : TypeSystem) =
              ts.append origin [(fqn, d)] := by
            rw [append, Dict.insert_of_missing missing d, Dict.insert_of_missing missing' origin]
            rfl
          have recorded1 : (ts.append origin [(fqn, d)]).Recorded := by
            refine ⟨recorded.tracked.append origin _, ?_⟩
            have inserted := recorded.distinct.insert fqn d
            rwa [Dict.insert_of_missing missing d] at inserted
          have others := ih recorded1
          -- what is added behind this type is added behind it in the file as well
          rw [step]
          generalize addAll origin (ts.append origin [(fqn, d)]) rest = result at others
          cases others with
          | all distinct =>
              rw [append_append]
              refine .all ?_
              rwa [append, List.append_assoc] at distinct
          | @upTo before after fqn' first d' split distinct found' =>
              rw [append_append] at found' ⊢
              refine .upTo (by rw [split]; rfl) ?_ found'
              rwa [append, List.append_assoc] at distinct

/-- Types whose keys are all new are all added. -/
theorem addAll_of_distinct (origin : String) (tracked : ts.Tracked) {pairs : Dict Definition}
    (distinct : Dict.Distinct (ts.types ++ pairs)) :
    ∃ ts' : TypeSystem, addAll origin ts pairs = (.ok (), ts') ∧ ts'.types = ts.types ++ pairs ∧
      ts'.Tracked := by
  have apart := distinct
  rw [Dict.Distinct, Dict.keys_append] at apart
  have merges := addAll_merges ⟨tracked, (List.nodup_append.1 apart).1⟩ origin pairs
  generalize addAll origin ts pairs = result at merges
  cases merges with
  | all _ => exact ⟨_, rfl, rfl, tracked.append origin pairs⟩
  | @upTo before after fqn first d split _ found =>
      have known : fqn ∈ (ts.append origin before).types.keys :=
        tracked.append origin before ▸ Dict.mem_keys_of_find? found
      rw [split, ← List.append_assoc, Dict.Distinct, Dict.keys_append] at distinct
      exact absurd rfl ((List.nodup_append.1 distinct).2.2 fqn known fqn List.mem_cons_self)

theorem addFiles_of_distinct {ts : TypeSystem} (tracked : ts.Tracked)
    {files : List (String × Assembly)} (distinct : Dict.Distinct (ts.types ++ declarations files)) :
    ∃ ts', ts.addFiles files = .ok ts' ∧ ts'.types = ts.types ++ declarations files := by
  induction files generalizing ts with
  | nil => exact ⟨ts, rfl, (List.append_nil _).symm⟩
  | cons f rest ih =>
      obtain ⟨origin, assembly⟩ := f
      have split : declarations ((origin, assembly) :: rest) =
          assembly.types ++ declarations rest := List.flatMap_cons
      rw [split, ← List.append_assoc] at distinct ⊢
      have here : Dict.Distinct (ts.types ++ assembly.types) := by
        rw [Dict.Distinct, Dict.keys_append] at distinct
        exact (List.nodup_append.1 distinct).1
      obtain ⟨ts1, added, types, tracked1⟩ := addAll_of_distinct origin tracked here
      obtain ⟨ts', loaded, types'⟩ := ih tracked1 (types ▸ distinct)
      refine ⟨ts', ?_, by rw [types', types]⟩
      rw [addFiles, add, added]
      exact loaded

/-- Manifests that declare each name once are all loaded, in the order of their declarations. -/
theorem ofAssemblies_of_distinct {files : List (String × Assembly)}
    (distinct : (declarations files).Distinct) :
    ∃ ts, ofAssemblies files = .ok ts ∧ ts.types = declarations files := by
  have tracked : empty.Tracked := rfl
  exact addFiles_of_distinct tracked distinct

end TypeSystem

/-! ## Types in another order -/

/-- Two type systems have the same types, each once, in whatever order. -/
structure TypeSystem.Reordered (ts ts' : TypeSystem) : Prop where
  types : ts.types.Perm ts'.types
  distinct : ts.types.Distinct

namespace TypeSystem.Reordered

variable {ts ts' : TypeSystem}

theorem find?_eq (h : ts.Reordered ts') (name : String) : ts.find? name = ts'.find? name :=
  Dict.find?_perm h.types h.distinct name

theorem classes (h : ts.Reordered ts') : ts.classes.Perm ts'.classes := h.types.filterMap _

theorem wellKeyed (h : ts.Reordered ts') (keyed : ts.WellKeyed) : ts'.WellKeyed :=
  fun p member => keyed p (h.types.mem_iff.2 member)

theorem extendsWithin (h : ts.Reordered ts') (base : String) (steps : Nat) (seen : List String)
    (c : ClassType) : ts.extendsWithin base steps seen c = ts'.extendsWithin base steps seen c := by
  induction steps generalizing seen c with
  | zero => rfl
  | succ steps ih =>
      have parents : c.base.bind ts.findClass? = c.base.bind ts'.findClass? := by
        congr 1
        funext name
        rw [TypeSystem.findClass?, TypeSystem.findClass?, h.find?_eq]
      unfold TypeSystem.extendsWithin
      rw [parents]
      simp only [ih]

theorem classExtends (h : ts.Reordered ts') (c : ClassType) (base : String) :
    ts.classExtends c base = ts'.classExtends c base := by
  have size : ts.size = ts'.size := h.types.length_eq
  rw [TypeSystem.classExtends, TypeSystem.classExtends, size, h.extendsWithin]

end TypeSystem.Reordered

/-! ## Selection -/

namespace RootSelection

/-- The root that a class is, if it is one. -/
def root? (s : RootSelection) (ts : TypeSystem) (c : ClassType) : Option Root :=
  if ts.classExtends c s.baseClass then
    (c.propsType? s.propsIndex).bind fun props => if s.skips c.fqn then none else some ⟨c, props⟩
  else none

theorem definition_of_root? {s : RootSelection} {ts : TypeSystem} {c : ClassType} {root : Root}
    (h : s.root? ts c = some root) : root.definition = c := by
  unfold root? at h
  split at h
  · obtain ⟨props, _, h⟩ := Option.bind_eq_some_iff.1 h
    split at h
    · cases h
    · cases h
      rfl
  · cases h

/-- Roots have names of types, each root another one. -/
theorem roots_sublist (s : RootSelection) {ts : TypeSystem} (keyed : ts.WellKeyed) :
    ((ts.classes.filterMap (s.root? ts)).map fun root => root.definition.fqn).Sublist
      ts.types.keys := by
  unfold TypeSystem.classes TypeSystem.WellKeyed at *
  have named : ∀ c root, s.root? ts c = some root → root.definition.fqn = c.fqn :=
    fun c root h => by rw [definition_of_root? h]
  generalize s.root? ts = root? at named
  generalize ts.types = types at keyed
  induction types with
  | nil => exact .slnil
  | cons p rest ih =>
      obtain ⟨key, d⟩ := p
      have others := ih fun p member => keyed p (List.mem_cons_of_mem _ member)
      have split : Dict.keys ((key, d) :: rest) = key :: Dict.keys rest := rfl
      rw [split]
      cases d with
      | interfaceDef _ | enumDef _ => exact others.cons key
      | classDef c =>
          have name : c.fqn = key := keyed _ List.mem_cons_self
          have first : List.filterMap (fun p => p.2.class?) ((key, Definition.classDef c) :: rest) =
              c :: rest.filterMap fun p => p.2.class? := rfl
          rw [first]
          cases selected : root? c with
          | none =>
              rw [List.filterMap_cons_none selected]
              exact others.cons key
          | some root =>
              rw [List.filterMap_cons_some selected, List.map_cons, named c root selected, name]
              exact others.cons_cons key

/-- Whether a class would be a root if it could be constructed. -/
def isSkipped (s : RootSelection) (ts : TypeSystem) (c : ClassType) : Bool :=
  ts.classExtends c s.baseClass && (c.propsType? s.propsIndex).isNone

/-- A class that is skipped brings one warning, on a scope of its own. -/
theorem counts_skipped (d : Diagnostics) (fqn message : String) :
    ((d.child 0 "skipped" fqn).2.warn (d.child 0 "skipped" fqn).1 message).errorCount =
        d.errorCount ∧
      ((d.child 0 "skipped" fqn).2.warn (d.child 0 "skipped" fqn).1 message).warningCount =
        d.warningCount + 1 := by
  have here : (d.child 0 "skipped" fqn).1 < (d.child 0 "skipped" fqn).2.scopes.length := by
    simp [Diagnostics.child]
  have gains := Diagnostics.gains_warn (d.child 0 "skipped" fqn).1 message
    (d.child 0 "skipped" fqn).2
  rw [gains.errorCount here, gains.warningCount here, Diagnostics.errorCount_child,
    Diagnostics.warningCount_child]
  exact ⟨rfl, rfl⟩

/-- The selection does not depend on what was noted before, and adds a warning for each class that
is skipped. -/
theorem among_eq (s : RootSelection) (ts : TypeSystem) (classes : List ClassType)
    (d : Diagnostics) :
    (s.among ts classes d).1 = classes.filterMap (s.root? ts) ∧
      (s.among ts classes d).2.errorCount = d.errorCount ∧
      (s.among ts classes d).2.warningCount = d.warningCount + classes.countP (s.isSkipped ts) := by
  induction classes generalizing d with
  | nil => exact ⟨rfl, rfl, rfl⟩
  | cons c rest ih =>
      rw [among, List.filterMap_cons, List.countP_cons]
      by_cases descends : ts.classExtends c s.baseClass = true
      · cases props : c.propsType? s.propsIndex with
        | none =>
            obtain ⟨errors, warnings⟩ := counts_skipped d c.fqn (skippedWarning s.propsIndex)
            obtain ⟨roots, errors', warnings'⟩ := ih ((d.child 0 "skipped" c.fqn).2.warn
              (d.child 0 "skipped" c.fqn).1 (skippedWarning s.propsIndex))
            rw [errors] at errors'
            rw [warnings] at warnings'
            simp only [descends, root?, isSkipped, props, if_true, Option.isNone_none,
              Option.bind_none, Bool.and_true]
            exact ⟨roots, errors', by rw [warnings']; omega⟩
        | some type =>
            obtain ⟨roots, errors, warnings⟩ := ih d
            by_cases skipped : s.skips c.fqn = true <;>
              simp [descends, root?, isSkipped, props, skipped, roots, errors, warnings]
      · simp [descends, root?, isSkipped, ih d]

variable {ts ts' : TypeSystem}

theorem root?_congr (s : RootSelection) (h : ts.Reordered ts') : s.root? ts = s.root? ts' := by
  funext c
  rw [root?, root?, h.classExtends]

theorem isSkipped_congr (s : RootSelection) (h : ts.Reordered ts') :
    s.isSkipped ts = s.isSkipped ts' := by
  funext c
  rw [isSkipped, isSkipped, h.classExtends]

/-- Types in another order have the same roots in another order, and the same numbers of
messages. -/
theorem among_perm (s : RootSelection) (h : ts.Reordered ts') (d : Diagnostics) :
    (s.among ts ts.classes d).1.Perm (s.among ts' ts'.classes d).1 ∧
      (s.among ts ts.classes d).2.errorCount = (s.among ts' ts'.classes d).2.errorCount ∧
      (s.among ts ts.classes d).2.warningCount = (s.among ts' ts'.classes d).2.warningCount := by
  obtain ⟨roots, errors, warnings⟩ := s.among_eq ts ts.classes d
  obtain ⟨roots', errors', warnings'⟩ := s.among_eq ts' ts'.classes d
  rw [roots, roots', errors, errors', warnings, warnings', s.root?_congr h, s.isSkipped_congr h,
    h.classes.countP_eq]
  exact ⟨h.classes.filterMap _, rfl, rfl⟩

end RootSelection

end ManifestSchema
