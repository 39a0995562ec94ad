import ManifestSchema.Proofs.Registry
import ManifestSchema.Proofs.Settings.Arranged
import ManifestSchema.Settings.Load

/-!
# Runs that load settings

A run tries the formats of files in some order, and goes through the entries of each layer in some
order. All runs load the same settings when none of them fails, and each decodes the same.

Results:

1. `Settings.layered_iff`: the layers of a run;
2. `Settings.alwaysLoads_iff`: when every run loads the same settings;
3. `Settings.AlwaysLoads.load_eq`: these are loaded in the listed order;
4. `Settings.Layered.reaches`: a run that nothing stops, since no key counts from the end of a list;
5. `Settings.alwaysLoads_of_isRigid`: layers that can be gone through in one order only.
-/

namespace ManifestSchema

namespace Settings

open Configured

theorem configuration_append (layers : List (List (String × Configured)))
    (requested given : List (String × Configured)) :
    configuration (layers ++ [requested, given]) =
      overlay (overlay (configuration layers) requested) given := by
  simp [configuration, overlay_append]

/-- How a run ends that goes through some layers as they stand. -/
def outcome (layers : List (List (String × Configured))) : Option Settings :=
  if emptyTable.reaches layers.flatten then (decode (configuration layers)).toOption else none

theorem outcome_eq_some_iff {layers : List (List (String × Configured))} {s : Settings} :
    outcome layers = some s ↔
      emptyTable.reaches layers.flatten = true ∧ decode (configuration layers) = .ok s := by
  unfold outcome
  split
  · next reached =>
      refine ⟨fun ends => ⟨reached, ok_of_toOption ends⟩, fun ⟨_, decoded⟩ => ?_⟩
      rw [decoded]
      rfl
  · next stops => exact ⟨nofun, fun ⟨reached, _⟩ => absurd reached stops⟩

section Layers

variable [ForeignFormats] {t : FileTree} {environment : List (String × String)}
  {config : Option String} {formats : List ConfigFormat}

theorem layers_ok_iff {read : List (List (String × Configured))} :
    layers formats t environment config = .ok read ↔ ∃ defaults requested,
      defaultFiles.mapM (optionalLayer formats t) = .ok defaults ∧
      requestedLayer formats t config = .ok requested ∧
      read = defaults ++ [requested, Environment.layer environment] := by
  simp only [layers, bind_eq_ok_iff]
  constructor
  · rintro ⟨defaults, files, requested, asked, ⟨⟩⟩
    exact ⟨defaults, requested, files, asked, rfl⟩
  · rintro ⟨defaults, requested, files, asked, rfl⟩
    exact ⟨defaults, files, requested, asked, rfl⟩

/-- In a run the files are read as some order of the formats says, and the variables stand in some
order. -/
theorem layered_iff {arranged : List (List (String × Configured))} :
    Layered t environment config arranged ↔
      ∃ formats defaults requested defaults' requested' given,
        formats.Perm ConfigFormat.all ∧
        defaultFiles.mapM (optionalLayer formats t) = .ok defaults ∧
        requestedLayer formats t config = .ok requested ∧
        ArrangedAll defaults defaults' ∧
        Arranged (.table requested none) (.table requested' none) ∧
        given.Perm (Environment.layer environment) ∧
        arranged = defaults' ++ [requested', given] := by
  have flat : ∀ p ∈ Environment.layer environment, p.2.isTable = false := fun p member =>
    (Environment.isVariable_layer environment p member).single
  constructor
  · rintro ⟨formats, read, order, found, all⟩
    obtain ⟨defaults, requested, files, asked, rfl⟩ := layers_ok_iff.1 found
    obtain ⟨defaults', _, rfl, before, behind⟩ := all.exists_append
    cases behind with
    | cons first rest =>
        cases rest with
        | cons second rest =>
            cases rest
            exact ⟨formats, defaults, requested, defaults', _, _, order, files, asked, before,
              first, second.perm_of_flat flat, rfl⟩
  · rintro ⟨formats, defaults, requested, defaults', requested', given, order, files, asked,
      before, first, same, rfl⟩
    exact ⟨formats, _, order, layers_ok_iff.2 ⟨defaults, requested, files, asked, rfl⟩,
      before.append (.cons first (.cons (.entries same.symm) .nil))⟩

/-- Every run loads some settings when all layers can be read in every run, all places are reached
and the settings are decoded from what the layers make. -/
theorem alwaysLoads_iff {s : Settings} : AlwaysLoads t environment config s ↔
    (∀ formats : List ConfigFormat, formats.Perm ConfigFormat.all →
      ∃ read, layers formats t environment config = .ok read) ∧
    ∀ arranged, Layered t environment config arranged →
      emptyTable.reaches arranged.flatten = true ∧ decode (configuration arranged) = .ok s := by
  constructor
  · refine fun loaded => ⟨fun formats order => ?_, fun arranged layered => ?_⟩
    · cases found : layers formats t environment config with
      | ok read => exact ⟨read, rfl⟩
      | error e => exact nomatch loaded _ (.unread order found)
    · have reached : emptyTable.reaches arranged.flatten = true := by
        refine Bool.of_not_eq_false fun stops => ?_
        exact nomatch loaded _ (.stops layered stops)
      exact ⟨reached, ok_of_toOption (loaded _ (.ends layered reached))⟩
  · rintro ⟨readable, decoded⟩ outcome ends
    cases ends with
    | unread order failed =>
        obtain ⟨read, found⟩ := readable _ order
        exact nomatch found.symm.trans failed
    | stops layered stops => exact nomatch (decoded _ layered).1.symm.trans stops
    | ends layered reached => rw [(decoded _ layered).2]; rfl

/-- Settings that every run loads are loaded in the listed order too. -/
theorem AlwaysLoads.load_eq {s : Settings} (loaded : AlwaysLoads t environment config s) :
    load t environment config = .ok s := by
  obtain ⟨readable, decoded⟩ := alwaysLoads_iff.1 loaded
  obtain ⟨read, found⟩ := readable _ (.refl _)
  rw [load, found]
  exact (decoded read ⟨_, _, .refl _, found, .refl read⟩).2

/-- Layers are reached in every order if no key counts from the end of a list. -/
theorem Layered.reaches {arranged : List (List (String × Configured))}
    (layered : Layered t environment config arranged)
    (up : ∀ formats read, layers formats t environment config = .ok read →
      read.flatten.all (fun p => countsUp p.1) = true) (root : Configured) :
    root.reaches arranged.flatten = true := by
  obtain ⟨formats, read, _, found, all⟩ := layered
  refine reaches_of_countsUp (fun p member => ?_) root
  obtain ⟨u, listed⟩ := all.exists_key p member
  have here := List.all_eq_true.1 (up formats read found) _ listed
  exact here

theorem Layered.loads {arranged : List (List (String × Configured))}
    (layered : Layered t environment config arranged) :
    Loads t environment config (outcome arranged) := by
  unfold outcome
  cases reached : emptyTable.reaches arranged.flatten with
  | false => exact .stops layered reached
  | true => exact .ends layered reached

/-- Layers that can be gone through in one order only are loaded in the same way by every run. -/
theorem alwaysLoads_of_isRigid {read : List (List (String × Configured))} {s : Settings}
    (found : ∀ formats, layers formats t environment config = .ok read)
    (rigid : read.all isRigidAll = true) (ends : outcome read = some s) :
    AlwaysLoads t environment config s := by
  refine alwaysLoads_iff.2 ⟨fun formats _ => ⟨read, found formats⟩, ?_⟩
  rintro arranged ⟨formats, read', _, found', all⟩
  obtain rfl : read' = read := Except.ok.inj (found'.symm.trans (found formats))
  rw [all.eq_of_isRigid rigid]
  exact outcome_eq_some_iff.1 ends

end Layers

end Settings

end ManifestSchema
