import Mathlib.Data.String.Basic
import ManifestSchema.Settings.Load

/-!
# Configuration files in the directory of a run

A configuration file whose name has no slashes and names no directory above is looked up among the
files of the directory itself. If it is there, no extension is tried, so the order of the formats
does not matter.

Results:

1. `Settings.isFile_plain` and `Settings.readText_plain`: which file such a name stands for;
2. `Settings.optionalLayer_plain` and `Settings.requestedLayer_plain`: the layer that it is.
-/

namespace ManifestSchema

/-! ## Names without slashes -/

namespace Path

/-- The rest of a text is passed over when no slash is in it. -/
theorem splitOnAux_of_absent (done : List Char) {rest : List Char} (absent : '/' ∉ rest) :
    (String.ofList (done ++ rest)).splitOnAux "/" 0 ⟨String.utf8Len done⟩ 0 [] =
      [String.ofList (done ++ rest)] := by
  induction rest generalizing done with
  | nil =>
      have whole := String.extract_of_valid [] done []
      rw [String.splitOnAux, if_pos ((String.atEnd_of_valid done []).2 rfl)]
      simpa using whole
  | cons c rest ih =>
      obtain ⟨other, absent⟩ := not_or.1 (mt List.mem_cons.2 absent)
      have goesOn : ¬String.Pos.Raw.atEnd (String.ofList (done ++ c :: rest))
          ⟨String.utf8Len done⟩ = true := fun ends =>
        List.cons_ne_nil c rest ((String.atEnd_of_valid done (c :: rest)).1 ends)
      have here : String.Pos.Raw.get (String.ofList (done ++ c :: rest)) ⟨String.utf8Len done⟩ = c :=
        String.get_of_valid done (c :: rest)
      have slash : String.Pos.Raw.get "/" 0 = '/' := rfl
      have next := String.next_of_valid done c rest
      have behind := ih (done ++ [c]) absent
      have goal : (done ++ c :: rest) = done ++ [c] ++ rest := by simp
      have step : (⟨String.utf8Len done + c.utf8Size⟩ : String.Pos.Raw) =
          ⟨String.utf8Len (done ++ [c])⟩ := by simp
      rw [String.splitOnAux, if_neg goesOn, here, slash, if_neg (by simpa using Ne.symm other)]
      rw [← goal, ← step, ← next] at behind
      exact behind

theorem split_of_absent {name : String} (absent : '/' ∉ name.toList) : split name = [name] := by
  have whole := splitOnAux_of_absent [] absent
  rw [List.nil_append, String.ofList_toList] at whole
  exact whole

end Path

namespace Settings

/-- A name of a file in the directory of the run. -/
structure PlainName (name : String) : Prop where
  slash : '/' ∉ name.toList
  zero : '\x00' ∉ name.toList
  other : name ∉ ["", ".", ".."]
  short : name.utf8ByteSize ≤ Path.nameLimit

instance (name : String) : Decidable (PlainName name) :=
  decidable_of_iff ('/' ∉ name.toList ∧ '\x00' ∉ name.toList ∧ name ∉ ["", ".", ".."] ∧
      name.utf8ByteSize ≤ Path.nameLimit)
    ⟨fun h => ⟨h.1, h.2.1, h.2.2.1, h.2.2.2⟩, fun h => ⟨h.slash, h.zero, h.other, h.short⟩⟩

namespace PlainName

variable {name : String}

theorem ofText_eq (plain : PlainName name) : Path.ofText name = ⟨false, [name], false⟩ := by
  obtain ⟨empty, here, up⟩ : name ≠ "" ∧ name ≠ "." ∧ name ≠ ".." := by
    simpa using plain.other
  have relative : ¬name.toList.head? = some '/' := fun first =>
    plain.slash (List.mem_of_head? first)
  simp [Path.ofText, Path.split_of_absent plain.slash, empty, here, up, relative]

theorem textFault?_eq (plain : PlainName name) : Path.textFault? name = none := by
  have zero : ¬name.toList.contains '\x00' = true := by simpa using plain.zero
  have short : ¬Path.lengthLimit < name.utf8ByteSize := by
    have bound := plain.short
    simp only [Path.nameLimit, Path.lengthLimit] at bound ⊢
    omega
  have full : ¬name.isEmpty = true := fun empty => by
    have same : name = "" := String.isEmpty_iff.1 empty
    exact plain.other (same ▸ List.mem_cons_self)
  rw [Path.textFault?, if_neg zero, if_neg short, if_neg full]

end PlainName

theorem locate_plain {name : String} (plain : PlainName name) (t : FileTree) :
    t.locate name = if t.existsAt [name] then .ok [name] else .error .notFound := by
  have follow : t.follow [] [name] =
      if t.existsAt [name] then .ok [name] else .error .notFound := by
    have up : name ≠ ".." := fun up => plain.other (by simp [up])
    simp [FileTree.follow, FileTree.isDirectoryAt, up, Nat.not_lt.2 plain.short]
  rw [FileTree.locate, plain.ofText_eq, plain.textFault?_eq]
  by_cases there : t.existsAt [name] = true
  · rw [if_pos there] at follow ⊢
    simp [bind, Except.bind, follow, pure, Except.pure]
  · rw [if_neg there] at follow ⊢
    simp [bind, Except.bind, follow]

theorem isFile_plain {name : String} (plain : PlainName name) (t : FileTree) :
    t.isFile name = (t.contentAt? [name]).isSome := by
  rw [FileTree.isFile, locate_plain plain]
  by_cases there : t.existsAt [name] = true
  · rw [if_pos there]
  · have absent : t.contentAt? [name] = none := by
      rw [FileTree.existsAt, Bool.or_eq_true, not_or] at there
      exact Option.not_isSome_iff_eq_none.1 there.2
    rw [if_neg there, absent]
    rfl

theorem readText_plain {name text : String} (plain : PlainName name) {t : FileTree}
    (content : t.contentAt? [name] = some (.text text)) : t.readText name = .ok text := by
  have there : t.existsAt [name] = true := by simp [FileTree.existsAt, content]
  rw [FileTree.readText, FileTree.read, locate_plain plain, if_pos there]
  simp [bind, Except.bind, content, pure, Except.pure]

theorem findFile_plain {name : String} (plain : PlainName name) {t : FileTree}
    (there : (t.contentAt? [name]).isSome = true) {format : ConfigFormat}
    (known : ConfigFormat.ofName? name = some format) (formats : List ConfigFormat) :
    findFile formats t name = .ok (name, format) := by
  rw [findFile, isFile_plain plain, if_pos there, plain.ofText_eq]
  simp [known]

section Layer

variable [ForeignFormats] {name text : String} {t : FileTree} {format : ConfigFormat}
  {layer : List (String × Configured)} (formats : List ConfigFormat)

theorem fileLayer_plain (plain : PlainName name) (content : t.contentAt? [name] = some (.text text))
    (readable : format.parse? name text = some layer) : fileLayer t name format = .ok layer := by
  have origin : "/".intercalate [name] = name := String.intercalate_singleton
  rw [fileLayer, readText_plain plain content, plain.ofText_eq]
  simp only [origin, readable]

theorem optionalLayer_plain (plain : PlainName name)
    (content : t.contentAt? [name] = some (.text text))
    (known : ConfigFormat.ofName? name = some format)
    (readable : format.parse? name text = some layer) :
    optionalLayer formats t name = .ok layer := by
  rw [optionalLayer, findFile_plain plain (by rw [content]; rfl) known]
  simp only [fileLayer_plain plain content readable]

theorem requestedLayer_plain (plain : PlainName name)
    (content : t.contentAt? [name] = some (.text text))
    (known : ConfigFormat.ofName? name = some format)
    (readable : format.parse? name text = some layer) :
    requestedLayer formats t (some name) = .ok layer := by
  rw [requestedLayer, findFile_plain plain (by rw [content]; rfl) known]
  exact fileLayer_plain plain content readable

end Layer

end Settings

end ManifestSchema
