import ManifestSchema.Definitions.Registry

/-!
# Reading references

The inverse of a reference: the key that a JSON pointer into the definitions stands for. Escapes are
undone in the order that RFC 6901 prescribes, `~1` first and `~0` after it.

Results:

1. `Pointer.unescape_escape`: undoing the escapes of a key gives the key back;
2. `Pointer.key?_text`: a reference is read as the key that it was made for.
-/

namespace ManifestSchema

namespace Pointer

/-- Replace every `~` that stands before `digit`, together with the digit, by `c`. -/
def replaceEscape (digit c : Char) : List Char → List Char
  | '~' :: d :: rest =>
      if d = digit then c :: replaceEscape digit c rest
      else '~' :: replaceEscape digit c (d :: rest)
  | x :: rest => x :: replaceEscape digit c rest
  | [] => []

/-- Undo the escapes of a segment. -/
def unescape (segment : List Char) : List Char :=
  replaceEscape '0' '~' (replaceEscape '1' '/' segment)

/-- The key of the definition that a pointer leads to, when it has the form of a reference. -/
def key? (text : String) : Option String :=
  let lead := "#/definitions/".toList
  let segment := text.toList.drop lead.length
  if lead.isPrefixOf text.toList && !segment.contains '/' then
    some (String.ofList (unescape segment))
  else none

/-- The key with `~` escaped and `/` as it is. -/
def escapeTilde (c : Char) : List Char := if c = '~' then ['~', '0'] else [c]

theorem replaceEscape_of_ne {digit c x : Char} (h : x ≠ '~') (rest : List Char) :
    replaceEscape digit c (x :: rest) = x :: replaceEscape digit c rest := by
  cases rest <;> simp [replaceEscape, h]

theorem replaceEscape_escape (key : List Char) :
    replaceEscape '1' '/' (key.flatMap escapeChar) = key.flatMap escapeTilde := by
  induction key with
  | nil => rfl
  | cons x rest ih =>
      rw [List.flatMap_cons, List.flatMap_cons, escapeChar, escapeTilde]
      by_cases tilde : x = '~'
      · rw [if_pos tilde, if_pos tilde, ← ih]
        simp [replaceEscape, replaceEscape_of_ne]
      · by_cases slash : x = '/'
        · rw [if_neg tilde, if_pos slash, if_neg tilde, ← ih, slash]
          simp [replaceEscape]
        · rw [if_neg tilde, if_neg slash, if_neg tilde, ← ih]
          exact replaceEscape_of_ne tilde _

theorem replaceEscape_escapeTilde (key : List Char) :
    replaceEscape '0' '~' (key.flatMap escapeTilde) = key := by
  induction key with
  | nil => rfl
  | cons x rest ih =>
      rw [List.flatMap_cons, escapeTilde]
      by_cases tilde : x = '~'
      · rw [if_pos tilde, tilde]
        simp [replaceEscape, ih]
      · rw [if_neg tilde, List.singleton_append, replaceEscape_of_ne tilde, ih]

theorem unescape_escape (key : List Char) : unescape (key.flatMap escapeChar) = key := by
  rw [unescape, replaceEscape_escape, replaceEscape_escapeTilde]

theorem slash_not_mem_escapeChar (x : Char) : '/' ∉ escapeChar x := by
  unfold escapeChar
  split
  · simp
  · split
    · simp
    · next slash => exact fun h => slash (List.mem_singleton.1 h).symm

theorem slash_not_mem_segment (key : String) : '/' ∉ (segment key).toList := by
  simp [segment, slash_not_mem_escapeChar]

theorem unescape_segment (key : String) : unescape (segment key).toList = key.toList := by
  rw [segment, String.toList_ofList, unescape_escape]

theorem key?_text (key : String) : key? (text key) = some key := by
  simp [key?, text, segment, slash_not_mem_escapeChar, unescape_escape]

end Pointer

end ManifestSchema
