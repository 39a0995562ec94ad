import Mathlib.Logic.ExistsUnique
import ManifestSchema.Proofs.Pointer

/-!
# Segments of references

Which texts stand for a key behind `#/definitions/`. A key is escaped by two replacements, of which
the second works on what the first has written; keys that already look escaped come out apart all
the same, since the tilde is replaced first.

Results:

1. `Pointer.escape_eq_replaced`: the two replacements, one after the other;
2. `Pointer.isSegment_escape` and `Pointer.escape_unescape`: the segments are the texts without
   slash whose tildes all start an escape;
3. `Pointer.segment_invertible`: keys and segments correspond, and a reference has one segment.
-/

namespace ManifestSchema

namespace Pointer

/-- Replace every occurrence of a character by a text. -/
def replaced (c : Char) (substitute text : List Char) : List Char :=
  text.flatMap fun x => if x = c then substitute else [x]

/-- A text without slash in which `0` or `1` follows every tilde. -/
def IsSegment (text : List Char) : Prop :=
  '/' ∉ text ∧ ∀ front behind, text = front ++ '~' :: behind →
    behind.head? = some '0' ∨ behind.head? = some '1'

theorem escapeChar_slash : escapeChar '/' = ['~', '1'] := rfl

theorem escapeChar_tilde : escapeChar '~' = ['~', '0'] := rfl

theorem escapeChar_other {c : Char} (tilde : c ≠ '~') (slash : c ≠ '/') : escapeChar c = [c] := by
  rw [escapeChar, if_neg tilde, if_neg slash]

/-- Escaping replaces the tildes first and the slashes after them. -/
theorem escape_eq_replaced (key : List Char) :
    key.flatMap escapeChar = replaced '/' ['~', '1'] (replaced '~' ['~', '0'] key) := by
  rw [replaced, replaced, List.flatMap_assoc]
  congr 1
  funext c
  by_cases tilde : c = '~'
  · rw [if_pos tilde, tilde]
    rfl
  · rw [if_neg tilde, List.flatMap_singleton, escapeChar, if_neg tilde]

/-! ## Which texts are segments -/

theorem IsSegment.tail {c : Char} {rest : List Char} (h : IsSegment (c :: rest)) :
    IsSegment rest := by
  refine ⟨fun member => h.1 (List.mem_cons_of_mem c member), fun front behind split => ?_⟩
  exact h.2 (c :: front) behind (by rw [split, List.cons_append])

/-- A character other than a tilde or a slash can stand before a segment. -/
theorem IsSegment.cons {c : Char} {rest : List Char} (tilde : c ≠ '~') (slash : c ≠ '/')
    (h : IsSegment rest) : IsSegment (c :: rest) := by
  refine ⟨fun member => ?_, fun front behind split => ?_⟩
  · rcases List.mem_cons.1 member with same | inRest
    · exact slash same.symm
    · exact h.1 inRest
  · cases front with
    | nil => exact absurd (List.cons.inj split).1 tilde
    | cons x front => exact h.2 front behind (List.cons.inj split).2

/-- An escape can stand before a segment. -/
theorem IsSegment.escape {d : Char} {rest : List Char} (digit : d = '0' ∨ d = '1')
    (h : IsSegment rest) : IsSegment ('~' :: d :: rest) := by
  have tail : IsSegment (d :: rest) := by
    rcases digit with rfl | rfl
    · exact h.cons (by decide) (by decide)
    · exact h.cons (by decide) (by decide)
  refine ⟨fun member => ?_, fun front behind split => ?_⟩
  · rcases List.mem_cons.1 member with same | inRest
    · exact absurd same (by decide)
    · exact tail.1 inRest
  · cases front with
    | nil =>
        rw [← (List.cons.inj split).2, List.head?_cons]
        exact digit.imp (congrArg some) (congrArg some)
    | cons x front => exact tail.2 front behind (List.cons.inj split).2

theorem isSegment_escape (key : List Char) : IsSegment (key.flatMap escapeChar) := by
  induction key with
  | nil => exact ⟨List.not_mem_nil, fun front behind split => by simp at split⟩
  | cons c rest ih =>
      rw [List.flatMap_cons]
      by_cases tilde : c = '~'
      · rw [tilde, escapeChar_tilde]
        exact ih.escape (.inl rfl)
      · by_cases slash : c = '/'
        · rw [slash, escapeChar_slash]
          exact ih.escape (.inr rfl)
        · rw [escapeChar_other tilde slash]
          exact ih.cons tilde slash

/-! ## The key of a segment -/

theorem unescape_zero (rest : List Char) : unescape ('~' :: '0' :: rest) = '~' :: unescape rest := by
  have kept : replaceEscape '1' '/' ('~' :: '0' :: rest) =
      '~' :: '0' :: replaceEscape '1' '/' rest := by
    rw [replaceEscape, if_neg (by decide), replaceEscape_of_ne (by decide)]
  rw [unescape, kept, replaceEscape, if_pos rfl, unescape]

theorem unescape_one (rest : List Char) : unescape ('~' :: '1' :: rest) = '/' :: unescape rest := by
  rw [unescape, replaceEscape, if_pos rfl, replaceEscape_of_ne (by decide), unescape]

theorem unescape_other {c : Char} (tilde : c ≠ '~') (rest : List Char) :
    unescape (c :: rest) = c :: unescape rest := by
  rw [unescape, replaceEscape_of_ne tilde, replaceEscape_of_ne tilde, unescape]

theorem escape_unescape_cons {c : Char} {rest : List Char} (tilde : c ≠ '~')
    (h : IsSegment (c :: rest)) (behind : (unescape rest).flatMap escapeChar = rest) :
    (unescape (c :: rest)).flatMap escapeChar = c :: rest := by
  have slash : c ≠ '/' := fun same => h.1 (same ▸ List.mem_cons_self)
  rw [unescape_other tilde, List.flatMap_cons, escapeChar_other tilde slash, behind,
    List.singleton_append]

/-- A segment is what its key is escaped to. -/
theorem escape_unescape : ∀ {text : List Char}, IsSegment text →
    (unescape text).flatMap escapeChar = text
  | [], _ => rfl
  | [c], h => by
      have tilde : c ≠ '~' := by
        rintro rfl
        simpa using h.2 [] [] rfl
      exact escape_unescape_cons tilde h rfl
  | c :: d :: rest, h => by
      by_cases tilde : c = '~'
      · -- a tilde takes the digit behind it along
        subst tilde
        rcases h.2 [] (d :: rest) rfl with digit | digit
        · cases Option.some.inj digit
          rw [unescape_zero, List.flatMap_cons, escape_unescape h.tail.tail]
          rfl
        · cases Option.some.inj digit
          rw [unescape_one, List.flatMap_cons, escape_unescape h.tail.tail]
          rfl
      · exact escape_unescape_cons tilde h (escape_unescape h.tail)

theorem segment_injective {key key' : String} (same : segment key = segment key') :
    key = key' := by
  rw [← String.toList_inj, ← unescape_segment, same, unescape_segment]

theorem reference_injective {key key' : String} (same : reference key = reference key') :
    key = key' := by
  have texts : text key = text key' := by simpa [reference] using same
  exact Option.some.inj ((key?_text key).symm.trans (texts ▸ key?_text key'))

/-- The parts of a reference between slashes. -/
theorem splitOn_text (key : String) :
    (text key).toList.splitOn '/' = ["#".toList, "definitions".toList, (segment key).toList] := by
  have joined : (text key).toList = ['/'].intercalate
      ["#".toList, "definitions".toList, (segment key).toList] := by
    simp [text, List.intercalate]
  rw [joined]
  refine List.splitOn_intercalate '/' (fun part member => ?_) (List.cons_ne_nil _ _)
  rcases List.mem_cons.1 member with rfl | member
  · decide
  · rcases List.mem_cons.1 member with rfl | member
    · decide
    · rw [List.mem_singleton.1 member]
      exact slash_not_mem_segment key

/-- The segment of a key is the key with its tildes and then its slashes replaced. It has no slash,
all its tildes start an escape, and undoing the escapes gives the key back. Every text of this form
is the segment of one key, and no other text is. So references tell their keys apart, and have one
segment each. -/
theorem segment_invertible :
    (∀ key : String,
      (segment key).toList = replaced '/' ['~', '1'] (replaced '~' ['~', '0'] key.toList) ∧
      IsSegment (segment key).toList ∧ unescape (segment key).toList = key.toList) ∧
    (∀ text : String, (∃! key, segment key = text) ↔ IsSegment text.toList) ∧
    (∀ key key' : String, reference key = reference key' ↔ key = key') ∧
    ∀ key : String, (text key).toList.splitOn '/' =
      ["#".toList, "definitions".toList, (segment key).toList] := by
  have escapes (key : String) : (segment key).toList = key.toList.flatMap escapeChar :=
    String.toList_ofList
  refine ⟨fun key => ⟨?_, ?_, unescape_segment key⟩, fun text => ⟨?_, fun shaped => ?_⟩,
    fun key key' => ⟨reference_injective, congrArg reference⟩, splitOn_text⟩
  · rw [escapes, escape_eq_replaced]
  · rw [escapes]
    exact isSegment_escape key.toList
  · rintro ⟨key, rfl, _⟩
    rw [escapes]
    exact isSegment_escape key.toList
  · have stands : segment (String.ofList (unescape text.toList)) = text := by
      rw [segment, String.toList_ofList, escape_unescape shaped, String.ofList_toList]
    exact ⟨_, stands, fun key same => segment_injective (same.trans stands.symm)⟩

/-- A key that looks escaped is escaped once more. -/
example : segment "a~1/b" = "a~01~1b" := by decide +kernel

end Pointer

end ManifestSchema
