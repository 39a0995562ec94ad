import ManifestSchema.Toml.Printer
import ManifestSchema.Toml.Scalar

/-!
# Strings that are printed and read

A string is printed in one of four forms, by what is in it. Whichever form is taken, the reader gives
the string back and stops behind its last quote, provided that no further quote follows.

Results:

1. `Toml.closing_run` and `Toml.closing_of_front`: where a string over several lines ends;
2. `Toml.escaped_cases`: a character with or without an escape;
3. `Toml.readBasic_escapedAfter`, `Toml.readLiteral_append`, `Toml.readLines_escapedAfter` and
   `Toml.readLines_literal`: the four forms;
4. `Toml.readString_stringText`: all strings.
-/

namespace ManifestSchema

namespace Toml

open Quotation

/-- No quote stands at the front of a text. -/
def Unquoted (t : List Char) : Prop := t.head? ≠ some '"' ∧ t.head? ≠ some '\''

/-! ## The end of a string over several lines -/

/-- Up to two quotes in front of the closing ones belong to the string. -/
theorem closing_run {q : Char} {k : Nat} (few : k ≤ 2) {t : List Char} (clear : t.head? ≠ some q) :
    closing q (List.replicate k q ++ q :: q :: q :: t) = some (List.replicate k q, t) := by
  obtain rfl | rfl | rfl : k = 0 ∨ k = 1 ∨ k = 2 := by omega
  · match t, clear with
    | [], _ => simp [closing]
    | [d], clear => simpa [closing] using clear
    | d :: e :: rest, clear =>
        have other : d ≠ q := by simpa using clear
        simp [closing, other]
  · match t, clear with
    | [], _ => simp [closing]
    | d :: rest, clear => simpa [closing] using clear
  · simp [closing]

/-- A string goes on where fewer than three quotes stand. -/
theorem closing_of_front {q : Char} {cs : List Char} (front : ∀ rest, cs ≠ q :: q :: q :: rest) :
    closing q cs = none := by
  unfold closing
  split
  · next a b c d e rest =>
      refine if_neg ?_
      rintro ⟨rfl, rfl, rfl⟩
      exact front _ rfl
  · next a b c d =>
      refine if_neg ?_
      rintro ⟨rfl, rfl, rfl⟩
      exact front _ rfl
  · next a b c =>
      refine if_neg ?_
      rintro ⟨rfl, rfl, rfl⟩
      exact front _ rfl
  · rfl

/-! ## Escapes -/

theorem codeChar?_hexDigit : ∀ n < 128,
    codeChar? ['0', '0', hexDigit (n / 16), hexDigit (n % 16)] = some (Char.ofNat n) := by
  decide +kernel

/-- A character that is not escaped. -/
structure Bare (keepLineEnds : Bool) (c : Char) : Prop where
  text : escaped keepLineEnds c = [c]
  backslash : c ≠ '\\'
  carriage : c ≠ '\r'
  plain : isPlain c = true ∨ keepLineEnds = true ∧ c = '\n'

/-- What an escape of a character has behind its backslash. -/
structure Escape (c : Char) (e : List Char) : Prop where
  reads : ∀ t, readEscape (e ++ t) = some (c, t)
  goesOn : ∀ t, continuation? (e ++ t) = none

theorem escape_letter {x c : Char} (letter : escape? x = some c) (notBlank : isBlank x = false)
    (other : x ≠ 'u' ∧ x ≠ 'U' ∧ x ≠ '\n' ∧ x ≠ '\r') : Escape c [x] := by
  obtain ⟨u, U, line, carriage⟩ := other
  refine ⟨fun t => ?_, fun t => ?_⟩
  · simp [readEscape, letter, u, U]
  · simp [continuation?, dropBlanks, notBlank, lineEnd?, line, carriage]

theorem escape_code {c : Char} (control : c.toNat < 32 ∨ c.toNat = 127) :
    Escape c ['u', '0', '0', hexDigit (c.toNat / 16), hexDigit (c.toNat % 16)] := by
  have code := codeChar?_hexDigit c.toNat (by omega)
  refine ⟨fun t => ?_, fun t => rfl⟩
  rw [Char.ofNat_toNat] at code
  simp only [List.cons_append, List.nil_append, readEscape, code, Option.map_some]

theorem escaped_cases (keepLineEnds : Bool) (c : Char) :
    Bare keepLineEnds c ∨ ∃ e, escaped keepLineEnds c = '\\' :: e ∧ Escape c e := by
  by_cases special : c = '\x08' ∨ c = '\t' ∨ c = '\x0c' ∨ c = '\r' ∨ c = '\\'
  · obtain rfl | rfl | rfl | rfl | rfl := special
    · exact .inr ⟨_, rfl, escape_letter rfl rfl (by decide)⟩
    · exact .inr ⟨_, rfl, escape_letter rfl rfl (by decide)⟩
    · exact .inr ⟨_, rfl, escape_letter rfl rfl (by decide)⟩
    · exact .inr ⟨_, rfl, escape_letter rfl rfl (by decide)⟩
    · exact .inr ⟨_, rfl, escape_letter rfl rfl (by decide)⟩
  · obtain ⟨back, tab, form, carriage, backslash⟩ : c ≠ '\x08' ∧ c ≠ '\t' ∧ c ≠ '\x0c' ∧ c ≠ '\r' ∧
        c ≠ '\\' := by simpa only [not_or] using special
    by_cases line : c = '\n'
    · subst line
      cases keepLineEnds with
      | true => exact .inl ⟨rfl, by decide, by decide, .inr ⟨rfl, rfl⟩⟩
      | false => exact .inr ⟨_, rfl, escape_letter rfl rfl (by decide)⟩
    · by_cases control : c.toNat < 32 ∨ c.toNat = 127
      · refine .inr ⟨_, ?_, escape_code control⟩
        simp [escaped, back, tab, form, carriage, backslash, line, control]
      · refine .inl ⟨?_, backslash, carriage, .inl ?_⟩
        · simp [escaped, back, tab, form, carriage, backslash, line, control]
        · simp only [isPlain, Bool.or_eq_true, Bool.and_eq_true, decide_eq_true_eq]
          exact .inr ⟨by omega, by omega⟩

/-! ## Strings on one line -/

theorem readBasic_escapedAfter (cs t : List Char) {steps : Nat} (enough : cs.length < steps) :
    readBasic steps (escapedAfter false 0 0 cs ++ '"' :: t) = some (cs, t) := by
  induction cs generalizing steps with
  | nil =>
      obtain ⟨steps, rfl⟩ := Nat.exists_eq_succ_of_ne_zero (Nat.ne_of_gt enough)
      simp [escapedAfter, readBasic]
  | cons c cs ih =>
      obtain ⟨steps, rfl⟩ := Nat.exists_eq_succ_of_ne_zero (Nat.ne_zero_of_lt enough)
      have behind := ih (Nat.lt_of_succ_lt_succ enough)
      by_cases quote : c = '"'
      · subst quote
        simp [escapedAfter, readBasic, readEscape, escape?, behind, prepend]
      · rw [escapedAfter, if_neg quote, List.append_assoc]
        rcases escaped_cases false c with bare | ⟨e, text, isEscape⟩
        · have plain : isPlain c = true := bare.plain.resolve_right fun h => nomatch h.1
          rw [bare.text, List.singleton_append]
          simp [readBasic, bare.backslash, plain, behind, prepend]
        · rw [text, List.cons_append]
          simp [readBasic, isEscape.reads, behind, prepend]

theorem readLiteral_append {cs : List Char} (all : ∀ c ∈ cs, isPlain c = true ∧ c ≠ '\'')
    (t : List Char) : readLiteral (cs ++ '\'' :: t) = some (cs, t) := by
  induction cs with
  | nil => rfl
  | cons c cs ih =>
      obtain ⟨⟨plain, quote⟩, all⟩ := List.forall_mem_cons.1 all
      simp [readLiteral, plain, ih all, prepend]

/-! ## Strings over several lines -/

/-- An escaped character starts with a backslash or is there itself, if it is no carriage return. -/
theorem head_escaped {keepLineEnds : Bool} {c q : Char} (other : c ≠ q ∨ q = '\r')
    (notEscape : q ≠ '\\') (t rest : List Char) : escaped keepLineEnds c ++ t ≠ q :: rest := by
  rcases escaped_cases keepLineEnds c with bare | ⟨e, text, _⟩
  · rw [bare.text]
    have apart : c ≠ q := other.elim id fun same => same ▸ bare.carriage
    exact fun same => apart (List.cons.inj same).1
  · rw [text]
    exact fun same => notEscape (List.cons.inj same).1.symm

/-- Of the quotes in a row two are not escaped, so less than three stand at the front of a text,
unless they close it. -/
theorem escapedAfter_front (cs t : List Char) {seen : Nat} (few : seen ≤ 2)
    (more : ∀ k, k + seen ≤ 2 → cs ≠ List.replicate k '"') (rest : List Char) :
    escapedAfter true 2 seen cs ++ t ≠ List.replicate (3 - seen) '"' ++ rest := by
  induction cs generalizing seen with
  | nil => exact absurd rfl (more 0 (by omega))
  | cons c cs ih =>
      have front : List.replicate (3 - seen) '"' = '"' :: List.replicate (2 - seen) '"' := by
        rw [← List.replicate_succ]
        congr 1
        omega
      rw [escapedAfter, front]
      by_cases quote : c = '"'
      · subst quote
        rw [if_pos rfl]
        by_cases full : 2 ≤ seen
        · rw [if_pos full]
          exact fun same => absurd (List.cons.inj same).1 (by decide)
        · rw [if_neg full]
          intro same
          have next : 3 - (seen + 1) = 2 - seen := by omega
          refine @ih (seen + 1) (by omega) (fun k bound same => ?_)
            (next ▸ (List.cons.inj same).2)
          exact more (k + 1) (by omega) (by rw [List.replicate_succ, same])
      · rw [if_neg quote, List.append_assoc]
        exact head_escaped (.inl quote) (by decide) _ _

theorem closing_escapedAfter {cs : List Char} (t : List Char) {seen : Nat} (few : seen ≤ 2)
    (more : ∀ k, k + seen ≤ 2 → cs ≠ List.replicate k '"') :
    closing '"' (escapedAfter true 2 seen cs ++ t) = none := by
  refine closing_of_front fun rest same => ?_
  refine escapedAfter_front cs t few more (List.replicate seen '"' ++ rest) (same.trans ?_)
  rw [← List.append_assoc, List.replicate_append_replicate, Nat.sub_add_cancel (by omega)]
  rfl

theorem escapedAfter_replicate {k seen : Nat} (few : k + seen ≤ 2) :
    escapedAfter true 2 seen (List.replicate k '"') = List.replicate k '"' := by
  induction k generalizing seen with
  | zero => rfl
  | succ k ih =>
      rw [List.replicate_succ, escapedAfter, if_pos rfl, if_neg (by omega), ih (by omega)]

/-- A character that is not escaped is read as it is. -/
theorem readLines_bare {quote c : Char} {escapes : Bool} {steps : Nat} {t : List Char}
    (opens : closing quote (c :: t) = none) (backslash : escapes = true → c ≠ '\\')
    (carriage : c ≠ '\r') (plain : isPlain c = true ∨ c = '\n') :
    readLines quote escapes (steps + 1) (c :: t) = prepend c (readLines quote escapes steps t) := by
  have unescaped : ¬(escapes && decide (c = '\\')) = true := by
    simpa using backslash
  rw [readLines, opens]
  dsimp only
  rw [if_neg unescaped]
  by_cases line : c = '\n'
  · rw [line]
    rfl
  · have goesOn : lineEnd? (c :: t) = none := by simp [lineEnd?, line, carriage]
    rw [goesOn]
    exact if_pos (plain.resolve_right line)

theorem readLines_closing {quote : Char} {escapes : Bool} {steps : Nat} {cs : List Char}
    {done : List Char × List Char} (ends : closing quote cs = some done) :
    readLines quote escapes (steps + 1) cs = some done := by
  cases cs with
  | nil => cases ends
  | cons c rest => rw [readLines, ends]

theorem readLines_escape {quote c : Char} {steps : Nat} {e t : List Char}
    (opens : closing quote ('\\' :: (e ++ t)) = none) (isEscape : Escape c e) :
    readLines quote true (steps + 1) ('\\' :: (e ++ t)) =
      prepend c (readLines quote true steps t) := by
  rw [readLines, opens]
  simp [isEscape.goesOn, isEscape.reads]

theorem readLines_escapedAfter (cs : List Char) {t : List Char} (clear : t.head? ≠ some '"')
    {seen steps : Nat} (few : seen ≤ 2) (enough : cs.length < steps) :
    readLines '"' true steps (escapedAfter true 2 seen cs ++ '"' :: '"' :: '"' :: t) =
      some (cs, t) := by
  induction cs generalizing seen steps with
  | nil =>
      obtain ⟨steps, rfl⟩ := Nat.exists_eq_succ_of_ne_zero (Nat.ne_of_gt enough)
      exact readLines_closing (closing_run (k := 0) (by omega) clear)
  | cons c cs ih =>
      obtain ⟨steps, rfl⟩ := Nat.exists_eq_succ_of_ne_zero (Nat.ne_zero_of_lt enough)
      have shorter := Nat.lt_of_succ_lt_succ enough
      by_cases quotes : ∃ k, k + seen ≤ 2 ∧ c :: cs = List.replicate k '"'
      · -- the quotes at the end of the string are read together with those that close it
        obtain ⟨k, bound, all⟩ := quotes
        rw [all, escapedAfter_replicate bound]
        exact readLines_closing (closing_run (by omega) clear)
      · have opens := closing_escapedAfter ('"' :: '"' :: '"' :: t) few
          fun k bound same => quotes ⟨k, bound, same⟩
        rw [escapedAfter] at opens ⊢
        by_cases quote : c = '"'
        · subst quote
          rw [if_pos rfl] at opens ⊢
          by_cases full : 2 ≤ seen
          · rw [if_pos full, List.cons_append, List.cons_append] at opens ⊢
            have behind := @ih 0 steps (by omega) shorter
            have first := @readLines_escape '"' '"' steps ['"']
              (escapedAfter true 2 0 cs ++ '"' :: '"' :: '"' :: t) opens
              (escape_letter rfl rfl (by decide))
            rw [behind] at first
            exact first
          · rw [if_neg full, List.cons_append] at opens ⊢
            rw [readLines_bare opens (fun _ => by decide) (by decide) (.inl (by decide)),
              ih (by omega) shorter]
            rfl
        · rw [if_neg quote, List.append_assoc] at opens ⊢
          have behind := @ih 0 steps (by omega) shorter
          rcases escaped_cases true c with bare | ⟨e, text, isEscape⟩
          · rw [bare.text, List.singleton_append] at opens ⊢
            rw [readLines_bare opens (fun _ => bare.backslash) bare.carriage
              (bare.plain.imp_right And.right), behind]
            rfl
          · rw [text, List.cons_append] at opens ⊢
            rw [readLines_escape opens isEscape, behind]
            rfl

theorem le_longestRun (x : Char) (current : Nat) (cs : List Char) :
    current ≤ longestRun x current cs := by
  induction cs generalizing current with
  | nil => exact Nat.le_refl _
  | cons c cs ih =>
      rw [longestRun]
      split
      · exact Nat.le_of_succ_le (ih (current + 1))
      · exact Nat.le_max_left _ _

theorem longestRun_mono (x : Char) {a b : Nat} (h : a ≤ b) (cs : List Char) :
    longestRun x a cs ≤ longestRun x b cs := by
  induction cs generalizing a b with
  | nil => exact h
  | cons c cs ih =>
      rw [longestRun, longestRun]
      split
      · exact ih (Nat.succ_le_succ h)
      · omega

theorem longestRun_tail (x c : Char) (cs : List Char) :
    longestRun x 0 cs ≤ longestRun x 0 (c :: cs) := by
  rw [longestRun]
  split
  · exact longestRun_mono x (Nat.zero_le 1) cs
  · exact Nat.le_max_right _ _

/-- Where at most two quotes follow each other, less than three stand at the front of a text, unless
they close it. -/
theorem front_of_longestRun {q : Char} {cs : List Char} (few : longestRun q 0 cs ≤ 2)
    (more : ∀ k ≤ 2, cs ≠ List.replicate k q) (t rest : List Char) :
    cs ++ t ≠ q :: q :: q :: rest := by
  match cs, few, more with
  | [], _, more => exact absurd rfl (more 0 (by omega))
  | [a], _, more =>
      intro same
      exact more 1 (by omega) (by rw [(List.cons.inj same).1]; rfl)
  | [a, b], _, more =>
      intro same
      obtain ⟨rfl, same⟩ := List.cons.inj same
      exact more 2 (by omega) (by rw [(List.cons.inj same).1]; rfl)
  | a :: b :: c :: cs, few, _ =>
      intro same
      obtain ⟨rfl, same⟩ := List.cons.inj same
      obtain ⟨rfl, same⟩ := List.cons.inj same
      obtain ⟨rfl, _⟩ := List.cons.inj same
      have three := le_longestRun c 3 cs
      rw [longestRun, if_pos rfl, longestRun, if_pos rfl, longestRun, if_pos rfl] at few
      exact Nat.not_succ_le_self 2 (Nat.le_trans three few)

theorem readLines_literal {q : Char} {cs t : List Char}
    (clear : t.head? ≠ some q) (few : longestRun q 0 cs ≤ 2)
    (all : ∀ c ∈ cs, c ≠ '\r' ∧ (isPlain c = true ∨ c = '\n')) {steps : Nat}
    (enough : cs.length < steps) :
    readLines q false steps (cs ++ q :: q :: q :: t) = some (cs, t) := by
  induction cs generalizing steps with
  | nil =>
      obtain ⟨steps, rfl⟩ := Nat.exists_eq_succ_of_ne_zero (Nat.ne_of_gt enough)
      exact readLines_closing (closing_run (k := 0) (by omega) clear)
  | cons c cs ih =>
      obtain ⟨steps, rfl⟩ := Nat.exists_eq_succ_of_ne_zero (Nat.ne_zero_of_lt enough)
      by_cases quotes : ∃ k ≤ 2, c :: cs = List.replicate k q
      · obtain ⟨k, bound, same⟩ := quotes
        rw [same]
        exact readLines_closing (closing_run bound clear)
      · obtain ⟨⟨carriage, plain⟩, all⟩ := List.forall_mem_cons.1 all
        have opens : closing q (c :: (cs ++ q :: q :: q :: t)) = none :=
          closing_of_front (front_of_longestRun few (fun k bound same => quotes ⟨k, bound, same⟩) _)
        rw [List.cons_append,
          readLines_bare opens (fun h => absurd h Bool.false_ne_true) carriage plain,
          ih (Nat.le_trans (longestRun_tail q c cs) few) all (Nat.lt_of_succ_lt_succ enough)]
        rfl

/-! ## All strings -/

theorem fits_of (cs : List Char) :
    Quotation.of cs = .basic ∨ Quotation.of cs = .basicLines ∨ fits cs (Quotation.of cs) = true := by
  rw [Quotation.of]
  cases found : all.find? (fits cs) with
  | some q => exact .inr (.inr (List.find?_some found))
  | none =>
      rw [Option.getD_none]
      split
      · exact .inr (.inl rfl)
      · exact .inl rfl

theorem plain_of_not_control {c : Char} (h : isControl c = false) :
    c ≠ '\r' ∧ (isPlain c = true ∨ c = '\n') := by
  refine ⟨fun same => by rw [same] at h; exact absurd h (by decide), ?_⟩
  by_cases tab : c = '\t'
  · exact .inl (by rw [tab]; rfl)
  · by_cases line : c = '\n'
    · exact .inr line
    · simp [isControl, tab, line] at h
      exact .inl (by simp [isPlain, h])

/-- A string between single quotes has none of them in it. -/
theorem fits_literal {cs : List Char} (h : fits cs .literal = true) :
    ∀ c ∈ cs, isPlain c = true ∧ c ≠ '\'' := by
  simp only [fits, Bool.and_eq_true, Bool.not_eq_true', List.any_eq_false, List.contains_eq_mem,
    decide_eq_false_iff_not] at h
  obtain ⟨⟨control, line⟩, quote⟩ := h
  intro c member
  have plain := plain_of_not_control (Bool.eq_false_iff.2 (control c member))
  exact ⟨plain.2.resolve_right fun same => line (same ▸ member), fun same => quote (same ▸ member)⟩

theorem fits_literalLines {cs : List Char} (h : fits cs .literalLines = true) :
    longestRun '\'' 0 cs ≤ 2 ∧ ∀ c ∈ cs, c ≠ '\r' ∧ (isPlain c = true ∨ c = '\n') := by
  simp only [fits, Bool.and_eq_true, Bool.not_eq_true', List.any_eq_false, decide_eq_true_eq] at h
  exact ⟨h.2, fun c member => plain_of_not_control (Bool.eq_false_iff.2 (h.1 c member))⟩

/-- Escapes make a string no shorter. -/
theorem length_le_escapedAfter (keepLineEnds : Bool) (free seen : Nat) (cs : List Char) :
    cs.length ≤ (escapedAfter keepLineEnds free seen cs).length := by
  induction cs generalizing seen with
  | nil => exact Nat.zero_le _
  | cons c cs ih =>
      rw [escapedAfter]
      split
      · split
        · exact Nat.succ_le_succ (Nat.le_succ_of_le (ih 0))
        · exact Nat.succ_le_succ (ih (seen + 1))
      · have some : 1 ≤ (escaped keepLineEnds c).length := by
          rcases escaped_cases keepLineEnds c with bare | ⟨e, text, _⟩
          · rw [bare.text]
            exact Nat.le_refl 1
          · rw [text]
            exact Nat.succ_le_succ (Nat.zero_le _)
        have others := ih 0
        rw [List.length_append, List.length_cons]
        omega

theorem readString_basic (cs : List Char) {t : List Char} (clear : Unquoted t) :
    readString ('"' :: (escapedAfter false 0 0 cs ++ '"' :: t)) = some (String.ofList cs, t) := by
  have one (rest : List Char) : escapedAfter false 0 0 cs ++ '"' :: t ≠ '"' :: '"' :: rest := by
    cases cs with
    | nil =>
        intro same
        rw [escapedAfter, List.nil_append] at same
        exact clear.1 (by rw [(List.cons.inj same).2]; rfl)
    | cons c cs =>
        rw [escapedAfter]
        by_cases quote : c = '"'
        · rw [if_pos quote, if_pos (Nat.le_refl 0)]
          exact fun same => absurd (List.cons.inj same).1 (by decide)
        · rw [if_neg quote, List.append_assoc]
          exact head_escaped (.inl quote) (by decide) _ _
  have length := length_le_escapedAfter false 0 0 cs
  rw [readString, readBasic_escapedAfter cs t (by rw [List.length_append]; omega)]
  · rfl
  · exact one

theorem readString_literal {cs : List Char} (some' : cs ≠ []) (fitting : fits cs .literal = true)
    (t : List Char) : readString ('\'' :: (cs ++ '\'' :: t)) = some (String.ofList cs, t) := by
  have all := fits_literal fitting
  rw [readString, readLiteral_append all]
  · rfl
  · intro rest same
    obtain ⟨c, others, rfl⟩ := List.exists_cons_of_ne_nil some'
    exact (all c List.mem_cons_self).2 (List.cons.inj same).1

/-- The line end that a string over several lines starts with, if it has any in it. -/
def firstLineEnd (cs : List Char) : List Char := if cs.contains '\n' then ['\n'] else []

theorem dropLineEnd_first (cs : List Char) {text : List Char}
    (line : '\n' ∉ cs → ∀ rest, text ≠ '\n' :: rest)
    (carriage : ∀ rest, text ≠ '\r' :: rest) : dropLineEnd (firstLineEnd cs ++ text) = text := by
  by_cases lines : '\n' ∈ cs
  · simp [firstLineEnd, lines, dropLineEnd, lineEnd?]
  · have goesOn : lineEnd? text = none := by
      unfold lineEnd?
      split
      · exact absurd rfl (line lines _)
      · exact absurd rfl (carriage _)
      · rfl
    simp [firstLineEnd, lines, dropLineEnd, goesOn]

/-- What a string that is written with escapes starts with. -/
theorem head_escapedAfter (cs : List Char) {q : Char} (other : q ∉ cs ∨ q = '\r')
    (notEscape : q ≠ '\\') (notQuote : q ≠ '"') (t rest : List Char) :
    escapedAfter true 2 0 cs ++ '"' :: t ≠ q :: rest := by
  cases cs with
  | nil => exact fun same => notQuote (List.cons.inj same).1.symm
  | cons c cs =>
      rw [escapedAfter]
      by_cases quote : c = '"'
      · rw [if_pos quote, if_neg (by decide)]
        exact fun same => notQuote (List.cons.inj same).1.symm
      · rw [if_neg quote, List.append_assoc]
        exact head_escaped (other.imp_left fun h same => h (same ▸ List.mem_cons_self)) notEscape _ _

theorem readString_basicLines (cs : List Char) {t : List Char} (clear : Unquoted t) :
    readString ('"' :: '"' :: '"' ::
      (firstLineEnd cs ++ (escapedAfter true 2 0 cs ++ '"' :: '"' :: '"' :: t))) =
        some (String.ofList cs, t) := by
  have dropped := dropLineEnd_first cs
    (fun none => head_escapedAfter cs (.inl none) (by decide) (by decide) ('"' :: '"' :: t))
    (head_escapedAfter cs (.inr rfl) (by decide) (by decide) ('"' :: '"' :: t))
  have length := length_le_escapedAfter true 2 0 cs
  rw [readString, dropped, readLines_escapedAfter cs clear.1 (Nat.zero_le 2)
    (by simp only [List.length_append]; omega)]
  rfl

theorem readString_literalLines {cs : List Char} (fitting : fits cs .literalLines = true)
    {t : List Char} (clear : Unquoted t) :
    readString ('\'' :: '\'' :: '\'' ::
      (firstLineEnd cs ++ (cs ++ '\'' :: '\'' :: '\'' :: t))) = some (String.ofList cs, t) := by
  obtain ⟨few, all⟩ := fits_literalLines fitting
  have first {q : Char} (none : q ∉ cs) (notQuote : q ≠ '\'') (rest : List Char) :
      cs ++ '\'' :: '\'' :: '\'' :: t ≠ q :: rest := by
    cases cs with
    | nil => exact fun same => notQuote (List.cons.inj same).1.symm
    | cons c cs => exact fun same => none ((List.cons.inj same).1 ▸ List.mem_cons_self)
  have dropped := dropLineEnd_first cs (fun none => first none (by decide))
    (first (fun member => (all _ member).1 rfl) (by decide))
  rw [readString, dropped, readLines_literal clear.2 few all
    (by simp only [List.length_append]; omega)]
  rfl

/-- A string is read back from its text. -/
theorem readString_stringText (s : String) {t : List Char} (clear : Unquoted t) :
    readString ((stringText s).toList ++ t) = some (s, t) := by
  have fitting := fits_of s.toList
  rw [stringText, String.toList_ofList]
  simp only [List.append_assoc]
  rw [← String.ofList_toList (s := s)]
  simp only [String.toList_ofList]
  generalize chosen : Quotation.of s.toList = q at fitting
  cases q with
  | basic => exact readString_basic s.toList clear
  | literal =>
      have some' : s.toList ≠ [] := fun none => by
        rw [none] at chosen
        exact absurd chosen (by decide)
      exact readString_literal some' ((fitting.resolve_left nofun).resolve_left nofun) t
  | basicLines => exact readString_basicLines s.toList clear
  | literalLines =>
      exact readString_literalLines ((fitting.resolve_left nofun).resolve_left nofun) clear

/-- What the text of a string starts with. -/
theorem stringText_head (s : String) :
    ∃ q text, (stringText s).toList = q :: text ∧ (q = '"' ∨ q = '\'') := by
  rw [stringText, String.toList_ofList]
  cases Quotation.of s.toList with
  | basic | basicLines => exact ⟨_, _, rfl, .inl rfl⟩
  | literal | literalLines => exact ⟨_, _, rfl, .inr rfl⟩

end Toml

end ManifestSchema
