import ManifestSchema.Proofs.TomlText.Strings
import ManifestSchema.Toml.Reader

/-!
# Values that are printed and read

The value of a setting is printed behind its key and ends its line. Integers are read as such, since
neither a date nor a float starts with nothing but digits up to the line end; lists of strings are
read element by element.

Results:

1. `Toml.readNumber_digits` and `Toml.readDatetime_digits`: a row of digits is an integer;
2. `Toml.readElements_lines`: a list over several lines;
3. `Toml.readValue_print`: the value of a setting.
-/

namespace ManifestSchema

namespace Toml

/-! ## Integers -/

theorem digitValue?_digit {c : Char} (digit : c.isDigit = true) :
    digitValue? 10 c = some (c.toNat - 48) := by
  have bounds := digit
  rw [Char.isDigit, Bool.and_eq_true, decide_eq_true_iff, decide_eq_true_iff] at bounds
  have range : 48 ≤ c.toNat ∧ c.toNat ≤ 57 := ⟨bounds.1, bounds.2⟩
  rw [digitValue?, if_pos digit]
  exact Option.filter_eq_some_iff.2 ⟨rfl, decide_eq_true (by omega)⟩

theorem digitsValue_digits {ds : List Char} (all : ∀ d ∈ ds, d.isDigit = true) :
    digitsValue 10 ds = Nat.ofDigitChars 10 ds 0 := by
  have values (n : Nat) : ds.foldl (fun n c => n * 10 + (digitValue? 10 c).getD 0) n =
      Nat.ofDigitChars 10 ds n := by
    induction ds generalizing n with
    | nil => rfl
    | cons d ds ih =>
        obtain ⟨digit, all⟩ := List.forall_mem_cons.1 all
        rw [List.foldl_cons, digitValue?_digit digit, ih all, Nat.ofDigitChars_cons,
          Option.getD_some, Nat.mul_comm]
        rfl
  exact values 0

theorem digits_isDigit (n : Nat) : ∀ d ∈ Nat.toDigits 10 n, d.isDigit = true :=
  fun _ => Nat.isDigit_of_mem_toDigits (by decide) (by decide)

theorem digitsValue_toDigits (n : Nat) : digitsValue 10 (Nat.toDigits 10 n) = n := by
  rw [digitsValue_digits (digits_isDigit n), Nat.ofDigitChars_ten_toDigits]

theorem digitChar_ne_zero : ∀ n < 10, n ≠ 0 → Nat.digitChar n ≠ '0' := by decide

/-- Only zero starts with the digit zero. -/
theorem toDigits_head {n : Nat} (positive : n ≠ 0) :
    ∃ d ds, Nat.toDigits 10 n = d :: ds ∧ d ≠ '0' := by
  induction n using Nat.strongRecOn with
  | ind n ih =>
      by_cases small : n < 10
      · exact ⟨_, [], Nat.toDigits_of_lt_base small, digitChar_ne_zero n small positive⟩
      · obtain ⟨d, ds, split, other⟩ := ih (n / 10) (by omega) (by omega)
        refine ⟨d, ds ++ [Nat.digitChar (n % 10)], ?_, other⟩
        rw [Nat.toDigits_of_base_le (by decide) (by omega), split, List.cons_append]

/-- What a line goes on with that has nothing but digits. -/
theorem head_line {ds : List Char} (all : ∀ d ∈ ds, d.isDigit = true) (t : List Char) :
    ∃ c rest, ds ++ '\n' :: t = c :: rest ∧ (c.isDigit = true ∨ c = '\n') := by
  cases ds with
  | nil => exact ⟨'\n', t, rfl, .inr rfl⟩
  | cons c ds => exact ⟨c, ds ++ '\n' :: t, rfl, .inl (all c List.mem_cons_self)⟩

theorem ne_of_line {x c : Char} (other : x.isDigit = false) (line : x ≠ '\n')
    (ends : c.isDigit = true ∨ c = '\n') : c ≠ x := by
  rintro rfl
  rcases ends with digit | same
  · rw [other] at digit
    exact Bool.false_ne_true digit
  · exact line same

theorem readDigits_line {ds : List Char} (all : ∀ d ∈ ds, d.isDigit = true) (t : List Char) :
    readDigits 10 (ds ++ '\n' :: t) = (ds, '\n' :: t) := by
  induction ds with
  | nil => cases t <;> rfl
  | cons d ds ih =>
      obtain ⟨digit, all⟩ := List.forall_mem_cons.1 all
      have isDigit : (digitValue? 10 d).isSome = true := by rw [digitValue?_digit digit]; rfl
      obtain ⟨e, rest, split, ends⟩ := head_line all t
      have behind := ih all
      rw [split] at behind
      rw [List.cons_append, split]
      unfold readDigits
      rw [if_pos isDigit, if_neg (ne_of_line (by decide) (by decide) ends), behind]

/-- What stands behind some digits of a line that has nothing else. -/
theorem readFixed_line {ds : List Char} (all : ∀ d ∈ ds, d.isDigit = true) {t : List Char}
    {count : Nat} {r : Nat × List Char} (read : readFixed count (ds ++ '\n' :: t) = some r) :
    ∃ c rest, r.2 = c :: rest ∧ (c.isDigit = true ∨ c = '\n') := by
  rw [readFixed, Option.ite_none_right_eq_some] at read
  obtain ⟨⟨_, digits⟩, given⟩ := read
  have within : count ≤ ds.length := by
    refine Nat.le_of_not_lt fun long => ?_
    obtain ⟨k, rfl⟩ : ∃ k, count = ds.length + (k + 1) := ⟨count - ds.length - 1, by omega⟩
    rw [List.take_length_add_append, List.all_append, Bool.and_eq_true, List.take_succ_cons,
      List.all_cons, Bool.and_eq_true] at digits
    exact absurd digits.2.1 (by decide)
  rw [← Option.some.inj given, List.drop_append_of_le_length within]
  exact head_line (fun c member => all c (List.mem_of_mem_drop member)) t

theorem expect_line {x c : Char} {rest : List Char} (other : x.isDigit = false) (line : x ≠ '\n')
    (ends : c.isDigit = true ∨ c = '\n') : expect x (c :: rest) = none :=
  if_neg (ne_of_line other line ends)

theorem readDate_line {ds : List Char} (all : ∀ d ∈ ds, d.isDigit = true) (t : List Char) :
    readDate (ds ++ '\n' :: t) = none := by
  rw [readDate]
  cases read : readFixed 4 (ds ++ '\n' :: t) with
  | none => rfl
  | some r =>
      obtain ⟨c, rest, behind, ends⟩ := readFixed_line all read
      have stops : expect '-' r.2 = none := behind ▸ expect_line (by decide) (by decide) ends
      simp [stops]

theorem readTime_line {ds : List Char} (all : ∀ d ∈ ds, d.isDigit = true) (t : List Char) :
    readTime (ds ++ '\n' :: t) = none := by
  rw [readTime]
  cases read : readTwo 23 (ds ++ '\n' :: t) with
  | none => rfl
  | some r =>
      obtain ⟨c, rest, behind, ends⟩ := readFixed_line all (Option.filter_eq_some_iff.1 read).1
      have stops : expect ':' r.2 = none := behind ▸ expect_line (by decide) (by decide) ends
      simp [stops]

theorem readDatetime_digits {ds : List Char} (all : ∀ d ∈ ds, d.isDigit = true) (t : List Char) :
    readDatetime (ds ++ '\n' :: t) = none := by
  rw [readDatetime, readDate_line all, readTime_line all]
  rfl

theorem readWhole_digits (n : Nat) (t : List Char) :
    readWhole (Nat.toDigits 10 n ++ '\n' :: t) = some (Nat.toDigits 10 n, '\n' :: t) := by
  by_cases zero : n = 0
  · subst zero
    rfl
  · obtain ⟨d, ds, split, other⟩ := toDigits_head zero
    have digits := readDigits_line (digits_isDigit n) t
    rw [split] at digits ⊢
    unfold readWhole
    split
    · next same => exact absurd (List.cons.inj same).1 other
    · rw [digits]

theorem readNumber_digits {n : Nat} (small : n < Word.signedLimit) (t : List Char) :
    readNumber (Nat.toDigits 10 n ++ '\n' :: t) = some (.integer n, '\n' :: t) := by
  have fits : ofInteger (n : Int) = some (.integer n) := by
    rw [ofInteger, if_pos]
    simp only [Word.fitsSigned, Bool.and_eq_true, decide_eq_true_eq]
    omega
  have whole := readWhole_digits n t
  have value := digitsValue_toDigits n
  have all := digits_isDigit n
  obtain ⟨d, ds, split⟩ := List.exists_cons_of_ne_nil (Nat.toDigits_ne_nil (n := n) (b := 10))
  rw [split] at whole value all
  obtain ⟨digit, all⟩ := List.forall_mem_cons.1 all
  obtain ⟨e, rest, next, ends⟩ := head_line all t
  rw [List.cons_append, next] at whole
  rw [split, List.cons_append, next]
  have other {x : Char} (h : x.isDigit = false) : d ≠ x := by
    rintro rfl
    exact Bool.false_ne_true (h.symm.trans digit)
  have sign : readSign (d :: e :: rest) = (false, d :: e :: rest) := by
    simp [readSign, other (x := '-') rfl, other (x := '+') rfl]
  -- a mark of another base would stand behind the first digit
  have second {x y : Char} {behind : List Char} (same : d :: e :: rest = x :: y :: behind) : e = y :=
    (List.cons.inj (List.cons.inj same).2).1
  unfold readNumber
  split
  · next same => exact absurd (second same) (ne_of_line rfl (by decide) ends)
  · next same => exact absurd (second same) (ne_of_line rfl (by decide) ends)
  · next same => exact absurd (second same) (ne_of_line rfl (by decide) ends)
  · simp only [sign]
    split
    · next same => exact absurd (List.cons.inj same).1 (other rfl)
    · next same => exact absurd (List.cons.inj same).1 (other rfl)
    · rw [whole]
      simp [readPlaces, readPower, value, fits]

/-! ## Blanks, line ends and brackets -/

/-- A character that is neither blank, nor a line end, nor the start of a comment. -/
def isInk (c : Char) : Bool := !isBlank c && c ≠ '\n' && c ≠ '\r' && c ≠ '#'

theorem dropBlanks_ink {c : Char} (ink : isInk c = true) (t : List Char) :
    dropBlanks (c :: t) = c :: t := by
  simp only [isInk, Bool.and_eq_true, Bool.not_eq_true'] at ink
  rw [dropBlanks, List.dropWhile_cons, ink.1.1.1]
  rfl

theorem dropComment_ink {c : Char} (other : c ≠ '#') (t : List Char) :
    dropComment (c :: t) = some (c :: t) := by
  unfold dropComment
  split
  · next same => exact absurd (List.cons.inj same).1 other
  · rfl

theorem lineEnd?_ink {c : Char} (line : c ≠ '\n') (carriage : c ≠ '\r') (t : List Char) :
    lineEnd? (c :: t) = none := by
  unfold lineEnd?
  split
  · next same => exact absurd (List.cons.inj same).1 line
  · next same => exact absurd (List.cons.inj same).1 carriage
  · rfl

theorem dropFiller_ink {c : Char} (ink : isInk c = true) (steps : Nat) (t : List Char) :
    dropFiller steps (c :: t) = some (c :: t) := by
  have inked := ink
  simp only [isInk, Bool.and_eq_true, Bool.not_eq_true', decide_eq_true_eq] at inked
  obtain ⟨⟨⟨_, line⟩, carriage⟩, other⟩ := inked
  cases steps with
  | zero => rfl
  | succ steps =>
      rw [dropFiller, dropBlanks_ink ink, dropComment_ink other]
      simp only [lineEnd?_ink line carriage]

/-! ## Strings and lists of them -/

theorem readValue_string (s : String) {t : List Char} (clear : Unquoted t) (steps depth : Nat) :
    readValue (steps + 1) depth ((stringText s).toList ++ t) = some (.string s, t) := by
  obtain ⟨q, text, split, quote⟩ := stringText_head s
  have read := readString_stringText s clear
  rw [split, List.cons_append] at read ⊢
  rw [readValue]
  simp only [if_pos quote, read]
  rfl

/-- The lines of the elements of a list. -/
def elementLines (values : List String) : List Char :=
  values.flatMap fun s => "    ".toList ++ (stringText s).toList ++ [',', '\n']

theorem dropFiller_indented {q : Char} (ink : isInk q = true) (steps : Nat) (t : List Char) :
    dropFiller (steps + 1) ("    ".toList ++ q :: t) = some (q :: t) := by
  have blanks : dropBlanks ("    ".toList ++ q :: t) = dropBlanks (q :: t) := rfl
  have same := dropFiller_ink ink (steps + 1) t
  rw [dropFiller] at same ⊢
  rw [blanks, same]

/-- An element behind which others may follow. -/
theorem readElements_comma {steps depth : Nat} {cs text rest after : List Char} {q : Char} {v : Toml}
    (start : dropFiller cs.length cs = some (q :: text)) (opens : q ≠ ']')
    (value : readValue steps depth (q :: text) = some (v, rest))
    (comma : dropFiller rest.length rest = some (',' :: after)) :
    readElements (steps + 1) depth cs =
      (readElements steps depth after).map fun r => (v :: r.1, r.2) := by
  rw [readElements, start, Option.bind_eq_bind, Option.bind_some]
  split
  · next same => exact absurd (List.cons.inj same).1 opens
  · rw [value]
    simp only [Option.bind_eq_bind, Option.bind_some, comma]
    cases readElements steps depth after <;> rfl

/-- The last element. -/
theorem readElements_last {steps depth : Nat} {cs text rest after : List Char} {q : Char} {v : Toml}
    (start : dropFiller cs.length cs = some (q :: text)) (opens : q ≠ ']')
    (value : readValue steps depth (q :: text) = some (v, rest))
    (closes : dropFiller rest.length rest = some (']' :: after)) :
    readElements (steps + 1) depth cs = some ([v], after) := by
  rw [readElements, start, Option.bind_eq_bind, Option.bind_some]
  split
  · next same => exact absurd (List.cons.inj same).1 opens
  · rw [value]
    simp only [Option.bind_eq_bind, Option.bind_some, closes]
    rfl

theorem readElements_lines (values : List String) (t : List Char) (depth : Nat) {steps : Nat}
    (enough : values.length < steps) :
    readElements steps depth ('\n' :: (elementLines values ++ ']' :: t)) =
      some (values.map .string, t) := by
  induction values generalizing steps with
  | nil =>
      obtain ⟨steps, rfl⟩ := Nat.exists_eq_succ_of_ne_zero (Nat.ne_of_gt enough)
      have filler : dropFiller (']' :: t).length.succ ('\n' :: ']' :: t) = some (']' :: t) :=
        dropFiller_ink (c := ']') (by decide) _ _
      have lines : '\n' :: (elementLines [] ++ ']' :: t) = '\n' :: ']' :: t := rfl
      rw [lines, readElements, List.length_cons, filler]
      rfl
  | cons s values ih =>
      obtain ⟨steps, rfl⟩ := Nat.exists_eq_succ_of_ne_zero (Nat.ne_zero_of_lt enough)
      have behind := ih (Nat.lt_of_succ_lt_succ enough)
      obtain ⟨steps, rfl⟩ :=
        Nat.exists_eq_succ_of_ne_zero (Nat.ne_zero_of_lt (Nat.lt_of_succ_lt_succ enough))
      obtain ⟨q, text, split, quote⟩ := stringText_head s
      have ink : isInk q = true := by rcases quote with rfl | rfl <;> rfl
      have lines : elementLines (s :: values) ++ ']' :: t = "    ".toList ++
          q :: (text ++ ',' :: '\n' :: (elementLines values ++ ']' :: t)) := by
        simp [elementLines, split]
      have read := readValue_string s
        (t := ',' :: '\n' :: (elementLines values ++ ']' :: t)) ⟨by simp, by simp⟩ steps depth
      rw [split, List.cons_append] at read
      have opens : q ≠ ']' := by rintro rfl; exact absurd quote (by decide)
      have comma := dropFiller_ink (c := ',') (by decide)
      rw [lines, readElements_comma (dropFiller_indented ink _ _) opens read (comma _ _), behind]
      rfl

theorem readElements_single (s : String) (t : List Char) (depth : Nat) {steps : Nat}
    (enough : 1 < steps) :
    readElements steps depth ((stringText s).toList ++ ']' :: t) = some ([.string s], t) := by
  obtain ⟨steps, rfl⟩ : ∃ k, steps = k + 2 := ⟨steps - 2, by omega⟩
  obtain ⟨q, text, split, quote⟩ := stringText_head s
  have ink : isInk q = true := by rcases quote with rfl | rfl <;> rfl
  have read := readValue_string s (t := ']' :: t) ⟨by simp, by simp⟩ steps depth
  rw [split, List.cons_append] at read ⊢
  exact readElements_last (dropFiller_ink ink _ _)
    (by rintro rfl; exact absurd quote (by decide)) read (dropFiller_ink (c := ']') (by decide) _ _)

theorem readValue_list {vs : List Toml} {steps : Nat} {cs t : List Char}
    (elements : readElements steps 1 cs = some (vs, t)) :
    readValue (steps + 1) 0 ('[' :: cs) = some (.array vs, t) := by
  rw [readValue]
  simp [nestingLimit, elements]

/-! ## The value of a setting -/

namespace Entry

/-- The value that an entry has. -/
def value : Entry → Toml
  | .text s => .string s
  | .number n => .integer n
  | .flag b => .boolean b
  | .texts values => .array (values.map .string)

/-- Whether the value of an entry is within the range of its type. -/
def inRange : Entry → Prop
  | .number n => n < Word.signedLimit
  | _ => True

end Entry

theorem toList_textsText (values : List String) (several : 2 ≤ values.length) :
    (textsText values).toList = '[' :: '\n' :: (elementLines values ++ [']']) := by
  match values, several with
  | a :: b :: values, _ =>
      have text : textsText (a :: b :: values) = "[\n" ++ String.join
          ((a :: b :: values).map fun s => "    " ++ stringText s ++ ",\n") ++ "]" := rfl
      rw [text, String.toList_append, String.toList_append, String.toList_join, List.flatMap_map,
        elementLines]
      simp

theorem length_elementLines (values : List String) :
    values.length ≤ (elementLines values).length := by
  induction values with
  | nil => exact Nat.le_refl _
  | cons s values ih =>
      simp only [elementLines, List.flatMap_cons, List.length_append, List.length_cons] at ih ⊢
      omega

theorem readValue_number {n : Nat} (small : n < Word.signedLimit) (steps depth : Nat)
    (t : List Char) : readValue (steps + 1) depth ((toString n).toList ++ '\n' :: t) =
      some (.integer n, '\n' :: t) := by
  have text : (toString n).toList = Nat.toDigits 10 n := Nat.toList_repr
  have number := readNumber_digits small t
  have date := readDatetime_digits (digits_isDigit n) t
  have all := digits_isDigit n
  obtain ⟨d, ds, split⟩ := List.exists_cons_of_ne_nil (Nat.toDigits_ne_nil (n := n) (b := 10))
  rw [split] at number date all
  have other {x : Char} (h : x.isDigit = false) : d ≠ x := by
    rintro rfl
    exact Bool.false_ne_true (h.symm.trans (all d List.mem_cons_self))
  have quote : ¬(d = '"' ∨ d = '\'') := not_or.2 ⟨other rfl, other rfl⟩
  rw [text, split, List.cons_append] at *
  rw [readValue]
  dsimp only
  rw [if_neg quote, if_neg (other rfl), if_neg (other rfl)]
  split
  · next same => exact absurd (List.cons.inj same).1 (other rfl)
  · next same => exact absurd (List.cons.inj same).1 (other rfl)
  · rw [date, number]
    rfl

theorem readValue_flag (b : Bool) (steps depth : Nat) (t : List Char) :
    readValue (steps + 1) depth ((Entry.flag b).print.toList ++ t) = some (.boolean b, t) := by
  cases b with
  | true =>
      have text : (Entry.flag true).print.toList ++ t = 't' :: 'r' :: 'u' :: 'e' :: t := by
        simp [Entry.print]
      rw [text, readValue]
      rfl
  | false =>
      have text : (Entry.flag false).print.toList ++ t = 'f' :: 'a' :: 'l' :: 's' :: 'e' :: t := by
        simp [Entry.print]
      rw [text, readValue]
      rfl

theorem readValue_texts (values : List String) {steps : Nat}
    (enough : (textsText values).toList.length ≤ steps) (t : List Char) :
    readValue (steps + 1) 0 ((textsText values).toList ++ t) =
      some (.array (values.map .string), t) := by
  rcases values with _ | ⟨a, _ | ⟨b, values⟩⟩
  · have text : (textsText []).toList = ['[', ']'] := by simp [textsText]
    rw [text] at enough ⊢
    obtain ⟨steps, rfl⟩ : ∃ k, steps = k + 1 := ⟨steps - 1, by simp at enough; omega⟩
    have bracket : dropFiller (']' :: t).length (']' :: t) = some (']' :: t) :=
      dropFiller_ink (by decide) _ _
    have none : readElements (steps + 1) 1 (']' :: t) = some ([], t) := by
      rw [readElements, bracket]
      rfl
    exact readValue_list none
  · have text : (textsText [a]).toList = '[' :: ((stringText a).toList ++ [']']) := by
      simp [textsText]
    rw [text] at enough ⊢
    rw [List.cons_append, List.append_assoc]
    exact readValue_list (readElements_single a t 1 (by simp at enough; omega))
  · have text := toList_textsText (a :: b :: values) (by simp)
    have long := length_elementLines (a :: b :: values)
    rw [text] at enough ⊢
    have less : (a :: b :: values).length < steps := by
      simp only [List.length_cons, List.length_append] at enough long ⊢
      omega
    have lines := readElements_lines (a :: b :: values) t 1 less
    rw [List.cons_append, List.cons_append, List.append_assoc]
    exact readValue_list lines

theorem readValue_print {e : Entry} (fits : e.inRange) {steps : Nat}
    (enough : e.print.toList.length < steps) (t : List Char) :
    readValue steps 0 (e.print.toList ++ '\n' :: t) = some (e.value, '\n' :: t) := by
  obtain ⟨steps, rfl⟩ := Nat.exists_eq_succ_of_ne_zero (Nat.ne_zero_of_lt enough)
  cases e with
  | text s => exact readValue_string s ⟨by simp, by simp⟩ steps 0
  | number n => exact readValue_number fits steps 0 t
  | flag b => exact readValue_flag b steps 0 _
  | texts values => exact readValue_texts values (Nat.le_of_lt_succ enough) _

end Toml

end ManifestSchema
