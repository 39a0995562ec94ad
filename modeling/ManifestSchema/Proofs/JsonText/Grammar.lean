import ManifestSchema.Json.Located.Reader

/-!
# The grammar of JSON

What a JSON text is, on lists of characters: a value, with blanks before and after it and between
its parts. A number is the only value that a longer text may continue; the other values end with a
character of their own.

Results:

1. `JsonText.Spells.head_not_blank`: a part of a text does not begin with a blank;
2. `JsonText.ends_of_head`: no number goes on with what follows it inside an array or an object;
3. `JsonText.ends_iff_stops`: where a number ends.
-/

namespace ManifestSchema

namespace JsonText

/-! ## Blanks and numbers -/

/-- A character that may stand between the parts of a text. -/
def IsBlank (c : Char) : Prop := c = ' ' ∨ c = '\n' ∨ c = '\t' ∨ c = '\r'

/-- Characters that are all blanks. -/
def Blank (cs : List Char) : Prop := ∀ c ∈ cs, IsBlank c

/-- Digits, one at least. -/
structure Digits (cs : List Char) : Prop where
  some : cs ≠ []
  all : ∀ c ∈ cs, c.isDigit = true

/-- The whole part of a number: no zero stands before other digits. -/
structure Whole (cs : List Char) : Prop where
  digits : Digits cs
  zero : ∀ rest, cs = '0' :: rest → rest = []

/-- The fraction of a number, which may be missing. -/
inductive Fraction : List Char → Prop
  | none : Fraction []
  | some {digits : List Char} : Digits digits → Fraction ('.' :: digits)

/-- The exponent of a number, which may be missing. -/
inductive Exponent : List Char → Prop
  | none : Exponent []
  | some {mark : Char} {sign digits : List Char} : mark = 'e' ∨ mark = 'E' →
      sign = [] ∨ sign = ['+'] ∨ sign = ['-'] → Digits digits → Exponent (mark :: (sign ++ digits))

/-- A number. -/
inductive Number : List Char → Prop
  | mk {sign whole fraction exponent : List Char} : sign = [] ∨ sign = ['-'] → Whole whole →
      Fraction fraction → Exponent exponent →
      Number (sign ++ (whole ++ (fraction ++ exponent)))

/-- A character that makes a number longer: a digit, the mark of a first exponent, or the point of a
first fraction before the exponent. -/
def Continues (number : List Char) (c : Char) : Prop :=
  c.isDigit = true ∨ ((c = 'e' ∨ c = 'E') ∧ 'e' ∉ number ∧ 'E' ∉ number) ∨
    (c = '.' ∧ '.' ∉ number ∧ 'e' ∉ number ∧ 'E' ∉ number)

/-- A value ends where `after` begins: if it is a number, it does not go on there. -/
def Ends (value after : List Char) : Prop :=
  Number value → ∀ c rest, after = c :: rest → ¬Continues value c

/-! ## Strings -/

/-- A string from after its opening quote to its closing one. -/
inductive StringRest : List Char → Prop
  | close : StringRest ['"']
  | plain {c : Char} {rest : List Char} : c ≠ '"' → c ≠ '\\' → ¬c.toNat < 32 →
      StringRest rest → StringRest (c :: rest)
  | escape {c : Char} {rest : List Char} : (Located.simpleEscape? c).isSome = true →
      StringRest rest → StringRest ('\\' :: c :: rest)
  | code {c1 c2 c3 c4 : Char} {rest : List Char} :
      (Located.hexCode? c1 c2 c3 c4).isSome = true → StringRest rest →
      StringRest ('\\' :: 'u' :: c1 :: c2 :: c3 :: c4 :: rest)

/-! ## Values -/

/-- A part of a text: a value, the rest of an array or an object, where `first` says that nothing
stands before it, or such a rest that begins with an element or a member. -/
inductive Part
  | value
  | elements (first : Bool)
  | element
  | members (first : Bool)
  | member

/-- `Spells part cs`: the characters are such a part. -/
inductive Spells : Part → List Char → Prop
  | null : Spells .value ['n', 'u', 'l', 'l']
  | true : Spells .value ['t', 'r', 'u', 'e']
  | false : Spells .value ['f', 'a', 'l', 's', 'e']
  | number {cs : List Char} : Number cs → Spells .value cs
  | string {cs : List Char} : StringRest cs → Spells .value ('"' :: cs)
  | array {blanks cs : List Char} : Blank blanks → Spells (.elements .true) cs →
      Spells .value ('[' :: (blanks ++ cs))
  | object {blanks cs : List Char} : Blank blanks → Spells (.members .true) cs →
      Spells .value ('\x7b' :: (blanks ++ cs))
  | endArray {first : Bool} : Spells (.elements first) [']']
  | firstElement {cs : List Char} : Spells .element cs → Spells (.elements .true) cs
  | nextElement {blanks cs : List Char} : Blank blanks → Spells .element cs →
      Spells (.elements .false) (',' :: (blanks ++ cs))
  | element {value blanks cs : List Char} : Spells .value value → Blank blanks →
      Spells (.elements .false) cs → Spells .element (value ++ (blanks ++ cs))
  | endObject {first : Bool} : Spells (.members first) ['\x7d']
  | firstMember {cs : List Char} : Spells .member cs → Spells (.members .true) cs
  | nextMember {blanks cs : List Char} : Blank blanks → Spells .member cs →
      Spells (.members .false) (',' :: (blanks ++ cs))
  | member {key blanks blanks' value blanks'' cs : List Char} : StringRest key → Blank blanks →
      Blank blanks' → Spells .value value → Blank blanks'' → Spells (.members .false) cs →
      Spells .member
        ('"' :: (key ++ (blanks ++ (':' :: (blanks' ++ (value ++ (blanks'' ++ cs)))))))

/-- A text is one value with nothing but blanks around it. -/
def Document (cs : List Char) : Prop :=
  ∃ before value after, cs = before ++ (value ++ after) ∧ Blank before ∧ Spells .value value ∧
    Blank after

/-! ## First characters -/

theorem isDigit_of_isBlank {c : Char} (blank : IsBlank c) : c.isDigit = false := by
  obtain rfl | rfl | rfl | rfl := blank <;> decide

theorem not_isBlank_of_isDigit {c : Char} (digit : c.isDigit = true) : ¬IsBlank c := by
  intro blank
  rw [isDigit_of_isBlank blank] at digit
  cases digit

/-- A number begins with its sign or with a digit. -/
theorem Number.head {cs : List Char} (h : Number cs) :
    ∃ c rest, cs = c :: rest ∧ (c = '-' ∨ c.isDigit = true) := by
  obtain ⟨signs, whole, _, _⟩ := h
  obtain rfl | rfl := signs
  · obtain ⟨d, ds, rfl⟩ := List.exists_cons_of_ne_nil whole.digits.some
    exact ⟨d, _, rfl, .inr (whole.digits.all d List.mem_cons_self)⟩
  · exact ⟨'-', _, rfl, .inl rfl⟩

/-- A part of a text does not begin with a blank. -/
theorem Spells.head_not_blank {part : Part} {cs : List Char} (h : Spells part cs) :
    ∃ c rest, cs = c :: rest ∧ ¬IsBlank c := by
  induction h with
  | null | true | false | string _ | array _ _ _ | object _ _ _ | endArray | nextElement _ _ _
  | endObject | nextMember _ _ _ | member _ _ _ _ _ _ _ _ =>
      exact ⟨_, _, rfl, by simp [IsBlank]⟩
  | number number =>
      obtain ⟨c, rest, rfl, rfl | digit⟩ := number.head
      · exact ⟨_, _, rfl, by simp [IsBlank]⟩
      · exact ⟨c, rest, rfl, not_isBlank_of_isDigit digit⟩
  | firstElement _ ih | firstMember _ ih => exact ih
  | element _ _ _ ih _ =>
      obtain ⟨c, rest, rfl, notBlank⟩ := ih
      exact ⟨c, _, rfl, notBlank⟩

/-- No value begins with a bracket that ends an array. -/
theorem Spells.head_value {value : List Char} (h : Spells .value value) :
    ∃ c rest, value = c :: rest ∧ c ≠ ']' := by
  cases h with
  | null | true | false | string _ | array _ _ | object _ _ => exact ⟨_, _, rfl, by decide⟩
  | number number =>
      obtain ⟨c, rest, rfl, rfl | digit⟩ := number.head
      · exact ⟨_, _, rfl, by decide⟩
      · refine ⟨c, rest, rfl, ?_⟩
        rintro rfl
        cases digit

theorem Spells.head_element {cs : List Char} (h : Spells .element cs) :
    ∃ c rest, cs = c :: rest ∧ c ≠ ']' := by
  cases h with
  | element value _ _ =>
      obtain ⟨c, rest, rfl, other⟩ := value.head_value
      exact ⟨c, _, rfl, other⟩

/-- Behind an element stands a comma or the end of the array. -/
theorem Spells.head_elements {cs : List Char} (h : Spells (.elements .false) cs) :
    ∃ c rest, cs = c :: rest ∧ (c = ',' ∨ c = ']') := by
  cases h with
  | endArray => exact ⟨_, _, rfl, .inr rfl⟩
  | nextElement _ _ => exact ⟨_, _, rfl, .inl rfl⟩

/-- Behind a member stands a comma or the end of the object. -/
theorem Spells.head_members {cs : List Char} (h : Spells (.members .false) cs) :
    ∃ c rest, cs = c :: rest ∧ (c = ',' ∨ c = '\x7d') := by
  cases h with
  | endObject => exact ⟨_, _, rfl, .inr rfl⟩
  | nextMember _ _ => exact ⟨_, _, rfl, .inl rfl⟩

/-- Only numbers can be continued. -/
theorem ends_of_other {c : Char} (minus : c ≠ '-') (digit : c.isDigit = false)
    (cs after : List Char) : Ends (c :: cs) after := by
  intro isNumber
  obtain ⟨d, rest, split, isMinus | isDigit⟩ := isNumber.head
  · exact absurd ((List.cons.inj split).1.trans isMinus) minus
  · rw [← (List.cons.inj split).1, digit] at isDigit
    cases isDigit

/-- No number goes on with a blank, a comma or a bracket. -/
theorem ends_of_head {value after : List Char}
    (head : ∀ c rest, after = c :: rest → IsBlank c ∨ c ∈ [',', ']', '\x7d']) :
    Ends value after := by
  intro _ c rest split continues
  obtain ⟨digit, small, large, point⟩ :
      c.isDigit = false ∧ c ≠ 'e' ∧ c ≠ 'E' ∧ c ≠ '.' := by
    obtain blank | closing := head c rest split
    · obtain rfl | rfl | rfl | rfl := blank <;> decide
    · simp only [List.mem_cons, List.not_mem_nil, or_false] at closing
      obtain rfl | rfl | rfl := closing <;> decide
  obtain isDigit | ⟨mark, _⟩ | ⟨isPoint, _⟩ := continues
  · rw [digit] at isDigit
    cases isDigit
  · exact mark.elim small large
  · exact point isPoint

/-! ## Ends of numbers -/

/-- What may follow a number with some fraction and exponent: no digit, no mark where there is no
exponent, and no point where there is neither. -/
def Stops (fraction exponent after : List Char) : Prop :=
  ∀ c rest, after = c :: rest → c.isDigit = false ∧ (exponent = [] → c ≠ 'e' ∧ c ≠ 'E') ∧
    (fraction = [] → exponent = [] → c ≠ '.')

theorem Digits.not_mem {cs : List Char} (h : Digits cs) {c : Char} (other : c.isDigit = false) :
    c ∉ cs := by
  intro member
  rw [h.all c member] at other
  cases other

section Parts

variable {sign whole fraction exponent after : List Char} (isSign : sign = [] ∨ sign = ['-'])
  (isWhole : Whole whole) (isFraction : Fraction fraction) (isExponent : Exponent exponent)

include isSign isWhole isFraction in
/-- Without an exponent, a number has no mark of one. -/
theorem not_mem_of_no_exponent {c : Char} (mark : c = 'e' ∨ c = 'E') :
    c ∉ sign ++ (whole ++ (fraction ++ [])) := by
  have other : c.isDigit = false ∧ c ≠ '-' ∧ c ≠ '.' := by
    obtain rfl | rfl := mark <;> decide
  simp only [List.mem_append, not_or]
  refine ⟨?_, isWhole.digits.not_mem other.1, ?_, List.not_mem_nil⟩
  · obtain rfl | rfl := isSign <;> simp [other]
  · cases isFraction with
    | none => exact List.not_mem_nil
    | some digits => simpa [other] using digits.not_mem other.1

include isSign isWhole in
theorem point_not_mem : '.' ∉ sign ++ (whole ++ ([] ++ [])) := by
  simp only [List.mem_append, not_or]
  refine ⟨?_, isWhole.digits.not_mem (by decide), List.not_mem_nil, List.not_mem_nil⟩
  obtain rfl | rfl := isSign <;> decide

include isSign isWhole isFraction isExponent in
/-- Where a number ends can be seen from its parts. -/
theorem ends_iff_stops : Ends (sign ++ (whole ++ (fraction ++ exponent))) after ↔
    Stops fraction exponent after := by
  have isNumber := Number.mk isSign isWhole isFraction isExponent
  constructor
  · intro ends c rest split
    have stays := ends isNumber c rest split
    simp only [Continues, not_or] at stays
    obtain ⟨digit, mark, point⟩ := stays
    refine ⟨by simpa using digit, ?_, ?_⟩
    · rintro rfl
      have none := fun c => not_mem_of_no_exponent isSign isWhole isFraction (c := c)
      exact not_or.1 fun isMark => mark ⟨isMark, none 'e' (.inl rfl), none 'E' (.inr rfl)⟩
    · rintro rfl rfl isPoint
      have none := fun c => not_mem_of_no_exponent isSign isWhole .none (c := c)
      exact point ⟨isPoint, point_not_mem isSign isWhole, none 'e' (.inl rfl), none 'E' (.inr rfl)⟩
  · rintro stops _ c rest split (digit | ⟨isMark, small, large⟩ | ⟨isPoint, noPoint, small, large⟩)
    · rw [(stops c rest split).1] at digit
      cases digit
    · cases isExponent with
      | none => exact isMark.elim ((stops c rest split).2.1 rfl).1 ((stops c rest split).2.1 rfl).2
      | some mark _ _ => obtain rfl | rfl := mark <;> simp at small large
    · cases isExponent with
      | none =>
          cases isFraction with
          | none => exact (stops c rest split).2.2 rfl rfl isPoint
          | some _ => simp at noPoint
      | some mark _ _ => obtain rfl | rfl := mark <;> simp at small large

end Parts

end JsonText

end ManifestSchema
