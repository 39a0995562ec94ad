import ManifestSchema.Proofs.JsonText.Grammar

/-!
# What the reader makes of a value

A value of the grammar is read to its end, into a tree without faults that depends on the value and
its place alone, whatever follows it.

Results:

1. `JsonText.readNumber_complete` and `JsonText.scanString_complete`: numbers and strings;
2. `JsonText.reader_complete`: values.
-/

namespace ManifestSchema

namespace JsonText

open Located

/-! ## Blanks -/

theorem tail_cons (x : Char) (rest : List Char) (n : Nat) :
    (Cursor.mk (x :: rest) n).tail = ⟨rest, n + x.utf8Size⟩ := rfl

theorem skipBlanks_complete {blanks : List Char} (all : Blank blanks) {c : Char}
    {rest : List Char} (notBlank : ¬IsBlank c) (n : Nat) :
    Cursor.skipBlanks (blanks ++ c :: rest) n = ⟨c :: rest, n + blanks.length⟩ := by
  induction blanks generalizing n with
  | nil =>
      unfold IsBlank at notBlank
      rw [List.nil_append, Cursor.skipBlanks, if_neg notBlank]
      rfl
  | cons b others ih =>
      obtain ⟨blank, all⟩ := List.forall_mem_cons.1 all
      unfold IsBlank at blank
      rw [List.cons_append, Cursor.skipBlanks, if_pos blank, ih all, List.length_cons,
        Nat.add_right_comm, Nat.add_assoc]

/-- Where the next part of a text begins. -/
theorem next_complete {part : Part} {blanks cs : List Char} (all : Blank blanks)
    (spells : Spells part cs) (t : List Char) (n : Nat) :
    Cursor.next ⟨blanks ++ (cs ++ t), n⟩ = ⟨cs ++ t, n + blanks.length⟩ := by
  obtain ⟨c, rest, rfl, notBlank⟩ := spells.head_not_blank
  exact skipBlanks_complete all notBlank n

/-! ## Numbers -/

theorem digits_complete {ds t : List Char} (all : ∀ x ∈ ds, x.isDigit = true)
    (clear : ∀ x rest, t = x :: rest → x.isDigit = false) (n : Nat) :
    Cursor.digits ⟨ds ++ t, n⟩ = (ds.map fun d => d.toNat - 48, ⟨t, n + ds.length⟩) := by
  have none : t.takeWhile Char.isDigit = [] := by
    cases t with
    | nil => rfl
    | cons x rest => rw [List.takeWhile_cons, clear x rest rfl]; rfl
  have taken : (ds ++ t).takeWhile Char.isDigit = ds := by
    rw [List.takeWhile_append_of_pos all, none, List.append_nil]
  simp only [Cursor.digits, taken, List.drop_left]

/-- The node of a finished number does not depend on what follows. -/
theorem numberNode_complete (text : NumberText) (start n : Nat) : ∃ tree, tree.skip = none ∧
    ∀ t, numberNode text start ⟨t, n⟩ = (tree, ⟨t, n⟩) := by
  cases h : text.value with
  | ok v => exact ⟨.num (.ok v) n, rfl, fun t => by simp only [numberNode, h]⟩
  | error read =>
      refine ⟨.num (.error ⟨.numberOutOfRange,
        if text.exponent.isSome then start + read else n⟩) n, rfl, fun t => ?_⟩
      simp only [numberNode, h]

/-- The digits of an exponent begin behind its sign. -/
theorem sign_complete {sign ds : List Char} (isSign : sign = [] ∨ sign = ['+'] ∨ sign = ['-'])
    (digits : Digits ds) (mark : Char) (n : Nat) : ∃ p below, ∀ t,
      decide ((sign ++ (ds ++ t)).head? = some '-') = below ∧
      (if (sign ++ (ds ++ t)).head? = some '-' ∨ (sign ++ (ds ++ t)).head? = some '+'
        then (Cursor.mk (mark :: (sign ++ (ds ++ t))) n).tail.tail
        else (Cursor.mk (mark :: (sign ++ (ds ++ t))) n).tail) = ⟨ds ++ t, p⟩ := by
  obtain rfl | rfl | rfl := isSign
  · obtain ⟨d, rest, rfl⟩ := List.exists_cons_of_ne_nil digits.some
    have digit := digits.all d List.mem_cons_self
    have minus : d ≠ '-' := by rintro rfl; cases digit
    have plus : d ≠ '+' := by rintro rfl; cases digit
    refine ⟨n + mark.utf8Size, false, fun t => ⟨by simp [minus], ?_⟩⟩
    rw [if_neg (by simp [minus, plus])]
    rfl
  · exact ⟨n + mark.utf8Size + '+'.utf8Size, false, fun t => ⟨by simp, rfl⟩⟩
  · exact ⟨n + mark.utf8Size + '-'.utf8Size, true, fun t => ⟨by simp, rfl⟩⟩

theorem readExponent_complete {exponent : List Char} (isExponent : Exponent exponent)
    (negative : Bool) (whole : List Nat) (fraction : Option (List Nat)) (n : Nat) :
    ∃ tree stop, tree.skip = none ∧ ∀ t,
      (∀ x rest, t = x :: rest → x.isDigit = false ∧ (exponent = [] → x ≠ 'e' ∧ x ≠ 'E')) →
      readExponent negative whole fraction ⟨exponent ++ t, n⟩ = (tree, ⟨t, stop⟩) := by
  cases isExponent with
  | none =>
      obtain ⟨tree, sound, node⟩ := numberNode_complete ⟨negative, whole, fraction, none⟩ 0 n
      refine ⟨tree, n, sound, fun t stops => ?_⟩
      rw [List.nil_append, ← node t]
      cases t with
      | nil => rfl
      | cons x rest =>
          have other : ¬(x = 'e' ∨ x = 'E') := not_or.2 ((stops x rest rfl).2 rfl)
          simp only [readExponent, if_neg other]
  | @some mark sign ds isMark isSign digits =>
      obtain ⟨p, below, start⟩ := sign_complete isSign digits mark n
      obtain ⟨tree, sound, node⟩ := numberNode_complete
        ⟨negative, whole, fraction, some (below, ds.map fun d => d.toNat - 48)⟩ p (p + ds.length)
      refine ⟨tree, p + ds.length, sound, fun t stops => ?_⟩
      have values := digits_complete digits.all (fun x rest split => (stops x rest split).1) p
      have some' : (ds.map fun d => d.toNat - 48).isEmpty = false := by
        simpa using digits.some
      have split : mark :: (sign ++ ds) ++ t = mark :: (sign ++ (ds ++ t)) := by simp
      rw [split, readExponent]
      simp only [if_pos isMark, (start t).2, values, some', (start t).1]
      exact node t

theorem eq_zero_of_value {d : Char} (digit : d.isDigit = true) (zero : d.toNat - 48 = 0) :
    d = '0' := by
  rw [Char.isDigit, Bool.and_eq_true, decide_eq_true_iff, decide_eq_true_iff] at digit
  have range : 48 ≤ d.toNat := digit.1
  exact Char.toNat_inj.1 (by show d.toNat = 48; omega)

/-- The sign of a number, if there is one, stands before its digits. -/
theorem negative_complete {sign ds : List Char} (isSign : sign = [] ∨ sign = ['-'])
    (digits : Digits ds) (n : Nat) : ∃ p negative, ∀ t,
      decide ((sign ++ (ds ++ t)).head? = some '-') = negative ∧
      (if negative = true then (Cursor.mk (sign ++ (ds ++ t)) n).tail else ⟨sign ++ (ds ++ t), n⟩) =
        ⟨ds ++ t, p⟩ := by
  obtain rfl | rfl := isSign
  · obtain ⟨d, more, rfl⟩ := List.exists_cons_of_ne_nil digits.some
    have digit := digits.all d List.mem_cons_self
    have minus : d ≠ '-' := by rintro rfl; cases digit
    exact ⟨n, false, fun t => ⟨by simp [minus], rfl⟩⟩
  · exact ⟨n + '-'.utf8Size, true, fun t => ⟨by simp, rfl⟩⟩

/-- The digits of a whole part are not those that a reader refuses. -/
theorem Whole.values_ne {whole : List Char} (h : Whole whole) (d : Nat) (rest : List Nat) :
    whole.map (fun d => d.toNat - 48) ≠ 0 :: d :: rest := by
  obtain ⟨c, cs, rfl⟩ := List.exists_cons_of_ne_nil h.digits.some
  intro same
  obtain ⟨zero, others⟩ := List.cons.inj same
  rw [h.zero cs (by rw [eq_zero_of_value (h.digits.all c List.mem_cons_self) zero])] at others
  cases others

/-- The exponent of a number begins where its whole part and its fraction end. -/
theorem readNumber_fraction {sign whole fraction : List Char} (isSign : sign = [] ∨ sign = ['-'])
    (isWhole : Whole whole) (isFraction : Fraction fraction) (n : Nat) :
    ∃ negative values places p, ∀ after,
      (∀ x rest, after = x :: rest → x.isDigit = false ∧ (fraction = [] → x ≠ '.')) →
      readNumber ⟨sign ++ (whole ++ (fraction ++ after)), n⟩ =
        readExponent negative values places ⟨after, p⟩ := by
  obtain ⟨p, negative, start⟩ := negative_complete isSign isWhole.digits n
  have some : whole.map (fun d => d.toNat - 48) ≠ [] := by simpa using isWhole.digits.some
  cases isFraction with
  | none =>
      refine ⟨negative, whole.map fun d => d.toNat - 48, .none, p + whole.length,
        fun after other => ?_⟩
      rw [List.nil_append, readNumber]
      simp only [(start after).1, (start after).2, digits_complete isWhole.digits.all
        (fun x rest split => (other x rest split).1)]
      split
      · next empty => exact absurd empty some
      · next zero => exact absurd zero (isWhole.values_ne _ _)
      · split
        · exact absurd rfl ((other _ _ rfl).2 rfl)
        · rfl
  | @some places digits =>
      refine ⟨negative, whole.map fun d => d.toNat - 48, .some (places.map fun d => d.toNat - 48),
        p + whole.length + '.'.utf8Size + places.length, fun after other => ?_⟩
      -- the point ends the digits of the whole part
      have point : ∀ x rest, '.' :: (places ++ after) = x :: rest → x.isDigit = false := by
        intro x rest split
        obtain ⟨rfl, _⟩ := List.cons.inj split
        rfl
      have behind := digits_complete digits.all (fun x rest split => (other x rest split).1)
        (p + whole.length + '.'.utf8Size)
      have some' : (places.map fun d => d.toNat - 48).isEmpty = false := by
        simpa using digits.some
      rw [List.cons_append, readNumber]
      simp only [(start ('.' :: (places ++ after))).1, (start ('.' :: (places ++ after))).2,
        digits_complete isWhole.digits.all point, tail_cons, behind, some']
      split
      · next empty => exact absurd empty some
      · next zero => exact absurd zero (isWhole.values_ne _ _)
      · rfl

/-- A number is read to its end, wherever that is. -/
theorem readNumber_complete {number : List Char} (isNumber : Number number) (n : Nat) :
    ∃ tree stop, tree.skip = none ∧ ∀ t, Ends number t →
      readNumber ⟨number ++ t, n⟩ = (tree, ⟨t, stop⟩) := by
  obtain @⟨sign, whole, fraction, exponent, isSign, isWhole, isFraction, isExponent⟩ := isNumber
  obtain ⟨negative, values, places, p, fractionReads⟩ :=
    readNumber_fraction isSign isWhole isFraction n
  obtain ⟨tree, stop, sound, exponentReads⟩ :=
    readExponent_complete isExponent negative values places p
  refine ⟨tree, stop, sound, fun t endsHere => ?_⟩
  have stops := (ends_iff_stops isSign isWhole isFraction isExponent).1 endsHere
  have other : ∀ x rest, exponent ++ t = x :: rest →
      x.isDigit = false ∧ (fraction = [] → x ≠ '.') := by
    intro x rest split
    cases isExponent with
    | none => exact ⟨(stops x rest split).1, fun no => (stops x rest split).2.2 no rfl⟩
    | some mark _ _ =>
        obtain ⟨rfl, _⟩ := List.cons.inj split
        obtain rfl | rfl := mark <;> exact ⟨rfl, fun _ => by decide⟩
  have split : sign ++ (whole ++ (fraction ++ exponent)) ++ t =
      sign ++ (whole ++ (fraction ++ (exponent ++ t))) := by simp
  rw [split, fractionReads _ other]
  exact exponentReads t fun x rest split => ⟨(stops x rest split).1, (stops x rest split).2.1⟩

/-! ## Strings -/

/-- A string is read to its closing quote. -/
theorem scanString_complete {body : List Char} (isRest : StringRest body) (n : Nat) (s : Scan) :
    ∃ content stop, ∀ t, scanString (body ++ t) n s = .closed content ⟨t, stop⟩ := by
  induction isRest generalizing n s with
  | close => exact ⟨_, n + 1, fun t => by rw [List.cons_append, List.nil_append, scanString]⟩
  | @plain c rest quote slash printable _ ih =>
      obtain ⟨content, stop, reads⟩ := ih (n + c.utf8Size) (s.push c n)
      refine ⟨content, stop, fun t => ?_⟩
      rw [List.cons_append, scanString, if_neg printable, reads]
      · exact quote
      · exact fun same _ => slash same
      · intro a b c d more same
        exact absurd same slash
      · intro x more same
        exact absurd same slash
  | @escape c rest some _ ih =>
      obtain ⟨d, escape⟩ := Option.isSome_iff_exists.1 some
      have noCode : c ≠ 'u' := by
        rintro rfl
        cases escape
      obtain ⟨content, stop, reads⟩ := ih (n + 2) (s.pushEscape d n)
      refine ⟨content, stop, fun t => ?_⟩
      rw [List.cons_append, List.cons_append, scanString, if_neg noCode, escape]
      · exact reads t
      · intro a b c d more same
        exact absurd same noCode
  | @code c1 c2 c3 c4 rest some _ ih =>
      obtain ⟨code, found⟩ := Option.isSome_iff_exists.1 some
      obtain ⟨content, stop, reads⟩ := ih (n + 6) (s.pushCode code (n + 6))
      refine ⟨content, stop, fun t => ?_⟩
      simp only [List.cons_append]
      rw [scanString, found]
      exact reads t

/-! ## Values -/

/-- What a part of a text is read into, given three steps for each of its characters: a tree without
faults that depends on the part and its place alone. An element or a member takes one step less,
because what leads to it takes one. -/
def Reads : Part → List Char → Prop
  | .value, cs => ∀ n, ∃ tree stop, tree.skip = none ∧ ∀ fuel t, 3 * cs.length ≤ fuel → Ends cs t →
      readValue fuel ⟨cs ++ t, n⟩ = (tree, ⟨t, stop⟩)
  | .elements first, cs => ∀ n, ∃ tree stop, skipElements tree = none ∧ ∀ fuel t,
      3 * cs.length ≤ fuel → readElements fuel first ⟨cs ++ t, n⟩ = (tree, ⟨t, stop⟩)
  | .element, cs => ∀ n, ∃ tree stop, skipElements tree = none ∧ ∀ fuel t,
      3 * cs.length ≤ fuel + 1 → readElement fuel ⟨cs ++ t, n⟩ = (tree, ⟨t, stop⟩)
  | .members first, cs => ∀ n, ∃ tree stop, skipMembers tree = none ∧ ∀ fuel t,
      3 * cs.length ≤ fuel → readMembers fuel first ⟨cs ++ t, n⟩ = (tree, ⟨t, stop⟩)
  | .member, cs => ∀ n, ∃ tree stop, skipMembers tree = none ∧ ∀ fuel t,
      3 * cs.length ≤ fuel + 1 → readMember fuel ⟨cs ++ t, n⟩ = (tree, ⟨t, stop⟩)

theorem readWord_complete (value : Nat → Located) (letters : List Char) (n : Nat) : ∃ stop, ∀ t,
    readWord value letters ⟨letters ++ t, n⟩ = (value stop, ⟨t, stop⟩) := by
  induction letters generalizing n with
  | nil => exact ⟨n, fun t => rfl⟩
  | cons l more ih =>
      obtain ⟨stop, reads⟩ := ih (n + l.utf8Size)
      refine ⟨stop, fun t => ?_⟩
      rw [List.cons_append, readWord]
      simp only [if_true]
      exact reads t

/-- A value is read to its end when some steps do so at its first character. -/
theorem reads_value {x : Char} {cs : List Char} (h : ∀ n, ∃ tree stop, tree.skip = none ∧
      ∀ fuel t, 3 * cs.length + 2 ≤ fuel → Ends (x :: cs) t →
        readValue (fuel + 1) ⟨x :: (cs ++ t), n⟩ = (tree, ⟨t, stop⟩)) :
    Reads .value (x :: cs) := by
  intro n
  obtain ⟨tree, stop, sound, reads⟩ := h n
  refine ⟨tree, stop, sound, fun fuel t enough ends => ?_⟩
  rw [List.length_cons] at enough
  obtain _ | fuel := fuel
  · omega
  · exact reads fuel t (by omega) ends

/-- A word is read to its end when its first letter sends the reader to the other ones. -/
theorem reads_word {value : Nat → Located} {x : Char} {letters : List Char}
    (sound : ∀ n, (value n).skip = none)
    (starts : ∀ fuel rest n, readValue (fuel + 1) ⟨x :: rest, n⟩ =
      readWord value letters ⟨rest, n + x.utf8Size⟩) : Reads .value (x :: letters) := by
  refine reads_value fun n => ?_
  obtain ⟨stop, word⟩ := readWord_complete value letters (n + x.utf8Size)
  refine ⟨value stop, stop, sound stop, fun fuel t _ _ => ?_⟩
  rw [starts, word]

theorem reads_number {cs : List Char} (isNumber : Number cs) : Reads .value cs := by
  obtain ⟨x, rest, rfl, head⟩ := isNumber.head
  refine reads_value fun n => ?_
  obtain ⟨tree, stop, sound, reads⟩ := readNumber_complete isNumber n
  refine ⟨tree, stop, sound, fun fuel t _ ends => ?_⟩
  have noWord : x ≠ 'n' ∧ x ≠ 't' ∧ x ≠ 'f' := by
    refine ⟨?_, ?_, ?_⟩ <;> rintro rfl <;> simp at head
  rw [readValue]
  simp only [noWord, if_false, if_pos head]
  exact reads t ends

theorem reads_string {cs : List Char} (isRest : StringRest cs) : Reads .value ('"' :: cs) := by
  refine reads_value fun n => ?_
  obtain ⟨content, stop, scans⟩ := scanString_complete isRest (n + '"'.utf8Size) ⟨[], none, none⟩
  refine ⟨.str content stop, stop, rfl, fun fuel t _ _ => ?_⟩
  have reads : readString (Cursor.mk ('"' :: (cs ++ t)) n).tail = .closed content ⟨t, stop⟩ :=
    scans t
  rw [readValue]
  simp [reads]

theorem reads_array {blanks cs : List Char} (allBlank : Blank blanks)
    (spells : Spells (.elements true) cs) (ih : Reads (.elements true) cs) :
    Reads .value ('[' :: (blanks ++ cs)) := by
  refine reads_value fun n => ?_
  obtain ⟨tree, stop, sound, reads⟩ := ih (n + '['.utf8Size + blanks.length)
  refine ⟨.arr n tree, stop, sound, fun fuel t enough _ => ?_⟩
  rw [List.length_append] at enough
  rw [readValue]
  simp [tail_cons, next_complete allBlank spells, reads fuel t (by omega)]

theorem reads_object {blanks cs : List Char} (allBlank : Blank blanks)
    (spells : Spells (.members true) cs) (ih : Reads (.members true) cs) :
    Reads .value ('\x7b' :: (blanks ++ cs)) := by
  refine reads_value fun n => ?_
  obtain ⟨tree, stop, sound, reads⟩ := ih (n + '\x7b'.utf8Size + blanks.length)
  refine ⟨.obj n tree, stop, sound, fun fuel t enough _ => ?_⟩
  rw [List.length_append] at enough
  rw [readValue]
  simp [tail_cons, next_complete allBlank spells, reads fuel t (by omega)]

theorem Spells.length_pos {part : Part} {cs : List Char} (h : Spells part cs) : 0 < cs.length := by
  obtain ⟨c, rest, rfl, _⟩ := h.head_not_blank
  exact Nat.succ_pos _

/-- No number goes on with blanks that stand before a comma or a closing bracket. -/
theorem ends_of_closing {blanks cs : List Char} (allBlank : Blank blanks)
    (head : ∃ c rest, cs = c :: rest ∧ c ∈ [',', ']', '\x7d']) (value t : List Char) :
    Ends value (blanks ++ (cs ++ t)) := by
  refine ends_of_head fun c rest split => ?_
  cases blanks with
  | nil =>
      obtain ⟨d, more, rfl, closing⟩ := head
      exact .inr ((List.cons.inj split).1 ▸ closing)
  | cons b others => exact .inl ((List.cons.inj split).1 ▸ allBlank b List.mem_cons_self)

/-! ## Arrays -/

theorem reads_endArray (first : Bool) : Reads (.elements first) [']'] := by
  refine fun n => ⟨.close (n + 1), n + 1, rfl, fun fuel t enough => ?_⟩
  obtain _ | fuel := fuel
  · simp at enough
  · rfl

theorem readElements_first {x : Char} (other : x ≠ ']') (fuel n : Nat) (rest : List Char) :
    readElements (fuel + 1) true ⟨x :: rest, n⟩ = readElement fuel ⟨x :: rest, n⟩ := by
  rw [readElements]
  split
  · next empty => cases empty
  · next same => exact absurd (List.cons.inj same).1 other
  · rfl

theorem reads_firstElement {cs : List Char} (spells : Spells .element cs) (ih : Reads .element cs) :
    Reads (.elements true) cs := by
  intro n
  obtain ⟨tree, stop, sound, reads⟩ := ih n
  refine ⟨tree, stop, sound, fun fuel t enough => ?_⟩
  obtain ⟨x, rest, rfl, other⟩ := spells.head_element
  obtain _ | fuel := fuel
  · simp at enough
  · rw [← reads fuel t enough]
    exact readElements_first other fuel n (rest ++ t)

theorem readElements_next {x : Char} (other : x ≠ ']') {rest more : List Char} {n m : Nat}
    (next : Cursor.next ⟨rest, n + ','.utf8Size⟩ = ⟨x :: more, m⟩) (fuel : Nat) :
    readElements (fuel + 1) false ⟨',' :: rest, n⟩ = readElement fuel ⟨x :: more, m⟩ := by
  have behind : (Cursor.mk (',' :: rest) n).tail.next = ⟨x :: more, m⟩ := next
  rw [readElements]
  split
  · next empty => cases empty
  · next bracket => cases bracket
  · next comma =>
      cases comma
      simp only [Bool.false_eq_true, if_false, if_true, behind]
      split
      · next empty => cases empty
      · next same => exact absurd (List.cons.inj same).1 other
      · rfl

theorem reads_nextElement {blanks cs : List Char} (allBlank : Blank blanks)
    (spells : Spells .element cs) (ih : Reads .element cs) :
    Reads (.elements false) (',' :: (blanks ++ cs)) := by
  intro n
  obtain ⟨tree, stop, sound, reads⟩ := ih (n + ','.utf8Size + blanks.length)
  refine ⟨tree, stop, sound, fun fuel t enough => ?_⟩
  rw [List.length_cons, List.length_append] at enough
  obtain _ | fuel := fuel
  · omega
  · have behind := next_complete allBlank spells t (n + ','.utf8Size)
    obtain ⟨x, rest, rfl, other⟩ := spells.head_element
    rw [← reads fuel t (by omega), List.cons_append, List.append_assoc]
    exact readElements_next other behind fuel

/-- Behind a value without faults the reader goes on with the rest of the array. -/
theorem readElement_of_sound {fuel : Nat} {c past : Cursor} {tree : Located}
    (h : readValue fuel c = (tree, past)) (sound : tree.skip = none) :
    readElement (fuel + 1) c = (.cons c.offset tree (readElements fuel false past.next).1,
      (readElements fuel false past.next).2) := by
  rw [readElement, h]
  cases tree with
  | broken => cases sound
  | null | bool | num | str | arr | obj => rfl

theorem reads_element {value blanks cs : List Char} (isValue : Spells .value value)
    (allBlank : Blank blanks) (spells : Spells (.elements false) cs) (ihValue : Reads .value value)
    (ihOthers : Reads (.elements false) cs) : Reads .element (value ++ (blanks ++ cs)) := by
  intro n
  obtain ⟨tree, stop, sound, reads⟩ := ihValue n
  obtain ⟨others, last, soundOthers, readsOthers⟩ := ihOthers (stop + blanks.length)
  refine ⟨.cons n tree others, last, by simp [skipElements, sound, soundOthers],
    fun fuel t enough => ?_⟩
  have some := isValue.length_pos
  have some' := spells.length_pos
  rw [List.length_append, List.length_append] at enough
  obtain _ | fuel := fuel
  · omega
  · have ends : Ends value (blanks ++ (cs ++ t)) := by
      refine ends_of_closing allBlank ?_ value t
      obtain ⟨c, rest, rfl, rfl | rfl⟩ := spells.head_elements <;> exact ⟨_, _, rfl, by decide⟩
    have here := reads fuel (blanks ++ (cs ++ t)) (by omega) ends
    rw [List.append_assoc, List.append_assoc, readElement_of_sound here sound,
      next_complete allBlank spells, readsOthers fuel t (by omega)]

/-! ## Objects -/

theorem reads_endObject (first : Bool) : Reads (.members first) ['\x7d'] := by
  refine fun n => ⟨.close (n + 1), n + 1, rfl, fun fuel t enough => ?_⟩
  obtain _ | fuel := fuel
  · simp at enough
  · rfl

/-- A member begins with the quote of its key. -/
theorem Spells.head_member {cs : List Char} (h : Spells .member cs) : ∃ rest, cs = '"' :: rest := by
  cases h with
  | member _ _ _ _ _ _ => exact ⟨_, rfl⟩

theorem reads_firstMember {cs : List Char} (spells : Spells .member cs) (ih : Reads .member cs) :
    Reads (.members true) cs := by
  intro n
  obtain ⟨tree, stop, sound, reads⟩ := ih n
  refine ⟨tree, stop, sound, fun fuel t enough => ?_⟩
  obtain ⟨rest, rfl⟩ := spells.head_member
  obtain _ | fuel := fuel
  · simp at enough
  · rw [← reads fuel t enough]
    rfl

theorem readMembers_next {rest more : List Char} {n m : Nat}
    (next : Cursor.next ⟨rest, n + ','.utf8Size⟩ = ⟨'"' :: more, m⟩) (fuel : Nat) :
    readMembers (fuel + 1) false ⟨',' :: rest, n⟩ = readMember fuel ⟨'"' :: more, m⟩ := by
  have behind : (Cursor.mk (',' :: rest) n).tail.next = ⟨'"' :: more, m⟩ := next
  rw [readMembers]
  split
  · next empty => cases empty
  · next brace => cases brace
  · next comma =>
      cases comma
      simp only [Bool.false_eq_true, if_false, if_true, behind]

theorem reads_nextMember {blanks cs : List Char} (allBlank : Blank blanks)
    (spells : Spells .member cs) (ih : Reads .member cs) :
    Reads (.members false) (',' :: (blanks ++ cs)) := by
  intro n
  obtain ⟨tree, stop, sound, reads⟩ := ih (n + ','.utf8Size + blanks.length)
  refine ⟨tree, stop, sound, fun fuel t enough => ?_⟩
  rw [List.length_cons, List.length_append] at enough
  obtain _ | fuel := fuel
  · omega
  · have behind := next_complete allBlank spells t (n + ','.utf8Size)
    obtain ⟨rest, rfl⟩ := spells.head_member
    rw [← reads fuel t (by omega), List.cons_append, List.append_assoc]
    exact readMembers_next behind fuel

/-- Where the reader would resume behind some blanks is settled by the character that ends them. -/
theorem resume_complete {blanks : List Char} (allBlank : Blank blanks) {c : Char}
    (notBlank : ¬IsBlank c) (n : Nat) : ∃ m, ∀ rest, resume ⟨blanks ++ c :: rest, n⟩ = m := by
  refine ⟨if some c = some '\x7d' then n + blanks.length + 1 else n + blanks.length,
    fun rest => ?_⟩
  have next : Cursor.next ⟨blanks ++ c :: rest, n⟩ = ⟨c :: rest, n + blanks.length⟩ :=
    skipBlanks_complete allBlank notBlank n
  rw [resume, next]
  rfl

/-- Behind a key, a colon and a value without faults the reader goes on with the rest of the
object. -/
theorem readMember_of_sound {fuel : Nat} {c past past' : Cursor} {key : Except Stop String}
    {rest : List Char} {tree : Located} (closed : readString c.tail = .closed key past)
    (colon : past.next.rest = ':' :: rest)
    (h : readValue fuel past.next.tail.next = (tree, past')) (sound : tree.skip = none) :
    readMember (fuel + 1) c =
      (.cons key (resume past) tree (resume past') (readMembers fuel false past'.next).1,
        (readMembers fuel false past'.next).2) := by
  rw [readMember, closed]
  simp only [colon, h]
  cases tree with
  | broken => cases sound
  | null | bool | num | str | arr | obj => rfl

theorem reads_member {key blanks blanks' value blanks'' cs : List Char} (isKey : StringRest key)
    (allBlank : Blank blanks) (allBlank' : Blank blanks') (isValue : Spells .value value)
    (allBlank'' : Blank blanks'') (spells : Spells (.members false) cs)
    (ihValue : Reads .value value) (ihOthers : Reads (.members false) cs) :
    Reads .member
      ('"' :: (key ++ (blanks ++ (':' :: (blanks' ++ (value ++ (blanks'' ++ cs))))))) := by
  intro n
  obtain ⟨content, p, scans⟩ := scanString_complete isKey (n + '"'.utf8Size) ⟨[], none, none⟩
  obtain ⟨afterKey, resumesKey⟩ := resume_complete allBlank (c := ':') (by simp [IsBlank]) p
  obtain ⟨tree, stop, sound, reads⟩ :=
    ihValue (p + blanks.length + ':'.utf8Size + blanks'.length)
  obtain ⟨c, rest, same, notBlank⟩ := spells.head_not_blank
  obtain ⟨afterValue, resumesValue⟩ := resume_complete allBlank'' notBlank stop
  obtain ⟨others, last, soundOthers, readsOthers⟩ := ihOthers (stop + blanks''.length)
  refine ⟨.cons content afterKey tree afterValue others, last,
    by simp [skipMembers, sound, soundOthers], fun fuel t enough => ?_⟩
  have some := isValue.length_pos
  have some' := spells.length_pos
  simp only [List.length_cons, List.length_append] at enough
  obtain _ | fuel := fuel
  · omega
  · -- the value may be a number, which must not go on with what stands behind it
    have ends : Ends value (blanks'' ++ (cs ++ t)) := by
      refine ends_of_closing allBlank'' ?_ value t
      obtain ⟨c, rest, rfl, rfl | rfl⟩ := spells.head_members <;> exact ⟨_, _, rfl, by decide⟩
    have here := reads fuel (blanks'' ++ (cs ++ t)) (by omega) ends
    let behindColon := blanks' ++ (value ++ (blanks'' ++ (cs ++ t)))
    have closed : readString
        (Cursor.mk ('"' :: (key ++ (blanks ++ ':' :: behindColon))) n).tail =
          .closed content ⟨blanks ++ ':' :: behindColon, p⟩ := scans (blanks ++ ':' :: behindColon)
    have colon : Cursor.next ⟨blanks ++ ':' :: behindColon, p⟩ =
        ⟨':' :: behindColon, p + blanks.length⟩ :=
      skipBlanks_complete allBlank (by simp [IsBlank]) p
    have atValue : Cursor.next ⟨behindColon, p + blanks.length + ':'.utf8Size⟩ =
        ⟨value ++ (blanks'' ++ (cs ++ t)),
          p + blanks.length + ':'.utf8Size + blanks'.length⟩ :=
      next_complete allBlank' isValue _ _
    have resumes : resume ⟨blanks'' ++ (cs ++ t), stop⟩ = afterValue := by
      rw [same]
      exact resumesValue (rest ++ t)
    simp only [List.cons_append, List.append_assoc]
    rw [readMember_of_sound closed (congrArg Cursor.rest colon)
      (by rw [colon, tail_cons, atValue]; exact here) sound, resumesKey, resumes,
      next_complete allBlank'' spells, readsOthers fuel t (by omega)]

/-- Every part of the grammar is read to its end. -/
theorem reads_of_spells {part : Part} {cs : List Char} (h : Spells part cs) : Reads part cs := by
  -- the parts are nested as the functions of the reader call each other
  induction h with
  | null | true | false => exact reads_word (fun _ => rfl) fun _ _ _ => rfl
  | number isNumber => exact reads_number isNumber
  | string isRest => exact reads_string isRest
  | array allBlank spells ih => exact reads_array allBlank spells ih
  | object allBlank spells ih => exact reads_object allBlank spells ih
  | endArray => exact reads_endArray _
  | firstElement spells ih => exact reads_firstElement spells ih
  | nextElement allBlank spells ih => exact reads_nextElement allBlank spells ih
  | element isValue allBlank spells ihValue ihOthers =>
      exact reads_element isValue allBlank spells ihValue ihOthers
  | endObject => exact reads_endObject _
  | firstMember spells ih => exact reads_firstMember spells ih
  | nextMember allBlank spells ih => exact reads_nextMember allBlank spells ih
  | member isKey allBlank allBlank' isValue allBlank'' spells ihValue ihOthers =>
      exact reads_member isKey allBlank allBlank' isValue allBlank'' spells ihValue ihOthers

/-- A value is read to its end, whatever follows it, into the same tree. -/
theorem reader_complete {value : List Char} (isValue : Spells .value value) (n : Nat) :
    ∃ tree stop, tree.skip = none ∧ ∀ fuel t, 3 * value.length ≤ fuel → Ends value t →
      readValue fuel ⟨value ++ t, n⟩ = (tree, ⟨t, stop⟩) :=
  reads_of_spells isValue n

end JsonText

end ManifestSchema
