import ManifestSchema.Proofs.JsonText.Grammar

/-!
# What the reader takes for a value

A tree without faults was read from a value of the grammar, and the reader stands just behind that
value.

Results:

1. `JsonText.readNumber_sound` and `JsonText.scanString_sound`: numbers and strings;
2. `JsonText.reader_sound`: values.
-/

namespace ManifestSchema

namespace JsonText

open Located

/-! ## Blanks and words -/

theorem skipBlanks_sound (cs : List Char) (n : Nat) : ∃ blanks, Blank blanks ∧
    cs = blanks ++ (Cursor.skipBlanks cs n).rest := by
  induction cs generalizing n with
  | nil => exact ⟨[], fun _ h => absurd h List.not_mem_nil, rfl⟩
  | cons c rest ih =>
      rw [Cursor.skipBlanks]
      split
      · next blank =>
          obtain ⟨blanks, all, split⟩ := ih (n + 1)
          exact ⟨c :: blanks, List.forall_mem_cons.2 ⟨blank, all⟩, congrArg (c :: ·) split⟩
      · exact ⟨[], fun _ h => absurd h List.not_mem_nil, rfl⟩

theorem next_sound (c : Cursor) : ∃ blanks, Blank blanks ∧ c.rest = blanks ++ c.next.rest :=
  skipBlanks_sound c.rest c.offset

theorem rest_tail {c : Cursor} {x : Char} {rest : List Char} (h : c.rest = x :: rest) :
    c.tail.rest = rest := by
  unfold Cursor.tail
  rw [h]

theorem readWord_sound {value : Nat → Located} {letters : List Char} {c c' : Cursor}
    {tree : Located} (h : readWord value letters c = (tree, c')) (sound : tree.skip = none) :
    c.rest = letters ++ c'.rest := by
  induction letters generalizing c with
  | nil =>
      cases h
      rfl
  | cons l more ih =>
      rw [readWord] at h
      split at h
      · cases h
        cases sound
      · next x rest split =>
          split at h
          · next same =>
              rw [split, same, List.cons_append, ← rest_tail split, ih h]
          · cases h
            cases sound

/-! ## Numbers -/

/-- The digits that a cursor stands before, and what does not begin with one. -/
theorem digits_sound (c : Cursor) : ∃ ds, c.rest = ds ++ c.digits.2.rest ∧
    (∀ x ∈ ds, x.isDigit = true) ∧ c.digits.1 = ds.map (fun d => d.toNat - 48) ∧
    ∀ x rest, c.digits.2.rest = x :: rest → x.isDigit = false := by
  have behind : c.digits.2.rest = c.rest.dropWhile Char.isDigit := by
    have parts := congrArg (List.drop (c.rest.takeWhile Char.isDigit).length)
      (List.takeWhile_append_dropWhile (p := Char.isDigit) (l := c.rest))
    rw [List.drop_left] at parts
    exact parts.symm
  refine ⟨c.rest.takeWhile Char.isDigit, ?_, ?_, rfl, fun x rest split => ?_⟩
  · rw [behind, List.takeWhile_append_dropWhile]
  · exact List.all_eq_true.1 List.all_takeWhile
  · have head := List.head?_dropWhile_not Char.isDigit c.rest
    rw [← behind, split] at head
    simpa using head

theorem badNumber_unsound {c c' : Cursor} {whenOver : Fault} {tree : Located}
    (h : badNumber c whenOver = (tree, c')) (sound : tree.skip = none) : False := by
  cases h
  cases sound

theorem rest_numberNode (t : NumberText) (start : Nat) (c : Cursor) :
    (numberNode t start c).2 = c := by
  unfold numberNode
  split <;> rfl

/-- The sign of an exponent, if there is one, stands before its digits. -/
theorem sign_sound {c : Cursor} {x : Char} {after : List Char} (split : c.rest = x :: after) :
    ∃ sign, (sign = [] ∨ sign = ['+'] ∨ sign = ['-']) ∧ after = sign ++
      (if after.head? = some '-' ∨ after.head? = some '+' then c.tail.tail else c.tail).rest := by
  have behind := rest_tail split
  split
  · next signed =>
      cases after with
      | nil => simp at signed
      | cons y rest =>
          refine ⟨[y], ?_, by rw [rest_tail behind]; rfl⟩
          obtain same | same := signed <;> cases same <;> simp
  · exact ⟨[], .inl rfl, behind.symm⟩

/-- The exponent is read up to where it ends. -/
theorem readExponent_sound {negative : Bool} {whole : List Nat} {fraction : Option (List Nat)}
    {c c' : Cursor} {tree : Located} (clear : ∀ x rest, c.rest = x :: rest → x.isDigit = false)
    (h : readExponent negative whole fraction c = (tree, c')) (sound : tree.skip = none) :
    ∃ exponent, c.rest = exponent ++ c'.rest ∧ Exponent exponent ∧
      ∀ x rest, c'.rest = x :: rest → x.isDigit = false ∧ (exponent = [] → x ≠ 'e' ∧ x ≠ 'E') := by
  unfold readExponent at h
  split at h
  · next x after split =>
      split at h
      · next mark =>
          obtain ⟨sign, isSign, signed⟩ := sign_sound split
          simp only at h
          generalize (if after.head? = some '-' ∨ after.head? = some '+' then c.tail.tail
            else c.tail) = start at h signed
          obtain ⟨ds, digits, all, values, clear'⟩ := digits_sound start
          rw [digits] at signed
          split at h
          · exact (badNumber_unsound h sound).elim
          · next some =>
              obtain rfl := (rest_numberNode _ _ _).symm.trans (congrArg Prod.snd h)
              have some' : ds ≠ [] := by
                rintro rfl
                simp [values] at some
              refine ⟨x :: (sign ++ ds), ?_, .some mark isSign ⟨some', all⟩,
                fun y rest split' => ⟨clear' y rest split', fun no => by cases no⟩⟩
              rw [split, signed, List.cons_append, List.append_assoc]
      · next noMark =>
          obtain rfl : c = c' := (rest_numberNode _ _ _).symm.trans (congrArg Prod.snd h)
          refine ⟨[], rfl, .none, fun y rest split' => ⟨clear y rest split', fun _ => ?_⟩⟩
          obtain ⟨rfl, _⟩ := List.cons.inj (split.symm.trans split')
          exact not_or.1 noMark
  · next empty =>
      obtain rfl : c = c' := (rest_numberNode _ _ _).symm.trans (congrArg Prod.snd h)
      exact ⟨[], rfl, .none, fun y rest split => by rw [empty] at split; cases split⟩

/-- The digits of a whole part that is read on: they are not missing and have no zero in front. -/
theorem whole_of_values {ds : List Char} (all : ∀ x ∈ ds, x.isDigit = true)
    (some : ds.map (fun d => d.toNat - 48) ≠ [])
    (zero : ∀ d rest, ds.map (fun d => d.toNat - 48) ≠ 0 :: d :: rest) : Whole ds := by
  refine ⟨⟨fun none => some (by rw [none]; rfl), all⟩, fun rest split => ?_⟩
  cases rest with
  | nil => rfl
  | cons d more => exact absurd (congrArg (List.map _) split) (zero _ _)

/-- A number is read up to where it ends. -/
theorem readNumber_sound {c c' : Cursor} {tree : Located} (h : readNumber c = (tree, c'))
    (sound : tree.skip = none) :
    ∃ number, c.rest = number ++ c'.rest ∧ Number number ∧ Ends number c'.rest := by
  obtain ⟨sign, isSign, signed⟩ : ∃ sign, (sign = [] ∨ sign = ['-']) ∧ c.rest = sign ++
      (if decide (c.rest.head? = some '-') = true then c.tail else c).rest := by
    split
    · next negative =>
        cases split : c.rest with
        | nil => simp [split] at negative
        | cons y rest =>
            refine ⟨[y], .inr ?_, by rw [rest_tail split]; rfl⟩
            simpa [split] using negative
    · exact ⟨[], .inl rfl, rfl⟩
  unfold readNumber at h
  simp only at h
  generalize (if decide (c.rest.head? = some '-') = true then c.tail else c) = start at h signed
  obtain ⟨ds, digits, all, values, clear⟩ := digits_sound start
  split at h
  · exact (badNumber_unsound h sound).elim
  · exact (badNumber_unsound h sound).elim
  · next some zero =>
      have whole := whole_of_values all (values ▸ some) (values ▸ zero)
      rw [digits] at signed
      split at h
      · next rest split =>
          obtain ⟨places, behind, allPlaces, placeValues, clear'⟩ := digits_sound _
          rw [rest_tail split] at behind
          split at h
          · exact (badNumber_unsound h sound).elim
          · next some' =>
              have isFraction : Fraction ('.' :: places) := by
                refine .some ⟨?_, allPlaces⟩
                rintro rfl
                simp [placeValues] at some'
              obtain ⟨exponent, after, isExponent, stops⟩ := readExponent_sound clear' h sound
              refine ⟨sign ++ (ds ++ ('.' :: places ++ exponent)), ?_,
                .mk isSign whole isFraction isExponent,
                (ends_iff_stops isSign whole isFraction isExponent).2 fun x rest split =>
                  ⟨(stops x rest split).1, (stops x rest split).2, fun no => by cases no⟩⟩
              rw [signed, split, behind, after]
              simp
      · next noPoint =>
          obtain ⟨exponent, after, isExponent, stops⟩ := readExponent_sound clear h sound
          refine ⟨sign ++ (ds ++ ([] ++ exponent)), ?_, .mk isSign whole .none isExponent,
            (ends_iff_stops isSign whole .none isExponent).2 fun x rest split =>
              ⟨(stops x rest split).1, (stops x rest split).2, ?_⟩⟩
          · rw [signed, after]
            simp
          · rintro _ rfl rfl
            exact noPoint rest (after.trans split)

/-! ## Strings -/

/-- A string is read up to its closing quote. -/
theorem scanString_sound {cs : List Char} {n : Nat} {s : Scan} {content : Except Stop String}
    {past : Cursor} (h : scanString cs n s = .closed content past) :
    ∃ body, cs = body ++ past.rest ∧ StringRest body := by
  fun_induction scanString cs n s with
  | case1 n s => cases h
  | case2 rest n s =>
      cases h
      exact ⟨['"'], rfl, .close⟩
  | case3 n s => cases h
  | case4 a b c d rest n s code found ih =>
      obtain ⟨body, rfl, isRest⟩ := ih h
      exact ⟨_, rfl, .code (Option.isSome_iff_exists.2 ⟨code, found⟩) isRest⟩
  | case5 a b c d rest n s none => cases h
  | case6 rest n s left few other => cases h
  | case7 rest n s left many other => cases h
  | case8 x rest n s other notCode c found ih =>
      obtain ⟨body, rfl, isRest⟩ := ih h
      exact ⟨_, rfl, .escape (Option.isSome_iff_exists.2 ⟨c, found⟩) isRest⟩
  | case9 x rest n s other notCode none => cases h
  | case10 x rest n s quote single code slash control => cases h
  | case11 x rest n s quote single code slash printable ih =>
      have noSlash : x ≠ '\\' := by
        intro same
        cases rest with
        | nil => exact single same rfl
        | cons y more => exact slash y more same rfl
      obtain ⟨body, rfl, isRest⟩ := ih h
      exact ⟨_, rfl, .plain quote noSlash printable isRest⟩

/-! ## Values -/

/-- What each function of the reader does at a cursor when it is given some steps: a tree without
faults was read from a part of the grammar. -/
structure Sound (fuel : Nat) : Prop where
  value : ∀ {c c' tree}, readValue fuel c = (tree, c') → tree.skip = none →
    ∃ cs, c.rest = cs ++ c'.rest ∧ Spells .value cs ∧ Ends cs c'.rest
  elements : ∀ {first c c' tree}, readElements fuel first c = (tree, c') →
    skipElements tree = none → ∃ cs, c.rest = cs ++ c'.rest ∧ Spells (.elements first) cs
  element : ∀ {c c' tree}, readElement fuel c = (tree, c') →
    skipElements tree = none → ∃ cs, c.rest = cs ++ c'.rest ∧ Spells .element cs
  members : ∀ {first c c' tree}, readMembers fuel first c = (tree, c') →
    skipMembers tree = none → ∃ cs, c.rest = cs ++ c'.rest ∧ Spells (.members first) cs
  member : ∀ {c c' tree quoted}, readMember fuel c = (tree, c') →
    skipMembers tree = none → c.rest = '"' :: quoted →
    ∃ cs, c.rest = cs ++ c'.rest ∧ Spells .member cs

theorem sound_zero : Sound 0 where
  value h sound := by cases h; cases sound
  elements h sound := by cases h; cases sound
  element h sound := by cases h; cases sound
  members h sound := by cases h; cases sound
  member h sound _ := by cases h; cases sound

theorem Sound.readValue {fuel : Nat} (ih : Sound fuel) {c c' : Cursor} {tree : Located}
    (h : Located.readValue (fuel + 1) c = (tree, c')) (sound : tree.skip = none) :
    ∃ cs, c.rest = cs ++ c'.rest ∧ Spells .value cs ∧ Ends cs c'.rest := by
  rw [Located.readValue] at h
  split at h
  · cases h
    cases sound
  · next x rest split =>
      have behind := rest_tail split
      -- all values but numbers begin with a character that numbers do not begin with
      have whole : ∀ {cs}, rest = cs ++ c'.rest → Spells .value (x :: cs) → x ≠ '-' →
          x.isDigit = false →
          ∃ cs, c.rest = cs ++ c'.rest ∧ Spells .value cs ∧ Ends cs c'.rest :=
        fun after spells minus digit =>
          ⟨_, split.trans (congrArg (x :: ·) after), spells, ends_of_other minus digit _ _⟩
      have word : ∀ {value letters}, readWord value letters c.tail = (tree, c') →
          rest = letters ++ c'.rest := fun h => behind ▸ readWord_sound h sound
      split at h
      · next same => exact whole (word h) (same ▸ .null) (same ▸ by decide) (same ▸ by decide)
      split at h
      · next same => exact whole (word h) (same ▸ .true) (same ▸ by decide) (same ▸ by decide)
      split at h
      · next same => exact whole (word h) (same ▸ .false) (same ▸ by decide) (same ▸ by decide)
      split at h
      · obtain ⟨number, after, isNumber, ends⟩ := readNumber_sound h sound
        exact ⟨number, after, .number isNumber, ends⟩
      split at h
      · next same =>
          split at h
          · next content past closed =>
              cases h
              obtain ⟨body, after, isRest⟩ := scanString_sound closed
              exact whole (behind ▸ after) (same ▸ .string isRest) (same ▸ by decide)
                (same ▸ by decide)
          · cases h
            cases sound
      split at h
      · next same =>
          cases h
          obtain ⟨blanks, allBlank, after⟩ := next_sound c.tail
          obtain ⟨cs, after', spells⟩ := ih.elements rfl sound
          have isValue := Spells.array allBlank spells
          exact whole (by rw [← behind, after, after', List.append_assoc]) (same ▸ isValue)
            (same ▸ by decide) (same ▸ by decide)
      split at h
      · next same =>
          cases h
          obtain ⟨blanks, allBlank, after⟩ := next_sound c.tail
          obtain ⟨cs, after', spells⟩ := ih.members rfl sound
          have isValue := Spells.object allBlank spells
          exact whole (by rw [← behind, after, after', List.append_assoc]) (same ▸ isValue)
            (same ▸ by decide) (same ▸ by decide)
      · cases h
        cases sound

theorem Sound.readElements {fuel : Nat} (ih : Sound fuel) {first : Bool} {c c' : Cursor}
    {tree : Elements} (h : Located.readElements (fuel + 1) first c = (tree, c'))
    (sound : skipElements tree = none) :
    ∃ cs, c.rest = cs ++ c'.rest ∧ Spells (.elements first) cs := by
  rw [Located.readElements] at h
  split at h
  · cases h
    cases sound
  · next rest split =>
      cases h
      exact ⟨[']'], by rw [split, rest_tail split]; rfl, .endArray⟩
  · next x rest other split =>
      split at h
      · next isFirst =>
          subst isFirst
          obtain ⟨cs, after, spells⟩ := ih.element h sound
          exact ⟨cs, after, .firstElement spells⟩
      · next notFirst =>
          obtain rfl : first = false := by simpa using notFirst
          split at h
          · next same =>
              obtain ⟨blanks, allBlank, after⟩ := next_sound c.tail
              simp only at h
              split at h
              · cases h
                cases sound
              · cases h
                cases sound
              · obtain ⟨cs, after', spells⟩ := ih.element h sound
                refine ⟨_, ?_, .nextElement allBlank spells⟩
                rw [split, same, List.cons_append, List.append_assoc, ← after', ← after,
                  rest_tail split]
          · cases h
            cases sound

theorem Sound.readElement {fuel : Nat} (ih : Sound fuel) {c c' : Cursor} {tree : Elements}
    (h : Located.readElement (fuel + 1) c = (tree, c')) (sound : skipElements tree = none) :
    ∃ cs, c.rest = cs ++ c'.rest ∧ Spells .element cs := by
  rw [Located.readElement] at h
  cases value : Located.readValue fuel c with
  | mk node past =>
      rw [value] at h
      simp only at h
      split at h
      · cases h
        cases sound
      · cases h
        obtain ⟨here, others⟩ := Option.or_eq_none_iff.1 sound
        obtain ⟨v, after, isValue, _⟩ := ih.value value here
        obtain ⟨blanks, allBlank, after'⟩ := next_sound past
        obtain ⟨cs, after'', spells⟩ := ih.elements rfl others
        refine ⟨_, ?_, .element isValue allBlank spells⟩
        rw [after, after', after'', List.append_assoc, List.append_assoc]

theorem Sound.readMembers {fuel : Nat} (ih : Sound fuel) {first : Bool} {c c' : Cursor}
    {tree : Members} (h : Located.readMembers (fuel + 1) first c = (tree, c'))
    (sound : skipMembers tree = none) :
    ∃ cs, c.rest = cs ++ c'.rest ∧ Spells (.members first) cs := by
  rw [Located.readMembers] at h
  split at h
  · cases h
    cases sound
  · next rest split =>
      cases h
      exact ⟨['\x7d'], by rw [split, rest_tail split]; rfl, .endObject⟩
  · next x rest other split =>
      split at h
      · next isFirst =>
          subst isFirst
          split at h
          · next quote =>
              obtain ⟨cs, after, spells⟩ := ih.member h sound (quote ▸ split)
              exact ⟨cs, after, .firstMember spells⟩
          · cases h
            cases sound
      · next notFirst =>
          obtain rfl : first = false := by simpa using notFirst
          split at h
          · next same =>
              obtain ⟨blanks, allBlank, after⟩ := next_sound c.tail
              simp only at h
              split at h
              · cases h
                cases sound
              · next quoted quote =>
                  obtain ⟨cs, after', spells⟩ := ih.member h sound quote
                  refine ⟨_, ?_, .nextMember allBlank spells⟩
                  rw [split, same, List.cons_append, List.append_assoc, ← after', ← after,
                    rest_tail split]
              · cases h
                cases sound
              · cases h
                cases sound
          · cases h
            cases sound

theorem Sound.readMember {fuel : Nat} (ih : Sound fuel) {c c' : Cursor} {tree : Members}
    (h : Located.readMember (fuel + 1) c = (tree, c')) (sound : skipMembers tree = none)
    {quoted : List Char} (split : c.rest = '"' :: quoted) :
    ∃ cs, c.rest = cs ++ c'.rest ∧ Spells .member cs := by
  rw [Located.readMember] at h
  split at h
  · cases h
    cases sound
  · next key past closed =>
      obtain ⟨body, after, isRest⟩ := scanString_sound closed
      obtain ⟨blanks, allBlank, after'⟩ := next_sound past
      simp only at h
      split at h
      · cases h
        cases sound
      · next rest colon =>
          obtain ⟨blanks', allBlank', after''⟩ := next_sound past.next.tail
          cases value : Located.readValue fuel past.next.tail.next with
          | mk node past' =>
              rw [value] at h
              simp only at h
              split at h
              · cases h
                cases sound
              · cases h
                obtain ⟨here, others⟩ := Option.or_eq_none_iff.1 sound
                obtain ⟨v, behind, isValue, _⟩ := ih.value value here
                obtain ⟨blanks'', allBlank'', behind'⟩ := next_sound past'
                obtain ⟨cs, behind'', spells⟩ := ih.members rfl others
                refine ⟨_, ?_, .member isRest allBlank allBlank' isValue allBlank'' spells⟩
                rw [split, ← rest_tail split, after, after', colon, ← rest_tail colon, after'',
                  behind, behind', behind'']
                simp
      · cases h
        cases sound

/-- The reader takes a value of the grammar for a tree without faults, and stops where it ends. -/
theorem reader_sound (fuel : Nat) : Sound fuel := by
  induction fuel with
  | zero => exact sound_zero
  | succ fuel ih =>
      exact ⟨ih.readValue, ih.readElements, ih.readElement, ih.readMembers,
        fun h sound split => ih.readMember h sound split⟩

end JsonText

end ManifestSchema
