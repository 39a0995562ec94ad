import ManifestSchema.Proofs.Dict
import ManifestSchema.Proofs.TomlText.Values

/-!
# Documents that are printed and read

A document of tables is read line by line: a header opens a table behind those that are complete, a
pair adds to the table that was opened last, and blank lines are passed over.

Results:

1. `Toml.readKey_bare`: a key that needs no quotes;
2. `Toml.Reads.header`, `Toml.Reads.pair` and `Toml.Reads.blank`: the three forms of a line;
3. `Toml.ofText?_documentText`: a document that is printed is read as the tables that it shows.
-/

namespace ManifestSchema

namespace Toml

/-! ## Keys -/

/-- A key that needs no quotes. -/
structure BareKey (key : String) : Prop where
  nonempty : key.toList ≠ []
  all : ∀ c ∈ key.toList, inBareKey c = true

instance (key : String) : Decidable (BareKey key) :=
  decidable_of_iff (key.toList ≠ [] ∧ key.toList.all inBareKey = true)
    ⟨fun h => ⟨h.1, List.all_eq_true.1 h.2⟩, fun h => ⟨h.nonempty, List.all_eq_true.2 h.all⟩⟩

theorem inBareKey_ink {c : Char} (bare : inBareKey c = true) : isInk c = true := by
  have other {x : Char} (h : inBareKey x = false) : c ≠ x := by
    rintro rfl
    exact Bool.false_ne_true (h.symm.trans bare)
  have blank : isBlank c = false := by
    simp [isBlank, other (x := ' ') rfl, other (x := '\t') rfl]
  simp [isInk, blank, other (x := '\n') rfl, other (x := '\r') rfl, other (x := '#') rfl]

theorem BareKey.head {key : String} (bare : BareKey key) :
    ∃ c rest, key.toList = c :: rest ∧ inBareKey c = true := by
  obtain ⟨c, rest, split⟩ := List.exists_cons_of_ne_nil bare.nonempty
  exact ⟨c, rest, split, bare.all c (split ▸ List.mem_cons_self)⟩

theorem takeWhile_bare {cs : List Char} (all : ∀ c ∈ cs, inBareKey c = true) {d : Char}
    (stop : inBareKey d = false) (t : List Char) : (cs ++ d :: t).takeWhile inBareKey = cs := by
  rw [List.takeWhile_append_of_pos all, List.takeWhile_cons, stop]
  exact List.append_nil cs

theorem readKeyPart_bare {key : String} (bare : BareKey key) {d : Char}
    (stop : inBareKey d = false) (t : List Char) :
    readKeyPart (key.toList ++ d :: t) = some (key, d :: t) := by
  have part := takeWhile_bare bare.all stop t
  obtain ⟨c, rest, split, first⟩ := bare.head
  unfold readKeyPart
  split
  · next same =>
      rw [split, List.cons_append] at same
      rw [(List.cons.inj same).1] at first
      exact absurd first (by decide)
  · next same =>
      rw [split, List.cons_append] at same
      rw [(List.cons.inj same).1] at first
      exact absurd first (by decide)
  · rw [part]
    simp [bare.nonempty]

/-- A key is read up to what follows the blanks behind it, unless that is a point. -/
theorem readKey_bare {key : String} (bare : BareKey key) {d : Char} (stop : inBareKey d = false)
    {t : List Char} {x : Char} {behind : List Char} (next : dropBlanks (d :: t) = x :: behind)
    (single : x ≠ '.') : readKey (key.toList ++ d :: t) = some ([key], x :: behind) := by
  obtain ⟨c, rest, split, first⟩ := bare.head
  have start : dropBlanks (key.toList ++ d :: t) = key.toList ++ d :: t := by
    rw [split]
    exact dropBlanks_ink (inBareKey_ink first) _
  have steps : (key.toList ++ d :: t).length = (rest.length + 1 + t.length) + 1 := by
    rw [split]
    simp only [List.length_append, List.length_cons]
    omega
  rw [readKey, steps, readKeyParts, start, readKeyPart_bare bare stop]
  simp only [Option.bind_eq_bind, Option.bind_some, next]
  split
  · next same => exact absurd (List.cons.inj same).1 single
  · rfl

/-! ## Tables that are being read -/

namespace Entry

/-- A pair that has been read. -/
def node (e : String × Entry) : String × Node := (e.1, .closed e.2.value)

end Entry

/-- The tables after the lines of some sections have been read. -/
def nodes (sections : Dict (Dict Entry)) : Nodes :=
  sections.map fun s => (s.1, .table false false (s.2.map Entry.node))

/-- The value of a section. -/
def sectionValue (entries : Dict Entry) : Toml := .table (entries.map fun e => (e.1, e.2.value))

theorem finishAll_entries (entries : Dict Entry) :
    Node.finishAll (entries.map Entry.node) = entries.map fun e => (e.1, e.2.value) := by
  induction entries with
  | nil => rfl
  | cons e entries ih => rw [List.map_cons, Entry.node, Node.finishAll, ih]; rfl

theorem finishAll_nodes (sections : Dict (Dict Entry)) :
    Node.finishAll (nodes sections) = sections.map fun s => (s.1, sectionValue s.2) := by
  induction sections with
  | nil => rfl
  | cons s sections ih =>
      rw [nodes, List.map_cons, Node.finishAll, Node.finish, finishAll_entries]
      rw [nodes] at ih
      rw [ih]
      rfl

theorem keys_nodes (sections : Dict (Dict Entry)) : Dict.keys (nodes sections) = sections.keys :=
  List.map_map

theorem nodes_concat (done : Dict (Dict Entry)) (name : String) (entries : Dict Entry) :
    nodes (done ++ [(name, entries)]) =
      nodes done ++ [(name, .table false false (entries.map Entry.node))] := List.map_append

/-- A header opens a table behind those that are complete. -/
theorem openTable_new {done : Dict (Dict Entry)} {name : String} (new : name ∉ done.keys) :
    Node.openTable [] name (nodes done) = some (nodes (done ++ [(name, [])])) := by
  have absent : Dict.find? (nodes done) name = none :=
    Dict.find?_eq_none_iff.2 (keys_nodes done ▸ new)
  rw [Node.openTable, Node.within, absent, nodes_concat]
  rfl

theorem missing_of_distinct {α : Type} {d e : Dict α} {p : String × α}
    (distinct : Dict.Distinct (d ++ p :: e)) : p.1 ∉ d.keys := by
  rw [Dict.Distinct, Dict.keys_append, List.nodup_append] at distinct
  exact fun member => distinct.2.2 p.1 member p.1 List.mem_cons_self rfl

theorem insert_last {α : Type} {d : Dict α} {key : String} (missing : key ∉ d.keys) (a b : α) :
    Dict.insert (d ++ [(key, a)]) key b = d ++ [(key, b)] := by
  induction d with
  | nil => exact if_pos rfl
  | cons p d ih =>
      obtain ⟨other, missing⟩ := not_or.1 (mt List.mem_cons.2 missing)
      rw [List.cons_append, Dict.insert, if_neg (Ne.symm other), ih missing]
      rfl

/-- A pair goes into the table that was opened last. -/
theorem addValue_last {done : Dict (Dict Entry)} {name : String} (new : name ∉ done.keys)
    {entries : Dict Entry} {e : String × Entry} (fresh : e.1 ∉ entries.keys) :
    Node.within false (fun _ inner => Node.addValue [] e.1 e.2.value false inner) [name] false
      (nodes (done ++ [(name, entries)])) = some (nodes (done ++ [(name, entries ++ [e])])) := by
  have missing : name ∉ Dict.keys (nodes done) := keys_nodes done ▸ new
  have absent : Dict.find? (nodes done) name = none := Dict.find?_eq_none_iff.2 missing
  have keys : Dict.keys (entries.map Entry.node) = entries.keys := List.map_map
  have unused : Dict.contains (entries.map Entry.node) e.1 = false := by
    rw [Dict.contains, Dict.find?_eq_none_iff.2 (keys ▸ fresh)]
    rfl
  have last : Dict.find? (nodes (done ++ [(name, entries)])) name =
      some (.table false false (entries.map Entry.node)) := by
    rw [nodes_concat, Dict.find?_append, absent, Dict.find?_cons, if_pos rfl]
    rfl
  have added : Node.addValue [] e.1 e.2.value false (entries.map Entry.node) =
      some ((entries ++ [e]).map Entry.node) := by
    rw [Node.addValue, Node.within, unused, List.map_append]
    rfl
  rw [Node.within, last]
  simp only [Bool.false_and, Bool.false_eq_true, if_false, Node.within, added]
  rw [nodes_concat, nodes_concat]
  exact congrArg some (insert_last missing _ _)

/-! ## Lines -/

/-- Whatever the number of steps, a text is read as further lines of a draft, which is `entries`
afterwards. -/
def Reads (d : Draft) (text : List Char) (entries : Nodes) : Prop :=
  ∀ steps, text.length ≤ steps → (readAll steps d text).map Draft.entries = some entries

theorem Reads.nil (d : Draft) : Reads d [] d.entries := by
  intro steps _
  cases steps <;> rfl

theorem Reads.line {d d' : Draft} {c : Char} {rest t : List Char} {entries : Nodes}
    (ink : isInk c = true)
    (read : (if c = '[' then readHeader d rest else readPair d (c :: rest)) = some (d', '\n' :: t))
    (shorter : t.length ≤ rest.length) (behind : Reads d' t entries) :
    Reads d (c :: rest) entries := by
  intro steps enough
  obtain ⟨steps, rfl⟩ := Nat.exists_eq_succ_of_ne_zero (Nat.ne_zero_of_lt enough)
  have inked := ink
  simp only [isInk, Bool.and_eq_true, Bool.not_eq_true', decide_eq_true_eq] at inked
  obtain ⟨⟨⟨_, line⟩, carriage⟩, comment⟩ := inked
  have content : ¬(c = '#' ∨ (lineEnd? (c :: rest)).isSome = true) := by
    simp [comment, lineEnd?_ink line carriage]
  rw [readAll, dropBlanks_ink ink]
  dsimp only
  · rw [if_neg content, read]
    exact behind steps (by simp only [List.length_cons] at enough; omega)
  · exact List.cons_ne_nil c rest

theorem Reads.blank {d : Draft} {t : List Char} {entries : Nodes} (behind : Reads d t entries) :
    Reads d ('\n' :: t) entries := by
  intro steps enough
  obtain ⟨steps, rfl⟩ := Nat.exists_eq_succ_of_ne_zero (Nat.ne_zero_of_lt enough)
  rw [readAll]
  · exact behind steps (Nat.le_of_succ_le_succ enough)
  · exact List.cons_ne_nil _ _

theorem Reads.header {done : Dict (Dict Entry)} {header : List String} {name : String}
    (bare : BareKey name) (new : name ∉ done.keys) {t : List Char} {entries : Nodes}
    (behind : Reads ⟨nodes (done ++ [(name, [])]), [name]⟩ t entries) :
    Reads ⟨nodes done, header⟩ ('[' :: (name.toList ++ ']' :: '\n' :: t)) entries := by
  refine .line rfl ?_ (by simp; omega) behind
  have key := readKey_bare bare (d := ']') rfl (t := '\n' :: t) rfl (by decide)
  obtain ⟨c, rest, split, first⟩ := bare.head
  rw [if_pos rfl]
  unfold readHeader
  split
  · next same =>
      rw [split, List.cons_append] at same
      rw [(List.cons.inj same).1] at first
      exact absurd first (by decide)
  · rw [key]
    simp [expect, splitKey, openTable_new new]

theorem Entry.print_head (e : Entry) : ∃ c rest, e.print.toList = c :: rest ∧ isInk c = true := by
  cases e with
  | text s =>
      obtain ⟨q, text, split, quote⟩ := stringText_head s
      exact ⟨q, text, split, by rcases quote with rfl | rfl <;> rfl⟩
  | number n =>
      have text : (Entry.number n).print.toList = Nat.toDigits 10 n := Nat.toList_repr
      obtain ⟨d, ds, split⟩ := List.exists_cons_of_ne_nil (Nat.toDigits_ne_nil (n := n) (b := 10))
      have digit := digits_isDigit n d (split ▸ List.mem_cons_self)
      refine ⟨d, ds, text.trans split, inBareKey_ink ?_⟩
      simp [inBareKey, Char.isAlphanum, digit]
  | flag b => cases b <;> exact ⟨_, _, rfl, by decide⟩
  | texts values =>
      rcases values with _ | ⟨a, _ | ⟨b, values⟩⟩
      · exact ⟨'[', _, rfl, rfl⟩
      · exact ⟨'[', (stringText a).toList ++ [']'], by simp [Entry.print, textsText], rfl⟩
      · exact ⟨'[', _, toList_textsText _ (by simp), rfl⟩

theorem readPair_print {d : Draft} {e : String × Entry} (bare : BareKey e.1) (fits : e.2.inRange)
    {t : List Char} {entries : Nodes}
    (added : Node.within false (fun _ inner => Node.addValue [] e.1 e.2.value false inner) d.header
      false d.entries = some entries) :
    readPair d (e.1.toList ++ ' ' :: '=' :: ' ' :: (e.2.print.toList ++ '\n' :: t)) =
      some (⟨entries, d.header⟩, '\n' :: t) := by
  have key := readKey_bare bare (d := ' ') rfl
    (t := '=' :: ' ' :: (e.2.print.toList ++ '\n' :: t)) rfl (by decide)
  obtain ⟨c, rest, split, ink⟩ := e.2.print_head
  have start : dropBlanks (' ' :: (e.2.print.toList ++ '\n' :: t)) =
      e.2.print.toList ++ '\n' :: t := by
    rw [split]
    exact dropBlanks_ink ink _
  have enough : e.2.print.toList.length <
      2 * (e.1.toList ++ ' ' :: '=' :: ' ' :: (e.2.print.toList ++ '\n' :: t)).length + 2 := by
    simp only [List.length_append, List.length_cons]
    omega
  have value := readValue_print fits enough t
  rw [readPair, key]
  simp only [Option.bind_eq_bind, Option.bind_some, expect, if_true, start, value]
  rw [show splitKey [e.1] = ([], e.1) from rfl, added]
  rfl

theorem Reads.pair {done : Dict (Dict Entry)} {name : String} (new : name ∉ done.keys)
    {entries : Dict Entry} {e : String × Entry} (bare : BareKey e.1) (fresh : e.1 ∉ entries.keys)
    (fits : e.2.inRange) {t : List Char} {result : Nodes}
    (behind : Reads ⟨nodes (done ++ [(name, entries ++ [e])]), [name]⟩ t result) :
    Reads ⟨nodes (done ++ [(name, entries)]), [name]⟩
      (e.1.toList ++ ' ' :: '=' :: ' ' :: (e.2.print.toList ++ '\n' :: t)) result := by
  have read := readPair_print (d := ⟨nodes (done ++ [(name, entries)]), [name]⟩) bare fits (t := t)
    (addValue_last new fresh)
  obtain ⟨c, rest, split, first⟩ := bare.head
  have other : c ≠ '[' := by
    rintro rfl
    exact absurd first (by decide)
  rw [split, List.cons_append] at read ⊢
  refine .line (inBareKey_ink first) ((if_neg other).trans read) ?_ behind
  simp only [List.length_append, List.length_cons]
  omega

/-! ## Documents -/

/-- Keys and values that can be printed. -/
structure Printable (entries : Dict Entry) : Prop where
  distinct : entries.Distinct
  bare : ∀ e ∈ entries, BareKey e.1
  inRange : ∀ e ∈ entries, e.2.inRange

/-- The lines of pairs. -/
def pairLines (entries : Dict Entry) : List Char :=
  entries.flatMap fun e => e.1.toList ++ ' ' :: '=' :: ' ' :: (e.2.print.toList ++ ['\n'])

theorem toList_sectionText (name : String) (entries : Dict Entry) :
    (sectionText name entries).toList =
      '[' :: (name.toList ++ ']' :: '\n' :: pairLines entries) := by
  simp [sectionText, pairLines, String.toList_join, List.flatMap_map]

theorem reads_pairLines {done : Dict (Dict Entry)} {name : String} (new : name ∉ done.keys)
    (read : Dict Entry) {entries : Dict Entry} (printable : Printable (read ++ entries))
    {t : List Char} {result : Nodes} (behind : Reads ⟨nodes (done ++ [(name, read ++ entries)]), [name]⟩ t result) :
    Reads ⟨nodes (done ++ [(name, read)]), [name]⟩ (pairLines entries ++ t) result := by
  induction entries generalizing read with
  | nil => rwa [List.append_nil] at behind
  | cons e entries ih =>
      have member : e ∈ read ++ e :: entries := List.mem_append_right _ List.mem_cons_self
      have fresh : e.1 ∉ read.keys := missing_of_distinct printable.distinct
      have split : read ++ e :: entries = (read ++ [e]) ++ entries := by simp
      have line : pairLines (e :: entries) ++ t =
          e.1.toList ++ ' ' :: '=' :: ' ' ::
            (e.2.print.toList ++ '\n' :: (pairLines entries ++ t)) := by
        simp [pairLines]
      rw [line]
      refine .pair new (printable.bare e member) fresh (printable.inRange e member) ?_
      exact ih (read ++ [e]) (split ▸ printable) (split ▸ behind)

theorem documentText_cons (s : String × Dict Entry) (sections : Dict (Dict Entry)) :
    (documentText (s :: sections)).toList = (sectionText s.1 s.2).toList ++
      (if sections = [] then [] else '\n' :: (documentText sections).toList) := by
  cases sections with
  | nil => simp [documentText]
  | cons s' sections => simp [documentText]

theorem reads_sections {done sections : Dict (Dict Entry)} {header : List String}
    (distinct : Dict.Distinct (done ++ sections))
    (printable : ∀ s ∈ sections, BareKey s.1 ∧ Printable s.2) :
    Reads ⟨nodes done, header⟩ (documentText sections).toList (nodes (done ++ sections)) := by
  induction sections generalizing done header with
  | nil =>
      rw [List.append_nil]
      exact .nil _
  | cons s sections ih =>
      obtain ⟨⟨bare, entries⟩, printable⟩ := List.forall_mem_cons.1 printable
      have new : s.1 ∉ done.keys := missing_of_distinct distinct
      have split : done ++ s :: sections = (done ++ [s]) ++ sections := by simp
      have behind : Reads ⟨nodes (done ++ [s]), [s.1]⟩
          (if sections = [] then [] else '\n' :: (documentText sections).toList)
          (nodes (done ++ s :: sections)) := by
        have others := @ih (done ++ [s]) [s.1] (split ▸ distinct) printable
        by_cases last : sections = []
        · rw [if_pos last, last]
          exact .nil _
        · rw [if_neg last, split]
          exact others.blank
      rw [documentText_cons, toList_sectionText, List.cons_append, List.append_assoc]
      exact .header bare new (reads_pairLines new [] entries behind)

/-- A document that is printed is read as the tables that it shows. -/
theorem ofText?_documentText {sections : Dict (Dict Entry)} (distinct : sections.Distinct)
    (printable : ∀ s ∈ sections, BareKey s.1 ∧ Printable s.2) :
    ofText? (documentText sections) = some (sections.map fun s => (s.1, sectionValue s.2)) := by
  have read := @reads_sections [] sections [] distinct printable
    ((documentText sections).toList.length + 1) (Nat.le_succ _)
  have unmarked (rest : List Char) : (documentText sections).toList ≠ '\uFEFF' :: rest := by
    cases sections with
    | nil => simp [documentText]
    | cons s sections =>
        rw [documentText_cons, toList_sectionText]
        exact fun same => absurd (List.cons.inj same).1 (by decide)
  obtain ⟨draft, finished, entries⟩ := Option.map_eq_some_iff.1 read
  have whole : (readAll ((documentText sections).toList.length + 1) ⟨[], []⟩
      (documentText sections).toList).map (fun d => Node.finishAll d.entries) =
      some (sections.map fun s => (s.1, sectionValue s.2)) := by
    rw [show (⟨[], []⟩ : Draft) = ⟨nodes [], []⟩ from rfl, finished, Option.map_some, entries,
      List.nil_append, finishAll_nodes]
  unfold ofText?
  split
  · next same => exact absurd same (unmarked _)
  · exact whole

end Toml

end ManifestSchema
