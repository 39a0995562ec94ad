import ManifestSchema.Proofs.Diagnostics.Tree

/-!
# What is printed of the scopes

The messages are printed scope by scope on a walk through the tree. What is printed for a scope
depends on the scope and its place in the tree alone; the suppressed paths decide only for which
scopes it is printed.

Results:

1. `Diagnostics.Walk.renderWithin_eq`: what is printed of a part of the tree;
2. `Diagnostics.Walk.perm_messages`: which messages are printed;
3. `Diagnostics.render_blocks`: all that is printed, and what further suppressed paths take away.
-/

namespace ManifestSchema

/-- Blanks in front of a line. -/
def blanks (n : Nat) : String := String.ofList (List.replicate n ' ')

theorem blanks_add_two (n : Nat) : blanks (n + 2) = blanks n ++ "  " := by
  rw [blanks, ← List.replicate_append_replicate, String.ofList_append]
  rfl

/-- What was recorded on a scope: the warnings, and behind them the errors. -/
def Scope.messages (s : Scope) : List String := s.warnings ++ s.errors

namespace Diagnostics

namespace Visit

/-- The blanks in front of the name of a scope, two for each scope around it other than the root. -/
def indent (v : Visit) : Nat := 2 * (v.depth - 1)

/-- The lines of a scope: its name, unless it is the root, and its messages two blanks further in. -/
def lines (v : Visit) : List String :=
  (if v.scope.isRoot then [] else [blanks v.indent ++ v.scope.name]) ++
    v.scope.messages.map fun m => blanks (v.indent + 2) ++ m

/-- The lines of a scope as a text. -/
def text (v : Visit) : String := String.join (v.lines.map fun line => line ++ "\n")

/-- Whether the lines of a scope are printed: its own path is not suppressed, and it has messages. -/
def isShown (suppress : List String) (v : Visit) : Bool :=
  v.scope.path ∉ suppress ∧ v.scope.messages ≠ []

end Visit

variable {d : Diagnostics}

theorem hasIssues_eq (suppress : List String) (v : Visit) :
    v.scope.hasIssues suppress = v.isShown suppress := by
  rw [Bool.eq_iff_iff]
  simp [Scope.hasIssues, Visit.isShown, Scope.messages]

/-- What is printed for a scope, if anything, is its text. -/
theorem blockText_eq (suppress : List String) (v : Visit)
    (unnamed : v.scope.name = "" ↔ v.scope.isRoot = true) :
    blockText suppress false (blanks v.indent) v.scope =
      String.join (([v].filter (Visit.isShown suppress)).map Visit.text) := by
  rw [blockText, hasIssues_eq]
  cases shown : v.isShown suppress with
  | false => simp [shown]
  | true =>
      have title : (if v.scope.name.isEmpty then "" else blanks v.indent ++ v.scope.name ++ "\n") =
          String.join ((if v.scope.isRoot then [] else [blanks v.indent ++ v.scope.name]).map
            fun line => line ++ "\n") := by
        cases isRoot : v.scope.isRoot with
        | true => simp [unnamed.2 isRoot]
        | false =>
            have named : v.scope.name ≠ "" := fun h => by simp [unnamed.1 h] at isRoot
            simp [named]
      have printed : ([v].filter (Visit.isShown suppress)).map Visit.text = [v.text] := by
        simp [shown]
      rw [printed, if_pos rfl, title, Visit.text, Visit.lines, Scope.messages]
      simp only [lineText, blanks_add_two, Bool.false_eq_true, if_false, List.map_append,
        List.map_map, String.join_append, String.join_cons, String.join_nil, String.append_assoc,
        String.append_empty, Function.comp_def]

/-- Scopes inside another one than the root are printed two blanks further in. -/
theorem indent_inside {s : Scope} {depth : Nat} (top : s.isRoot = true ↔ depth = 0) :
    (if s.isRoot then blanks (2 * (depth - 1)) else blanks (2 * (depth - 1)) ++ "  ") =
      blanks (2 * (depth + 1 - 1)) := by
  cases marked : s.isRoot with
  | true =>
      rw [top.1 marked]
      rfl
  | false =>
      have deeper : depth ≠ 0 := fun start => by simp [top.2 start] at marked
      have next : 2 * (depth + 1 - 1) = 2 * (depth - 1) + 2 := by omega
      rw [next, blanks_add_two]
      rfl

/-- What is printed of a part of the tree are the texts of the scopes on the walk through it. -/
theorem Walk.renderWithin_eq (nested : d.Nested) (suppress : List String) {depth : Nat}
    {ids : List Nat} {visits : List Visit} (walk : d.Walk depth ids visits) (levels : Nat)
    (enough : ∀ id ∈ ids, d.scopes.length ≤ id + levels) (top : ∀ id ∈ ids, id = 0 ↔ depth = 0) :
    String.join (ids.map (d.renderWithin suppress false levels (blanks (2 * (depth - 1))))) =
      String.join ((visits.filter (Visit.isShown suppress)).map Visit.text) := by
  induction walk generalizing levels with
  | done => rfl
  | @visit depth id ids s within behind found _ _ ihWithin ihBehind =>
      obtain ⟨enoughHere, enoughBehind⟩ := List.forall_mem_cons.1 enough
      obtain ⟨topHere, topBehind⟩ := List.forall_mem_cons.1 top
      have here := scope?_lt found
      obtain ⟨isRoot, unnamed⟩ := nested.top id s found
      cases levels with
      | zero => exact absurd here (Nat.not_lt.2 enoughHere)
      | succ levels =>
          have inner := indent_inside (isRoot.trans topHere)
          have ahead {c : Nat} (member : c ∈ s.children) := nested.ahead found member
          have inside := ihWithin levels (fun c member => by have := ahead member; omega)
            fun c member => by have := ahead member; omega
          have block : blockText suppress false (blanks (2 * (depth - 1))) s =
              String.join (([⟨depth, id, s⟩].filter (Visit.isShown suppress)).map Visit.text) :=
            blockText_eq suppress ⟨depth, id, s⟩ (unnamed.trans isRoot.symm)
          have parts : (⟨depth, id, s⟩ :: within ++ behind : List Visit) =
            [⟨depth, id, s⟩] ++ within ++ behind := rfl
          rw [List.map_cons, String.join_cons, ihBehind _ enoughBehind topBehind, renderWithin, found]
          simp only [inner, inside, block, parts, List.filter_append, List.map_append,
            String.join_append]

/-! ## All that is printed -/

/-- The scopes on the walk from the root are all scopes. -/
theorem Walk.perm_scopes (nested : d.Nested) {visits : List Visit} (walk : d.Walk 0 [0] visits) :
    (visits.map Visit.scope).Perm d.scopes := by
  have reached : (visits.map Visit.id).map d.scope? = (visits.map Visit.scope).map some := by
    rw [List.map_map, List.map_map]
    exact List.map_congr_left walk.scope?_eq
  have all : (List.range d.scopes.length).map d.scope? = d.scopes.map some :=
    List.ext_getElem (by simp) fun i _ _ => by simp [scope?]
  have same := ((walk.perm_range nested).map d.scope?).filterMap id
  have values (l : List Scope) : (l.map some).filterMap id = l := by
    rw [List.filterMap_map]
    exact List.filterMap_some
  rwa [reached, all, values, values] at same

/-- Where there is no message, none is missing if nothing is printed. -/
theorem messages_shown (suppress : List String) (visits : List Visit) :
    (visits.filter (Visit.isShown suppress)).flatMap (fun v => v.scope.messages) =
      ((visits.map Visit.scope).filter (·.path ∉ suppress)).flatMap Scope.messages := by
  induction visits with
  | nil => rfl
  | cons v rest ih =>
      rw [List.map_cons, List.filter_cons, List.filter_cons]
      by_cases silenced : v.scope.path ∈ suppress
      · simpa [Visit.isShown, silenced] using ih
      · by_cases none : v.scope.messages = []
        · simpa [Visit.isShown, silenced, none] using ih
        · simpa [Visit.isShown, silenced, none] using ih

/-- The messages that are printed are those of the scopes that are not suppressed. -/
theorem Walk.perm_messages (nested : d.Nested) {visits : List Visit} (walk : d.Walk 0 [0] visits)
    (suppress : List String) :
    ((visits.filter (Visit.isShown suppress)).flatMap fun v => v.scope.messages).Perm
      ((d.scopes.filter (·.path ∉ suppress)).flatMap Scope.messages) := by
  rw [messages_shown]
  exact ((walk.perm_scopes nested).filter _).flatMap_right _

/-- Further suppressed paths take away the scopes that have them, and no other. -/
theorem filter_isShown_append (suppress more : List String) (visits : List Visit) :
    visits.filter (Visit.isShown (suppress ++ more)) =
      (visits.filter (Visit.isShown suppress)).filter (·.scope.path ∉ more) := by
  rw [List.filter_filter]
  refine List.filter_congr fun v _ => ?_
  rw [Bool.eq_iff_iff]
  simp only [Visit.isShown, List.mem_append, not_or, decide_eq_true_eq, Bool.and_eq_true]
  rw [and_assoc, and_left_comm]

theorem Walk.render_eq (nested : d.Nested) {visits : List Visit} (walk : d.Walk 0 [0] visits)
    (suppress : List String) :
    d.render suppress false =
      String.join ((visits.filter (Visit.isShown suppress)).map Visit.text) := by
  have all := walk.renderWithin_eq nested suppress d.scopes.length
    (fun id member => Nat.le_add_left _ _) (fun id member => by simpa using member)
  rwa [List.map_singleton, String.join_cons, String.join_nil, String.append_empty] at all

/-- After whatever calls, there is one walk through the scopes. It starts at the root and comes to
each scope once, to those inside a scope in the order in which they were opened; the messages of a
scope are those that were recorded on it, in the order of the calls.

What is printed are the texts of the scopes on the walk that have messages and whose own path is not
suppressed. So it has each message of a scope that is not suppressed as often as the message was
recorded there, and no other. Further suppressed paths take away the texts of the scopes with those
paths, and leave the other texts as they are, and in their order. -/
theorem render_blocks {calls : List Call} (built : Built calls d) :
    ∃ visits : List Visit, d.Walk 0 [0] visits ∧
      (∀ others, d.Walk 0 [0] others → others = visits) ∧
      (visits.map Visit.id).Perm (List.range d.scopes.length) ∧
      (∀ v ∈ visits, (v.scope.isRoot = true ↔ v.id = 0) ∧
        v.scope.children.Pairwise (· < ·) ∧
        v.scope.warnings = calls.filterMap (Call.warningOn? v.id) ∧
        v.scope.errors = calls.filterMap (Call.errorOn? v.id)) ∧
      ∀ suppress : List String,
        d.render suppress false =
          String.join ((visits.filter (Visit.isShown suppress)).map Visit.text) ∧
        ((visits.filter (Visit.isShown suppress)).flatMap fun v => v.scope.messages).Perm
          ((d.scopes.filter (·.path ∉ suppress)).flatMap Scope.messages) ∧
        ∀ more : List String, d.render (suppress ++ more) false =
          String.join (((visits.filter (Visit.isShown suppress)).filter
            (·.scope.path ∉ more)).map Visit.text) := by
  have nested := built.nested
  obtain ⟨visits, walk⟩ := nested.exists_walk d.scopes.length 0 [0] fun id member =>
    ⟨List.mem_singleton.1 member ▸ nested.nonempty, Nat.le_add_left _ _⟩
  refine ⟨visits, walk, fun others => walk.unique, walk.perm_range nested, fun v member => ?_,
    fun suppress => ⟨walk.render_eq nested suppress, walk.perm_messages nested suppress,
      fun more => ?_⟩⟩
  · have found := walk.scope?_eq v member
    exact ⟨(nested.top v.id v.scope found).1, nested.ordered v.id v.scope found,
      built.messages found⟩
  · rw [walk.render_eq nested, filter_isShown_append]

/-- A shop with a till in it, and a drawer in the till: a warning about the shop, and both kinds of
messages about the drawer. -/
def shopCalls : List Call :=
  [.child 0 "resource" "Shop", .child 1 "interface" "Till", .child 2 "interface" "Drawer",
    .error 3 "stuck", .warn 1 "closed", .warn 3 "empty"]

/-- The scopes after these calls. -/
def shopScopes : Diagnostics := shopCalls.foldl make empty

theorem shopCalls_built : Built shopCalls shopScopes :=
  .make (.warn 3 "empty")
    (.make (.warn 1 "closed")
      (.make (.error 3 "stuck")
        (.make (.child 2 "interface" "Drawer")
          (.make (.child 1 "interface" "Till")
            (.make (.child 0 "resource" "Shop") .empty (by decide)) (by decide)) (by decide))
        (by decide))
      (by decide))
    (by decide)

/-- Where the shop is suppressed, the drawer is still printed, as far to the right as before. -/
theorem render_blocks_drawer : Built shopCalls shopScopes ∧
    shopScopes.render ["resource.Shop"] false =
      "    [interface \"Drawer\"]\n      empty\n      stuck\n" ∧
    ∃ visits : List Visit, shopScopes.Walk 0 [0] visits ∧
      (visits.map Visit.id).Perm (List.range 4) := by
  obtain ⟨visits, walk, _, each, _, printed⟩ := render_blocks shopCalls_built
  exact ⟨shopCalls_built, by decide +kernel, visits, walk, each⟩

end Diagnostics

end ManifestSchema
