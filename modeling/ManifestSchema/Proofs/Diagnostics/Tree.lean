import ManifestSchema.Proofs.Diagnostics

/-!
# The tree of scopes

Scopes are opened and written to by their numbers. However this is done, the numbers of the scopes
inside each scope make one tree of them: a scope other than the root is inside one other scope, which
was opened before it.

Results:

1. `Diagnostics.Built.messages`: which messages a scope has, after whatever calls;
2. `Diagnostics.Built.nested`: what holds of the numbers, after whatever calls;
3. `Diagnostics.Nested.exists_walk` and `Diagnostics.Walk.unique`: the tree can be walked through,
   depth first, and in one way only;
4. `Diagnostics.Walk.perm_range`: the walk from the root comes to each scope once;
5. `Diagnostics.Walk.preorder_eq`: the walk from the root is what is listed.
-/

namespace ManifestSchema

namespace Diagnostics

/-! ## Opening and recording -/

/-- A call that writes to the scopes: one is opened inside another one, or a message is recorded on
one. -/
inductive Call where
  | child (parent : Nat) (kind identifier : String)
  | warn (id : Nat) (message : String)
  | error (id : Nat) (message : String)
deriving DecidableEq

namespace Call

/-- The scope that has to be there for a call. -/
def scope : Call → Nat
  | .child parent _ _ => parent
  | .warn id _ => id
  | .error id _ => id

/-- The warning, if any, that a call records on a scope. -/
def warningOn? (id : Nat) : Call → Option String
  | .warn other message => if other = id then some message else none
  | _ => none

/-- The error, if any, that a call records on a scope. -/
def errorOn? (id : Nat) : Call → Option String
  | .error other message => if other = id then some message else none
  | _ => none

end Call

/-- What a call makes of the scopes. -/
def make (d : Diagnostics) : Call → Diagnostics
  | .child parent kind identifier => (d.child parent kind identifier).2
  | .warn id message => d.warn id message
  | .error id message => d.error id message

/-- `Built calls d`: the scopes that some calls, one after the other, make of the root alone. Each is
about a scope that is there. -/
inductive Built : List Call → Diagnostics → Prop
  | empty : Built [] empty
  | make {calls : List Call} {d : Diagnostics} (next : Call) :
      Built calls d → next.scope < d.scopes.length → Built (calls ++ [next]) (d.make next)

variable {d : Diagnostics}

theorem scope?_lt {id : Nat} {s : Scope} (found : d.scope? id = some s) : id < d.scopes.length :=
  (List.getElem?_eq_some_iff.1 found).1

/-- Where one scope gains something, each scope was there before. -/
theorem scope?_gain {scope id : Nat} {w e : List String} {inside : List Nat} {s : Scope}
    (found : scope? ⟨d.scopes.modify scope (Scope.gain w e inside)⟩ id = some s) :
    ∃ s', d.scope? id = some s' ∧ s = s'.gain (if scope = id then w else [])
      (if scope = id then e else []) (if scope = id then inside else []) := by
  rw [scope?, List.getElem?_modify] at found
  obtain ⟨s', there, rfl⟩ := Option.map_eq_some_iff.1 found
  refine ⟨s', there, ?_⟩
  split
  · rfl
  · rw [Scope.gain_nothing]
    rfl

/-- A scope that is there after one was opened was there before, or is the one that was opened. -/
theorem scope?_child {parent id : Nat} {kind identifier : String} {s : Scope}
    (found : (d.child parent kind identifier).2.scope? id = some s) :
    (∃ s', d.scope? id = some s' ∧
        s = s'.gain [] [] (if parent = id then [d.scopes.length] else [])) ∨
      id = d.scopes.length ∧ s = ⟨Scope.nameOf kind identifier,
        ((d.scope? parent).getD .root).pathInside kind identifier, false, [], [], []⟩ := by
  rw [child, ← Scope.gain_children, scope?, List.getElem?_append, List.length_modify] at found
  split at found
  · obtain ⟨s', there, gained⟩ := scope?_gain found
    exact .inl ⟨s', there, by simpa only [ite_self] using gained⟩
  · next new =>
      have last : id - d.scopes.length = 0 := Nat.lt_one_iff.1 (List.getElem?_eq_some_iff.1 found).1
      rw [last] at found
      cases found
      exact .inr ⟨by omega, rfl⟩

theorem length_child (d : Diagnostics) (parent : Nat) (kind identifier : String) :
    (d.child parent kind identifier).2.scopes.length = d.scopes.length + 1 := by
  simp [child]

theorem Built.scope_lt {calls : List Call} (built : Built calls d) :
    ∀ c ∈ calls, c.scope < d.scopes.length := by
  induction built with
  | empty => exact fun c member => absurd member List.not_mem_nil
  | @make calls d next _ here ih =>
      have grows : d.scopes.length ≤ (d.make next).scopes.length := by
        cases next with
        | child parent kind identifier =>
            exact Nat.le_of_lt (length_child d parent kind identifier ▸ Nat.lt_succ_self _)
        | warn id message => exact Nat.le_of_eq (List.length_modify ..).symm
        | error id message => exact Nat.le_of_eq (List.length_modify ..).symm
      intro c member
      rcases List.mem_append.1 member with member | member
      · exact Nat.lt_of_lt_of_le (ih c member) grows
      · rw [List.mem_singleton.1 member]
        exact Nat.lt_of_lt_of_le here grows

/-- Calls about other scopes record nothing on a scope. -/
theorem filterMap_of_others {calls : List Call} {id : Nat} (others : ∀ c ∈ calls, c.scope ≠ id) :
    calls.filterMap (Call.warningOn? id) = [] ∧ calls.filterMap (Call.errorOn? id) = [] := by
  refine ⟨List.filterMap_eq_nil_iff.2 fun c member => ?_,
    List.filterMap_eq_nil_iff.2 fun c member => ?_⟩
  · cases c with
    | warn => exact if_neg (others _ member)
    | child | error => rfl
  · cases c with
    | error => exact if_neg (others _ member)
    | child | warn => rfl

/-- The messages of a scope are those that were recorded on it, in the order of the calls. -/
theorem Built.messages {calls : List Call} (built : Built calls d) {id : Nat} {s : Scope}
    (found : d.scope? id = some s) :
    s.warnings = calls.filterMap (Call.warningOn? id) ∧
      s.errors = calls.filterMap (Call.errorOn? id) := by
  induction built generalizing s with
  | empty =>
      cases id with
      | zero =>
          cases found
          exact ⟨rfl, rfl⟩
      | succ id => cases found
  | @make calls d next built _ ih =>
      simp only [List.filterMap_append]
      cases next with
      | child parent kind identifier =>
          rcases scope?_child found with ⟨s', there, rfl⟩ | ⟨rfl, rfl⟩
          · obtain ⟨warnings, errors⟩ := ih there
            rw [← warnings, ← errors]
            exact ⟨rfl, rfl⟩
          · -- nothing was recorded on the scope before it was opened
            have before (c : Call) (member : c ∈ calls) : c.scope ≠ d.scopes.length :=
              Nat.ne_of_lt (built.scope_lt c member)
            obtain ⟨warnings, errors⟩ := filterMap_of_others before
            rw [warnings, errors]
            exact ⟨rfl, rfl⟩
      | warn other message =>
          rw [Diagnostics.make, warn, ← Scope.gain_warnings] at found
          obtain ⟨s', there, rfl⟩ := scope?_gain found
          obtain ⟨warnings, errors⟩ := ih there
          rw [← warnings, ← errors]
          by_cases same : other = id
          · simp [same, Scope.gain, Call.warningOn?, Call.errorOn?]
          · simp [same, Scope.gain, Call.warningOn?, Call.errorOn?]
      | error other message =>
          rw [Diagnostics.make, error, ← Scope.gain_errors] at found
          obtain ⟨s', there, rfl⟩ := scope?_gain found
          obtain ⟨warnings, errors⟩ := ih there
          rw [← warnings, ← errors]
          by_cases same : other = id
          · simp [same, Scope.gain, Call.warningOn?, Call.errorOn?]
          · simp [same, Scope.gain, Call.warningOn?, Call.errorOn?]

/-! ## The numbers of the scopes -/

/-- The numbers of the scopes make a tree.

* `top`: the root, and no other scope, is marked as one and has no name.
* `inside`: the scopes inside a scope are there, and the root is not among them.
* `around`: another scope than the root is inside one scope, which has a smaller number.
* `ordered`: the scopes inside a scope stand in the order in which they were opened. -/
structure Nested (d : Diagnostics) : Prop where
  nonempty : 0 < d.scopes.length
  top : ∀ id s, d.scope? id = some s → (s.isRoot = true ↔ id = 0) ∧ (s.name = "" ↔ id = 0)
  inside : ∀ id s, d.scope? id = some s → ∀ c ∈ s.children, 0 < c ∧ c < d.scopes.length
  around : ∀ c, 0 < c → c < d.scopes.length →
    ∃ p < c, ∀ id s, d.scope? id = some s → (c ∈ s.children ↔ id = p)
  ordered : ∀ id s, d.scope? id = some s → s.children.Pairwise (· < ·)

theorem nested_empty : empty.Nested where
  nonempty := Nat.one_pos
  top id s found := by
    cases id with
    | zero =>
        cases found
        decide
    | succ id => cases found
  inside id s found := by
    cases id with
    | zero =>
        cases found
        exact fun c member => absurd member List.not_mem_nil
    | succ id => cases found
  around c positive here := absurd here (Nat.not_lt.2 positive)
  ordered id s found := by
    cases id with
    | zero =>
        cases found
        exact List.Pairwise.nil
    | succ id => cases found

/-- Messages that are recorded leave the tree as it is. -/
theorem Nested.record (nested : d.Nested) (scope : Nat) (w e : List String) :
    Nested ⟨d.scopes.modify scope (Scope.gain w e [])⟩ := by
  have length : (d.scopes.modify scope (Scope.gain w e [])).length = d.scopes.length :=
    List.length_modify ..
  have there {id : Nat} {s : Scope}
      (found : scope? ⟨d.scopes.modify scope (Scope.gain w e [])⟩ id = some s) :
      ∃ s', d.scope? id = some s' ∧
        s'.isRoot = s.isRoot ∧ s'.name = s.name ∧ s'.children = s.children := by
    obtain ⟨s', there, rfl⟩ := scope?_gain found
    exact ⟨s', there, rfl, rfl, by simp [Scope.gain]⟩
  refine ⟨?_, fun id s found => ?_, fun id s found => ?_, fun c positive known => ?_,
    fun id s found => ?_⟩
  · exact length ▸ nested.nonempty
  · obtain ⟨s', there, isRoot, name, _⟩ := there found
    rw [← isRoot, ← name]
    exact nested.top id s' there
  · obtain ⟨s', there, _, _, children⟩ := there found
    rw [← children, length]
    exact nested.inside id s' there
  · obtain ⟨p, smaller, only⟩ := nested.around c positive (length ▸ known)
    refine ⟨p, smaller, fun id s found => ?_⟩
    obtain ⟨s', there, _, _, children⟩ := there found
    rw [← children]
    exact only id s' there
  · obtain ⟨s', there, _, _, children⟩ := there found
    rw [← children]
    exact nested.ordered id s' there

theorem nameOf_ne_empty (kind identifier : String) : Scope.nameOf kind identifier ≠ "" := by
  intro empty
  have shape := congrArg String.toList empty
  simp [Scope.nameOf] at shape

/-- What is inside a scope after one was opened. -/
theorem mem_children_gain {s : Scope} {parent id opened c : Nat} :
    c ∈ (s.gain [] [] (if parent = id then [opened] else [])).children ↔
      c ∈ s.children ∨ parent = id ∧ c = opened := by
  simp [Scope.gain]

/-- A scope that is opened is a leaf of the tree. -/
theorem Nested.child (nested : d.Nested) {parent : Nat} (here : parent < d.scopes.length)
    (kind identifier : String) : (d.child parent kind identifier).2.Nested := by
  have length := length_child d parent kind identifier
  have root : d.scopes.length ≠ 0 := Nat.ne_of_gt nested.nonempty
  refine ⟨?_, fun id s found => ?_, fun id s found => ?_, fun c positive known => ?_,
    fun id s found => ?_⟩
  · rw [length]
    exact Nat.succ_pos _
  · rcases scope?_child found with ⟨s', there, rfl⟩ | ⟨rfl, rfl⟩
    · exact nested.top id s' there
    · exact ⟨iff_of_false Bool.false_ne_true root, iff_of_false (nameOf_ne_empty _ _) root⟩
  · rw [length]
    rcases scope?_child found with ⟨s', there, rfl⟩ | ⟨rfl, rfl⟩
    · intro c member
      rcases mem_children_gain.1 member with old | ⟨_, rfl⟩
      · have known := nested.inside id s' there c old
        exact ⟨known.1, Nat.lt_succ_of_lt known.2⟩
      · exact ⟨nested.nonempty, Nat.lt_succ_self _⟩
    · exact fun c member => absurd member List.not_mem_nil
  · rw [length] at known
    rcases Nat.lt_succ_iff_lt_or_eq.1 known with old | rfl
    · -- an old scope is where it was, since the one that was added has another number
      obtain ⟨p, smaller, only⟩ := nested.around c positive old
      refine ⟨p, smaller, fun id s found => ?_⟩
      rcases scope?_child found with ⟨s', there, rfl⟩ | ⟨rfl, rfl⟩
      · rw [mem_children_gain, or_iff_left fun added => Nat.ne_of_lt old added.2]
        exact only id s' there
      · exact iff_of_false List.not_mem_nil (Nat.ne_of_gt (Nat.lt_trans smaller old))
    · refine ⟨parent, here, fun id s found => ?_⟩
      rcases scope?_child found with ⟨s', there, rfl⟩ | ⟨rfl, rfl⟩
      · have new : d.scopes.length ∉ s'.children :=
          fun member => Nat.lt_irrefl _ (nested.inside id s' there _ member).2
        rw [mem_children_gain, or_iff_right new, and_iff_left rfl, eq_comm]
      · exact iff_of_false List.not_mem_nil (Nat.ne_of_gt here)
  · rcases scope?_child found with ⟨s', there, rfl⟩ | ⟨rfl, rfl⟩
    · refine List.pairwise_append.2 ⟨nested.ordered id s' there, ?_, fun c member n added => ?_⟩
      · split
        · exact List.pairwise_singleton _ _
        · exact List.Pairwise.nil
      · rw [List.mem_ite_nil_right] at added
        rw [List.mem_singleton.1 added.2]
        exact (nested.inside id s' there c member).2
    · exact List.Pairwise.nil

theorem Built.nested {calls : List Call} (built : Built calls d) : d.Nested := by
  induction built with
  | empty => exact nested_empty
  | @make calls d next _ here nested =>
      cases next with
      | child parent kind identifier => exact nested.child here kind identifier
      | warn id message =>
          rw [Diagnostics.make, warn, ← Scope.gain_warnings]
          exact nested.record id [message] []
      | error id message =>
          rw [Diagnostics.make, error, ← Scope.gain_errors]
          exact nested.record id [] [message]

/-! ## Walking through the tree -/

/-- A scope on a walk: the number of scopes around it, its own number, and what it holds. -/
structure Visit where
  depth : Nat
  id : Nat
  scope : Scope

/-- `d.Walk depth ids visits`: the scopes of some numbers, each with all scopes inside it behind it,
a scope before those inside it and these in their order. -/
inductive Walk (d : Diagnostics) : (depth : Nat) → (ids : List Nat) → List Visit → Prop
  | done {depth : Nat} : Walk d depth [] []
  | visit {depth id : Nat} {ids : List Nat} {s : Scope} {within behind : List Visit} :
      d.scope? id = some s → Walk d (depth + 1) s.children within → Walk d depth ids behind →
      Walk d depth (id :: ids) (⟨depth, id, s⟩ :: within ++ behind)

theorem Walk.unique {depth : Nat} {ids : List Nat} {visits visits' : List Visit}
    (walk : d.Walk depth ids visits) (walk' : d.Walk depth ids visits') : visits' = visits := by
  induction walk generalizing visits' with
  | done =>
      cases walk'
      rfl
  | visit found _ _ ihWithin ihBehind =>
      cases walk' with
      | visit found' within' behind' =>
          cases found.symm.trans found'
          rw [ihWithin within', ihBehind behind']

/-- The scopes inside a scope have larger numbers. -/
theorem Nested.ahead (nested : d.Nested) {id c : Nat} {s : Scope} (found : d.scope? id = some s)
    (member : c ∈ s.children) : id < c := by
  obtain ⟨positive, known⟩ := nested.inside id s found c member
  obtain ⟨p, smaller, only⟩ := nested.around c positive known
  exact (only id s found).1 member ▸ smaller

/-- A walk ends, since the scopes inside a scope have larger numbers. -/
theorem Nested.exists_walk (nested : d.Nested) (levels depth : Nat) (ids : List Nat)
    (known : ∀ id ∈ ids, id < d.scopes.length ∧ d.scopes.length ≤ id + levels) :
    ∃ visits, d.Walk depth ids visits := by
  induction levels generalizing depth ids with
  | zero =>
      cases ids with
      | nil => exact ⟨[], .done⟩
      | cons id rest =>
          obtain ⟨here, enough⟩ := known id List.mem_cons_self
          exact absurd here (Nat.not_lt.2 enough)
  | succ levels ih =>
      induction ids with
      | nil => exact ⟨[], .done⟩
      | cons id rest ihRest =>
          obtain ⟨here, enough⟩ := known id List.mem_cons_self
          obtain ⟨behind, walkBehind⟩ := ihRest fun other member =>
            known other (List.mem_cons_of_mem _ member)
          have found : d.scope? id = some d.scopes[id] := List.getElem?_eq_getElem here
          obtain ⟨within, walkWithin⟩ := ih (depth + 1) d.scopes[id].children
            fun c member => by
              have ahead := nested.ahead found member
              exact ⟨(nested.inside id _ found c member).2, by omega⟩
          exact ⟨_, .visit found walkWithin walkBehind⟩

/-- What a walk comes to is there. -/
theorem Walk.scope?_eq {depth : Nat} {ids : List Nat} {visits : List Visit}
    (walk : d.Walk depth ids visits) : ∀ v ∈ visits, d.scope? v.id = some v.scope := by
  induction walk with
  | done => exact fun v member => absurd member List.not_mem_nil
  | visit found _ _ ihWithin ihBehind =>
      intro v member
      rcases List.mem_append.1 member with member | member
      · rcases List.mem_cons.1 member with rfl | member
        · exact found
        · exact ihWithin v member
      · exact ihBehind v member

/-- A walk comes to the scopes where it starts and to those inside the scopes it comes to. -/
theorem Walk.perm_children {depth : Nat} {ids : List Nat} {visits : List Visit}
    (walk : d.Walk depth ids visits) :
    (visits.map Visit.id).Perm (ids ++ visits.flatMap fun v => v.scope.children) := by
  induction walk with
  | done => exact .refl _
  | @visit depth id ids s within behind found _ _ ihWithin ihBehind =>
      simp only [List.cons_append, List.map_cons, List.map_append, List.flatMap_cons,
        List.flatMap_append]
      refine .cons id ((ihWithin.append ihBehind).trans ?_)
      -- what is inside comes before the next scopes, though these were asked for first
      rw [← List.append_assoc s.children]
      exact List.perm_append_comm_assoc _ _ _

theorem count_inside {visits : List Visit} {c p : Nat}
    (once : ∀ v ∈ visits, v.scope.children.count c = if v.id = p then 1 else 0) :
    (visits.flatMap fun v => v.scope.children).count c = (visits.map Visit.id).count p := by
  induction visits with
  | nil => rfl
  | cons v rest ih =>
      obtain ⟨here, others⟩ := List.forall_mem_cons.1 once
      rw [List.flatMap_cons, List.count_append, here, ih others, List.map_cons, List.count_cons,
        Nat.add_comm]
      simp only [beq_iff_eq]

/-- A walk from the root comes to a scope as often as to the scope around it. -/
theorem Walk.count_eq (nested : d.Nested) {visits : List Visit} (walk : d.Walk 0 [0] visits)
    {c : Nat} (positive : 0 < c) (known : c < d.scopes.length) :
    ∃ p < c, (visits.map Visit.id).count c = (visits.map Visit.id).count p := by
  obtain ⟨p, smaller, only⟩ := nested.around c positive known
  refine ⟨p, smaller, ?_⟩
  have once : ∀ v ∈ visits, v.scope.children.count c = if v.id = p then 1 else 0 := by
    intro v member
    have found := walk.scope?_eq v member
    have apart : v.scope.children.Nodup := (nested.ordered v.id v.scope found).imp Nat.ne_of_lt
    simp only [apart.count, only v.id v.scope found]
  have start : List.count c [0] = 0 :=
    List.count_eq_zero.2 fun member => Nat.ne_of_gt positive (List.mem_singleton.1 member)
  rw [walk.perm_children.count_eq, List.count_append, start, Nat.zero_add, count_inside once]

/-- The walk from the root comes to each scope once. -/
theorem Walk.perm_range (nested : d.Nested) {visits : List Visit} (walk : d.Walk 0 [0] visits) :
    (visits.map Visit.id).Perm (List.range d.scopes.length) := by
  have once (c : Nat) (known : c < d.scopes.length) : (visits.map Visit.id).count c = 1 := by
    induction c using Nat.strongRecOn with
    | ind c ih =>
        rcases Nat.eq_zero_or_pos c with rfl | positive
        · -- the walk starts at the root, which is inside no scope
          have never : 0 ∉ visits.flatMap fun v => v.scope.children := by
            intro member
            obtain ⟨v, isVisit, isInside⟩ := List.mem_flatMap.1 member
            have found := walk.scope?_eq v isVisit
            exact Nat.lt_irrefl 0 (nested.inside v.id v.scope found 0 isInside).1
          rw [walk.perm_children.count_eq, List.count_append, List.count_eq_zero.2 never]
          rfl
        · obtain ⟨p, smaller, same⟩ := walk.count_eq nested positive known
          rw [same, ih p smaller (Nat.lt_trans smaller known)]
  refine List.perm_iff_count.2 fun c => ?_
  by_cases known : c < d.scopes.length
  · rw [once c known, List.nodup_range.count, if_pos (List.mem_range.2 known)]
  · have missing : c ∉ visits.map Visit.id := by
      intro member
      obtain ⟨v, isVisit, rfl⟩ := List.mem_map.1 member
      exact known (scope?_lt (walk.scope?_eq v isVisit))
    rw [List.count_eq_zero.2 missing,
      List.count_eq_zero.2 fun member => known (List.mem_range.1 member)]

/-- The scopes that are listed before those inside them are the ones on the walk, with the number of
scopes around each. -/
theorem Walk.preorderWithin_eq (nested : d.Nested) {depth : Nat} {ids : List Nat}
    {visits : List Visit} (walk : d.Walk depth ids visits) (levels : Nat)
    (enough : ∀ id ∈ ids, d.scopes.length ≤ id + levels) :
    ids.flatMap (d.preorderWithin levels depth) = visits.map fun v => (v.depth, v.scope) := by
  induction walk generalizing levels with
  | done => rfl
  | @visit depth id ids s within behind found _ _ ihWithin ihBehind =>
      obtain ⟨here, enoughBehind⟩ := List.forall_mem_cons.1 enough
      have known := scope?_lt found
      cases levels with
      | zero => exact absurd known (Nat.not_lt.2 here)
      | succ levels =>
          have inside := ihWithin levels fun c member => by
            have ahead := nested.ahead found member
            omega
          rw [List.flatMap_cons, ihBehind _ enoughBehind, preorderWithin, found]
          simp only [inside, List.map_cons, List.map_append, List.cons_append]

theorem Walk.preorder_eq (nested : d.Nested) {visits : List Visit} (walk : d.Walk 0 [0] visits) :
    d.preorder = visits.map fun v => (v.depth, v.scope) := by
  have all := walk.preorderWithin_eq nested d.scopes.length fun _ _ => Nat.le_add_left _ _
  rwa [List.flatMap_singleton] at all

end Diagnostics

end ManifestSchema
