import Mathlib.Logic.ExistsUnique
import ManifestSchema.Proofs.Diagnostics.Rendering

/-!
# Paths of scopes

A scope is known by its path, which is put together once, when the scope is opened. The way down to a
scope through the tree says the same: the kind of the outermost scope on it, and the identifiers of
all. Later calls leave names, paths and places as they are.

Results:

1. `Diagnostics.Grows` and `Diagnostics.Built.grows`: what later calls leave as it is;
2. `Diagnostics.Route.unique` and `Diagnostics.Nested.exists_route`: one way leads to each scope;
3. `Diagnostics.Built.path_eq`: the path of a scope against the way to it;
4. `Diagnostics.Built.charts_tree`: what the calls say of all scopes.
-/

namespace ManifestSchema

namespace Diagnostics

/-- How a scope was opened: inside which one, and what it stands for. -/
structure Opening where
  parent : Nat
  kind : String
  identifier : String

namespace Call

/-- The scope, if any, that a call opens. -/
def opening? : Call → Option Opening
  | .child parent kind identifier => some ⟨parent, kind, identifier⟩
  | _ => none

/-- Whether a call records a warning. -/
def isWarning : Call → Bool
  | .warn _ _ => true
  | _ => false

/-- Whether a call records an error. -/
def isError : Call → Bool
  | .error _ _ => true
  | _ => false

end Call

/-- How calls opened the scope of a number. The root was there before. -/
def opening? (calls : List Call) : (id : Nat) → Option Opening
  | 0 => none
  | id + 1 => (calls.filterMap Call.opening?)[id]?

/-- The kind of the first of some scopes, and the identifiers of all, joined by points. -/
def pathText (way : List Opening) : String :=
  ".".intercalate ((way.head?.map Opening.kind).toList ++ way.map Opening.identifier)

variable {d d' : Diagnostics} {calls more : List Call}

/-- Whether a scope stands directly inside another one. -/
def Holds (d : Diagnostics) (parent child : Nat) : Prop :=
  ∃ s, d.scope? parent = some s ∧ child ∈ s.children

/-- `d.Route ids id`: the scopes on the way from the root to a scope, the root left out. -/
inductive Route (d : Diagnostics) : (ids : List Nat) → (id : Nat) → Prop
  | root : Route d [] 0
  | inside {ids : List Nat} {parent child : Nat} :
      Route d ids parent → d.Holds parent child → Route d (ids ++ [child]) child

/-! ## What stays -/

/-- What later calls leave as it is: a scope keeps its name and its path, its messages and the scopes
inside it stand in front of those that are new, and it stays inside the same scope. -/
structure Grows (d d' : Diagnostics) : Prop where
  scope : ∀ id s, d.scope? id = some s →
    ∃ warnings errors inside, d'.scope? id = some (s.gain warnings errors inside)
  holds : ∀ child < d.scopes.length, ∀ parent, d'.Holds parent child ↔ d.Holds parent child

/-- A call leaves each scope there, perhaps with more in it. -/
theorem scope?_make (next : Call) {id : Nat} {s : Scope} (found : d.scope? id = some s) :
    ∃ warnings errors inside,
      (d.make next).scope? id = some (s.gain warnings errors inside) := by
  have gained (scope : Nat) (w e : List String) (inside : List Nat) :
      ∃ w' e' inside', (d.scopes.modify scope (Scope.gain w e inside))[id]? =
        some (s.gain w' e' inside') := by
    rw [List.getElem?_modify, show d.scopes[id]? = some s from found]
    by_cases same : scope = id
    · exact ⟨w, e, inside, by simp [same]⟩
    · exact ⟨[], [], [], by simp [same, Scope.gain_nothing]⟩
  cases next with
  | child parent kind identifier =>
      rw [make, child, ← Scope.gain_children, scope?,
        List.getElem?_append_left (by rw [List.length_modify]; exact scope?_lt found)]
      exact gained parent [] [] [d.scopes.length]
  | warn scope message =>
      rw [make, warn, ← Scope.gain_warnings]
      exact gained scope [message] [] []
  | error scope message =>
      rw [make, error, ← Scope.gain_errors]
      exact gained scope [] [message] []

theorem scope?_foldl_make (more : List Call) {id : Nat} {s : Scope}
    (found : d.scope? id = some s) :
    ∃ warnings errors inside,
      (more.foldl make d).scope? id = some (s.gain warnings errors inside) := by
  induction more generalizing d s with
  | nil => exact ⟨[], [], [], by rw [Scope.gain_nothing]; exact found⟩
  | cons next more ih =>
      obtain ⟨w, e, inside, after⟩ := scope?_make next found
      obtain ⟨w', e', inside', later⟩ := ih after
      refine ⟨w ++ w', e ++ e', inside ++ inside', ?_⟩
      rw [List.foldl_cons, later, ← Scope.gain_comp_gain]
      rfl

theorem Built.eq_foldl (built : Built calls d) : d = calls.foldl Diagnostics.make .empty := by
  induction built with
  | empty => rfl
  | make next _ _ ih => rw [List.foldl_append, ← ih, List.foldl_cons, List.foldl_nil]

/-- A scope is inside one other scope only. -/
theorem Nested.holds_unique (nested : d.Nested) {p p' c : Nat} (h : d.Holds p c)
    (h' : d.Holds p' c) : p = p' := by
  obtain ⟨s, found, member⟩ := h
  obtain ⟨s', found', member'⟩ := h'
  obtain ⟨positive, known⟩ := nested.inside p s found c member
  obtain ⟨around, _, only⟩ := nested.around c positive known
  exact ((only p s found).1 member).trans ((only p' s' found').1 member').symm

theorem Nested.holds_lt (nested : d.Nested) {p c : Nat} (h : d.Holds p c) :
    p < c ∧ c < d.scopes.length := by
  obtain ⟨s, found, member⟩ := h
  exact ⟨nested.ahead found member, (nested.inside p s found c member).2⟩

theorem Nested.exists_holds (nested : d.Nested) {c : Nat} (positive : 0 < c)
    (known : c < d.scopes.length) : ∃ p, d.Holds p c := by
  obtain ⟨p, smaller, only⟩ := nested.around c positive known
  have found : d.scope? p = some d.scopes[p] :=
    List.getElem?_eq_getElem (Nat.lt_trans smaller known)
  exact ⟨p, _, found, (only p _ found).2 rfl⟩

theorem Built.grows (built : Built calls d) (later : Built (calls ++ more) d') : d.Grows d' := by
  have same : d' = more.foldl Diagnostics.make d := by
    rw [later.eq_foldl, List.foldl_append, ← built.eq_foldl]
  have scope : ∀ id s, d.scope? id = some s →
      ∃ w e inside, d'.scope? id = some (s.gain w e inside) := by
    intro id s found
    rw [same]
    exact scope?_foldl_make more found
  have kept {p c : Nat} (h : d.Holds p c) : d'.Holds p c := by
    obtain ⟨s, found, member⟩ := h
    obtain ⟨w, e, inside, found'⟩ := scope p s found
    exact ⟨_, found', List.mem_append_left inside member⟩
  refine ⟨scope, fun child known parent => ⟨fun h => ?_, kept⟩⟩
  -- the scope around it was there before, and is the only one
  obtain ⟨p, before⟩ := built.nested.exists_holds
    (Nat.lt_of_le_of_lt (Nat.zero_le parent) (later.nested.holds_lt h).1) known
  rwa [later.nested.holds_unique h (kept before)]

/-! ## How the scopes were opened -/

theorem length_make (d : Diagnostics) (next : Call) :
    (d.make next).scopes.length = d.scopes.length + (next.opening?.toList).length := by
  cases next with
  | child parent kind identifier => exact length_child d parent kind identifier
  | warn id message => exact List.length_modify ..
  | error id message => exact List.length_modify ..

theorem filterMap_concat (next : Call) :
    (calls ++ [next]).filterMap Call.opening? =
      calls.filterMap Call.opening? ++ next.opening?.toList := by
  rw [List.filterMap_append]
  cases next <;> rfl

/-- There are as many scopes as were opened, and the root. -/
theorem Built.length_eq (built : Built calls d) :
    d.scopes.length = (calls.filterMap Call.opening?).length + 1 := by
  induction built with
  | empty => rfl
  | make next _ _ ih =>
      rw [length_make, ih, filterMap_concat, List.length_append]
      omega

/-- What a scope got when it was opened. -/
structure Opened (calls : List Call) (d : Diagnostics) (id : Nat) (o : Opening) (s p : Scope) :
    Prop where
  call : opening? calls id = some o
  scope : d.scope? id = some s
  around : d.scope? o.parent = some p
  inside : id ∈ p.children
  name : s.name = Scope.nameOf o.kind o.identifier
  path : s.path = p.pathInside o.kind o.identifier

theorem Opened.make {id : Nat} {o : Opening} {s p : Scope} (opened : Opened calls d id o s p)
    (next : Call) : ∃ s' p', Opened (calls ++ [next]) (d.make next) id o s' p' := by
  obtain ⟨w, e, inside, scope⟩ := scope?_make next opened.scope
  obtain ⟨w', e', inside', around⟩ := scope?_make next opened.around
  refine ⟨_, _, ?_, scope, around, List.mem_append_left inside' opened.inside, opened.name,
    opened.path⟩
  have call := opened.call
  cases id with
  | zero => cases call
  | succ id =>
      obtain ⟨known, there⟩ := List.getElem?_eq_some_iff.1 call
      rw [opening?, filterMap_concat, List.getElem?_append_left known]
      exact call

/-- What the scope got that was opened last. -/
theorem Built.opened_last (built : Built calls d) {parent : Nat}
    (here : parent < d.scopes.length) (kind identifier : String) :
    ∃ s p, Opened (calls ++ [.child parent kind identifier]) (d.child parent kind identifier).2
      d.scopes.length ⟨parent, kind, identifier⟩ s p := by
  have found : d.scope? parent = some d.scopes[parent] := List.getElem?_eq_getElem here
  let new : Scope := ⟨Scope.nameOf kind identifier, d.scopes[parent].pathInside kind identifier,
    false, [], [], []⟩
  have scopes : (d.child parent kind identifier).2.scopes =
      d.scopes.modify parent (Scope.gain [] [] [d.scopes.length]) ++ [new] := by
    rw [child, found, Scope.gain_children]
    rfl
  refine ⟨new, d.scopes[parent].gain [] [] [d.scopes.length], ?_, ?_, ?_, ?_, rfl, rfl⟩
  · rw [built.length_eq, opening?, filterMap_concat]
    exact List.getElem?_concat_length
  · rw [scope?, scopes, List.getElem?_append_right (Nat.le_of_eq (List.length_modify ..)),
      List.length_modify, Nat.sub_self]
    rfl
  · rw [scope?, scopes, List.getElem?_append_left (by rwa [List.length_modify]),
      List.getElem?_modify_eq, List.getElem?_eq_getElem here]
    rfl
  · exact List.mem_append_right _ List.mem_cons_self

theorem Built.exists_opened (built : Built calls d) {id : Nat} (positive : 0 < id)
    (known : id < d.scopes.length) : ∃ o s p, Opened calls d id o s p := by
  induction built with
  | empty => exact absurd known (Nat.not_lt.2 positive)
  | @make calls d next built here ih =>
      by_cases old : id < d.scopes.length
      · obtain ⟨o, s, p, opened⟩ := ih old
        exact ⟨o, opened.make next⟩
      · rw [length_make] at known
        cases next with
        | warn scope message => exact absurd known old
        | error scope message => exact absurd known old
        | child parent kind identifier =>
            -- a number that is new is that of the scope that was opened
            have last : id = d.scopes.length := Nat.eq_of_lt_succ_of_not_lt known old
            rw [last]
            exact ⟨_, built.opened_last here kind identifier⟩

/-! ## The way to a scope -/

theorem Route.unique (nested : d.Nested) {ids ids' : List Nat} {id : Nat} (route : d.Route ids id)
    (route' : d.Route ids' id) : ids' = ids := by
  induction route generalizing ids' with
  | root =>
      cases route' with
      | root => rfl
      | inside _ holds => exact absurd (nested.holds_lt holds).1 (Nat.not_lt_zero _)
  | inside _ holds ih =>
      cases route' with
      | root => exact absurd (nested.holds_lt holds).1 (Nat.not_lt_zero _)
      | inside before holds' =>
          cases nested.holds_unique holds holds'
          rw [ih before]

theorem Nested.exists_route (nested : d.Nested) {id : Nat} (known : id < d.scopes.length) :
    ∃ ids, d.Route ids id := by
  induction id using Nat.strongRecOn with
  | ind id ih =>
      rcases Nat.eq_zero_or_pos id with rfl | positive
      · exact ⟨[], .root⟩
      · obtain ⟨p, holds⟩ := nested.exists_holds positive known
        have smaller := (nested.holds_lt holds).1
        obtain ⟨ids, route⟩ := ih p smaller (Nat.lt_trans smaller known)
        exact ⟨_, .inside route holds⟩

theorem pathText_concat {way : List Opening} (start : way ≠ []) (o : Opening) :
    pathText (way ++ [o]) = pathText way ++ "." ++ o.identifier := by
  obtain ⟨first, rest, rfl⟩ := List.exists_cons_of_ne_nil start
  rw [pathText, List.map_append, ← List.append_assoc,
    String.intercalate_append_of_ne_nil (by simp) (by simp)]
  rfl

theorem Built.root (built : Built calls d) :
    ∃ s, d.scope? 0 = some s ∧ s.name = "" ∧ s.path = "" := by
  have grows : Diagnostics.Grows .empty d := Built.empty.grows built
  obtain ⟨w, e, inside, found⟩ := grows.scope 0 .root rfl
  exact ⟨_, found, rfl, rfl⟩

/-- The path of a scope says how the scopes on the way to it were opened. -/
theorem Built.path_eq (built : Built calls d) {ids : List Nat} {id : Nat} (route : d.Route ids id) :
    ∃ way : List Opening, ids.map (opening? calls) = way.map some ∧
      ∀ s, d.scope? id = some s → s.path = pathText way := by
  have nested := built.nested
  induction route with
  | root =>
      obtain ⟨root, found, _, path⟩ := built.root
      refine ⟨[], rfl, fun s there => ?_⟩
      rw [Option.some.inj (there.symm.trans found), path]
      rfl
  | @inside ids parent child before holds ih =>
      obtain ⟨way, opened, path⟩ := ih
      have smaller := nested.holds_lt holds
      obtain ⟨o, s, p, new⟩ := built.exists_opened (Nat.zero_lt_of_lt smaller.1) smaller.2
      have around : o.parent = parent := nested.holds_unique ⟨p, new.around, new.inside⟩ holds
      have there := around ▸ new.around
      refine ⟨way ++ [o], by rw [List.map_append, opened, List.map_singleton, new.call,
        List.map_append, List.map_singleton], fun s' found => ?_⟩
      rw [Option.some.inj (found.symm.trans new.scope), new.path, Scope.pathInside]
      by_cases top : parent = 0
      · -- the way to an outermost scope starts with it
        have start : ids = [] := by
          subst top
          exact Route.unique nested .root before
        have nothing : way = [] := by
          rw [start] at opened
          exact List.map_eq_nil_iff.1 opened.symm
        rw [if_pos ((nested.top parent p there).1.2 top), nothing]
        rfl
      · have further : way ≠ [] := by
          rintro rfl
          cases before with
          | root => exact top rfl
          | inside => simp at opened
        have inner : ¬p.isRoot = true := fun marked => top ((nested.top parent p there).1.1 marked)
        rw [if_neg inner, path p there, pathText_concat further]

/-! ## All scopes -/

/-- The number of warnings is that of the calls that record one. -/
theorem Built.warningCount_eq (built : Built calls d) :
    d.warningCount = calls.countP Call.isWarning := by
  induction built with
  | empty => rfl
  | @make calls d next _ here ih =>
      rw [List.countP_append, ← ih]
      cases next with
      | child parent kind identifier => exact warningCount_child parent kind identifier d
      | warn scope message => exact (gains_warn scope message d).warningCount here
      | error scope message => exact (gains_error scope message d).warningCount here

/-- The number of errors is that of the calls that record one. -/
theorem Built.errorCount_eq (built : Built calls d) :
    d.errorCount = calls.countP Call.isError := by
  induction built with
  | empty => rfl
  | @make calls d next _ here ih =>
      rw [List.countP_append, ← ih]
      cases next with
      | child parent kind identifier => exact errorCount_child parent kind identifier d
      | warn scope message => exact (gains_warn scope message d).errorCount here
      | error scope message => exact (gains_error scope message d).errorCount here

/-- Scopes are found by their paths, the one that was opened first. -/
theorem find?_eq_some (d : Diagnostics) (path : String) (id : Nat) :
    d.find? path = some id ↔ (∃ s, d.scope? id = some s ∧ s.path = path) ∧
      ∀ other < id, ∀ s, d.scope? other = some s → s.path ≠ path := by
  rw [find?, List.findIdx?_eq_some_iff_getElem]
  constructor
  · rintro ⟨here, same, earlier⟩
    refine ⟨⟨d.scopes[id], List.getElem?_eq_getElem here, of_decide_eq_true same⟩,
      fun other before s found => ?_⟩
    obtain ⟨there, rfl⟩ := List.getElem?_eq_some_iff.1 found
    simpa using earlier other before
  · rintro ⟨⟨s, found, same⟩, earlier⟩
    obtain ⟨here, rfl⟩ := List.getElem?_eq_some_iff.1 found
    refine ⟨here, decide_eq_true same, fun other before => ?_⟩
    simpa using earlier other before _ (List.getElem?_eq_getElem (Nat.lt_trans before here))

theorem find?_eq_none (d : Diagnostics) (path : String) :
    d.find? path = none ↔ ∀ id s, d.scope? id = some s → s.path ≠ path := by
  rw [find?, List.findIdx?_eq_none_iff]
  constructor
  · intro none id s found
    simpa using none s (List.mem_of_getElem? found)
  · intro none s member
    obtain ⟨id, found⟩ := List.getElem?_of_mem member
    simpa using none id s found

/-- What some calls say of the scopes that they make.

* `count`: there are the root and the scopes that were opened.
* `root`: the root has no name and no path.
* `opened`: another scope is named by the call that opened it, and stands inside one scope, that of
  the call, which has a smaller number.
* `inside`: the scopes inside a scope stand in the order of their numbers.
* `route`: one way leads to a scope from the root.
* `path`: a path joins the kind of the outermost scope and the identifiers on the way.
* `warnings`, `errors`: the numbers of messages are those of the calls that record one.
* `found`, `missing`: a path leads to the scope that was opened first of those that have it. -/
structure Charted (calls : List Call) (d : Diagnostics) : Prop where
  count : d.scopes.length = (calls.filterMap Call.opening?).length + 1
  root : ∃ s, d.scope? 0 = some s ∧ s.name = "" ∧ s.path = ""
  opened : ∀ id, 0 < id → id < d.scopes.length → ∃ o s, opening? calls id = some o ∧
    d.scope? id = some s ∧ s.name = Scope.nameOf o.kind o.identifier ∧
    o.parent < id ∧ ∀ parent, d.Holds parent id ↔ parent = o.parent
  inside : ∀ id s, d.scope? id = some s → s.children.Pairwise (· < ·) ∧
    ∀ child ∈ s.children, 0 < child ∧ child < d.scopes.length
  route : ∀ id < d.scopes.length, ∃! ids, d.Route ids id
  path : ∀ ids id s, d.Route ids id → d.scope? id = some s →
    ∃ way : List Opening, ids.map (opening? calls) = way.map some ∧ s.path = pathText way
  warnings : d.warningCount = calls.countP Call.isWarning
  errors : d.errorCount = calls.countP Call.isError
  found : ∀ path id, d.find? path = some id ↔ (∃ s, d.scope? id = some s ∧ s.path = path) ∧
    ∀ other < id, ∀ s, d.scope? other = some s → s.path ≠ path
  missing : ∀ path, d.find? path = none ↔ ∀ id s, d.scope? id = some s → s.path ≠ path

/-- After whatever calls about scopes that are there, the scopes are a tree whose paths say how it was
made, and whatever calls follow leave names, paths and places in it as they are. -/
theorem Built.charts_tree (built : Built calls d) :
    Charted calls d ∧ ∀ more d', Built (calls ++ more) d' → d.Grows d' := by
  have nested := built.nested
  refine ⟨?_, fun more d' later => built.grows later⟩
  refine ⟨built.length_eq, built.root, fun id positive known => ?_, fun id s found => ?_,
    fun id known => ?_, fun ids id s route found => ?_, built.warningCount_eq, built.errorCount_eq,
    find?_eq_some d, find?_eq_none d⟩
  · obtain ⟨o, s, p, opened⟩ := built.exists_opened positive known
    have holds : d.Holds o.parent id := ⟨p, opened.around, opened.inside⟩
    exact ⟨o, s, opened.call, opened.scope, opened.name, (nested.holds_lt holds).1, fun parent =>
      ⟨fun other => nested.holds_unique other holds, fun same => same ▸ holds⟩⟩
  · exact ⟨nested.ordered id s found, nested.inside id s found⟩
  · obtain ⟨ids, route⟩ := nested.exists_route known
    exact ⟨ids, route, fun others => route.unique nested⟩
  · obtain ⟨way, opened, path⟩ := built.path_eq route
    exact ⟨way, opened, path s found⟩

/-- The drawer stands in the till, and the till in the shop. -/
theorem drawer_route : shopScopes.Route [1, 2, 3] 3 :=
  .inside
    (.inside (.inside .root ⟨_, rfl, by decide +kernel⟩) ⟨_, rfl, by decide +kernel⟩)
    ⟨_, rfl, by decide +kernel⟩

/-- The path of the drawer has the kind of the shop and three identifiers. -/
theorem charts_tree_drawer : Built shopCalls shopScopes ∧ Charted shopCalls shopScopes ∧
    Diagnostics.empty.Grows shopScopes ∧ shopScopes.Route [1, 2, 3] 3 ∧ ∃ way : List Opening,
      [1, 2, 3].map (opening? shopCalls) = way.map some ∧
      pathText way = "resource.Shop.Till.Drawer" ∧
      shopScopes.find? (pathText way) = some 3 := by
  have charted := (Built.charts_tree shopCalls_built).1
  have grows := (Built.charts_tree .empty).2 shopCalls shopScopes shopCalls_built
  exact ⟨shopCalls_built, charted, grows, drawer_route, [⟨0, "resource", "Shop"⟩,
    ⟨1, "interface", "Till"⟩, ⟨2, "interface", "Drawer"⟩], rfl, by decide +kernel, by decide +kernel⟩

end Diagnostics

end ManifestSchema
