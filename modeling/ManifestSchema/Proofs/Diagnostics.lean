import ManifestSchema.Diagnostics

/-!
# Writing to scopes

What a step of work does to the scopes is of one form: one scope, where the work takes place, gains
messages and scopes inside it, and behind the scopes that are there new ones are opened
(`Diagnostics.Gains`). Two such steps in a row are one again.

Results:

1. `Diagnostics.Gains.trans` and `Diagnostics.Gains.inside`: steps in a row in one scope, and a step
   in a scope that was just opened;
2. `Diagnostics.Gains.errorCount` and `Diagnostics.Gains.warningCount`: the numbers of messages
   grow by those of the step;
3. `Diagnostics.errorCount_child` and `Diagnostics.warningCount_child`: a scope that is opened brings
   no message.
-/

namespace ManifestSchema

namespace Scope

/-- A scope with more messages and more scopes inside it. -/
def gain (warnings errors : List String) (inside : List Nat) (s : Scope) : Scope :=
  { s with
    warnings := s.warnings ++ warnings
    errors := s.errors ++ errors
    children := s.children ++ inside }

theorem gain_nothing : gain [] [] [] = id := by
  funext s
  simp [gain]

theorem gain_warnings (warnings : List String) :
    gain warnings [] [] = fun s => { s with warnings := s.warnings ++ warnings } := by
  funext s
  simp [gain]

theorem gain_errors (errors : List String) :
    gain [] errors [] = fun s => { s with errors := s.errors ++ errors } := by
  funext s
  simp [gain]

theorem gain_children (inside : List Nat) :
    gain [] [] inside = fun s => { s with children := s.children ++ inside } := by
  funext s
  simp [gain]

theorem gain_comp_gain (w w' e e' : List String) (i i' : List Nat) :
    gain w' e' i' ∘ gain w e i = gain (w ++ w') (e ++ e') (i ++ i') := by
  funext s
  simp [gain]

end Scope

namespace Diagnostics

/-- `Gains scope warnings errors opened d d'`: from `d` to `d'` the scope gained messages, and scopes
were opened, none of which says more about itself here than that it is new. -/
def Gains (scope : Nat) (warnings errors : List String) (opened : List Scope)
    (d d' : Diagnostics) : Prop :=
  ∃ inside, d'.scopes = d.scopes.modify scope (Scope.gain warnings errors inside) ++ opened

variable {scope : Nat} {w w' e e' : List String} {opened opened' : List Scope}
  {d d1 d' : Diagnostics}

theorem Gains.nothing (scope : Nat) (d : Diagnostics) : Gains scope [] [] [] d d :=
  ⟨[], by rw [Scope.gain_nothing, List.modify_id, List.append_nil]⟩

theorem gains_error (scope : Nat) (message : String) (d : Diagnostics) :
    Gains scope [] [message] [] d (d.error scope message) :=
  ⟨[], by rw [error, Scope.gain_errors, List.append_nil]⟩

theorem gains_warn (scope : Nat) (message : String) (d : Diagnostics) :
    Gains scope [message] [] [] d (d.warn scope message) :=
  ⟨[], by rw [warn, Scope.gain_warnings, List.append_nil]⟩

theorem Gains.length_le (h : Gains scope w e opened d d') : d.scopes.length ≤ d'.scopes.length := by
  obtain ⟨inside, scopes⟩ := h
  rw [scopes, List.length_append, List.length_modify]
  exact Nat.le_add_right _ _

theorem modify_append_left {i : Nat} {s : List Scope} (h : i < s.length) (t : List Scope)
    (f : Scope → Scope) : (s ++ t).modify i f = s.modify i f ++ t := by
  induction s generalizing i with
  | nil => exact absurd h (Nat.not_lt_zero i)
  | cons first rest ih =>
      cases i with
      | zero => rfl
      | succ i =>
          rw [List.cons_append, List.modify_succ_cons, List.modify_succ_cons,
            ih (Nat.lt_of_succ_lt_succ h), List.cons_append]

theorem Gains.trans (here : scope < d.scopes.length) (h : Gains scope w e opened d d1)
    (h' : Gains scope w' e' opened' d1 d') :
    Gains scope (w ++ w') (e ++ e') (opened ++ opened') d d' := by
  obtain ⟨inside, scopes⟩ := h
  obtain ⟨inside', scopes'⟩ := h'
  refine ⟨inside ++ inside', ?_⟩
  rw [scopes', scopes, modify_append_left (by rwa [List.length_modify]), List.modify_modify_eq,
    Scope.gain_comp_gain, List.append_assoc]

theorem modify_last {i : Nat} {s : List Scope} (h : i = s.length) (last : Scope)
    (f : Scope → Scope) : (s ++ [last]).modify i f = s ++ [f last] := by
  subst h
  induction s with
  | nil => rfl
  | cons first rest ih =>
      rw [List.cons_append, List.length_cons, List.modify_succ_cons, ih, List.cons_append]

/-- A scope is opened, and the work takes place in it. -/
theorem Gains.inside {kind identifier : String}
    (h : Gains d.scopes.length w e opened (d.child scope kind identifier).2 d') :
    ∃ s : Scope, s.name = Scope.nameOf kind identifier ∧ s.warnings = w ∧ s.errors = e ∧
      Gains scope [] [] (s :: opened) d d' := by
  obtain ⟨inside, scopes⟩ := h
  have opens : (d.child scope kind identifier).2.scopes =
      d.scopes.modify scope (Scope.gain [] [] [d.scopes.length]) ++
        [⟨Scope.nameOf kind identifier, ((d.scope? scope).getD .root).pathInside kind identifier,
          false, [], [], []⟩] := by
    rw [child, Scope.gain_children]
  -- the opened scope is the last one, so it is the one that gains what the work says
  rw [opens, modify_last (List.length_modify ..).symm] at scopes
  exact ⟨_, rfl, List.nil_append w, List.nil_append e, [d.scopes.length],
    by rw [scopes, List.append_assoc, List.singleton_append]⟩

/-! ## Numbers of messages -/

theorem length_flatMap_modify {i : Nat} {s : List Scope} (h : i < s.length)
    (part : Scope → List String) (f : Scope → Scope) {more : List String}
    (gains : ∀ s, part (f s) = part s ++ more) :
    ((s.modify i f).flatMap part).length = (s.flatMap part).length + more.length := by
  induction s generalizing i with
  | nil => exact absurd h (Nat.not_lt_zero i)
  | cons first rest ih =>
      cases i with
      | zero =>
          simp only [List.modify_zero_cons, List.flatMap_cons, List.length_append, gains]
          omega
      | succ i =>
          simp only [List.modify_succ_cons, List.flatMap_cons, List.length_append,
            ih (Nat.lt_of_succ_lt_succ h)]
          omega

theorem Gains.errorCount (here : scope < d.scopes.length) (h : Gains scope w e opened d d') :
    d'.errorCount = d.errorCount + e.length + (opened.flatMap Scope.errors).length := by
  obtain ⟨inside, scopes⟩ := h
  unfold Diagnostics.errorCount
  rw [scopes, List.flatMap_append, List.length_append,
    length_flatMap_modify here Scope.errors _ fun _ => rfl]

theorem Gains.warningCount (here : scope < d.scopes.length) (h : Gains scope w e opened d d') :
    d'.warningCount = d.warningCount + w.length + (opened.flatMap Scope.warnings).length := by
  obtain ⟨inside, scopes⟩ := h
  unfold Diagnostics.warningCount
  rw [scopes, List.flatMap_append, List.length_append,
    length_flatMap_modify here Scope.warnings _ fun _ => rfl]

/-- A scope that was just opened has no messages, and opening it adds none elsewhere. -/
theorem flatMap_child (part : Scope → List String) (kind identifier : String)
    (opened : ∀ name path, part ⟨name, path, false, [], [], []⟩ = [])
    (inside : ∀ (s : Scope) children, part { s with children } = part s) :
    (d.child scope kind identifier).2.scopes.flatMap part = d.scopes.flatMap part := by
  have same : ∀ (i : Nat) (s : List Scope) (f : Scope → Scope), (∀ s, part (f s) = part s) →
      (s.modify i f).flatMap part = s.flatMap part := by
    intro i s f keeps
    induction s generalizing i with
    | nil => cases i <;> rfl
    | cons first rest ih => cases i <;> simp [keeps, ih]
  rw [child, List.flatMap_append, same _ _ _ fun s => inside s _, List.flatMap_singleton, opened,
    List.append_nil]

theorem errorCount_child (scope : Nat) (kind identifier : String) (d : Diagnostics) :
    (d.child scope kind identifier).2.errorCount = d.errorCount :=
  congrArg List.length (flatMap_child Scope.errors kind identifier (fun _ _ => rfl) fun _ _ => rfl)

theorem warningCount_child (scope : Nat) (kind identifier : String) (d : Diagnostics) :
    (d.child scope kind identifier).2.warningCount = d.warningCount :=
  congrArg List.length
    (flatMap_child Scope.warnings kind identifier (fun _ _ => rfl) fun _ _ => rfl)

end Diagnostics

end ManifestSchema
