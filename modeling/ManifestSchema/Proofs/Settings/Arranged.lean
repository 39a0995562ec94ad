import ManifestSchema.Proofs.Settings.Layers

/-!
# Values whose entries stand in another order

The entries of tables are gone through in an order that differs from run to run. What stays is what
each table holds under which keys. A value with no table of two or more entries can stand in one
order only.

Results:

1. `Configured.Arranged.keys_perm` and `Configured.Arranged.exists_entry`: what a table holds in
   another order;
2. `Configured.Arranged.perm_of_flat`: a table without tables in it;
3. `Configured.ArrangedAll.eq_of_isRigid`: layers that stand in one order only.
-/

namespace ManifestSchema

namespace Configured

/-! ## Tables -/

namespace Arranged

variable {v v' : Configured}

theorem isTable_eq (h : Arranged v v') : v'.isTable = v.isTable := by
  induction h with
  | refl v => rfl
  | trans _ _ ih ih' => exact ih'.trans ih
  | entries _ => rfl
  | inside _ _ => rfl

theorem eq_of_other (h : Arranged v v') (other : v.isTable = false) : v' = v := by
  induction h with
  | refl v => rfl
  | trans h _ ih ih' =>
      have same := ih other
      exact (ih' (same ▸ other)).trans same
  | entries _ => cases other
  | inside _ _ => cases other

theorem keys_perm (h : Arranged v v') :
    (Dict.keys v'.asTable.1).Perm (Dict.keys v.asTable.1) := by
  induction h with
  | refl v => exact .refl _
  | trans _ _ ih ih' => exact ih'.trans ih
  | entries same => exact (same.map Prod.fst).symm
  | inside _ _ =>
      rw [asTable, asTable, Dict.keys_append, Dict.keys_append]
      exact .refl _

/-- Each entry of a table stands for one with its key, itself in some order. -/
theorem exists_entry (h : Arranged v v') :
    ∀ p ∈ v'.asTable.1, ∃ u, (p.1, u) ∈ v.asTable.1 ∧ Arranged u p.2 := by
  induction h with
  | refl v => exact fun p member => ⟨p.2, member, .refl _⟩
  | trans _ _ ih ih' =>
      intro p member
      obtain ⟨u', member', arranged'⟩ := ih' p member
      obtain ⟨u, member, arranged⟩ := ih _ member'
      exact ⟨u, member, arranged.trans arranged'⟩
  | entries same => exact fun p member => ⟨p.2, same.mem_iff.2 member, .refl _⟩
  | @inside before after key u u' origin arranged _ =>
      intro p member
      rcases List.mem_append.1 member with member | member
      · exact ⟨p.2, List.mem_append_left _ member, .refl _⟩
      · rcases List.mem_cons.1 member with rfl | member
        · exact ⟨u, List.mem_append_right _ List.mem_cons_self, arranged⟩
        · exact ⟨p.2, List.mem_append_right _ (List.mem_cons_of_mem _ member), .refl _⟩

theorem perm_of_flat (h : Arranged v v') (flat : ∀ p ∈ v.asTable.1, p.2.isTable = false) :
    v'.asTable.1.Perm v.asTable.1 := by
  induction h with
  | refl v => exact .refl _
  | trans _ _ ih ih' =>
      have same := ih flat
      exact (ih' fun p member => flat p (same.mem_iff.1 member)).trans same
  | entries same => exact same.symm
  | @inside before after key u u' origin arranged _ =>
      rw [arranged.eq_of_other (flat (key, u) (List.mem_append_right _ List.mem_cons_self))]

end Arranged

/-! ## Layers -/

namespace ArrangedAll

variable {layers layers' more more' : List (List (String × Configured))}

theorem refl (layers : List (List (String × Configured))) : ArrangedAll layers layers := by
  induction layers with
  | nil => exact .nil
  | cons layer layers ih => exact .cons (.refl _) ih

theorem append (h : ArrangedAll layers layers') (behind : ArrangedAll more more') :
    ArrangedAll (layers ++ more) (layers' ++ more') := by
  induction h with
  | nil => exact behind
  | cons first _ ih => exact .cons first ih

theorem exists_append {arranged : List (List (String × Configured))}
    (h : ArrangedAll (layers ++ more) arranged) : ∃ layers' more',
      arranged = layers' ++ more' ∧ ArrangedAll layers layers' ∧ ArrangedAll more more' := by
  induction layers generalizing arranged with
  | nil => exact ⟨[], arranged, rfl, .nil, h⟩
  | cons layer layers ih =>
      cases h with
      | cons first rest =>
          obtain ⟨layers', more', rfl, before, behind⟩ := ih rest
          exact ⟨_ :: layers', more', rfl, .cons first before, behind⟩

theorem exists_key (h : ArrangedAll layers layers') :
    ∀ p ∈ layers'.flatten, ∃ u, (p.1, u) ∈ layers.flatten := by
  induction h with
  | nil => exact fun p member => nomatch member
  | cons first _ ih =>
      intro p member
      rcases List.mem_append.1 member with member | member
      · obtain ⟨u, member, _⟩ := first.exists_entry p member
        exact ⟨u, List.mem_append_left _ member⟩
      · obtain ⟨u, member⟩ := ih p member
        exact ⟨u, List.mem_append_right _ member⟩

end ArrangedAll

/-! ## One order only -/

mutual

/-- Whether every table that is gone through has one entry at most. -/
def isRigid : Configured → Bool
  | .table entries _ => isRigidAll entries
  | _ => true

def isRigidAll : List (String × Configured) → Bool
  | [] => true
  | [(_, v)] => v.isRigid
  | _ => false

end

theorem isRigidAll_append {before after : List (String × Configured)} {p : String × Configured}
    (rigid : isRigidAll (before ++ p :: after) = true) :
    before = [] ∧ after = [] ∧ p.2.isRigid = true := by
  match before, after with
  | [], [] => exact ⟨rfl, rfl, rigid⟩
  | [], _ :: _ => cases rigid
  | [_], _ => cases rigid
  | _ :: _ :: _, _ => cases rigid

theorem Arranged.eq_of_isRigid {v v' : Configured} (h : Arranged v v') (rigid : v.isRigid = true) :
    v' = v := by
  induction h with
  | refl v => rfl
  | trans _ _ ih ih' =>
      have same := ih rigid
      exact (ih' (same ▸ rigid)).trans same
  | @entries es es' origin same =>
      match es, rigid with
      | [], _ => rw [List.nil_perm.1 same]
      | [p], _ => rw [List.singleton_perm.1 same]
      | _ :: _ :: _, rigid => cases rigid
  | inside _ ih =>
      obtain ⟨rfl, rfl, inner⟩ := isRigidAll_append rigid
      rw [ih inner]

theorem ArrangedAll.eq_of_isRigid {layers layers' : List (List (String × Configured))}
    (h : ArrangedAll layers layers') (rigid : layers.all isRigidAll = true) : layers' = layers := by
  induction h with
  | nil => rfl
  | cons first _ ih =>
      obtain ⟨here, rigid⟩ := Bool.and_eq_true_iff.1 rigid
      injection first.eq_of_isRigid here with same
      rw [same, ih rigid]

end Configured

end ManifestSchema
