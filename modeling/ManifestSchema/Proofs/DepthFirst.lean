/-!
# Depth-first order

The order in which a depth-first walk through a graph meets the nodes: a node comes before the
nodes it leads to, these come in the order in which it names them, and a node that was met before is
not entered again. The graph is a function from a node to the nodes it leads to, in order.

Results:

1. `DepthFirst.exists_added`: a walk only adds nodes, each once, behind those met before;
2. `DepthFirst.unique`: there is one such order;
3. `DepthFirst.mem_iff`: a walk that starts with nothing met meets exactly the nodes that can be
   reached;
4. `DepthFirst.perm_of_perm`: where it starts first makes no difference to the nodes that it meets.
-/

namespace ManifestSchema

universe u

variable {α : Type u}

/-- `DepthFirst next seen todo out`: a walk that has met `seen` and enters the nodes of `todo` in
order has met `out` in the end. -/
inductive DepthFirst (next : α → List α) : (seen todo out : List α) → Prop
  | done (seen : List α) : DepthFirst next seen [] seen
  | again {seen out rest : List α} {a : α} :
      a ∈ seen → DepthFirst next seen rest out → DepthFirst next seen (a :: rest) out
  | first {seen inside out rest : List α} {a : α} :
      a ∉ seen → DepthFirst next (seen ++ [a]) (next a) inside →
      DepthFirst next inside rest out → DepthFirst next seen (a :: rest) out

/-- The nodes that can be reached from some nodes. -/
inductive ReachedFrom (next : α → List α) (starts : List α) : α → Prop
  | start {a : α} : a ∈ starts → ReachedFrom next starts a
  | step {a b : α} : ReachedFrom next starts a → b ∈ next a → ReachedFrom next starts b

theorem ReachedFrom.trans {next : α → List α} {starts others : List α} {a : α}
    (h : ReachedFrom next starts a) (hs : ∀ b ∈ starts, ReachedFrom next others b) :
    ReachedFrom next others a := by
  induction h with
  | start hb => exact hs _ hb
  | step _ hb ih => exact ih.step hb

namespace DepthFirst

variable {next : α → List α}

theorem append {seen todo inside more out : List α} (h : DepthFirst next seen todo inside)
    (h' : DepthFirst next inside more out) : DepthFirst next seen (todo ++ more) out := by
  induction h with
  | done _ => exact h'
  | again met _ ih => exact again met (ih h')
  | first new hin _ _ ih => exact first new hin (ih h')

theorem exists_added {seen todo out : List α} (h : DepthFirst next seen todo out) :
    ∃ added, out = seen ++ added ∧ added.Nodup ∧ ∀ a ∈ added, a ∉ seen := by
  induction h with
  | done seen => exact ⟨[], by simp⟩
  | again _ _ ih => exact ih
  | @first seen inside out rest a new _ _ ih1 ih2 =>
      obtain ⟨below, rfl, nodup1, fresh1⟩ := ih1
      obtain ⟨behind, rfl, nodup2, fresh2⟩ := ih2
      refine ⟨a :: (below ++ behind), by simp, ?_, ?_⟩
      · refine List.nodup_cons.2 ⟨?_, List.nodup_append.2 ⟨nodup1, nodup2, ?_⟩⟩
        · intro h
          rcases List.mem_append.1 h with h | h
          · exact fresh1 a h (by simp)
          · exact fresh2 a h (by simp)
        · rintro b hb c hc rfl
          exact fresh2 b hc (by simp [hb])
      · intro b hb
        rcases List.mem_cons.1 hb with rfl | hb
        · exact new
        · intro hs
          rcases List.mem_append.1 hb with hb | hb
          · exact fresh1 b hb (by simp [hs])
          · exact fresh2 b hb (by simp [hs])

theorem subset {seen todo out : List α} (h : DepthFirst next seen todo out) : seen ⊆ out := by
  obtain ⟨added, rfl, _, _⟩ := h.exists_added
  exact List.subset_append_left _ _

theorem todo_subset {seen todo out : List α} (h : DepthFirst next seen todo out) : todo ⊆ out := by
  induction h with
  | done _ => simp
  | again met h ih => exact List.cons_subset.2 ⟨h.subset met, ih⟩
  | first _ h1 h2 _ ih => exact List.cons_subset.2 ⟨h2.subset (h1.subset (by simp)), ih⟩

/-- What a new node leads to has been met in the end: a node that is cut off because it was met
before is among the met ones all the same. -/
theorem closed {seen todo out : List α} (h : DepthFirst next seen todo out) :
    ∀ a ∈ out, a ∉ seen → next a ⊆ out := by
  induction h with
  | done _ => exact fun a ha hn => absurd ha hn
  | again _ _ ih => exact ih
  | @first seen inside out rest b _ h1 h2 ih1 ih2 =>
      intro a ha hn
      -- a node is met inside the first visit or behind it, or it is the visited node itself
      by_cases hi : a ∈ inside
      · by_cases hb : a = b
        · subst hb
          exact fun c hc => h2.subset (h1.todo_subset hc)
        · exact fun c hc => h2.subset (ih1 a hi (by simp [hn, hb]) hc)
      · exact ih2 a ha hi

theorem reached {seen todo out : List α} (h : DepthFirst next seen todo out) :
    ∀ a ∈ out, a ∈ seen ∨ ReachedFrom next todo a := by
  induction h with
  | done _ => exact fun a ha => .inl ha
  | again _ _ ih =>
      intro a ha
      exact (ih a ha).imp_right fun r => r.trans fun c hc => .start (List.mem_cons_of_mem _ hc)
  | @first seen inside out rest b _ _ _ ih1 ih2 =>
      intro a ha
      have self : ReachedFrom next (b :: rest) b := .start List.mem_cons_self
      rcases ih2 a ha with hi | r
      · rcases ih1 a hi with hs | r
        · rcases List.mem_append.1 hs with hs | hb
          · exact .inl hs
          · rw [List.mem_singleton.1 hb]
            exact .inr self
        · exact .inr (r.trans fun c hc => self.step hc)
      · exact .inr (r.trans fun c hc => .start (List.mem_cons_of_mem _ hc))

theorem mem_iff {starts out : List α} (h : DepthFirst next [] starts out) {a : α} :
    a ∈ out ↔ ReachedFrom next starts a := by
  constructor
  · intro ha
    exact (h.reached a ha).resolve_left List.not_mem_nil
  · intro r
    induction r with
    | start hs => exact h.todo_subset hs
    | step _ hb ih => exact h.closed _ ih List.not_mem_nil hb

theorem unique {seen todo out out' : List α} (h : DepthFirst next seen todo out)
    (h' : DepthFirst next seen todo out') : out = out' := by
  induction h generalizing out' with
  | done _ => cases h'; rfl
  | again met _ ih =>
      cases h' with
      | again _ h' => exact ih h'
      | first new _ _ => exact absurd met new
  | first new _ _ ih1 ih2 =>
      cases h' with
      | again met _ => exact absurd met new
      | first _ h1 h2 =>
          obtain rfl := ih1 h1
          exact ih2 h2

/-- What was met before and can never be met again makes no difference to a walk. -/
theorem forget {old seen todo out : List α} (h : DepthFirst next (old ++ seen) todo out)
    (apart : ∀ a ∈ todo, a ∉ old) (inside : ∀ a, ∀ b ∈ next a, b ∉ old) :
    ∃ met, out = old ++ met ∧ DepthFirst next seen todo met := by
  generalize hs : old ++ seen = start at h
  induction h generalizing seen with
  | done _ => exact ⟨seen, hs.symm, done seen⟩
  | @again start out rest a met _ ih =>
      subst hs
      obtain ⟨met', rfl, h⟩ := ih (fun b hb => apart b (List.mem_cons_of_mem _ hb)) rfl
      -- the node is none of the old ones, so this walk has met it as well
      have recent := (List.mem_append.1 met).resolve_left (apart a List.mem_cons_self)
      exact ⟨met', rfl, again recent h⟩
  | @first start mid out rest a new _ _ ih1 ih2 =>
      subst hs
      obtain ⟨met1, rfl, h1⟩ := ih1 (inside a) (List.append_assoc old seen [a]).symm
      obtain ⟨met2, rfl, h2⟩ := ih2 (fun b hb => apart b (List.mem_cons_of_mem _ hb)) rfl
      exact ⟨met2, rfl, first (fun hs => new (List.mem_append_right _ hs)) h1 h2⟩

/-- A walk that enters nodes of one kind only does not depend on the others that were met. -/
theorem restrict {p : α → Bool} {seen todo out : List α} (h : DepthFirst next seen todo out)
    (kind : ∀ a ∈ todo, p a = true) (inside : ∀ a, ∀ b ∈ next a, p b = true) :
    DepthFirst next (seen.filter p) todo (out.filter p) := by
  induction h with
  | done seen => exact done _
  | again met _ ih =>
      have recent := List.mem_filter.2 ⟨met, kind _ List.mem_cons_self⟩
      exact again recent (ih fun b hb => kind b (List.mem_cons_of_mem _ hb))
  | @first seen mid out rest a new _ _ ih1 ih2 =>
      have entered := ih1 (inside a)
      rw [List.filter_append, List.filter_cons_of_pos (kind a List.mem_cons_self),
        List.filter_nil] at entered
      exact first (fun met => new (List.mem_filter.1 met).1) entered
        (ih2 fun b hb => kind b (List.mem_cons_of_mem _ hb))

/-- Two walks from the same nodes, in whatever order, meet the same nodes. -/
theorem perm_of_perm {starts starts' out out' : List α} (h : DepthFirst next [] starts out)
    (h' : DepthFirst next [] starts' out') (same : starts.Perm starts') : out.Perm out' := by
  obtain ⟨_, rfl, nodup, _⟩ := h.exists_added
  obtain ⟨_, rfl, nodup', _⟩ := h'.exists_added
  refine (List.perm_ext_iff_of_nodup nodup nodup').2 fun a => ?_
  rw [h.mem_iff, h'.mem_iff]
  exact ⟨fun r => r.trans fun b hb => .start (same.mem_iff.1 hb),
    fun r => r.trans fun b hb => .start (same.mem_iff.2 hb)⟩

end DepthFirst

end ManifestSchema
