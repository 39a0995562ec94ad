import Mathlib.Logic.Relation
import ManifestSchema.Proofs.Flattening

/-!
# Lineage

Whether a class descends from another one is decided on a walk from base to base. The walk gives up
where a class comes up again, which may be any class on the way and not only the first one: the
chain of bases may run into a circle from outside. Giving up is safe all the same. What has been
passed is closed then, each class on the way has its base on the way, so the walk would never come
to anything new.

Results:

1. `TypeSystem.follows_wf`: no walk goes on forever;
2. `TypeSystem.roundWith_iff`: the walk is the only solution of its recursion, so the number of
   steps that it is given is never used up;
3. `TypeSystem.Passed.extendsWithin_iff`: the walk finds a name exactly if it lies ahead;
4. `TypeSystem.classExtends_decides_lineage`: all this for a class of the type system.
-/

namespace ManifestSchema

namespace TypeSystem

variable {ts : TypeSystem} {base : String} {seen : List String} {c d parent : ClassType}

/-! ## Bases -/

/-- `ts.Derives c parent`: the base that `c` names is declared, as the class `parent`. -/
def Derives (ts : TypeSystem) (c parent : ClassType) : Prop :=
  ∃ name, c.base = some name ∧ ts.find? name = some (.classDef parent)

theorem findClass?_eq_some_iff {name : String} :
    ts.findClass? name = some c ↔ ts.find? name = some (.classDef c) := by
  unfold findClass?
  cases ts.find? name with
  | none => simp
  | some d => cases d <;> simp [Definition.class?]

theorem derives_iff : ts.Derives c parent ↔ c.base.bind ts.findClass? = some parent := by
  rw [Option.bind_eq_some_iff]
  exact exists_congr fun name => and_congr_right fun _ => findClass?_eq_some_iff.symm

/-- A class has one base at most. -/
theorem Derives.unique (h : ts.Derives c d) (h' : ts.Derives c parent) : d = parent := by
  rw [derives_iff] at h h'
  exact Option.some.inj (h.symm.trans h')

/-- A base stands under its own name. -/
theorem Derives.declared (keyed : ts.WellKeyed) (h : ts.Derives c parent) :
    ts.findClass? parent.fqn = some parent := by
  obtain ⟨name, _, found⟩ := h
  have named : parent.fqn = name := keyed _ (Dict.mem_of_find? found)
  rw [named]
  exact findClass?_eq_some_iff.2 found

/-! ## Rounds -/

/-- One round of the walk, where `rest` goes on with the base. -/
def roundWith (ts : TypeSystem) (base : String) (rest : List String → ClassType → Bool)
    (seen : List String) (c : ClassType) : Bool :=
  if c.fqn = base then true
  else if c.fqn ∈ seen then false
  else
    match c.base.bind ts.findClass? with
    | none => false
    | some parent => rest (c.fqn :: seen) parent

theorem extendsWithin_succ (ts : TypeSystem) (base : String) (steps : Nat) :
    ts.extendsWithin base (steps + 1) = ts.roundWith base (ts.extendsWithin base steps) := rfl

/-- `ts.Follows base now later`: a round that has come to the class `now.2` with the names `now.1`
behind it goes on with `later`. -/
structure Follows (ts : TypeSystem) (base : String) (now later : List String × ClassType) :
    Prop where
  other : now.2.fqn ≠ base
  new : now.2.fqn ∉ now.1
  derives : ts.Derives now.2 later.2
  seen : later.1 = now.2.fqn :: now.1

theorem roundWith_congr {rest rest' : List String → ClassType → Bool}
    (agree : ∀ later, ts.Follows base (seen, c) later →
      rest later.1 later.2 = rest' later.1 later.2) :
    ts.roundWith base rest seen c = ts.roundWith base rest' seen c := by
  unfold roundWith
  split
  · rfl
  · next other =>
      split
      · rfl
      · next new =>
          cases found : c.base.bind ts.findClass? with
          | none => rfl
          | some parent => exact agree (_, parent) ⟨other, new, derives_iff.2 found, rfl⟩

/-- A bound for the rounds that are ahead: each takes the name of a type, but for the first one when
it starts at a class that is not one of the types. -/
def roundsAhead (ts : TypeSystem) (now : List String × ClassType) : Nat :=
  ts.room now.1 + if now.2.fqn ∈ ts.types.keys then 0 else 1

theorem roundsAhead_lt (ts : TypeSystem) (now : List String × ClassType) :
    ts.roundsAhead now < ts.size + 2 := by
  have room := ts.room_le_size now.1
  unfold roundsAhead
  split <;> omega

theorem Follows.roundsAhead_lt (keyed : ts.WellKeyed) {now later : List String × ClassType}
    (h : ts.Follows base now later) : ts.roundsAhead later < ts.roundsAhead now := by
  obtain ⟨_, new, derives, seen⟩ := h
  have declared := findClass?_eq_some_iff.1 (derives.declared keyed)
  unfold roundsAhead
  rw [if_pos (Dict.mem_keys_of_find? declared), seen]
  split
  · next key => exact room_cons_lt key new
  · next foreign =>
      -- the first class is none of the types, so its name takes up no room
      have same : ts.room (now.2.fqn :: now.1) = ts.room now.1 := by
        unfold room
        refine congrArg List.length (List.filter_congr fun name member => ?_)
        have apart : name ≠ now.2.fqn := fun e => foreign (e ▸ member)
        simp [apart]
      omega

/-- No walk from base to base goes on forever. -/
theorem follows_wf (keyed : ts.WellKeyed) (base : String) :
    WellFounded fun later now => ts.Follows base now later :=
  Subrelation.wf (fun h => Follows.roundsAhead_lt keyed h) (InvImage.wf ts.roundsAhead Nat.lt_wfRel.wf)

/-- The steps beyond the rounds that are ahead are never used. -/
theorem extendsWithin_steps (keyed : ts.WellKeyed) (n : Nat) :
    ∀ m seen c, ts.roundsAhead (seen, c) < n → ts.roundsAhead (seen, c) < m →
      ts.extendsWithin base n seen c = ts.extendsWithin base m seen c := by
  induction n with
  | zero => exact fun _ _ _ h => absurd h (Nat.not_lt_zero _)
  | succ n ih =>
      intro m seen c hn hm
      cases m with
      | zero => exact absurd hm (Nat.not_lt_zero _)
      | succ m =>
          rw [extendsWithin_succ, extendsWithin_succ]
          refine roundWith_congr fun later follows => ?_
          have less := follows.roundsAhead_lt keyed
          exact ih m _ _ (Nat.lt_of_lt_of_le less (Nat.le_of_lt_succ hn))
            (Nat.lt_of_lt_of_le less (Nat.le_of_lt_succ hm))

/-- The walk is the only solution of its recursion. -/
theorem roundWith_iff (keyed : ts.WellKeyed) {walk : List String → ClassType → Bool} :
    (∀ seen c, walk seen c = ts.roundWith base walk seen c) ↔
      walk = ts.extendsWithin base (ts.size + 2) := by
  have solves : ∀ seen c, ts.extendsWithin base (ts.size + 2) seen c =
      ts.roundWith base (ts.extendsWithin base (ts.size + 2)) seen c := fun seen c =>
    calc
      ts.extendsWithin base (ts.size + 2) seen c = ts.extendsWithin base (ts.size + 3) seen c :=
        extendsWithin_steps keyed _ _ seen c (ts.roundsAhead_lt _)
          (Nat.lt_succ_of_lt (ts.roundsAhead_lt _))
      _ = ts.roundWith base (ts.extendsWithin base (ts.size + 2)) seen c := rfl
  constructor
  · intro solves'
    have agree : ∀ now : List String × ClassType,
        walk now.1 now.2 = ts.extendsWithin base (ts.size + 2) now.1 now.2 := by
      intro now
      induction now using (follows_wf keyed base).induction with
      | _ now ih =>
          calc
            walk now.1 now.2 = ts.roundWith base walk now.1 now.2 := solves' _ _
            _ = ts.roundWith base (ts.extendsWithin base (ts.size + 2)) now.1 now.2 :=
              roundWith_congr ih
            _ = ts.extendsWithin base (ts.size + 2) now.1 now.2 := (solves _ _).symm
    funext seen c
    exact agree (seen, c)
  · rintro rfl
    exact solves

/-! ## What has been passed -/

/-- What is known when a walk has come to the class `c` with the names `seen` behind it: `c` stands
under its own name, the name that is looked for has not been passed, and the base of a class that
has been passed has been passed itself, or it is `c`. -/
structure Passed (ts : TypeSystem) (base : String) (seen : List String) (c : ClassType) :
    Prop where
  declared : ts.findClass? c.fqn = some c
  apart : base ∉ seen
  closed : ∀ passed parent, passed.fqn ∈ seen → ts.findClass? passed.fqn = some passed →
    ts.Derives passed parent → parent.fqn ∈ seen ∨ parent = c

theorem Passed.start (declared : ts.findClass? c.fqn = some c) : ts.Passed base [] c :=
  ⟨declared, List.not_mem_nil, fun _ _ h => absurd h List.not_mem_nil⟩

theorem Passed.follow (keyed : ts.WellKeyed) (h : ts.Passed base seen c) (other : c.fqn ≠ base)
    (derives : ts.Derives c parent) : ts.Passed base (c.fqn :: seen) parent where
  declared := derives.declared keyed
  apart member := (List.mem_cons.1 member).elim (fun e => other e.symm) h.apart
  closed passed next member declared derives' := by
    rcases List.mem_cons.1 member with same | before
    · -- a name stands for one class
      rw [same, h.declared] at declared
      cases declared
      exact .inr (derives'.unique derives)
    · rcases h.closed passed next before declared derives' with passed | rfl
      · exact .inl (List.mem_cons_of_mem _ passed)
      · exact .inl List.mem_cons_self

/-- When a class comes up again, all that lies ahead has been passed. -/
theorem Passed.all_passed (keyed : ts.WellKeyed) (h : ts.Passed base seen c) (again : c.fqn ∈ seen)
    (ahead : Relation.ReflTransGen ts.Derives c d) :
    d.fqn ∈ seen ∧ ts.findClass? d.fqn = some d := by
  induction ahead with
  | refl => exact ⟨again, h.declared⟩
  | tail _ derives ih =>
      obtain ⟨member, declared⟩ := ih
      refine ⟨?_, derives.declared keyed⟩
      rcases h.closed _ _ member declared derives with passed | rfl
      · exact passed
      · exact again

/-- The walk finds a name exactly if it is that of a class ahead. -/
theorem Passed.extendsWithin_iff (keyed : ts.WellKeyed) (h : ts.Passed base seen c) :
    ts.extendsWithin base (ts.size + 2) seen c = true ↔
      ∃ d, Relation.ReflTransGen ts.Derives c d ∧ d.fqn = base := by
  have solves : ∀ seen c, ts.extendsWithin base (ts.size + 2) seen c =
      ts.roundWith base (ts.extendsWithin base (ts.size + 2)) seen c :=
    (roundWith_iff keyed).2 rfl
  generalize hnow : (seen, c) = now
  induction now using (follows_wf keyed base).induction generalizing seen c with
  | _ now ih =>
      subst hnow
      rw [solves]
      unfold roundWith
      split
      · next found => exact iff_of_true rfl ⟨c, .refl, found⟩
      next other =>
      split
      · next again =>
          -- a class that comes up again closes what has been passed, and `base` is not in there
          refine iff_of_false Bool.false_ne_true ?_
          rintro ⟨d, ahead, named⟩
          exact h.apart (named ▸ (h.all_passed keyed again ahead).1)
      next new =>
      cases bound : c.base.bind ts.findClass? with
      | none =>
          refine iff_of_false Bool.false_ne_true ?_
          rintro ⟨d, ahead, named⟩
          rcases ahead.cases_head with rfl | ⟨parent, derives, _⟩
          · exact other named
          · rw [derives_iff, bound] at derives
            cases derives
      | some parent =>
          have derives := derives_iff.2 bound
          refine (ih (_, parent) ⟨other, new, derives, rfl⟩ (h.follow keyed other derives)
            rfl).trans ?_
          constructor
          · rintro ⟨d, ahead, named⟩
            exact ⟨d, .head derives ahead, named⟩
          · rintro ⟨d, ahead, named⟩
            rcases ahead.cases_head with rfl | ⟨next, derives', ahead⟩
            · exact absurd named other
            · exact ⟨d, derives.unique derives' ▸ ahead, named⟩

/-- Lineage is decided. The walk from base to base ends, whatever the bases are, and it is the only
solution of its recursion. A class of the type system extends a name exactly if the name is its own
or that of a class to which its bases lead through declared classes: it makes no difference whether
they run into a circle, with or without the class itself, or come to a name that is not declared or
not that of a class. -/
theorem classExtends_decides_lineage (keyed : ts.WellKeyed) (base : String) :
    (WellFounded fun later now => ts.Follows base now later) ∧
    (∀ walk, (∀ seen c, walk seen c = ts.roundWith base walk seen c) ↔
      walk = ts.extendsWithin base (ts.size + 2)) ∧
    ∀ key c, ts.findClass? key = some c →
      (ts.classExtends c base = true ↔
        ∃ d, Relation.ReflTransGen ts.Derives c d ∧ d.fqn = base) := by
  refine ⟨follows_wf keyed base, fun _ => roundWith_iff keyed, fun key c found => ?_⟩
  have named : c.fqn = key := keyed _ (Dict.mem_of_find? (findClass?_eq_some_iff.1 found))
  have start : ts.Passed base [] c := .start (named ▸ found)
  exact start.extendsWithin_iff keyed

end TypeSystem

/-! ## Example -/

namespace Fleet

/-- A class whose bases run into a circle that it does not lie on. -/
def ferry : ClassType := ⟨"fleet.Ferry", some "fleet.Ship", [], none, [], none⟩

def ship : ClassType := ⟨"fleet.Ship", some "fleet.Hull", [], none, [], none⟩

def hull : ClassType := ⟨"fleet.Hull", some "fleet.Ship", [], none, [], none⟩

/-- A class whose base is an interface. -/
def buoy : ClassType := ⟨"fleet.Buoy", some "fleet.Floating", [], none, [], none⟩

def floating : Definition := .interfaceDef ⟨"fleet.Floating", [], [], none⟩

def types : TypeSystem :=
  ⟨[.classDef ferry, .classDef ship, .classDef hull, .classDef buoy, floating].map
    fun d => (d.fqn, d), []⟩

end Fleet

namespace TypeSystem

/-- In the example the bases of the ferry come to the hull, those of the hull go round in a circle
without coming to the ferry, and those of the buoy stop before an interface. -/
theorem classExtends_decides_fleet : Fleet.types.WellKeyed ∧
    Fleet.types.findClass? "fleet.Ferry" = some Fleet.ferry ∧
    Fleet.types.findClass? "fleet.Hull" = some Fleet.hull ∧
    Fleet.types.findClass? "fleet.Buoy" = some Fleet.buoy ∧
    (∃ d, Relation.ReflTransGen Fleet.types.Derives Fleet.ferry d ∧ d.fqn = "fleet.Hull") ∧
    (¬∃ d, Relation.ReflTransGen Fleet.types.Derives Fleet.hull d ∧ d.fqn = "fleet.Ferry") ∧
    ¬∃ d, Relation.ReflTransGen Fleet.types.Derives Fleet.buoy d ∧ d.fqn = "fleet.Floating" := by
  have keyed : Fleet.types.WellKeyed := by
    unfold WellKeyed
    decide
  have ferry : Fleet.types.findClass? "fleet.Ferry" = some Fleet.ferry := rfl
  have hull : Fleet.types.findClass? "fleet.Hull" = some Fleet.hull := rfl
  have buoy : Fleet.types.findClass? "fleet.Buoy" = some Fleet.buoy := rfl
  obtain ⟨_, _, toHull⟩ := classExtends_decides_lineage keyed "fleet.Hull"
  obtain ⟨_, _, toFerry⟩ := classExtends_decides_lineage keyed "fleet.Ferry"
  obtain ⟨_, _, toFloating⟩ := classExtends_decides_lineage keyed "fleet.Floating"
  refine ⟨keyed, ferry, hull, buoy, ?_, ?_, ?_⟩
  · exact (toHull _ _ ferry).1 (by decide +kernel)
  · rw [← toFerry _ _ hull]
    decide +kernel
  · rw [← toFloating _ _ buoy]
    decide +kernel

end TypeSystem

end ManifestSchema
