import BlockSchematic.Netlist.Forest
import Mathlib.Data.List.Perm.Subperm
import Mathlib.Logic.Relation

/-!
# Roots of a forest

A forest is sound when its parents are nodes and every node climbs to a root. Halving a path
shortens climbs and moves no root. Linking two nodes gives the group of the second the root of the
first, so two nodes have one root exactly when links connect them.
-/

namespace BlockSchematic.Forest

/-- The climb from `x` ends at the root `r` after `n` steps. -/
inductive Climb (f : Forest) : Nat → Nat → Nat → Prop where
  | root {x : Nat} (h : f.parent x = x) : Climb f 0 x x
  | up {n x r : Nat} (h : f.parent x ≠ x) (rest : Climb f n (f.parent x) r) : Climb f (n + 1) x r

def Reaches (f : Forest) (x r : Nat) : Prop := ∃ n, f.Climb n x r

structure Sound (f : Forest) : Prop where
  inRange : ∀ x, x < f.size → f.parent x < f.size
  climbs : ∀ x, ∃ r, f.Reaches x r

theorem lt_size_of_parent_ne {f : Forest} {x : Nat} (h : f.parent x ≠ x) : x < f.size := by
  by_cases hx : x < f.size
  · exact hx
  · rw [size] at hx
    exact absurd (by simp [parent, hx]) h

theorem parent_setParent {f : Forest} {x : Nat} (hx : x < f.size) (p y : Nat) :
    (f.setParent x p).parent y = if y = x then p else f.parent y := by
  rw [size] at hx
  by_cases hy : y = x
  · simp [parent, setParent, hy, hx]
  · simp [parent, setParent, hy, Ne.symm hy]

theorem Climb.unique {f : Forest} {n m x r r' : Nat} (h : f.Climb n x r) (h' : f.Climb m x r') :
    n = m ∧ r = r' := by
  induction h generalizing m with
  | root h =>
    cases h' with
    | root => exact ⟨rfl, rfl⟩
    | up other => exact absurd h other
  | up h _ ih =>
    cases h' with
    | root other => exact absurd other h
    | up _ rest => exact ⟨congrArg (· + 1) (ih rest).1, (ih rest).2⟩

theorem Climb.parent_root {f : Forest} {n x r : Nat} (h : f.Climb n x r) : f.parent r = r := by
  induction h with
  | root h => exact h
  | up _ _ ih => exact ih

theorem Climb.root_lt {f : Forest} {n x r : Nat}
    (inRange : ∀ y, y < f.size → f.parent y < f.size) (h : f.Climb n x r) (hx : x < f.size) :
    r < f.size := by
  induction h with
  | root => exact hx
  | up _ _ ih => exact ih (inRange _ hx)

theorem Climb.parent {f : Forest} {n x r : Nat} (h : f.Climb n x r) :
    ∃ m, m ≤ n ∧ f.Climb m (f.parent x) r := by
  cases h with
  | root h => exact ⟨0, Nat.le_refl 0, by rw [h]; exact .root h⟩
  | up _ rest => exact ⟨_, Nat.le_succ _, rest⟩

/-- The nodes below the root on a climb are different ones, as their distances are. -/
theorem Climb.nodes {f : Forest} {n x r : Nat} (h : f.Climb n x r) :
    ∃ l : List Nat, l.length = n ∧ l.Nodup ∧
      ∀ y ∈ l, y < f.size ∧ ∃ m, m ≤ n ∧ f.Climb m y r := by
  induction h with
  | root => exact ⟨[], rfl, List.nodup_nil, nofun⟩
  | @up n x r h rest ih =>
    obtain ⟨l, hlen, hnodup, hl⟩ := ih
    refine ⟨x :: l, congrArg (· + 1) hlen, List.nodup_cons.2 ⟨?_, hnodup⟩, ?_⟩
    · intro hx
      obtain ⟨_, m, hm, climb⟩ := hl x hx
      have := (climb.unique (.up h rest)).1
      omega
    · intro y hy
      rcases List.mem_cons.1 hy with rfl | hy
      · exact ⟨lt_size_of_parent_ne h, n + 1, Nat.le_refl _, .up h rest⟩
      · obtain ⟨hlt, m, hm, climb⟩ := hl y hy
        exact ⟨hlt, m, by omega, climb⟩

theorem Climb.le_size {f : Forest} {n x r : Nat} (h : f.Climb n x r) : n ≤ f.size := by
  obtain ⟨l, rfl, hnodup, hl⟩ := h.nodes
  have inside : l ⊆ List.range f.size := fun y hy => List.mem_range.2 (hl y hy).1
  simpa using (List.subperm_of_subset hnodup inside).length_le

/-- Past a parent to the grandparent: no climb gets longer and none ends elsewhere. -/
theorem Climb.halve {f : Forest} {n x y r : Nat} (h : f.Climb n y r) (hx : f.parent x ≠ x) :
    ∃ m, m ≤ n ∧ (f.setParent x (f.parent (f.parent x))).Climb m y r := by
  have new := parent_setParent (lt_size_of_parent_ne hx) (f.parent (f.parent x))
  induction h with
  | @root y hy =>
    have other : y ≠ x := by rintro rfl; exact hx hy
    exact ⟨0, Nat.le_refl 0, .root (by rw [new, if_neg other, hy])⟩
  | @up n y r hy rest ih =>
    obtain ⟨m, hm, climb⟩ := ih
    by_cases same : y = x
    · subst same
      obtain ⟨k, hk, above⟩ := rest.parent
      have far : f.parent (f.parent y) ≠ y := by
        intro back
        rw [back] at above
        have := (above.unique (.up hy rest)).1
        omega
      obtain ⟨k', hk', climb'⟩ := climb.parent
      rw [new, if_neg hx] at climb'
      refine ⟨k' + 1, by omega, .up ?_ ?_⟩ <;> rw [new, if_pos rfl]
      · exact far
      · exact climb'
    · refine ⟨m + 1, by omega, .up ?_ ?_⟩ <;> rw [new, if_neg same]
      · exact hy
      · exact climb

theorem Sound.halve {f : Forest} (hf : f.Sound) {x : Nat} (hx : f.parent x ≠ x) :
    (f.setParent x (f.parent (f.parent x))).Sound where
  inRange := by
    intro y hy
    rw [size_setParent] at hy ⊢
    rw [parent_setParent (lt_size_of_parent_ne hx)]
    split
    · exact hf.inRange _ (hf.inRange _ (lt_size_of_parent_ne hx))
    · exact hf.inRange y hy
  climbs := by
    intro y
    obtain ⟨r, n, climb⟩ := hf.climbs y
    obtain ⟨m, -, climb'⟩ := climb.halve hx
    exact ⟨r, m, climb'⟩

/-- A search with enough steps ends at the root. -/
theorem findWithin_fst {f : Forest} {steps n x r : Nat} (h : f.Climb n x r) (enough : n ≤ steps) :
    (findWithin steps f x).1 = r := by
  induction steps generalizing f n x with
  | zero =>
    obtain rfl : n = 0 := by omega
    cases h
    rfl
  | succ steps ih =>
    cases h with
    | root h => rw [findWithin, if_pos h]
    | up h rest =>
      obtain ⟨k, hk, above⟩ := rest.parent
      obtain ⟨m, hm, climb⟩ := above.halve h
      rw [findWithin, if_neg h]
      exact ih climb (by omega)

/-- A search keeps a forest sound and leaves every node its root. -/
theorem Sound.findWithin {f : Forest} (hf : f.Sound) (steps x : Nat) :
    (findWithin steps f x).2.Sound ∧
      ∀ y r, f.Reaches y r → (findWithin steps f x).2.Reaches y r := by
  induction steps generalizing f x with
  | zero => exact ⟨hf, fun _ _ h => h⟩
  | succ steps ih =>
    by_cases hx : f.parent x = x
    · rw [Forest.findWithin, if_pos hx]
      exact ⟨hf, fun _ _ h => h⟩
    · rw [Forest.findWithin, if_neg hx]
      obtain ⟨sound, reaches⟩ := ih (hf.halve hx) (f.parent (f.parent x))
      refine ⟨sound, fun y r h => reaches y r ?_⟩
      obtain ⟨n, climb⟩ := h
      obtain ⟨m, -, climb'⟩ := climb.halve hx
      exact ⟨m, climb'⟩

theorem root_eq_of_reaches {f : Forest} {x r : Nat} (h : f.Reaches x r) : f.root x = r := by
  obtain ⟨n, climb⟩ := h
  exact findWithin_fst climb climb.le_size

theorem Sound.reaches_root {f : Forest} (hf : f.Sound) (x : Nat) : f.Reaches x (f.root x) := by
  obtain ⟨r, h⟩ := hf.climbs x
  rw [root_eq_of_reaches h]
  exact h

theorem Sound.find {f : Forest} (hf : f.Sound) (x : Nat) : (f.find x).2.Sound :=
  (hf.findWithin f.size x).1

@[simp] theorem size_find (f : Forest) (x : Nat) : (f.find x).2.size = f.size :=
  size_findWithin _ _ _

/-- A search changes parents but no root. -/
theorem Sound.root_find {f : Forest} (hf : f.Sound) (x y : Nat) :
    (f.find x).2.root y = f.root y :=
  root_eq_of_reaches ((hf.findWithin f.size x).2 _ _ (hf.reaches_root y))

theorem Sound.root_lt {f : Forest} (hf : f.Sound) {x : Nat} (hx : x < f.size) :
    f.root x < f.size := by
  obtain ⟨n, climb⟩ := hf.reaches_root x
  exact climb.root_lt hf.inRange hx

theorem Sound.parent_root {f : Forest} (hf : f.Sound) (x : Nat) :
    f.parent (f.root x) = f.root x := by
  obtain ⟨n, climb⟩ := hf.reaches_root x
  exact climb.parent_root

/-- A root that is put under another root takes its group along. -/
theorem Climb.graft {f : Forest} {a b n x r : Nat} (ha : f.parent a = a) (hb : f.parent b = b)
    (apart : a ≠ b) (hlt : b < f.size) (h : f.Climb n x r) :
    (f.setParent b a).Reaches x (if r = b then a else r) := by
  have new := parent_setParent hlt a
  have top : (f.setParent b a).Climb 0 a a := .root (by rw [new, if_neg apart, ha])
  induction h with
  | @root x hx =>
    by_cases same : x = b
    · subst same
      rw [if_pos rfl]
      refine ⟨1, .up ?_ ?_⟩ <;> rw [new, if_pos rfl]
      · exact apart
      · exact top
    · rw [if_neg same]
      exact ⟨0, .root (by rw [new, if_neg same, hx])⟩
  | @up n x r hx _ ih =>
    have other : x ≠ b := by rintro rfl; exact hx hb
    obtain ⟨m, climb⟩ := ih
    refine ⟨m + 1, .up ?_ ?_⟩ <;> rw [new, if_neg other]
    · exact hx
    · exact climb

theorem Sound.graft {f : Forest} (hf : f.Sound) {a b : Nat} (ha : f.parent a = a)
    (hb : f.parent b = b) (apart : a ≠ b) (hlta : a < f.size) (hltb : b < f.size) :
    (f.setParent b a).Sound where
  inRange := by
    intro y hy
    rw [size_setParent] at hy ⊢
    rw [parent_setParent hltb]
    split
    · exact hlta
    · exact hf.inRange y hy
  climbs := by
    intro y
    obtain ⟨r, n, climb⟩ := hf.climbs y
    exact ⟨_, climb.graft ha hb apart hltb⟩

@[simp] theorem size_link (f : Forest) (a b : Nat) : (f.link a b).size = f.size := by
  simp only [link]
  split <;> simp

/-- Linking is a search for both roots and, unless they are one, a graft. -/
theorem Sound.link_eq {f : Forest} (hf : f.Sound) (a b : Nat) :
    f.link a b = if f.root a = f.root b then ((f.find a).2.find b).2
      else ((f.find a).2.find b).2.setParent (f.root b) (f.root a) := by
  have moved : ((f.find a).2.find b).1 = f.root b := hf.root_find a b
  simp only [link, moved]
  rfl

/-- Both roots are still roots of the searched forest. -/
theorem Sound.parent_root_find {f : Forest} (hf : f.Sound) (a b x : Nat) :
    ((f.find a).2.find b).2.parent (f.root x) = f.root x := by
  have same : ((f.find a).2.find b).2.root x = f.root x := by
    rw [(hf.find a).root_find, hf.root_find]
  rw [← same]
  exact ((hf.find a).find b).parent_root x

theorem Sound.link {f : Forest} (hf : f.Sound) {a b : Nat} (ha : a < f.size) (hb : b < f.size) :
    (f.link a b).Sound := by
  rw [hf.link_eq]
  split
  · exact (hf.find a).find b
  · rename_i apart
    exact ((hf.find a).find b).graft (hf.parent_root_find a b a) (hf.parent_root_find a b b) apart
      (by simpa using hf.root_lt ha) (by simpa using hf.root_lt hb)

/-- Linking gives the group of the second node the root of the first, and moves no other root. -/
theorem Sound.root_link {f : Forest} (hf : f.Sound) {a b : Nat} (hb : b < f.size) (x : Nat) :
    (f.link a b).root x = if f.root x = f.root b then f.root a else f.root x := by
  have same : ((f.find a).2.find b).2.root x = f.root x := by
    rw [(hf.find a).root_find, hf.root_find]
  rw [hf.link_eq]
  split
  · rename_i one
    rw [same, one]
    split
    · assumption
    · rfl
  · rename_i apart
    obtain ⟨n, climb⟩ := ((hf.find a).find b).reaches_root x
    rw [same] at climb
    exact root_eq_of_reaches (climb.graft (hf.parent_root_find a b a) (hf.parent_root_find a b b)
      apart (by simpa using hf.root_lt hb))

/-- Links along a list of pairs. -/
def linkAll (f : Forest) (pairs : List (Nat × Nat)) : Forest :=
  pairs.foldl (fun f e => f.link e.1 e.2) f

/-- Two nodes are one group already, or a pair of the list. -/
def Touching (f : Forest) (pairs : List (Nat × Nat)) (x y : Nat) : Prop :=
  f.root x = f.root y ∨ (x, y) ∈ pairs

/-- One link and the rest of the pairs connect what all the pairs connect. -/
theorem Sound.eqvGen_touching_cons {f : Forest} (hf : f.Sound) {a b : Nat} (hb : b < f.size)
    (rest : List (Nat × Nat)) (x y : Nat) :
    Relation.EqvGen ((f.link a b).Touching rest) x y ↔
      Relation.EqvGen (f.Touching ((a, b) :: rest)) x y := by
  have link := hf.root_link (a := a) hb
  have near : ∀ {u v}, f.root u = f.root v → Relation.EqvGen (f.Touching ((a, b) :: rest)) u v :=
    fun h => .rel _ _ (.inl h)
  have edge : Relation.EqvGen (f.Touching ((a, b) :: rest)) a b :=
    .rel _ _ (.inr List.mem_cons_self)
  constructor
  · intro h
    induction h with
    | refl x => exact .refl x
    | symm x y _ ih => exact .symm _ _ ih
    | trans x y z _ _ ih ih' => exact .trans _ _ _ ih ih'
    | rel x y h =>
      rcases h with h | h
      · rw [link, link] at h
        by_cases hx : f.root x = f.root b <;> by_cases hy : f.root y = f.root b
        · exact near (hx.trans hy.symm)
        · rw [if_pos hx, if_neg hy] at h
          exact .trans _ _ _ (near hx) (.trans _ _ _ (.symm _ _ edge) (near h))
        · rw [if_neg hx, if_pos hy] at h
          exact .trans _ _ _ (near h) (.trans _ _ _ edge (near hy.symm))
        · rw [if_neg hx, if_neg hy] at h
          exact near h
      · exact .rel _ _ (.inr (List.mem_cons_of_mem _ h))
  · intro h
    induction h with
    | refl x => exact .refl x
    | symm x y _ ih => exact .symm _ _ ih
    | trans x y z _ _ ih ih' => exact .trans _ _ _ ih ih'
    | rel x y h =>
      rcases h with h | h
      · exact .rel _ _ (.inl (by rw [link, link, h]))
      · rcases List.mem_cons.1 h with h | h
        · obtain ⟨rfl, rfl⟩ := Prod.mk.inj h
          refine .rel _ _ (.inl ?_)
          rw [link, link, if_pos rfl]
          split <;> rfl
        · exact .rel _ _ (.inr h)

/-- After all links, two nodes have one root exactly when the pairs and the old groups connect
them. -/
theorem Sound.linkAll {f : Forest} (hf : f.Sound) (pairs : List (Nat × Nat))
    (inRange : ∀ e ∈ pairs, e.1 < f.size ∧ e.2 < f.size) :
    (f.linkAll pairs).Sound ∧ ∀ x y, (f.linkAll pairs).root x = (f.linkAll pairs).root y ↔
      Relation.EqvGen (f.Touching pairs) x y := by
  induction pairs generalizing f with
  | nil =>
    refine ⟨hf, fun x y => ⟨fun h => .rel _ _ (.inl h), fun h => ?_⟩⟩
    induction h with
    | refl x => rfl
    | symm x y _ ih => exact ih.symm
    | trans x y z _ _ ih ih' => exact ih.trans ih'
    | rel x y h => exact h.resolve_right List.not_mem_nil
  | cons e rest ih =>
    obtain ⟨ha, hb⟩ := inRange e List.mem_cons_self
    obtain ⟨sound, roots⟩ := ih (hf.link ha hb) fun e' he' => by
      simpa using inRange e' (List.mem_cons_of_mem _ he')
    exact ⟨sound, fun x y => (roots x y).trans (hf.eqvGen_touching_cons hb rest x y)⟩

theorem parent_discrete (n x : Nat) : (discrete n).parent x = x := by
  simp only [parent, discrete]
  by_cases hx : x < n <;> simp [hx]

theorem sound_discrete (n : Nat) : (discrete n).Sound where
  inRange x hx := by
    rw [parent_discrete]
    exact hx
  climbs x := ⟨x, 0, .root (parent_discrete n x)⟩

@[simp] theorem root_discrete (n x : Nat) : (discrete n).root x = x :=
  root_eq_of_reaches ⟨0, .root (parent_discrete n x)⟩

@[simp] theorem size_discrete (n : Nat) : (discrete n).size = n := by
  simp [size, discrete]

end BlockSchematic.Forest
