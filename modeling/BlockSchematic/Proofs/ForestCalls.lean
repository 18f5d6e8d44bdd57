import BlockSchematic.Proofs.Forest
import Mathlib.Logic.Function.Iterate

/-!
# Forests in use

A forest grows from the empty one by adding nodes, linking nodes that were added and searching for
their roots. Its parents stay nodes and make no cycle, so a search comes to its end. Every round of
a search writes a parent, but no round moves a root, and two nodes have one root exactly when the
links made so far connect them.
-/

namespace BlockSchematic.Forest

/-- The forest that some calls have made of the empty one, with the pairs that were linked. -/
inductive Made : List (Nat × Nat) → Forest → Prop where
  | empty : Made [] .empty
  | add {pairs : List (Nat × Nat)} {f : Forest} (made : Made pairs f) : Made pairs f.add
  | find {pairs : List (Nat × Nat)} {f : Forest} {x : Nat} (made : Made pairs f)
      (known : x < f.size) : Made pairs (f.find x).2
  | link {pairs : List (Nat × Nat)} {f : Forest} {a b : Nat} (made : Made pairs f)
      (first : a < f.size) (second : b < f.size) : Made ((a, b) :: pairs) (f.link a b)

/-- Parents are nodes, and only a root leads back to itself. -/
structure Rooted (f : Forest) : Prop where
  inRange : ∀ x, x < f.size → f.parent x < f.size
  acyclic : ∀ x n, 0 < n → f.parent^[n] x = x → f.parent x = x

/-- One round of a search, at a node that is no root: the node is put under its grandparent, where
the search goes on. -/
inductive Round : Forest × Nat → Forest × Nat → Prop where
  | up {f : Forest} {x : Nat} (h : f.parent x ≠ x) :
      Round (f, x) (f.setParent x (f.parent (f.parent x)), f.parent (f.parent x))

/-- The two nodes are a linked pair. -/
def Paired (pairs : List (Nat × Nat)) (x y : Nat) : Prop := (x, y) ∈ pairs

/-! ## Cycles -/

/-- After some of the steps of a climb the others are left. -/
theorem Climb.iterate {f : Forest} {n x r : Nat} (h : f.Climb n x r) (k : Nat) :
    f.Climb (n - k) (f.parent^[k] x) r := by
  induction k with
  | zero => exact h
  | succ k ih =>
    rw [Function.iterate_succ_apply']
    generalize f.parent^[k] x = y at ih ⊢
    generalize left : n - k = m at ih
    cases ih with
    | root top =>
      have none : n - (k + 1) = 0 := by omega
      rw [none, top]
      exact .root top
    | @up m _ _ _ rest =>
      have fewer : n - (k + 1) = m := by omega
      rw [fewer]
      exact rest

theorem Sound.rooted {f : Forest} (hf : f.Sound) : f.Rooted where
  inRange := hf.inRange
  acyclic := by
    intro x k positive back
    obtain ⟨r, n, climb⟩ := hf.climbs x
    -- A climb that came back to `x` would be shorter than itself.
    have again := climb.iterate k
    rw [back] at again
    have same : n - k = n := (again.unique climb).1
    obtain rfl : n = 0 := by omega
    cases climb with
    | root top => exact top

/-! ## Adding a node -/

/-- A new node is its own parent, as a number that is no node yet. -/
theorem parent_add (f : Forest) : f.add.parent = f.parent := by
  funext x
  simp only [parent, add, Array.getD_eq_getD_getElem?, Array.getElem?_push]
  split
  · rename_i new
    simp [new]
  · rfl

theorem Climb.congr {f g : Forest} (same : g.parent = f.parent) {n x r : Nat}
    (h : f.Climb n x r) : g.Climb n x r := by
  induction h with
  | root top => exact .root (same ▸ top)
  | up below _ ih => exact .up (same ▸ below) (same ▸ ih)

theorem Sound.add {f : Forest} (hf : f.Sound) : f.add.Sound where
  inRange := by
    intro x known
    rw [size_add] at known ⊢
    rw [parent_add]
    by_cases old : x < f.size
    · have := hf.inRange x old
      omega
    · have new : ¬ f.parent x ≠ x := fun below => old (lt_size_of_parent_ne below)
      omega
  climbs := by
    intro x
    obtain ⟨r, n, climb⟩ := hf.climbs x
    exact ⟨r, n, climb.congr f.parent_add⟩

theorem Sound.root_add {f : Forest} (hf : f.Sound) (x : Nat) : f.add.root x = f.root x := by
  obtain ⟨n, climb⟩ := hf.reaches_root x
  exact root_eq_of_reaches ⟨n, climb.congr f.parent_add⟩

/-! ## Rounds of a search -/

/-- What a round of a search keeps. -/
structure Kept (f : Forest) (x : Nat) (g : Forest) (y : Nat) : Prop where
  sound : g.Sound
  size : g.size = f.size
  known : y < g.size
  root : ∀ z, g.root z = f.root z

theorem Kept.round {f g g' : Forest} {x y y' : Nat} (kept : Kept f x g y)
    (round : Round (g, y) (g', y')) : Kept f x g' y' := by
  cases round with
  | up below =>
    obtain ⟨hg, size, known, root⟩ := kept
    refine ⟨hg.halve below, (size_setParent ..).trans size, ?_, fun z => ?_⟩
    · rw [size_setParent]
      exact hg.inRange _ (hg.inRange _ known)
    · obtain ⟨n, climb⟩ := hg.reaches_root z
      obtain ⟨m, -, climb'⟩ := climb.halve below
      rw [root_eq_of_reaches ⟨m, climb'⟩, root z]

theorem Kept.rounds {f g : Forest} {x y : Nat} (hf : f.Sound) (known : x < f.size)
    (rounds : Relation.ReflTransGen Round (f, x) (g, y)) : Kept f x g y := by
  generalize last : (g, y) = state at rounds
  induction rounds generalizing g y with
  | refl =>
    obtain ⟨rfl, rfl⟩ := Prod.mk.inj last
    exact ⟨hf, rfl, known, fun _ => rfl⟩
  | @tail before _ _ round ih =>
    subst last
    exact (ih rfl).round round

theorem rounds_findWithin (steps : Nat) (f : Forest) (x : Nat) :
    Relation.ReflTransGen Round (f, x)
      ((findWithin steps f x).2, (findWithin steps f x).1) := by
  induction steps generalizing f x with
  | zero => exact .refl
  | succ steps ih =>
    rw [findWithin]
    split
    · exact .refl
    · rename_i below
      exact .head (.up below) (ih _ _)

/-- A search that has ended stands at the root. -/
theorem Sound.rounds_find {f : Forest} (hf : f.Sound) (x : Nat) :
    Relation.ReflTransGen Round (f, x) ((f.find x).2, (f.find x).1) ∧
      (f.find x).2.parent (f.find x).1 = (f.find x).1 := by
  refine ⟨rounds_findWithin f.size f x, ?_⟩
  have top := (hf.find x).parent_root x
  rwa [hf.root_find] at top

/-! ## Groups -/

theorem eqvGen_paired_nil (x y : Nat) : Relation.EqvGen (Paired []) x y ↔ x = y := by
  constructor
  · intro connected
    induction connected with
    | rel x y listed => cases listed
    | refl x => rfl
    | symm x y _ ih => exact ih.symm
    | trans x y z _ _ ih ih' => exact ih.trans ih'
  · rintro rfl
    exact .refl x

/-- If nodes have one root where some pairs connect them, then roots and further pairs connect what
all the pairs connect. -/
theorem eqvGen_touching_iff {f : Forest} {old new : List (Nat × Nat)}
    (groups : ∀ x y, f.root x = f.root y ↔ Relation.EqvGen (Paired old) x y) (x y : Nat) :
    Relation.EqvGen (f.Touching new) x y ↔ Relation.EqvGen (Paired (new ++ old)) x y := by
  constructor
  · intro connected
    have classes := Relation.EqvGen.is_equivalence (Paired (new ++ old))
    refine classes.eqvGen_iff.1 (Relation.EqvGen.mono (fun u v touching => ?_) x y connected)
    rcases touching with one | listed
    · have before := (groups u v).1 one
      exact Relation.EqvGen.mono (fun _ _ => List.mem_append_right new) u v before
    · exact .rel _ _ (List.mem_append_left old listed)
  · refine Relation.EqvGen.mono (fun u v listed => ?_) x y
    rcases List.mem_append.1 listed with here | before
    · exact .inr here
    · exact .inl ((groups u v).2 (.rel _ _ before))

/-- What every call keeps. -/
theorem Made.sound_groups {pairs : List (Nat × Nat)} {f : Forest} (made : Made pairs f) :
    f.Sound ∧ ∀ x y, f.root x = f.root y ↔ Relation.EqvGen (Paired pairs) x y := by
  induction made with
  | empty =>
    refine ⟨sound_discrete 0, fun x y => ?_⟩
    have alone : ∀ z, Forest.empty.root z = z := root_discrete 0
    rw [alone, alone, eqvGen_paired_nil]
  | add _ ih =>
    obtain ⟨hf, groups⟩ := ih
    refine ⟨hf.add, fun x y => ?_⟩
    rw [hf.root_add, hf.root_add, groups]
  | @find _ _ z _ _ ih =>
    obtain ⟨hf, groups⟩ := ih
    refine ⟨hf.find z, fun x y => ?_⟩
    rw [hf.root_find, hf.root_find, groups]
  | @link pairs f a b _ first second ih =>
    obtain ⟨hf, groups⟩ := ih
    refine ⟨hf.link first second, fun x y => ?_⟩
    have linked := (hf.linkAll [(a, b)] (by simpa using ⟨first, second⟩)).2 x y
    exact linked.trans (eqvGen_touching_iff groups x y)

/-- In a forest made by any calls parents are nodes and make no cycle. A search from a node goes
round by round to a root, where it ends. After each round the parents are still such, the search
stands at a node, and every number has the root it had. Searches from two nodes, one after the other,
find one root exactly when the linked pairs connect the nodes. -/
theorem roots_follow_links {pairs : List (Nat × Nat)} {f : Forest} (made : Made pairs f) :
    f.Rooted ∧
    (∀ x, x < f.size →
      (Relation.ReflTransGen Round (f, x) ((f.find x).2, (f.find x).1) ∧
        (f.find x).2.parent (f.find x).1 = (f.find x).1) ∧
      ∀ g y, Relation.ReflTransGen Round (f, x) (g, y) →
        g.Rooted ∧ g.size = f.size ∧ y < f.size ∧ ∀ z, g.root z = f.root z) ∧
    ∀ x y, x < f.size → y < f.size →
      ((f.find x).1 = ((f.find x).2.find y).1 ↔ Relation.EqvGen (Paired pairs) x y) := by
  obtain ⟨hf, groups⟩ := made.sound_groups
  refine ⟨hf.rooted, fun x known => ⟨hf.rounds_find x, fun g y rounds => ?_⟩, fun x y _ _ => ?_⟩
  · obtain ⟨hg, size, there, root⟩ := Kept.rounds hf known rounds
    exact ⟨hg.rooted, size, size ▸ there, root⟩
  · have second : ((f.find x).2.find y).1 = f.root y := hf.root_find x y
    rw [second]
    exact groups x y

/-- Four nodes of which three are linked, one below the other. -/
def chainedNodes : Forest := (empty.add.add.add.add.link 1 0).link 2 0

def searchedChain : Forest := (chainedNodes.find 0).2

theorem made_searchedChain : Made [(2, 0), (1, 0)] searchedChain :=
  .find (.link (.link (.add (.add (.add (.add .empty)))) (by decide) (by decide)) (by decide)
    (by decide)) (by decide)

/-- The search has put the lowest node elsewhere, and the two above it still have one root. -/
theorem searchedChain_one_root :
    searchedChain.parent 0 ≠ chainedNodes.parent 0 ∧
      (searchedChain.find 1).1 = ((searchedChain.find 1).2.find 2).1 := by
  have pair : ∀ {a b : Nat}, (a, b) ∈ [(2, 0), (1, 0)] →
      Relation.EqvGen (Paired [(2, 0), (1, 0)]) a b := fun listed => .rel _ _ listed
  have connected : Relation.EqvGen (Paired [(2, 0), (1, 0)]) 1 2 :=
    .trans 1 0 2 (pair (by decide)) (.symm 2 0 (pair (by decide)))
  obtain ⟨-, -, groups⟩ := roots_follow_links made_searchedChain
  exact ⟨by decide, (groups 1 2 (by decide) (by decide)).2 connected⟩

end BlockSchematic.Forest
