/-!
# Linked groups

Each node of a forest has a parent; a node that is its own parent is a root and stands for its
group. Linking two nodes makes one root the parent of the other. A search for the root halves the
path it walks, which changes parents but no root.
-/

namespace BlockSchematic

structure Forest where
  parents : Array Nat
  deriving DecidableEq, Repr

namespace Forest

def size (f : Forest) : Nat := f.parents.size

def parent (f : Forest) (x : Nat) : Nat := f.parents.getD x x

def empty : Forest := ⟨#[]⟩

/-- Adds a node that is alone in its group. -/
def add (f : Forest) : Forest := ⟨f.parents.push f.parents.size⟩

/-- The forest of `n` nodes without links. -/
def discrete (n : Nat) : Forest := ⟨Array.range n⟩

def setParent (f : Forest) (x p : Nat) : Forest := ⟨f.parents.setIfInBounds x p⟩

/-- Walks up at most `steps` times, each time past a parent. -/
def findWithin : Nat → Forest → Nat → Nat × Forest
  | 0, f, x => (x, f)
  | steps + 1, f, x =>
    if f.parent x = x then (x, f)
    else
      let above := f.parent (f.parent x)
      findWithin steps (f.setParent x above) above

/-- The root of a node, and the forest with shorter paths. No path is longer than the forest. -/
def find (f : Forest) (x : Nat) : Nat × Forest := findWithin f.size f x

def root (f : Forest) (x : Nat) : Nat := (f.find x).1

/-- Joins the groups of two nodes under the root of the first. -/
def link (f : Forest) (a b : Nat) : Forest :=
  let (rootA, f) := f.find a
  let (rootB, f) := f.find b
  if rootA = rootB then f else f.setParent rootB rootA

@[simp] theorem size_setParent (f : Forest) (x p : Nat) : (f.setParent x p).size = f.size := by
  simp [size, setParent]

@[simp] theorem size_add (f : Forest) : f.add.size = f.size + 1 := by
  simp [size, add]

theorem size_findWithin (steps : Nat) (f : Forest) (x : Nat) :
    (findWithin steps f x).2.size = f.size := by
  induction steps generalizing f x with
  | zero => rfl
  | succ steps ih =>
    rw [findWithin]
    split
    · rfl
    · rw [ih, size_setParent]

end Forest

end BlockSchematic
