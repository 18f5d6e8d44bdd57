/-!
# Layers

A node stands one layer to the right of each of its predecessors, as long as there are layers
left: there are no more of them than nodes. Passes over the edges raise nodes until a pass changes
nothing.
-/

namespace BlockSchematic.Layers

/-- Raises the end of an edge above its start, if both are nodes and the layer exists. -/
def relax (layers : Array Nat) (edge : Nat × Nat) : Array Nat :=
  let (source, target) := edge
  if source = target then layers
  else
    match layers[source]?, layers[target]? with
    | some low, some high =>
      if high < low + 1 ∧ low + 1 < layers.size then layers.setIfInBounds target (low + 1)
      else layers
    | _, _ => layers

def pass (edges : List (Nat × Nat)) (layers : Array Nat) : Array Nat := edges.foldl relax layers

def passes (edges : List (Nat × Nat)) : Nat → Array Nat → Array Nat
  | 0, layers => layers
  | n + 1, layers =>
    let next := pass edges layers
    if next = layers then layers else passes edges n next

/-- The layer of each of `n` nodes. -/
def assign (n : Nat) (edges : List (Nat × Nat)) : Array Nat :=
  passes edges n (Array.replicate n 0)

theorem size_relax (layers : Array Nat) (edge : Nat × Nat) :
    (relax layers edge).size = layers.size := by
  unfold relax
  dsimp only
  split
  · rfl
  · split
    · split <;> simp
    · rfl

theorem size_pass (edges : List (Nat × Nat)) (layers : Array Nat) :
    (pass edges layers).size = layers.size := by
  induction edges generalizing layers with
  | nil => rfl
  | cons e rest ih => exact (ih _).trans (size_relax layers e)

theorem size_passes (edges : List (Nat × Nat)) (n : Nat) (layers : Array Nat) :
    (passes edges n layers).size = layers.size := by
  induction n generalizing layers with
  | zero => rfl
  | succ n ih =>
    rw [passes]
    split
    · rfl
    · rw [ih, size_pass]

@[simp] theorem size_assign (n : Nat) (edges : List (Nat × Nat)) : (assign n edges).size = n := by
  simp [assign, size_passes]

end BlockSchematic.Layers
