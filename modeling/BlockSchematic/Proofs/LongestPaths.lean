import BlockSchematic.Layout.Layers
import Mathlib.Data.List.Nodup
import Mathlib.Data.List.Perm.Subperm
import Mathlib.Logic.Function.Iterate
import Mathlib.Logic.Relation
import Mathlib.Order.Bounds.Basic

/-!
# Layers are longest paths

Where the edges make no cycle, the layer of a node is the number of edges on the longest path that
ends at it. A path without a cycle has fewer edges than there are nodes, so neither the number of
layers nor that of passes gets in the way: passes that know no limit end at the same layers.
-/

namespace BlockSchematic.Layers

variable {n : Nat} {edges : List (Nat × Nat)}

/-- An edge that counts: it leads from a node to another one. -/
structure Joins (n : Nat) (edges : List (Nat × Nat)) (source target : Nat) : Prop where
  listed : (source, target) ∈ edges
  apart : source ≠ target
  source_lt : source < n
  target_lt : target < n

def Acyclic (n : Nat) (edges : List (Nat × Nat)) : Prop :=
  ∀ node, ¬ Relation.TransGen (Joins n edges) node node

/-- A path of so many edges ends at the node. -/
inductive PathTo (n : Nat) (edges : List (Nat × Nat)) : Nat → Nat → Prop where
  | start {node : Nat} (node_lt : node < n) : PathTo n edges 0 node
  | step {length source target : Nat} (before : PathTo n edges length source)
      (edge : Joins n edges source target) : PathTo n edges (length + 1) target

/-- The layer of a node, or 0 for a number that is none. -/
def level (layers : Array Nat) (node : Nat) : Nat := layers.getD node 0

/-- Raises the end of an edge above its start, however many layers that makes. -/
def raise (layers : Array Nat) (edge : Nat × Nat) : Array Nat :=
  if edge.1 ≠ edge.2 ∧ edge.1 < layers.size ∧ edge.2 < layers.size then
    layers.setIfInBounds edge.2 (max (level layers edge.2) (level layers edge.1 + 1))
  else layers

def freePass (edges : List (Nat × Nat)) (layers : Array Nat) : Array Nat :=
  edges.foldl raise layers

/-! ## Paths -/

/-- The nodes of a path are different ones, as a node that came twice would lie on a cycle. -/
theorem PathTo.nodes (acyclic : Acyclic n edges) {length node : Nat}
    (path : PathTo n edges length node) :
    ∃ nodes : List Nat, nodes.length = length + 1 ∧ nodes.Nodup ∧
      ∀ other ∈ nodes, other < n ∧ Relation.ReflTransGen (Joins n edges) other node := by
  induction path with
  | @start node node_lt =>
    refine ⟨[node], rfl, List.nodup_singleton node, fun other here => ?_⟩
    rw [List.mem_singleton.1 here]
    exact ⟨node_lt, .refl⟩
  | @step length source target before edge ih =>
    obtain ⟨nodes, count, nodup, lead⟩ := ih
    have new : target ∉ nodes := fun passed =>
      acyclic target (Relation.TransGen.tail' (lead target passed).2 edge)
    refine ⟨target :: nodes, congrArg (· + 1) count, List.nodup_cons.2 ⟨new, nodup⟩, ?_⟩
    intro other here
    rcases List.mem_cons.1 here with rfl | earlier
    · exact ⟨edge.target_lt, .refl⟩
    · exact ⟨(lead other earlier).1, (lead other earlier).2.tail edge⟩

theorem PathTo.lt (acyclic : Acyclic n edges) {length node : Nat}
    (path : PathTo n edges length node) : length < n := by
  obtain ⟨nodes, count, nodup, lead⟩ := path.nodes acyclic
  have inside : nodes ⊆ List.range n := fun other here => List.mem_range.2 (lead other here).1
  have fits := (List.subperm_of_subset nodup inside).length_le
  rw [count, List.length_range] at fits
  exact fits

theorem PathTo.mono {others : List (Nat × Nat)} (sub : edges ⊆ others) {length node : Nat}
    (path : PathTo n edges length node) : PathTo n others length node := by
  induction path with
  | start node_lt => exact .start node_lt
  | step _ edge ih =>
    exact .step ih ⟨sub edge.listed, edge.apart, edge.source_lt, edge.target_lt⟩

/-! ## Passes without a limit -/

@[simp] theorem size_raise (layers : Array Nat) (edge : Nat × Nat) :
    (raise layers edge).size = layers.size := by
  rw [raise]
  split
  · exact Array.size_setIfInBounds
  · rfl

@[simp] theorem size_freePass (edges : List (Nat × Nat)) (layers : Array Nat) :
    (freePass edges layers).size = layers.size := by
  induction edges generalizing layers with
  | nil => rfl
  | cons edge rest ih => exact (ih _).trans (size_raise layers edge)

theorem ext_level {layers others : Array Nat} (size : layers.size = others.size)
    (same : ∀ node, node < layers.size → level layers node = level others node) :
    layers = others := by
  refine Array.ext size fun node inside inside' => ?_
  simpa [level, inside, inside'] using same node inside

theorem level_set {layers : Array Nat} {target : Nat} (inside : target < layers.size)
    (value node : Nat) :
    level (layers.setIfInBounds target value) node =
      if node = target then value else level layers node := by
  by_cases same : node = target
  · simp [level, same, inside]
  · simp [level, same, Ne.symm same]

theorem level_raise_target {layers : Array Nat} {source target : Nat} (apart : source ≠ target)
    (source_lt : source < layers.size) (target_lt : target < layers.size) :
    level (raise layers (source, target)) target =
      max (level layers target) (level layers source + 1) := by
  rw [raise, if_pos ⟨apart, source_lt, target_lt⟩, level_set target_lt, if_pos rfl]

theorem level_le_raise (layers : Array Nat) (edge : Nat × Nat) (node : Nat) :
    level layers node ≤ level (raise layers edge) node := by
  rw [raise]
  split
  · rename_i counts
    rw [level_set counts.2.2]
    split
    · rename_i same
      rw [same]
      exact Nat.le_max_left _ _
    · exact Nat.le_refl _
  · exact Nat.le_refl _

theorem level_le_freePass (edges : List (Nat × Nat)) (layers : Array Nat) (node : Nat) :
    level layers node ≤ level (freePass edges layers) node := by
  induction edges generalizing layers with
  | nil => exact Nat.le_refl _
  | cons edge rest ih => exact (level_le_raise layers edge node).trans (ih _)

/-- Each node that stands somewhere has a path of that many edges. -/
structure Supported (n : Nat) (edges : List (Nat × Nat)) (layers : Array Nat) : Prop where
  size : layers.size = n
  path : ∀ node, node < n → PathTo n edges (level layers node) node

/-- Every node stands at least as far to the right as its paths of up to `bound` edges are long. -/
def Covers (n : Nat) (edges : List (Nat × Nat)) (bound : Nat) (layers : Array Nat) : Prop :=
  ∀ length node, length ≤ bound → PathTo n edges length node → length ≤ level layers node

theorem Supported.raise {layers : Array Nat} (supported : Supported n edges layers)
    {edge : Nat × Nat} (listed : edge ∈ edges) : Supported n edges (raise layers edge) where
  size := (size_raise layers edge).trans supported.size
  path := by
    intro node node_lt
    rw [Layers.raise]
    split
    · rename_i counts
      obtain ⟨apart, source_lt, target_lt⟩ := counts
      rw [level_set target_lt]
      rw [supported.size] at source_lt target_lt
      split
      · rename_i same
        rw [same]
        have joins : Joins n edges edge.1 edge.2 := ⟨listed, apart, source_lt, target_lt⟩
        rcases Nat.le_total (level layers edge.2) (level layers edge.1 + 1) with below | above
        · rw [Nat.max_eq_right below]
          exact .step (supported.path edge.1 source_lt) joins
        · rw [Nat.max_eq_left above]
          exact supported.path edge.2 target_lt
      · exact supported.path node node_lt
    · exact supported.path node node_lt

/-- A pass takes every path one edge further: when it comes to the last edge of a path, the start of
that edge stands far enough to the right, and it does not go back. -/
theorem Covers.freePass {bound : Nat} {layers : Array Nat} (size : layers.size = n)
    (covers : Covers n edges bound layers) : Covers n edges (bound + 1) (freePass edges layers) := by
  intro length node short path
  cases path with
  | start => exact Nat.zero_le _
  | @step length source target before edge =>
    have reached : length ≤ level layers source := covers length source (by omega) before
    obtain ⟨front, back, split⟩ := List.append_of_mem edge.listed
    have passed : Layers.freePass edges layers =
        Layers.freePass back (raise (Layers.freePass front layers) (source, node)) := by
      rw [Layers.freePass, split, List.foldl_append, List.foldl_cons]
      rfl
    have here : level layers source ≤ level (Layers.freePass front layers) source :=
      level_le_freePass front layers source
    have raised : level (raise (Layers.freePass front layers) (source, node)) node =
        max (level (Layers.freePass front layers) node)
          (level (Layers.freePass front layers) source + 1) :=
      level_raise_target edge.apart (by rw [size_freePass, size]; exact edge.source_lt)
        (by rw [size_freePass, size]; exact edge.target_lt)
    have kept := level_le_freePass back (raise (Layers.freePass front layers) (source, node)) node
    rw [passed]
    omega

theorem level_zeros (n node : Nat) : level (Array.replicate n 0) node = 0 := by
  by_cases inside : node < n <;> simp [level, inside]

theorem supported_zeros (n : Nat) (edges : List (Nat × Nat)) :
    Supported n edges (Array.replicate n 0) where
  size := Array.size_replicate
  path := by
    intro node node_lt
    rw [level_zeros]
    exact .start node_lt

theorem covers_zeros (n : Nat) (edges : List (Nat × Nat)) :
    Covers n edges 0 (Array.replicate n 0) := by
  intro length node short _
  rw [level_zeros]
  exact short

theorem Supported.foldl_raise {layers : Array Nat} (supported : Supported n edges layers)
    {rest : List (Nat × Nat)} (sub : rest ⊆ edges) :
    Supported n edges (rest.foldl Layers.raise layers) := by
  induction rest generalizing layers with
  | nil => exact supported
  | cons edge rest ih =>
    obtain ⟨listed, others⟩ := List.cons_subset.1 sub
    exact ih (supported.raise listed) others

theorem iterate_freePass (n : Nat) (edges : List (Nat × Nat)) (rounds : Nat) :
    Supported n edges ((freePass edges)^[rounds] (Array.replicate n 0)) ∧
      Covers n edges rounds ((freePass edges)^[rounds] (Array.replicate n 0)) := by
  induction rounds with
  | zero => exact ⟨supported_zeros n edges, covers_zeros n edges⟩
  | succ rounds ih =>
    obtain ⟨supported, covers⟩ := ih
    rw [Function.iterate_succ_apply']
    exact ⟨supported.foldl_raise (List.Subset.refl edges), covers.freePass supported.size⟩

/-! ## The limits are out of reach -/

theorem relax_of_joins {layers : Array Nat} (size : layers.size = n) {source target : Nat}
    (edge : Joins n edges source target) :
    relax layers (source, target) =
      if level layers target < level layers source + 1 ∧ level layers source + 1 < n then
        layers.setIfInBounds target (level layers source + 1)
      else layers := by
  have low : layers[source]? = some (level layers source) := by
    simp [level, size, edge.source_lt]
  have high : layers[target]? = some (level layers target) := by
    simp [level, size, edge.target_lt]
  simp only [relax, if_neg edge.apart, low, high, size]

/-- A loop or an edge with an end that is no node changes nothing. -/
theorem relax_of_not_joins {layers : Array Nat} (size : layers.size = n) {source target : Nat}
    (listed : (source, target) ∈ edges) (idle : ¬ Joins n edges source target) :
    relax layers (source, target) = layers := by
  by_cases loop : source = target
  · simp only [relax, if_pos loop]
  · have outside : layers[source]? = none ∨ layers[target]? = none := by
      rw [Array.getElem?_eq_none_iff, Array.getElem?_eq_none_iff]
      by_contra inside
      exact idle ⟨listed, loop, by omega, by omega⟩
    simp only [relax, if_neg loop]
    rcases outside with missing | missing
    · rw [missing]
    · rw [missing]
      cases layers[source]? <;> rfl

/-- A path has fewer edges than there are nodes, so the end of an edge may always be raised. -/
theorem Supported.relax_eq (acyclic : Acyclic n edges) {layers : Array Nat}
    (supported : Supported n edges layers) {edge : Nat × Nat} (listed : edge ∈ edges) :
    relax layers edge = Layers.raise layers edge := by
  obtain ⟨source, target⟩ := edge
  by_cases joins : Joins n edges source target
  · have target_lt : target < layers.size := supported.size ▸ joins.target_lt
    have room : level layers source + 1 < n :=
      (PathTo.step (supported.path source joins.source_lt) joins).lt acyclic
    rw [Layers.raise, if_pos ⟨joins.apart, supported.size ▸ joins.source_lt, target_lt⟩,
      relax_of_joins supported.size joins]
    simp only [room, and_true]
    split
    · rename_i below
      rw [Nat.max_eq_right (Nat.le_of_lt below)]
    · rename_i above
      rw [Nat.max_eq_left (Nat.le_of_not_lt above)]
      refine ext_level Array.size_setIfInBounds.symm fun node _ => ?_
      rw [level_set target_lt]
      split
      · rename_i same
        rw [same]
      · rfl
  · rw [relax_of_not_joins supported.size listed joins, Layers.raise, if_neg]
    rintro ⟨apart, source_lt, target_lt⟩
    exact joins ⟨listed, apart, supported.size ▸ source_lt, supported.size ▸ target_lt⟩

theorem Supported.foldl_relax (acyclic : Acyclic n edges) {layers : Array Nat}
    (supported : Supported n edges layers) {rest : List (Nat × Nat)} (sub : rest ⊆ edges) :
    rest.foldl relax layers = rest.foldl Layers.raise layers := by
  induction rest generalizing layers with
  | nil => rfl
  | cons edge rest ih =>
    obtain ⟨listed, others⟩ := List.cons_subset.1 sub
    rw [List.foldl_cons, List.foldl_cons, supported.relax_eq acyclic listed]
    exact ih (supported.raise listed) others

theorem iterate_pass (acyclic : Acyclic n edges) (rounds : Nat) :
    (pass edges)^[rounds] (Array.replicate n 0) =
      (freePass edges)^[rounds] (Array.replicate n 0) := by
  induction rounds with
  | zero => rfl
  | succ rounds ih =>
    rw [Function.iterate_succ_apply', Function.iterate_succ_apply', ih]
    exact (iterate_freePass n edges rounds).1.foldl_relax acyclic (List.Subset.refl edges)

/-- To stop at a pass that changes nothing is to go on with it. -/
theorem passes_eq_iterate (edges : List (Nat × Nat)) (rounds : Nat) (layers : Array Nat) :
    passes edges rounds layers = (pass edges)^[rounds] layers := by
  induction rounds generalizing layers with
  | zero => rfl
  | succ rounds ih =>
    rw [passes, Function.iterate_succ_apply]
    split
    · rename_i fixed
      rw [fixed, Function.iterate_fixed fixed]
    · exact ih (pass edges layers)

/-- With at least as many passes as nodes, every node stands where its longest path puts it. -/
theorem isGreatest_level (acyclic : Acyclic n edges) {rounds : Nat} (enough : n ≤ rounds)
    {node : Nat} (node_lt : node < n) :
    IsGreatest {length | PathTo n edges length node}
      (level ((freePass edges)^[rounds] (Array.replicate n 0)) node) := by
  obtain ⟨supported, covers⟩ := iterate_freePass n edges rounds
  refine ⟨supported.path node node_lt, fun length path => ?_⟩
  exact covers length node ((path.lt acyclic).le.trans enough) path

theorem assign_eq (acyclic : Acyclic n edges) :
    assign n edges = (freePass edges)^[n] (Array.replicate n 0) :=
  (passes_eq_iterate edges n _).trans (iterate_pass acyclic n)

theorem assign_isGreatest (acyclic : Acyclic n edges) {node : Nat} (node_lt : node < n) :
    IsGreatest {length | PathTo n edges length node} (level (assign n edges) node) := by
  rw [assign_eq acyclic]
  exact isGreatest_level acyclic (Nat.le_refl n) node_lt

theorem getElem?_assign {node : Nat} (node_lt : node < n) :
    (assign n edges)[node]? = some (level (assign n edges) node) := by
  simp [level, node_lt]

theorem Acyclic.mono {others : List (Nat × Nat)} (sub : others ⊆ edges)
    (acyclic : Acyclic n edges) : Acyclic n others := by
  intro node cycle
  have kept : ∀ source target, Joins n others source target → Joins n edges source target :=
    fun _ _ edge => ⟨sub edge.listed, edge.apart, edge.source_lt, edge.target_lt⟩
  exact acyclic node (Relation.TransGen.mono kept _ _ cycle)

/-- Where the edges that count make no cycle, the layer of a node is the length of the longest path
that ends at it: nodes without such an edge before them stand in layer 0, and every such edge leads
to the right. How the edges are listed does not matter, and passes without a limit on layers, as
many of them as one likes from one for each node on, end at the same layers. -/
theorem layers_are_longest_paths (acyclic : Acyclic n edges) :
    (∀ node, node < n → ∃ layer, (assign n edges)[node]? = some layer ∧
      IsGreatest {length | PathTo n edges length node} layer) ∧
    (∀ node, node < n → (∀ source, ¬ Joins n edges source node) →
      (assign n edges)[node]? = some 0) ∧
    (∀ source target, Joins n edges source target → ∃ low high,
      (assign n edges)[source]? = some low ∧ (assign n edges)[target]? = some high ∧ low < high) ∧
    (∀ others : List (Nat × Nat), (∀ edge, edge ∈ others ↔ edge ∈ edges) →
      assign n others = assign n edges) ∧
    ∀ rounds, n ≤ rounds → (freePass edges)^[rounds] (Array.replicate n 0) = assign n edges := by
  refine ⟨fun node node_lt => ?_, fun node node_lt first => ?_, fun source target edge => ?_,
    fun others same => ?_, fun rounds enough => ?_⟩
  · exact ⟨_, getElem?_assign node_lt, assign_isGreatest acyclic node_lt⟩
  · have path := (assign_isGreatest acyclic node_lt).1
    rw [getElem?_assign node_lt]
    generalize level (assign n edges) node = layer at path ⊢
    cases path with
    | start => rfl
    | step _ edge => exact absurd edge (first _)
  · refine ⟨_, _, getElem?_assign edge.source_lt, getElem?_assign edge.target_lt, ?_⟩
    have longer := PathTo.step (assign_isGreatest acyclic edge.source_lt).1 edge
    exact (assign_isGreatest acyclic edge.target_lt).2 longer
  · have sub : others ⊆ edges := fun edge => (same edge).1
    have sup : edges ⊆ others := fun edge => (same edge).2
    refine ext_level (by simp) fun node inside => ?_
    have node_lt : node < n := by simpa using inside
    have here := assign_isGreatest (acyclic.mono sub) node_lt
    have there := assign_isGreatest acyclic node_lt
    exact Nat.le_antisymm (there.2 (here.1.mono sub)) (here.2 (there.1.mono sup))
  · have size := (iterate_freePass n edges rounds).1.size
    refine ext_level (by rw [size, size_assign]) fun node inside => ?_
    rw [size] at inside
    exact (isGreatest_level acyclic enough inside).unique (assign_isGreatest acyclic inside)

/-- A chain of four nodes, listed from its end, with a shorter way, a loop and an edge from
nowhere. -/
def crossedEdges : List (Nat × Nat) := [(2, 3), (0, 2), (1, 2), (0, 1), (3, 3), (9, 0)]

theorem acyclic_crossedEdges : Acyclic 4 crossedEdges := by
  intro node cycle
  have up : ∀ {source target}, Joins 4 crossedEdges source target → source < target := by
    intro source target edge
    have listed : ∀ e ∈ crossedEdges, e.1 ≠ e.2 → e.1 < 4 → e.1 < e.2 := by decide
    exact listed _ edge.listed edge.apart edge.source_lt
  have higher : ∀ {source target}, Relation.TransGen (Joins 4 crossedEdges) source target →
      source < target := by
    intro source target way
    induction way with
    | single edge => exact up edge
    | tail _ edge ih => exact ih.trans (up edge)
  exact Nat.lt_irrefl node (higher cycle)

/-- The longest path to the last node takes the whole chain. -/
theorem crossedEdges_last_layer : ∃ layer, (assign 4 crossedEdges)[3]? = some layer ∧
    IsGreatest {length | PathTo 4 crossedEdges length 3} layer ∧ layer = 3 := by
  obtain ⟨layer, here, greatest⟩ :=
    (layers_are_longest_paths acyclic_crossedEdges).1 3 (by decide)
  have value : (assign 4 crossedEdges)[3]? = some 3 := by decide
  exact ⟨layer, here, greatest, Option.some.inj (here.symm.trans value)⟩

end BlockSchematic.Layers
