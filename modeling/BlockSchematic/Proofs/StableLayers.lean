import BlockSchematic.Proofs.LongestPaths

/-!
# Layers are stable

With cycles among the edges a node is not raised past the last layer, so its layer need not be that
of a longest path. The passes settle all the same. A node that a pass raises was below a node that
rose after the same edge was tried the last time, and so on back to the first pass: what the pass
with the number `k` raises it raises to layer `k` at least. There are no more layers than nodes, so
there are no more such passes.
-/

namespace BlockSchematic.Layers

variable {n : Nat} {edges : List (Nat × Nat)}

/-- The edge leads to the right or starts in the last layer, or else it starts no further left than
at the bound. -/
def Settled (n bound : Nat) (layers : Array Nat) (source target : Nat) : Prop :=
  level layers source < level layers target ∨ n ≤ level layers source + 1 ∨
    bound ≤ level layers source

/-- The edges of a list that count are settled. -/
def AllSettled (n : Nat) (edges : List (Nat × Nat)) (bound : Nat) (layers : Array Nat) : Prop :=
  ∀ source target, Joins n edges source target → Settled n bound layers source target

/-! ## One edge -/

/-- What one edge can do: nothing, as it is stable or does not count, or raise its end above its
start. -/
theorem relax_cases {layers : Array Nat} (size : layers.size = n) {source target : Nat}
    (listed : (source, target) ∈ edges) :
    (relax layers (source, target) = layers ∧ (Joins n edges source target →
      level layers source < level layers target ∨ n ≤ level layers source + 1)) ∨
    (Joins n edges source target ∧ level layers target ≤ level layers source ∧
      level layers source + 1 < n ∧
      ∀ node, level (relax layers (source, target)) node =
        if node = target then level layers source + 1 else level layers node) := by
  by_cases edge : Joins n edges source target
  · rw [relax_of_joins size edge]
    split
    · rename_i raised
      refine .inr ⟨edge, Nat.le_of_lt_succ raised.1, raised.2, fun node => ?_⟩
      exact level_set (by rw [size]; exact edge.target_lt) _ node
    · rename_i stable
      exact .inl ⟨rfl, fun _ => by omega⟩
  · exact .inl ⟨relax_of_not_joins size listed edge, fun counts => absurd counts edge⟩

/-- Layers that nodes can stand in: each is the length of a walk to the node, and below the number
of nodes. -/
structure Bounded (n : Nat) (edges : List (Nat × Nat)) (layers : Array Nat) : Prop
    extends Supported n edges layers where
  below : ∀ node, node < n → level layers node < n

theorem bounded_zeros (n : Nat) (edges : List (Nat × Nat)) :
    Bounded n edges (Array.replicate n 0) where
  toSupported := supported_zeros n edges
  below node node_lt := by
    rw [level_zeros]
    exact Nat.zero_lt_of_lt node_lt

theorem Bounded.relax {layers : Array Nat} (bounded : Bounded n edges layers)
    {edge : Nat × Nat} (listed : edge ∈ edges) : Bounded n edges (relax layers edge) := by
  obtain ⟨source, target⟩ := edge
  rcases relax_cases bounded.size listed with ⟨same, -⟩ | ⟨joins, -, room, levels⟩
  · rw [same]
    exact bounded
  · refine ⟨⟨(size_relax _ _).trans bounded.size, fun node node_lt => ?_⟩, fun node node_lt => ?_⟩
    · rw [levels]
      split
      · rename_i here
        rw [here]
        exact .step (bounded.path source joins.source_lt) joins
      · exact bounded.path node node_lt
    · rw [levels]
      split
      · exact room
      · exact bounded.below node node_lt

/-- An edge keeps every other edge settled: where it raises a node, the node comes to stand past
the bound. -/
theorem Settled.relax {layers : Array Nat} (size : layers.size = n) {bound source target : Nat}
    (listed : (source, target) ∈ edges) (here : Settled n bound layers source target)
    {past : Nat} (short : past ≤ bound + 1) {first last : Nat}
    (before : Settled n past layers first last) :
    Settled n past (relax layers (source, target)) first last := by
  rcases relax_cases size listed with ⟨same, -⟩ | ⟨-, behind, room, levels⟩
  · rw [same]
    exact before
  · have reached : bound ≤ level layers source := by
      rcases here with right | full | reached
      · omega
      · omega
      · exact reached
    have grows : ∀ node, level layers node ≤ level (Layers.relax layers (source, target)) node := by
      intro node
      rw [levels]
      split
      · rename_i same
        rw [same]
        omega
      · exact Nat.le_refl _
    by_cases raised : first = target
    · have risen : level (Layers.relax layers (source, target)) first = level layers source + 1 := by
        rw [levels, if_pos raised]
      exact .inr (.inr (by omega))
    · have stays : level (Layers.relax layers (source, target)) first = level layers first := by
        rw [levels, if_neg raised]
      have := grows last
      rw [Settled, stays]
      rcases before with right | full | far
      · exact .inl (by omega)
      · exact .inr (.inl full)
      · exact .inr (.inr far)

/-- The edge itself is stable afterwards. -/
theorem settled_relax_self {layers : Array Nat} (size : layers.size = n) {source target : Nat}
    (edge : Joins n edges source target) (bound : Nat) :
    Settled n bound (relax layers (source, target)) source target := by
  rcases relax_cases size edge.listed with ⟨same, stable⟩ | ⟨-, -, -, levels⟩
  · rw [same]
    exact (stable edge).imp_right .inl
  · refine .inl ?_
    rw [levels, levels, if_neg edge.apart, if_pos rfl]
    exact Nat.lt_succ_self _

/-! ## Passes -/

/-- In the middle of a pass the edges that were tried are settled one step further than the edges
to come. -/
theorem AllSettled.foldl_relax (tried : List (Nat × Nat)) {rest : List (Nat × Nat)}
    (all : tried ++ rest = edges) {layers : Array Nat} (bounded : Bounded n edges layers)
    {bound : Nat}
    (done : AllSettled n tried (bound + 1) layers) (todo : AllSettled n rest bound layers) :
    Bounded n edges (rest.foldl relax layers) ∧
      AllSettled n edges (bound + 1) (rest.foldl relax layers) := by
  induction rest generalizing tried layers with
  | nil =>
    rw [List.append_nil] at all
    exact ⟨bounded, all ▸ done⟩
  | cons edge rest ih =>
    obtain ⟨source, target⟩ := edge
    have listed : (source, target) ∈ edges :=
      all ▸ List.mem_append_right _ List.mem_cons_self
    by_cases counts : Joins n edges source target
    · have here : Settled n bound layers source target :=
        todo source target ⟨List.mem_cons_self, counts.apart, counts.source_lt, counts.target_lt⟩
      refine ih (tried ++ [(source, target)]) ((List.append_assoc _ _ _).trans all)
        (bounded.relax listed) ?_ ?_
      · intro first last edge
        rcases List.mem_append.1 edge.listed with old | new
        · have before := done first last ⟨old, edge.apart, edge.source_lt, edge.target_lt⟩
          exact here.relax bounded.size listed (Nat.le_refl _) before
        · obtain ⟨rfl, rfl⟩ := Prod.mk.inj (List.mem_singleton.1 new)
          exact settled_relax_self bounded.size counts _
      · intro first last edge
        have before := todo first last
          ⟨List.mem_cons_of_mem _ edge.listed, edge.apart, edge.source_lt, edge.target_lt⟩
        exact here.relax bounded.size listed (Nat.le_succ _) before
    · rw [List.foldl_cons, relax_of_not_joins bounded.size listed counts]
      refine ih (tried ++ [(source, target)]) ((List.append_assoc _ _ _).trans all) bounded
        ?_ ?_
      · intro first last edge
        rcases List.mem_append.1 edge.listed with old | new
        · exact done first last ⟨old, edge.apart, edge.source_lt, edge.target_lt⟩
        · obtain ⟨rfl, rfl⟩ := Prod.mk.inj (List.mem_singleton.1 new)
          exact absurd ⟨listed, edge.apart, edge.source_lt, edge.target_lt⟩ counts
      · intro first last edge
        exact todo first last
          ⟨List.mem_cons_of_mem _ edge.listed, edge.apart, edge.source_lt, edge.target_lt⟩

theorem AllSettled.pass {layers : Array Nat} (bounded : Bounded n edges layers) {bound : Nat}
    (settled : AllSettled n edges bound layers) :
    Bounded n edges (pass edges layers) ∧ AllSettled n edges (bound + 1) (pass edges layers) :=
  AllSettled.foldl_relax [] rfl bounded (fun _ _ edge => nomatch edge.listed) settled

theorem iterate_pass_settled (n : Nat) (edges : List (Nat × Nat)) (rounds : Nat) :
    Bounded n edges ((Layers.pass edges)^[rounds] (Array.replicate n 0)) ∧
      AllSettled n edges rounds ((Layers.pass edges)^[rounds] (Array.replicate n 0)) := by
  induction rounds with
  | zero => exact ⟨bounded_zeros n edges, fun _ _ _ => .inr (.inr (Nat.zero_le _))⟩
  | succ rounds ih =>
    rw [Function.iterate_succ_apply']
    exact ih.2.pass ih.1

/-- After all passes but one an edge starts in the last layer if it does not lead to the right. -/
theorem stable_iterate_pass {rounds : Nat} (enough : n - 1 ≤ rounds) {source target : Nat}
    (edge : Joins n edges source target) :
    level ((Layers.pass edges)^[rounds] (Array.replicate n 0)) source <
        level ((Layers.pass edges)^[rounds] (Array.replicate n 0)) target ∨
      n ≤ level ((Layers.pass edges)^[rounds] (Array.replicate n 0)) source + 1 := by
  rcases (iterate_pass_settled n edges rounds).2 source target edge with right | last | far
  · exact .inl right
  · exact .inr last
  · exact .inr (by omega)

/-- A pass over stable edges changes nothing. -/
theorem pass_eq_self {layers : Array Nat} (size : layers.size = n)
    (stable : ∀ source target, Joins n edges source target →
      level layers source < level layers target ∨ n ≤ level layers source + 1) :
    pass edges layers = layers := by
  have still : ∀ edge ∈ edges, relax layers edge = layers := by
    rintro ⟨source, target⟩ listed
    rcases relax_cases size listed with ⟨same, -⟩ | ⟨edge, behind, room, -⟩
    · exact same
    · have := stable source target edge
      omega
  have all : ∀ rest ⊆ edges, rest.foldl relax layers = layers := by
    intro rest sub
    induction rest with
    | nil => rfl
    | cons edge rest ih =>
      obtain ⟨listed, others⟩ := List.cons_subset.1 sub
      rw [List.foldl_cons, still edge listed]
      exact ih others
  exact all edges (List.Subset.refl edges)

theorem pass_iterate_pass {rounds : Nat} (enough : n - 1 ≤ rounds) :
    pass edges ((Layers.pass edges)^[rounds] (Array.replicate n 0)) =
      (Layers.pass edges)^[rounds] (Array.replicate n 0) :=
  pass_eq_self (iterate_pass_settled n edges rounds).1.size fun _ _ =>
    stable_iterate_pass enough

/-- All numbers of passes from one less than there are nodes on end at the same layers. -/
theorem iterate_pass_eq_assign {rounds : Nat} (enough : n - 1 ≤ rounds) :
    (pass edges)^[rounds] (Array.replicate n 0) = assign n edges := by
  have same : ∀ more, (pass edges)^[n - 1 + more] (Array.replicate n 0) =
      (pass edges)^[n - 1] (Array.replicate n 0) := by
    intro more
    rw [Nat.add_comm, Function.iterate_add_apply]
    exact Function.iterate_fixed (pass_iterate_pass (Nat.le_refl _)) more
  have here := same (rounds - (n - 1))
  have there := same (n - (n - 1))
  rw [Nat.add_sub_cancel' enough] at here
  rw [Nat.add_sub_cancel' (Nat.sub_le n 1)] at there
  rw [assign, passes_eq_iterate, here, there]

/-- Whatever the edges, with cycles or without, every node has a layer below the number of nodes,
and it is the length of a walk that ends at the node. The layers are stable: an edge that counts
leads to the right, unless it starts in the last possible layer. So one more pass changes nothing,
and as many passes as there are nodes, or one less, always suffice. -/
theorem layers_are_stable (n : Nat) (edges : List (Nat × Nat)) :
    (assign n edges).size = n ∧
    (∀ node, node < n → ∃ layer, (assign n edges)[node]? = some layer ∧ layer < n ∧
      PathTo n edges layer node) ∧
    (∀ source target, Joins n edges source target → ∃ low high,
      (assign n edges)[source]? = some low ∧ (assign n edges)[target]? = some high ∧
        (low < high ∨ low = n - 1)) ∧
    pass edges (assign n edges) = assign n edges ∧
    ∀ rounds, n - 1 ≤ rounds →
      (pass edges)^[rounds] (Array.replicate n 0) = assign n edges := by
  have rounds : assign n edges = (pass edges)^[n] (Array.replicate n 0) :=
    passes_eq_iterate edges n _
  have bounded : Bounded n edges (assign n edges) := rounds ▸ (iterate_pass_settled n edges n).1
  refine ⟨size_assign n edges, fun node node_lt => ?_, fun source target edge => ?_, ?_,
    fun rounds enough => iterate_pass_eq_assign enough⟩
  · exact ⟨_, getElem?_assign node_lt, bounded.below node node_lt, bounded.path node node_lt⟩
  · refine ⟨_, _, getElem?_assign edge.source_lt, getElem?_assign edge.target_lt, ?_⟩
    have below := bounded.below source edge.source_lt
    have stable := stable_iterate_pass (Nat.sub_le n 1) edge
    rw [← rounds] at stable
    omega
  · rw [rounds]
    exact pass_iterate_pass (Nat.sub_le n 1)

/-- Two nodes on a cycle, which is entered from a third one. -/
def enteredCycle : List (Nat × Nat) := [(1, 2), (0, 1), (2, 1)]

/-- The edge against the flow starts in the last layer. -/
theorem enteredCycle_runs_back_from_last : ∃ low high,
    (assign 3 enteredCycle)[1]? = some low ∧ (assign 3 enteredCycle)[2]? = some high ∧
      ¬ low < high ∧ low = 2 := by
  have edge : Joins 3 enteredCycle 1 2 := ⟨by decide, by decide, by decide, by decide⟩
  obtain ⟨low, high, here, there, stable⟩ := (layers_are_stable 3 enteredCycle).2.2.1 1 2 edge
  have finish : (assign 3 enteredCycle)[2]? = some 1 := by decide
  obtain rfl := Option.some.inj (there.symm.trans finish)
  have start : (assign 3 enteredCycle)[1]? = some 2 := by decide
  obtain rfl := Option.some.inj (here.symm.trans start)
  exact ⟨2, 1, here, there, by decide, stable.resolve_left (by decide)⟩

end BlockSchematic.Layers
