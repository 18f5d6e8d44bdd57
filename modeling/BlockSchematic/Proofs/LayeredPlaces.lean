import Mathlib
import BlockSchematic.Proofs.LayeredRoutes

/-!
# Places in a layered layout

The nodes of a layer stand below one another in the order of their keys, and a key looks only at
layers further left. So each arrangement is sorted by the places that the predecessors of its nodes
have in the others, and the places of the nodes follow from the arrangements.
-/

namespace BlockSchematic.Layered

open Float.Model (UnpackedFloat)

/-! ## Sorting keeps the order of equal entries -/

theorem pairwise_mergeSort_stable {α : Type} {le : α → α → Bool}
    (trans : ∀ a b c, le a b = true → le b c = true → le a c = true)
    (total : ∀ a b, (le a b || le b a) = true) {R : α → α → Prop} {entries : List α}
    (h : entries.Pairwise R) :
    (entries.mergeSort le).Pairwise fun a b => le a b = true ∧ (le b a = true → R a b) := by
  have sorted := List.pairwise_mergeSort (List.zipIdxLE_trans trans) (List.zipIdxLE_total total)
    entries.zipIdx
  have numbers : (entries.zipIdx.map Prod.snd).Nodup := by
    rw [List.zipIdx_map_snd]
    exact List.nodup_range' 1
  have perm := (List.mergeSort_perm entries.zipIdx (List.zipIdxLE le)).map Prod.snd
  have apart := List.pairwise_map.1 (perm.nodup_iff.2 numbers)
  rw [← List.mergeSort_zipIdx, List.pairwise_map]
  refine (sorted.and apart).imp_of_mem fun {a b} ha hb ⟨ordered, different⟩ => ?_
  obtain ⟨hi, first⟩ := List.getElem?_eq_some_iff.1
    (List.mem_zipIdx_iff_getElem?.1 (List.mem_mergeSort.1 ha))
  obtain ⟨hj, second⟩ := List.getElem?_eq_some_iff.1
    (List.mem_zipIdx_iff_getElem?.1 (List.mem_mergeSort.1 hb))
  simp only [List.zipIdxLE] at ordered
  by_cases below : le a.1 b.1 = true
  · refine ⟨below, fun equal => ?_⟩
    have before : a.2 ≤ b.2 := by simpa [below, equal] using ordered
    have related := List.pairwise_iff_getElem.1 h a.2 b.2 hi hj (Nat.lt_of_le_of_ne before different)
    rwa [first, second] at related
  · simp [below] at ordered

/-! ## Arrangements -/

section Arrange

variable (layers : Array Nat) (flows : List (Nat × Nat))

/-- The arrangements of the first `n` layers. -/
def arrangedUpTo (n : Nat) : List (List Nat) :=
  (List.range n).foldl
    (fun arranged layer =>
      arranged ++ [arrangeLayer layers flows arranged (layerNodes layers layer)])
    []

/-- The arrangement of a layer behind those of the layers to its left. -/
def arrangedAt (layer : Nat) : List Nat :=
  arrangeLayer layers flows (arrangedUpTo layers flows layer) (layerNodes layers layer)

theorem arrange_eq : arrange layers flows = arrangedUpTo layers flows (layerCount layers) := rfl

theorem arrangedUpTo_eq_map (n : Nat) :
    arrangedUpTo layers flows n = (List.range n).map (arrangedAt layers flows) := by
  induction n with
  | zero => rfl
  | succ n ih =>
    rw [List.range_succ, List.map_append, ← ih, arrangedUpTo, List.range_succ, List.foldl_append]
    rfl

variable {layers flows} {layer node : Nat}

theorem mem_layerNodes_iff : node ∈ layerNodes layers layer ↔ layers[node]? = some layer := by
  rw [layerNodes, List.mem_filter, List.mem_range, beq_iff_eq]
  exact and_iff_right_of_imp fun here => (Array.getElem?_eq_some_iff.1 here).1

theorem pairwise_layerNodes (layers : Array Nat) (layer : Nat) :
    (layerNodes layers layer).Pairwise (· < ·) :=
  List.pairwise_lt_range.sublist List.filter_sublist

theorem nodup_layerNodes (layers : Array Nat) (layer : Nat) : (layerNodes layers layer).Nodup :=
  (pairwise_layerNodes layers layer).imp Nat.ne_of_lt

/-- The nodes of a layer with the keys by which they are sorted. -/
def keyedNodes (layers : Array Nat) (flows : List (Nat × Nat)) (layer : Nat) : List (Float × Nat) :=
  (layerNodes layers layer).mapIdx fun index node =>
    (sortKey (arrangedUpTo layers flows layer) (predecessors layers flows node) index, node)

theorem map_snd_keyedNodes (layers : Array Nat) (flows : List (Nat × Nat)) (layer : Nat) :
    (keyedNodes layers flows layer).map (·.2) = layerNodes layers layer := by
  refine List.ext_getElem? fun index => ?_
  rw [keyedNodes, List.getElem?_map, List.getElem?_mapIdx, Option.map_map]
  exact Option.map_id_apply

theorem arrangedAt_perm (layers : Array Nat) (flows : List (Nat × Nat)) (layer : Nat) :
    (arrangedAt layers flows layer).Perm (layerNodes layers layer) := by
  rw [← map_snd_keyedNodes layers flows]
  exact (List.mergeSort_perm _ _).map _

theorem mem_arrangedAt_iff : node ∈ arrangedAt layers flows layer ↔ layers[node]? = some layer :=
  (arrangedAt_perm _ _ layer).mem_iff.trans mem_layerNodes_iff

theorem nodup_arrangedAt (layers : Array Nat) (flows : List (Nat × Nat)) (layer : Nat) :
    (arrangedAt layers flows layer).Nodup :=
  (arrangedAt_perm layers flows layer).nodup_iff.2 (nodup_layerNodes _ layer)

theorem lt_foldl_max (ls : List Nat) (n : Nat) :
    n ≤ ls.foldl (fun n l => max n (l + 1)) n ∧
      ∀ l ∈ ls, l < ls.foldl (fun n l => max n (l + 1)) n := by
  induction ls generalizing n with
  | nil => exact ⟨Nat.le_refl n, nofun⟩
  | cons l ls ih =>
    obtain ⟨most, others⟩ := ih (max n (l + 1))
    rw [List.foldl_cons]
    exact ⟨by omega, List.forall_mem_cons.2 ⟨by omega, others⟩⟩

theorem lt_layerCount (here : layers[node]? = some layer) : layer < layerCount layers := by
  rw [layerCount, ← Array.foldl_toList]
  exact (lt_foldl_max layers.toList 0).2 layer
    (List.mem_of_getElem? (by rwa [Array.getElem?_toList]))

theorem idxOf?_arrangedAt {other : Nat} (here : layers[node]? = some layer) :
    (arrangedAt layers flows other).idxOf? node =
      if other = layer then some ((arrangedAt layers flows layer).idxOf node) else none := by
  split
  · rename_i same
    subst same
    have inside : node ∈ arrangedAt layers flows other := mem_arrangedAt_iff.2 here
    obtain ⟨k, found⟩ := Option.isSome_iff_exists.1 (List.isSome_idxOf?.2 inside)
    rw [List.idxOf_eq_getD_idxOf?, found, Option.getD_some]
  · rename_i different
    refine List.idxOf?_eq_none_iff.2 fun inside => different ?_
    exact Option.some.inj ((mem_arrangedAt_iff.1 inside).symm.trans here)

/-- A node is looked up in the arrangement of its own layer, and the others do not hold it. -/
theorem rank_arrangedUpTo {above : Nat} (here : layers[node]? = some layer)
    (below : layer < above) : rank (arrangedUpTo layers flows above) node =
      Float.ofNat ((arrangedAt layers flows layer).idxOf node) := by
  have only (other : Nat) : (arrangedAt layers flows other).idxOf? node =
      if other = layer then some ((arrangedAt layers flows layer).idxOf node) else none :=
    idxOf?_arrangedAt here
  rw [rank, arrangedUpTo_eq_map, List.findSome?_map]
  cases found : (List.range above).findSome? ((·.idxOf? node) ∘ arrangedAt layers flows) with
  | none =>
    have missed := List.findSome?_eq_none_iff.1 found layer (List.mem_range.2 below)
    rw [Function.comp_apply, only, if_pos rfl] at missed
    cases missed
  | some k =>
    obtain ⟨other, -, hit⟩ := List.exists_of_findSome?_eq_some found
    rw [Function.comp_apply, only] at hit
    split at hit
    · rw [← Option.some.inj hit, Option.getD_some]
    · cases hit

end Arrange

/-! ## Keys -/

/-- The place of a node in the arrangement of its own layer. -/
def standing (layers : Array Nat) (rows : List (List Nat)) (node : Nat) : Nat :=
  (rows.getD (layers.getD node 0) []).idxOf node

/-- The mean of the places of the predecessors further left, one for each edge, or the place among
the layer's nodes in request order where there are none. -/
def placeKey (g : Graph) (rows : List (List Nat)) (node : Nat) : Float :=
  let preds := predecessors g.layers g.flows node
  if preds.isEmpty then
    Float.ofNat ((layerNodes g.layers (g.layers.getD node 0)).idxOf node)
  else
    (preds.map fun p => Float.ofNat (standing g.layers rows p)).foldl (· + ·) 0.0 /
      Float.ofNat preds.length

/-- Each node stands at one place, in the row of its layer. A row is sorted by the keys of its
nodes, and nodes with equal keys stand in request order. -/
structure Arranged (g : Graph) (rows : List (List Nat)) : Prop where
  count : rows.length = layerCount g.layers
  nodes : ∀ (layer : Nat) (row : List Nat), rows[layer]? = some row →
    row.Perm (layerNodes g.layers layer)
  sorted : ∀ (layer : Nat) (row : List Nat), rows[layer]? = some row →
    row.Pairwise fun a b =>
      orderKey (placeKey g rows a) < orderKey (placeKey g rows b) ∨
        orderKey (placeKey g rows a) = orderKey (placeKey g rows b) ∧ a < b
  slot : ∀ node < g.nodes.length, ∃! slot : Nat × Nat,
    rows[slot.1]?.bind (·[slot.2]?) = some node

/-- The edges of the graph run between its nodes. -/
def Graph.Closed (g : Graph) : Prop := ∀ f ∈ g.flows, f.1 < g.nodes.length ∧ f.2 < g.nodes.length

variable {g : Graph} {layer node : Nat}

theorem Graph.size_layers (g : Graph) : g.layers.size = g.nodes.length := Layers.size_assign _ _

theorem getElem?_arrange :
    (arrange g.layers g.flows)[layer]? =
      if layer < layerCount g.layers then some (arrangedAt g.layers g.flows layer) else none := by
  rw [arrange_eq, arrangedUpTo_eq_map, List.getElem?_map]
  split
  · rename_i inside
    rw [List.getElem?_range inside, Option.map_some]
  · rename_i outside
    rw [List.getElem?_eq_none (by rw [List.length_range]; omega), Option.map_none]

theorem eq_arrangedAt_of_getElem? {row : List Nat}
    (here : (arrange g.layers g.flows)[layer]? = some row) :
    row = arrangedAt g.layers g.flows layer := by
  rw [getElem?_arrange] at here
  split at here
  · exact (Option.some.inj here).symm
  · cases here

theorem getD_eq_of_getElem? {layers : Array Nat} (here : layers[node]? = some layer) :
    layers.getD node 0 = layer := by
  rw [Array.getD_eq_getD_getElem?, here, Option.getD_some]

theorem standing_arrange (here : g.layers[node]? = some layer) :
    standing g.layers (arrange g.layers g.flows) node =
      (arrangedAt g.layers g.flows layer).idxOf node := by
  rw [standing, getD_eq_of_getElem? here, List.getD_eq_getElem?_getD, getElem?_arrange,
    if_pos (lt_layerCount here), Option.getD_some]

/-- The rows further left are finished when a layer is sorted. -/
theorem rank_eq_standing (closed : g.Closed) (here : g.layers[node]? = some layer) {p : Nat}
    (before : p ∈ predecessors g.layers g.flows node) :
    rank (arrangedUpTo g.layers g.flows layer) p =
      Float.ofNat (standing g.layers (arrange g.layers g.flows) p) := by
  obtain ⟨f, hf, rfl⟩ := List.mem_map.1 before
  obtain ⟨edge, left⟩ := List.mem_filter.1 hf
  obtain ⟨-, left⟩ := Bool.and_eq_true_iff.1 left
  have inside : f.1 < g.layers.size := by
    rw [g.size_layers]
    exact (closed f edge).1
  have there := Array.getElem?_eq_getElem inside
  have below := of_decide_eq_true left
  rw [getD_eq_of_getElem? here, getD_eq_of_getElem? there] at below
  rw [rank_arrangedUpTo there below, standing_arrange there]

theorem sortKey_eq_placeKey (closed : g.Closed) (here : g.layers[node]? = some layer)
    {index : Nat} (listed : (layerNodes g.layers layer)[index]? = some node) :
    sortKey (arrangedUpTo g.layers g.flows layer) (predecessors g.layers g.flows node) index =
      placeKey g (arrange g.layers g.flows) node := by
  have place : (layerNodes g.layers layer).idxOf node = index := by
    obtain ⟨inside, same⟩ := List.getElem?_eq_some_iff.1 listed
    rw [← same]
    exact (nodup_layerNodes _ layer).idxOf_getElem index inside
  have ranks := List.map_congr_left fun p (before : p ∈ predecessors g.layers g.flows node) =>
    rank_eq_standing closed here before
  rw [sortKey, placeKey, getD_eq_of_getElem? here, place, ranks]

theorem sorted_arrangedAt (closed : g.Closed) (layer : Nat) :
    (arrangedAt g.layers g.flows layer).Pairwise fun a b =>
      orderKey (placeKey g (arrange g.layers g.flows) a) <
          orderKey (placeKey g (arrange g.layers g.flows) b) ∨
        orderKey (placeKey g (arrange g.layers g.flows) a) =
          orderKey (placeKey g (arrange g.layers g.flows) b) ∧ a < b := by
  have request : (keyedNodes g.layers g.flows layer).Pairwise fun a b => a.2 < b.2 := by
    have nodes := pairwise_layerNodes g.layers layer
    rwa [← map_snd_keyedNodes g.layers g.flows, List.pairwise_map] at nodes
  have keys : ∀ entry ∈ keyedNodes g.layers g.flows layer,
      entry.1 = placeKey g (arrange g.layers g.flows) entry.2 := by
    intro entry listed
    obtain ⟨index, inside, rfl⟩ := List.mem_mapIdx.1 listed
    exact sortKey_eq_placeKey closed (mem_layerNodes_iff.1 (List.getElem_mem inside))
      (List.getElem?_eq_getElem inside)
  have trans (a b c : Float × Nat) (ab : decide (orderKey a.1 ≤ orderKey b.1) = true)
      (bc : decide (orderKey b.1 ≤ orderKey c.1) = true) :
      decide (orderKey a.1 ≤ orderKey c.1) = true :=
    decide_eq_true (Int.le_trans (of_decide_eq_true ab) (of_decide_eq_true bc))
  have total (a b : Float × Nat) :
      (decide (orderKey a.1 ≤ orderKey b.1) || decide (orderKey b.1 ≤ orderKey a.1)) = true := by
    simpa using Int.le_total (orderKey a.1) (orderKey b.1)
  have sorted := pairwise_mergeSort_stable trans total request
  refine List.pairwise_map.2 (sorted.imp_of_mem fun {a b} ha hb ⟨below, ties⟩ => ?_)
  rw [← keys a (List.mem_mergeSort.1 ha), ← keys b (List.mem_mergeSort.1 hb)]
  have below := of_decide_eq_true below
  rcases Int.lt_or_eq_of_le below with less | same
  · exact .inl less
  · exact .inr ⟨same, ties (decide_eq_true (Int.le_of_eq same.symm))⟩

theorem exists_slot (inside : node < g.nodes.length) : ∃! slot : Nat × Nat,
    (arrange g.layers g.flows)[slot.1]?.bind (·[slot.2]?) = some node := by
  rw [← g.size_layers] at inside
  have here := Array.getElem?_eq_getElem inside
  have mem : node ∈ arrangedAt g.layers g.flows g.layers[node] := mem_arrangedAt_iff.2 here
  refine ⟨(g.layers[node], (arrangedAt g.layers g.flows g.layers[node]).idxOf node), ?_, ?_⟩
  · dsimp only
    rw [getElem?_arrange, if_pos (lt_layerCount here), Option.bind_some,
      List.getElem?_eq_getElem (List.idxOf_lt_length_of_mem mem), List.getElem_idxOf]
  · rintro ⟨layer, index⟩ stands
    obtain ⟨row, found, listed⟩ := Option.bind_eq_some_iff.1 stands
    dsimp only at found listed
    obtain rfl := eq_arrangedAt_of_getElem? found
    have own := mem_arrangedAt_iff.1 (List.mem_of_getElem? listed)
    obtain rfl := Option.some.inj (here.symm.trans own)
    obtain ⟨bound, same⟩ := List.getElem?_eq_some_iff.1 listed
    have place := (nodup_arrangedAt g.layers g.flows g.layers[node]).idxOf_getElem index bound
    rw [same] at place
    rw [place]

theorem arranged_arrange (closed : g.Closed) : Arranged g (arrange g.layers g.flows) where
  count := by rw [arrange_eq, arrangedUpTo_eq_map, List.length_map, List.length_range]
  nodes layer row here := by
    rw [eq_arrangedAt_of_getElem? here]
    exact arrangedAt_perm _ _ layer
  sorted layer row here := by
    rw [eq_arrangedAt_of_getElem? here]
    exact sorted_arrangedAt closed layer
  slot node inside := exists_slot inside

/-! ## Resolving -/

/-- Each end of an edge is the id of a port of some node. -/
def Resolves (r : LayoutRequest) : Prop :=
  ∀ e ∈ r.edges, ∀ id ∈ [e.source, e.target], ∃ n ∈ r.nodes, ∃ p ∈ n.ports, p.id = id

instance (r : LayoutRequest) : Decidable (Resolves r) :=
  inferInstanceAs (Decidable (∀ e ∈ r.edges, ∀ id ∈ [e.source, e.target],
    ∃ n ∈ r.nodes, ∃ p ∈ n.ports, p.id = id))

theorem exists_resolvePort {nodes : List LayoutNode} {id : String}
    (known : ∃ n ∈ nodes, ∃ p ∈ n.ports, p.id = id) (edge : String) :
    ∃ e, resolvePort (portTable nodes) edge id = .ok e ∧ e.node < nodes.length := by
  obtain ⟨n, hn, p, hp, rfl⟩ := known
  obtain ⟨number, inside, rfl⟩ := List.getElem_of_mem hn
  have listed : (p.id, (⟨number, p.x, p.y, p.side⟩ : Endpoint)) ∈ portTable nodes := by
    simp only [portTable, List.mem_reverse, List.mem_flatten, List.mem_mapIdx]
    exact ⟨_, ⟨number, inside, rfl⟩, List.mem_map_of_mem hp⟩
  have bound : ∀ entry ∈ portTable nodes, entry.2.node < nodes.length := by
    intro entry listed
    simp only [portTable, List.mem_reverse, List.mem_flatten, List.mem_mapIdx] at listed
    obtain ⟨_, ⟨number, inside, rfl⟩, listed⟩ := listed
    obtain ⟨p, -, rfl⟩ := List.mem_map.1 listed
    exact inside
  have found : ((portTable nodes).lookup p.id).isSome = true :=
    List.lookup_isSome_iff.2 ⟨_, listed, beq_self_eq_true _⟩
  obtain ⟨e, found⟩ := Option.isSome_iff_exists.1 found
  obtain ⟨before, after, split, -⟩ := List.lookup_eq_some_iff.1 found
  refine ⟨e, by rw [resolvePort, found], bound (p.id, e) ?_⟩
  rw [split]
  exact List.mem_append_right _ List.mem_cons_self

theorem Edge.flow_lt {e : Edge} {n : Nat} (source : e.source.node < n) (target : e.target.node < n) :
    e.flow.1 < n ∧ e.flow.2 < n := by
  unfold flow
  split
  · exact ⟨target, source⟩
  · exact ⟨source, target⟩

theorem exists_resolveEdges {nodes : List LayoutNode} {edges : List LayoutEdge}
    (known : ∀ e ∈ edges, ∀ id ∈ [e.source, e.target], ∃ n ∈ nodes, ∃ p ∈ n.ports, p.id = id) :
    ∃ resolved, resolveEdges (portTable nodes) edges = .ok resolved ∧
      ∀ e ∈ resolved, e.source.node < nodes.length ∧ e.target.node < nodes.length := by
  induction edges with
  | nil => exact ⟨[], rfl, nofun⟩
  | cons e rest ih =>
    obtain ⟨here, later⟩ := List.forall_mem_cons.1 known
    obtain ⟨source, starts, hs⟩ := exists_resolvePort (here e.source (by simp)) e.id
    obtain ⟨target, ends, ht⟩ := exists_resolvePort (here e.target (by simp)) e.id
    obtain ⟨resolved, others, bounds⟩ := ih later
    refine ⟨⟨e.id, source, target⟩ :: resolved, ?_, List.forall_mem_cons.2 ⟨⟨hs, ht⟩, bounds⟩⟩
    rw [resolveEdges, starts, ends, others]
    rfl

theorem Resolves.exists_graph {r : LayoutRequest} (resolves : Resolves r) :
    ∃ g, Graph.ofRequest r = .ok g ∧ g.nodes = r.nodes ∧ g.Closed := by
  obtain ⟨edges, resolved, bounds⟩ := exists_resolveEdges resolves
  refine ⟨⟨r.nodes, edges⟩, by rw [Graph.ofRequest, resolved]; rfl, rfl, fun f hf => ?_⟩
  obtain ⟨e, he, rfl⟩ := List.mem_map.1 hf
  exact Edge.flow_lt (bounds e he).1 (bounds e he).2

/-! ## Widths -/

/-- What numbers are compared by, one after the other: their kind, exponent and mantissa. -/
def unpackedKey? : UnpackedFloat → Option (Int × Int × Int)
  | .notANumber => none
  | .infinity .negative => some (-2, 0, 0)
  | .finite .negative m e _ => some (-1, -e, -m)
  | .zero _ => some (0, 0, 0)
  | .finite .positive m e _ => some (1, e, m)
  | .infinity .positive => some (2, 0, 0)

def KeyBelow (p q : Int × Int × Int) : Prop :=
  p.1 < q.1 ∨ p.1 = q.1 ∧ (p.2.1 < q.2.1 ∨ p.2.1 = q.2.1 ∧ p.2.2 < q.2.2)

theorem unpacked_lt_iff (a b : UnpackedFloat) : a.lt b = true ↔
    ∃ p q, unpackedKey? a = some p ∧ unpackedKey? b = some q ∧ KeyBelow p q := by
  rw [UnpackedFloat.lt]
  rcases a with (_ | _) | _ | _ | ⟨_ | _, m, e, _⟩ <;>
    rcases b with (_ | _) | _ | _ | ⟨_ | _, n, k, _⟩ <;>
    simp [UnpackedFloat.compare, unpackedKey?, KeyBelow, compare, compareOfLessAndEq]
  all_goals grind [Ordering.then]

/-- The place of a number among the others; what is no number has none. -/
def numberKey? (x : Float) : Option (Int × Int × Int) := unpackedKey? x.toModel.unpack

theorem lt_iff_keyBelow {a b : Float} : a < b ↔
    ∃ p q, numberKey? a = some p ∧ numberKey? b = some q ∧ KeyBelow p q :=
  (Iff.of_eq (congrArg (· = true) Bool.decide_eq_true)).trans (unpacked_lt_iff _ _)

theorem float_lt_trans {a b c : Float} (ab : a < b) (bc : b < c) : a < c := by
  obtain ⟨p, q, ha, hb, below⟩ := lt_iff_keyBelow.1 ab
  obtain ⟨q', r, hb', hc, above⟩ := lt_iff_keyBelow.1 bc
  obtain rfl := Option.some.inj (hb.symm.trans hb')
  refine lt_iff_keyBelow.2 ⟨p, r, ha, hc, ?_⟩
  unfold KeyBelow at *
  omega

theorem lt_of_lt_of_not_lt {a b c : Float} (ac : a < c) (bc : ¬b < c)
    (number : (numberKey? b).isSome = true) : a < b := by
  obtain ⟨p, r, ha, hc, below⟩ := lt_iff_keyBelow.1 ac
  obtain ⟨q, hb⟩ := Option.isSome_iff_exists.1 number
  have apart : ¬KeyBelow q r := fun above => bc (lt_iff_keyBelow.2 ⟨q, r, hb, hc, above⟩)
  refine lt_iff_keyBelow.2 ⟨p, q, ha, hb, ?_⟩
  unfold KeyBelow at *
  omega

theorem isSome_numberKey?_of_lt {a b : Float} (ab : a < b) : (numberKey? b).isSome = true := by
  obtain ⟨_, q, -, hb, -⟩ := lt_iff_keyBelow.1 ab
  rw [hb, Option.isSome_some]

theorem number_zero : (numberKey? 0.0).isSome = true := by decide +kernel

theorem float_lt_irrefl (a : Float) : ¬a < a := by
  intro less
  obtain ⟨p, q, ha, hb, below⟩ := lt_iff_keyBelow.1 less
  obtain rfl := Option.some.inj (ha.symm.trans hb)
  unfold KeyBelow at below
  omega

/-- Taking up widths one by one gives one of them, and none is wider. Widths that are no numbers
are passed over. -/
theorem foldl_wider (widths : List Float) {best : Float}
    (number : (numberKey? best).isSome = true) :
    let widest := widths.foldl (fun best width => if best < width then width else best) best
    (widest = best ∨ widest ∈ widths) ∧ ¬widest < best ∧ ∀ width ∈ widths, ¬widest < width := by
  induction widths generalizing best with
  | nil => exact ⟨.inl rfl, float_lt_irrefl best, nofun⟩
  | cons width rest ih =>
    rw [List.foldl_cons]
    by_cases wider : best < width
    · rw [if_pos wider]
      obtain ⟨attained, least, bound⟩ := ih (isSome_numberKey?_of_lt wider)
      refine ⟨.inr (List.mem_cons.2 attained), fun less => least (float_lt_trans less wider),
        List.forall_mem_cons.2 ⟨least, bound⟩⟩
    · rw [if_neg wider]
      obtain ⟨attained, least, bound⟩ := ih number
      refine ⟨attained.imp_right (List.mem_cons_of_mem _), least,
        List.forall_mem_cons.2 ⟨fun less => least ?_, bound⟩⟩
      exact lt_of_lt_of_not_lt less wider number

/-- The width of the widest node of a row, and at least nothing. -/
structure Widest (nodes : List LayoutNode) (row : List Nat) (width : Float) : Prop where
  attained : width = 0.0 ∨ ∃ node ∈ row, ∃ n, nodes[node]? = some n ∧ n.width = width
  nonneg : ¬width < 0.0
  bound : ∀ node ∈ row, ∀ n, nodes[node]? = some n → ¬width < n.width

theorem widest_spec (nodes : List LayoutNode) (row : List Nat) :
    Widest nodes row (widest nodes.toArray row) := by
  obtain ⟨attained, least, bound⟩ :=
    foldl_wider (row.filterMap fun node => nodes[node]?.map (·.width)) number_zero
  simp only [List.mem_filterMap, Option.map_eq_some_iff] at attained bound
  simp only [widest, List.getElem?_toArray]
  exact ⟨attained, least, fun node listed n known => bound n.width ⟨node, listed, n, known, rfl⟩⟩

/-! ## Stacks and columns -/

/-- The nodes of a row stand below one another from the top edge on. -/
structure Stacked (spacing : Spacing) (nodes : List LayoutNode) (row : List Nat)
    (y : Nat → Float) : Prop where
  top : y 0 = 0.0
  next : ∀ (i node : Nat) (n : LayoutNode), row[i]? = some node → nodes[node]? = some n →
    y (i + 1) = y i + (n.height + spacing.node)

/-- The rows stand beside one another from the left edge on. -/
structure Columns (spacing : Spacing) (nodes : List LayoutNode) (rows : List (List Nat))
    (x : Nat → Float) : Prop where
  left : x 0 = 0.0
  next : ∀ (layer : Nat) (row : List Nat), rows[layer]? = some row → ∃ width,
    Widest nodes row width ∧ x (layer + 1) = x layer + (width + spacing.layer)

section Places

variable (spacing : Spacing) (nodes : List LayoutNode)

theorem exists_stack (x y₀ : Float) (row : List Nat) : ∃ y : Nat → Float, y 0 = y₀ ∧
    (∀ (i node : Nat) (n : LayoutNode), row[i]? = some node → nodes[node]? = some n →
      y (i + 1) = y i + (n.height + spacing.node)) ∧
    ∀ i node, row[i]? = some node →
      (node, (⟨x, y i⟩ : Position)) ∈ stack spacing nodes.toArray x y₀ row := by
  induction row generalizing y₀ with
  | nil => exact ⟨fun _ => y₀, rfl, nofun, nofun⟩
  | cons first rest ih =>
    obtain ⟨y, top, next, placed⟩ :=
      ih (y₀ + ((nodes.toArray[first]?.map (·.height)).getD 0.0 + spacing.node))
    refine ⟨fun | 0 => y₀ | i + 1 => y i, rfl, fun i node n here known => ?_,
      fun i node here => ?_⟩
    · cases i with
      | zero =>
        cases here
        rw [List.getElem?_toArray, known] at top
        exact top
      | succ i => exact next i node n here known
    · cases i with
      | zero =>
        cases here
        exact List.mem_cons_self
      | succ i => exact List.mem_cons_of_mem _ (placed i node here)

theorem map_fst_stack (x y : Float) (row : List Nat) :
    (stack spacing nodes.toArray x y row).map (·.1) = row := by
  induction row generalizing y with
  | nil => rfl
  | cons node rest ih => rw [stack, List.map_cons, ih]

theorem map_fst_placeFrom (x : Float) (rows : List (List Nat)) :
    (placeFrom spacing nodes.toArray x rows).map (·.1) = rows.flatten := by
  induction rows generalizing x with
  | nil => rfl
  | cons row rest ih => rw [placeFrom, List.map_append, map_fst_stack, ih, List.flatten_cons]

theorem exists_columns (x₀ : Float) (rows : List (List Nat)) : ∃ x : Nat → Float, x 0 = x₀ ∧
    (∀ (layer : Nat) (row : List Nat), rows[layer]? = some row → ∃ width,
      Widest nodes row width ∧ x (layer + 1) = x layer + (width + spacing.layer)) ∧
    ∀ (layer : Nat) (row : List Nat), rows[layer]? = some row →
      stack spacing nodes.toArray (x layer) 0.0 row ⊆ placeFrom spacing nodes.toArray x₀ rows := by
  induction rows generalizing x₀ with
  | nil => exact ⟨fun _ => x₀, rfl, nofun, nofun⟩
  | cons first rest ih =>
    obtain ⟨x, left, next, placed⟩ := ih (x₀ + (widest nodes.toArray first + spacing.layer))
    refine ⟨fun | 0 => x₀ | layer + 1 => x layer, rfl, fun layer row here => ?_,
      fun layer row here => ?_⟩
    · cases layer with
      | zero =>
        cases here
        exact ⟨_, widest_spec nodes first, left⟩
      | succ layer => exact next layer row here
    · cases layer with
      | zero =>
        cases here
        exact List.subset_append_left _ _
      | succ layer =>
        exact List.Subset.trans (placed layer row here) (List.subset_append_right _ _)

end Places

/-- The rows of different layers have no nodes in common. -/
theorem Arranged.nodup_flatten {rows : List (List Nat)} (arranged : Arranged g rows) :
    rows.flatten.Nodup := by
  have layerOf (layer : Nat) (row : List Nat) (here : rows[layer]? = some row) (node : Nat)
      (listed : node ∈ row) : g.layers[node]? = some layer :=
    mem_layerNodes_iff.1 ((arranged.nodes layer row here).mem_iff.1 listed)
  refine List.nodup_flatten.2 ⟨fun row listed => ?_, List.pairwise_iff_getElem.2 ?_⟩
  · obtain ⟨layer, here⟩ := List.mem_iff_getElem?.1 listed
    exact (arranged.nodes layer row here).nodup_iff.2 (nodup_layerNodes _ layer)
  · intro i j hi hj below node first second
    have atFirst := layerOf i _ (List.getElem?_eq_getElem hi) node first
    have atSecond := layerOf j _ (List.getElem?_eq_getElem hj) node second
    exact Nat.ne_of_lt below (Option.some.inj (atFirst.symm.trans atSecond))

theorem positionOf_of_mem {placed : List (Nat × Position)} (once : (placed.map (·.1)).Nodup)
    {p : Position} (listed : (node, p) ∈ placed) : positionOf placed node = p := by
  have unique (q : Position) (also : (node, q) ∈ placed) : q = p :=
    congrArg Prod.snd (List.inj_on_of_nodup_map once also listed rfl)
  rw [positionOf, lookup_of_unique listed unique, Option.getD_some]

/-- The positions of an answer are the places of the nodes. -/
theorem get?_positions {nodes : List LayoutNode} (ids : (nodes.map (·.id)).Nodup)
    {n : LayoutNode} (here : nodes[node]? = some n) (placed : List (Nat × Position)) :
    (KeyMap.ofList (nodes.mapIdx fun number n => (n.id, positionOf placed number))).get? n.id =
      some (positionOf placed node) := by
  obtain ⟨inside, rfl⟩ := List.getElem?_eq_some_iff.1 here
  refine KeyMap.get?_ofList (List.mem_mapIdx.2 ⟨node, inside, rfl⟩) fun other also => ?_
  obtain ⟨number, bound, same⟩ := List.mem_mapIdx.1 also
  obtain ⟨sameId, rfl⟩ := Prod.mk.inj same
  have equal : (nodes.map (·.id))[number]? = (nodes.map (·.id))[node]? := by
    rw [List.getElem?_map, List.getElem?_map, List.getElem?_eq_getElem bound, here,
      Option.map_some, Option.map_some, sameId]
  rw [(List.getElem?_inj (by rwa [List.length_map]) ids).1 equal]

/-- Two sources and two targets, with edges that cross unless the targets change places. -/
def crossed : LayoutRequest where
  nodes := [node "a" "ao" 50.0 .east, node "b" "bo" 50.0 .east, node "c" "ci" 0.0 .west,
    node "d" "di" 0.0 .west]
  edges := [⟨"e1", "ao", "di"⟩, ⟨"e2", "bo", "ci"⟩]
where
  node (id port : String) (x : Float) (side : Side) : LayoutNode :=
    ⟨id, 50.0, 40.0, [⟨port, x, 20.0, side⟩]⟩

end BlockSchematic.Layered
