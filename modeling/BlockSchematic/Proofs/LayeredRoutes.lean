import BlockSchematic.Layout.Layered
import BlockSchematic.Proofs.WellFormed

/-!
# Layered layouts fit the schematic

A request addresses ports by printed ids, and the routes of the answer end where the layout engine
takes the ports to be. Printed ids tell ports apart. So where ids are distinct and every wire ends
at ports that exist, the engine finds each port at its own instance, and the routes end where the
schematic itself puts the ports.
-/

namespace BlockSchematic

open Text

theorem PortRef.layoutId_inj {p q : PortRef} (h : p.layoutId = q.layoutId) : p = q := by
  obtain ⟨i, k⟩ := p
  obtain ⟨j, l⟩ := q
  have chars : (i.toList ++ ['-']) ++ 'p' :: natChars k =
      (j.toList ++ ['-']) ++ 'p' :: natChars l := by
    simpa [layoutId] using congrArg String.toList h
  obtain ⟨ids, rfl⟩ := append_natChars_inj (by decide) chars
  rw [String.toList_injective (List.append_cancel_right ids)]

/-- The two points lie on a horizontal or a vertical line. -/
def Position.Aligned (p q : Position) : Prop :=
  p.x = q.x ∨ p.y = q.y ∨ (p.x == q.x) = true ∨ (p.y == q.y) = true

/-- A polyline of horizontal and vertical runs with at most two bends. -/
structure RunsBetween (start finish : Position) (route : List Position) : Prop where
  first : route.head? = some start
  last : route.getLast? = some finish
  points : route.length = 2 ∨ route.length = 4
  runs : route.IsChain Position.Aligned

theorem runsBetween_routeBetween (start finish : Position) (side : Side) (jog : Float) :
    RunsBetween start finish (routeBetween start finish side jog) := by
  rw [routeBetween]
  split
  · rename_i level
    exact ⟨rfl, rfl, .inl rfl,
      .cons_cons (.inr (.inr (.inr level))) (.singleton _)⟩
  · exact ⟨rfl, rfl, .inr rfl,
      .cons_cons (.inr (.inl rfl)) (.cons_cons (.inl rfl)
        (.cons_cons (.inr (.inl rfl)) (.singleton _)))⟩

namespace Layered

theorem lookup_of_unique {α β : Type} [BEq α] [LawfulBEq α] {entries : List (α × β)}
    {key : α} {value : β} (listed : (key, value) ∈ entries)
    (unique : ∀ other, (key, other) ∈ entries → other = value) :
    entries.lookup key = some value := by
  induction entries with
  | nil => cases listed
  | cons entry rest ih =>
    obtain ⟨first, here⟩ := entry
    by_cases same : key = first
    · subst same
      rw [List.lookup_cons, beq_self_eq_true, unique here List.mem_cons_self]
    · rw [List.lookup_cons, beq_false_of_ne same]
      refine ih ?_ fun other later => unique other (List.mem_cons_of_mem _ later)
      exact (List.mem_cons.1 listed).resolve_left fun eq => same (congrArg Prod.fst eq)

/-- A port of the instance with the given number, as the layout engine sees it. -/
def endpoint (number : Nat) (i : Instance) (port : Port) : Endpoint :=
  let x := wordValue port.location.x
  ⟨number, x, wordValue port.location.y, .of x (wordValue i.symbol.width)⟩

variable {s : Schematic}

theorem mem_portTable_iff {id : String} {e : Endpoint} :
    (id, e) ∈ portTable s.layoutRequest.nodes ↔ ∃ number i index port,
      s.instances[number]? = some i ∧ i.port? index = some port ∧
        id = PortRef.layoutId ⟨i.id, index⟩ ∧ e = endpoint number i port := by
  have row : ∀ (number : Nat) (i : Instance),
      (i.layoutNode.ports.map fun q => (q.id, (⟨number, q.x, q.y, q.side⟩ : Endpoint))) =
        i.symbol.ports.mapIdx fun index port =>
          (PortRef.layoutId ⟨i.id, index⟩, endpoint number i port) := by
    intro number i
    rw [Instance.layoutNode, List.mapIdx_eq_zipIdx_map, List.mapIdx_eq_zipIdx_map, List.map_map]
    rfl
  simp only [portTable, Schematic.layoutRequest, List.mem_reverse, List.mem_flatten,
    List.mem_mapIdx, List.getElem_map, row, List.length_map]
  constructor
  · rintro ⟨_, ⟨number, hn, rfl⟩, listed⟩
    obtain ⟨index, hk, same⟩ := List.mem_mapIdx.1 listed
    obtain ⟨rfl, rfl⟩ := Prod.mk.inj same
    exact ⟨number, _, index, _, List.getElem?_eq_getElem hn, List.getElem?_eq_getElem hk, rfl, rfl⟩
  · rintro ⟨number, i, index, port, present, hport, rfl, rfl⟩
    obtain ⟨hn, rfl⟩ := List.getElem?_eq_some_iff.1 present
    obtain ⟨hk, rfl⟩ := List.getElem?_eq_some_iff.1 hport
    exact ⟨_, ⟨number, hn, rfl⟩, List.mem_mapIdx.2 ⟨index, hk, rfl⟩⟩

/-- The end is at the given port of the schematic, numbered like its instance. -/
def EndsAt (s : Schematic) (p : PortRef) (e : Endpoint) : Prop :=
  ∃ i port, s.port? p = some (i, port) ∧ s.instances[e.node]? = some i ∧
    e = endpoint e.node i port

/-- The edge runs between the ports of the wire. -/
structure Follows (s : Schematic) (w : Wire) (e : Edge) : Prop where
  id : e.id = w.id
  source : EndsAt s w.start.port e.source
  target : EndsAt s w.finish.port e.target

section Ids

variable (ids : (s.instances.map (·.id)).Nodup)
include ids

theorem number_inj {m n : Nat} {i j : Instance} (hi : s.instances[m]? = some i)
    (hj : s.instances[n]? = some j) (same : i.id = j.id) : m = n := by
  have bound : m < (s.instances.map (·.id)).length := by
    rw [List.length_map]
    exact (List.getElem?_eq_some_iff.1 hi).1
  apply (List.getElem?_inj bound ids).1
  rw [List.getElem?_map, List.getElem?_map, hi, hj, Option.map_some, Option.map_some, same]

/-- A printed id leads to the port that it was printed for. -/
theorem resolvePort_layoutId {p : PortRef} (exists_port : (s.port? p).isSome = true)
    (edge : String) : ∃ e, resolvePort (portTable s.layoutRequest.nodes) edge p.layoutId = .ok e ∧
      EndsAt s p e := by
  obtain ⟨⟨i, port⟩, found⟩ := Option.isSome_iff_exists.1 exists_port
  obtain ⟨present, hport⟩ := Schematic.port?_eq_some_iff.1 found
  have named : i.id = p.instanceId := by simpa using List.find?_some present
  obtain ⟨number, here⟩ := List.mem_iff_getElem?.1 (List.mem_of_find?_eq_some present)
  have listed : (p.layoutId, endpoint number i port) ∈ portTable s.layoutRequest.nodes :=
    mem_portTable_iff.2 ⟨number, i, p.index, port, here, hport, by rw [named], rfl⟩
  have unique : ∀ other, (p.layoutId, other) ∈ portTable s.layoutRequest.nodes →
      other = endpoint number i port := by
    intro other also
    obtain ⟨m, j, index, q, there, hq, same, rfl⟩ := mem_portTable_iff.1 also
    obtain rfl := PortRef.layoutId_inj same
    obtain rfl := number_inj ids there here named.symm
    obtain rfl := Option.some.inj (there.symm.trans here)
    rw [Option.some.inj (hq.symm.trans hport)]
  refine ⟨endpoint number i port, ?_, i, port, found, here, rfl⟩
  rw [resolvePort, lookup_of_unique listed unique]

theorem resolveEdges_layoutRequest {wires : List Wire}
    (ends : ∀ w ∈ wires, (s.port? w.start.port).isSome = true ∧
      (s.port? w.finish.port).isSome = true) :
    ∃ edges, resolveEdges (portTable s.layoutRequest.nodes) (wires.map Wire.layoutEdge) =
        .ok edges ∧ List.Forall₂ (Follows s) wires edges := by
  induction wires with
  | nil => exact ⟨[], rfl, .nil⟩
  | cons w rest ih =>
    obtain ⟨here, later⟩ := List.forall_mem_cons.1 ends
    obtain ⟨source, hs, starts⟩ := resolvePort_layoutId ids here.1 w.id
    obtain ⟨target, ht, finishes⟩ := resolvePort_layoutId ids here.2 w.id
    obtain ⟨edges, resolved, follow⟩ := ih later
    refine ⟨⟨w.id, source, target⟩ :: edges, ?_, .cons ⟨rfl, starts, finishes⟩ follow⟩
    simp only [List.map_cons, resolveEdges, Wire.layoutEdge] at hs ht resolved ⊢
    rw [hs, ht, resolved]
    rfl

/-- The engine answers, with a position for each instance and a route for each wire. -/
theorem layout_layoutRequest (wireIds : (s.wires.map (·.id)).Nodup)
    (ends : ∀ w ∈ s.wires, (s.port? w.start.port).isSome = true ∧
      (s.port? w.finish.port).isSome = true) (spacing : Spacing) :
    ∃ response placed, layout spacing s.layoutRequest = .ok response ∧
      (∀ number i, s.instances[number]? = some i →
        response.positions.get? i.id = some (positionOf placed number)) ∧
      ∀ w ∈ s.wires, ∃ e, Follows s w e ∧
        response.routes.get? w.id = some (routeEdge placed spacing e) := by
  obtain ⟨edges, resolved, follow⟩ := resolveEdges_layoutRequest ids ends
  have graph : Graph.ofRequest s.layoutRequest = .ok ⟨s.layoutRequest.nodes, edges⟩ := by
    rw [Graph.ofRequest]
    exact congrArg (· >>= fun es => Except.ok (⟨s.layoutRequest.nodes, es⟩ : Graph)) resolved
  have edgeIds : (edges.map (·.id)).Nodup := by
    have same : s.wires.map (·.id) = edges.map (·.id) :=
      map_eq_of_forall₂ follow fun h => h.id.symm
    rwa [same] at wireIds
  refine ⟨_, place ⟨s.layoutRequest.nodes, edges⟩ spacing,
    by rw [layout, graph]; rfl, fun number i here => ?_, fun w hw => ?_⟩
  · refine KeyMap.get?_ofList (List.mem_mapIdx.2 ?_) fun other also => ?_
    · obtain ⟨hn, rfl⟩ := List.getElem?_eq_some_iff.1 here
      exact ⟨number, by simpa [Schematic.layoutRequest] using hn, by
        simp [Schematic.layoutRequest, Instance.layoutNode]⟩
    · obtain ⟨m, hm, same⟩ := List.mem_mapIdx.1 also
      obtain ⟨sameId, rfl⟩ := Prod.mk.inj same
      simp only [Schematic.layoutRequest, List.getElem_map, Instance.layoutNode,
        List.length_map] at sameId hm
      rw [number_inj ids (List.getElem?_eq_getElem hm) here sameId]
  · obtain ⟨k, hk, rfl⟩ := List.getElem_of_mem hw
    have bound : k < edges.length := follow.length_eq ▸ hk
    have here : Follows s s.wires[k] edges[k] := follow.get hk bound
    refine ⟨edges[k], here, KeyMap.get?_ofList (List.mem_map.2 ?_) fun other also => ?_⟩
    · exact ⟨edges[k], List.getElem_mem bound, by rw [here.id]⟩
    · obtain ⟨e, he, same⟩ := List.mem_map.1 also
      obtain ⟨sameId, rfl⟩ := Prod.mk.inj same
      have eq := List.inj_on_of_nodup_map edgeIds he (List.getElem_mem bound)
        (sameId.trans here.id.symm)
      rw [eq]

end Ids

theorem instance?_withLayout (s : Schematic) (response : LayoutResponse) (id : String) :
    (s.withLayout response).instance? id = (s.instance? id).map fun i =>
      { i with position := (response.positions.get? i.id).getD i.position } :=
  List.find?_map

theorem exists_of_mem_wires_withLayout {response : LayoutResponse} {v : Wire}
    (hv : v ∈ (s.withLayout response).wires) : ∃ w ∈ s.wires, v = { w with
      route := (response.routes.get? w.id).or w.route
      start := (s.withLayout response).refreshEnd w.start
      finish := (s.withLayout response).refreshEnd w.finish } := by
  obtain ⟨u, hu, rfl⟩ := List.mem_map.1 hv
  obtain ⟨w, hw, rfl⟩ := List.mem_map.1 hu
  exact ⟨w, hw, rfl⟩

/-- A port is drawn where the layout engine takes it to be. -/
theorem EndsAt.portPosition?_withLayout {p : PortRef} {e : Endpoint} (h : EndsAt s p e)
    {response : LayoutResponse} {placed : List (Nat × Position)}
    (positions : ∀ number i, s.instances[number]? = some i →
      response.positions.get? i.id = some (positionOf placed number)) :
    (s.withLayout response).portPosition? p = some (e.absolute placed) := by
  obtain ⟨i, port, found, here, same⟩ := h
  obtain ⟨present, hport⟩ := Schematic.port?_eq_some_iff.1 found
  have place := positions e.node i here
  have moved : (s.withLayout response).port? p =
      some ({ i with position := positionOf placed e.node }, port) := by
    apply Schematic.port?_eq_some_iff.2
    constructor
    · rw [instance?_withLayout, present, Option.map_some, place, Option.getD_some]
    · exact hport
  rw [Schematic.portPosition?_eq, moved, Option.map_some, same]
  rfl

end Layered

open Layered

/-- Where ids are distinct and every wire ends at ports that exist, the layered layout answers a
request, and its answer fits the schematic: each instance stands at the position it is given, the
ends of each wire are where the ports are, and each wire has a route between these two points that
runs horizontally and vertically with at most two bends. -/
theorem layered_layout_fits {s : Schematic} (instanceIds : (s.instances.map (·.id)).Nodup)
    (wireIds : (s.wires.map (·.id)).Nodup)
    (ends : ∀ w ∈ s.wires, (s.port? w.start.port).isSome = true ∧
      (s.port? w.finish.port).isSome = true) (spacing : Spacing) :
    ∃ response, layout spacing s.layoutRequest = .ok response ∧
      (∀ i ∈ (s.withLayout response).instances,
        response.positions.get? i.id = some i.position) ∧
      ∀ w ∈ (s.withLayout response).wires,
        (s.withLayout response).portPosition? w.start.port = some w.start.position ∧
        (s.withLayout response).portPosition? w.finish.port = some w.finish.position ∧
        ∃ route, w.route = some route ∧
          RunsBetween w.start.position w.finish.position route := by
  obtain ⟨response, placed, answered, positions, routes⟩ :=
    layout_layoutRequest instanceIds wireIds ends spacing
  refine ⟨response, answered, ?_, ?_⟩
  · intro i hi
    simp only [Schematic.withLayout, Schematic.refreshWires, List.mem_map] at hi
    obtain ⟨j, hj, rfl⟩ := hi
    obtain ⟨number, here⟩ := List.mem_iff_getElem?.1 hj
    simp only [positions number j here, Option.getD_some]
  · intro v hv
    obtain ⟨w, hw, rfl⟩ := exists_of_mem_wires_withLayout hv
    obtain ⟨e, follows, routed⟩ := routes w hw
    have start := follows.source.portPosition?_withLayout positions
    have finish := follows.target.portPosition?_withLayout positions
    simp only [Schematic.refreshEnd, start, finish, Option.getD_some, routed, Option.some_or]
    exact ⟨trivial, trivial, _, rfl, runsBetween_routeBetween _ _ _ _⟩

/-- The id of one instance is what the id of a port of the other is printed as. -/
def hyphenated : Schematic where
  instances := ["m", "m-p3"].map fun id =>
    ⟨id, Symbol.multiplexer.name, id, .origin, .component, .multiplexer, none⟩
  wires := [⟨"w", ⟨⟨"m", 3⟩, .origin⟩, ⟨⟨"m-p3", 1⟩, .origin⟩, none, 8⟩]
  counters := .empty

theorem layered_layout_fits_hyphenated :
    ∃ response, layout .standard hyphenated.layoutRequest = .ok response ∧
      ∀ w ∈ (hyphenated.withLayout response).wires, ∃ route, w.route = some route ∧
        RunsBetween w.start.position w.finish.position route := by
  obtain ⟨response, answered, -, wires⟩ :=
    layered_layout_fits (s := hyphenated) (by decide) (by decide) (by decide) .standard
  refine ⟨response, answered, fun w hw => ?_⟩
  obtain ⟨-, -, fits⟩ := wires w hw
  exact fits

end BlockSchematic
