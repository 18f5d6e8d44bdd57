import BlockSchematic.Layout.Layers
import BlockSchematic.Layout.Route

/-!
# Layered layout

Nodes stand in layers from left to right, and in each layer below one another, ordered by the mean
rank of their predecessors. Every edge gets an orthogonal route.
-/

namespace BlockSchematic.Layered

structure Spacing where
  /-- The gap between two nodes of a layer. -/
  node : Float
  /-- The gap between the widest node of a layer and the next layer. -/
  layer : Float
  deriving Repr

def Spacing.standard : Spacing := ⟨100.0, 100.0⟩

/-- A port with the number of its node. -/
structure Endpoint where
  node : Nat
  x : Float
  y : Float
  side : Side
  deriving Repr

structure Edge where
  id : String
  source : Endpoint
  target : Endpoint
  deriving Repr

/-- The nodes in the direction of the signal: a wire from a west port to an east port is drawn
against it. -/
def Edge.flow (e : Edge) : Nat × Nat :=
  match e.source.side, e.target.side with
  | .west, .east => (e.target.node, e.source.node)
  | _, _ => (e.source.node, e.target.node)

/-- The ports by their ids, the last first. -/
def portTable (nodes : List LayoutNode) : List (String × Endpoint) :=
  ((nodes.mapIdx fun number n =>
    n.ports.map fun p => (p.id, (⟨number, p.x, p.y, p.side⟩ : Endpoint))).flatten).reverse

def resolvePort (table : List (String × Endpoint)) (edge port : String) :
    Except LayoutError Endpoint :=
  match table.lookup port with
  | some e => .ok e
  | none => .error (.failed s!"edge '{edge}' references unknown port '{port}'")

def resolveEdges (table : List (String × Endpoint)) :
    List LayoutEdge → Except LayoutError (List Edge)
  | [] => .ok []
  | e :: rest => do
    let source ← resolvePort table e.id e.source
    let target ← resolvePort table e.id e.target
    let edges ← resolveEdges table rest
    return ⟨e.id, source, target⟩ :: edges

structure Graph where
  nodes : List LayoutNode
  edges : List Edge

namespace Graph

def flows (g : Graph) : List (Nat × Nat) := g.edges.map Edge.flow

def layers (g : Graph) : Array Nat := Layers.assign g.nodes.length g.flows

def ofRequest (r : LayoutRequest) : Except LayoutError Graph := do
  let edges ← resolveEdges (portTable r.nodes) r.edges
  return ⟨r.nodes, edges⟩

end Graph

/-- The nodes of one layer in request order. -/
def layerNodes (layers : Array Nat) (layer : Nat) : List Nat :=
  (List.range layers.size).filter fun node => layers[node]? == some layer

def layerCount (layers : Array Nat) : Nat := layers.foldl (fun n l => max n (l + 1)) 0

/-- The place of a node in the arrangement that holds it. -/
def rank (arranged : List (List Nat)) (node : Nat) : Float :=
  Float.ofNat ((arranged.findSome? (·.idxOf? node)).getD 0)

/-- The predecessors of a node in layers to its left, one for each edge. -/
def predecessors (layers : Array Nat) (flows : List (Nat × Nat)) (node : Nat) : List Nat :=
  (flows.filter fun (source, target) =>
    target == node && layers.getD source 0 < layers.getD node 0).map (·.1)

/-- The mean rank of the predecessors, or the place among the layer's nodes. -/
def sortKey (arranged : List (List Nat)) (preds : List Nat) (index : Nat) : Float :=
  if preds.isEmpty then Float.ofNat index
  else (preds.map (rank arranged)).foldl (· + ·) 0.0 / Float.ofNat preds.length

/-- The place of a double in the order of all doubles, which goes from the negative ones of great
size over the zeros to the positive ones. -/
def orderKey (x : Float) : Int :=
  let bits : Int := x.toBits.toNat
  if bits < WordBound.signed64 then bits else WordBound.signed64 - 1 - bits

/-- The nodes of a layer in ascending order of their keys, equal keys in request order. -/
def arrangeLayer (layers : Array Nat) (flows : List (Nat × Nat)) (arranged : List (List Nat))
    (nodes : List Nat) : List Nat :=
  let keyed := nodes.mapIdx fun index node =>
    (sortKey arranged (predecessors layers flows node) index, node)
  (keyed.mergeSort fun a b => orderKey a.1 ≤ orderKey b.1).map (·.2)

/-- The arrangements of all layers, each made from those to its left. -/
def arrange (layers : Array Nat) (flows : List (Nat × Nat)) : List (List Nat) :=
  (List.range (layerCount layers)).foldl
    (fun arranged layer =>
      arranged ++ [arrangeLayer layers flows arranged (layerNodes layers layer)])
    []

/-- Stacks nodes below one another from `y` on. -/
def stack (spacing : Spacing) (nodes : Array LayoutNode) (x : Float) :
    Float → List Nat → List (Nat × Position)
  | _, [] => []
  | y, node :: rest =>
    let height := (nodes[node]?.map (·.height)).getD 0.0
    (node, ⟨x, y⟩) :: stack spacing nodes x (y + (height + spacing.node)) rest

def widest (nodes : Array LayoutNode) (layer : List Nat) : Float :=
  (layer.filterMap fun node => nodes[node]?.map (·.width)).foldl
    (fun best width => if best < width then width else best) 0.0

/-- Places layers from left to right from `x` on. -/
def placeFrom (spacing : Spacing) (nodes : Array LayoutNode) :
    Float → List (List Nat) → List (Nat × Position)
  | _, [] => []
  | x, layer :: rest =>
    stack spacing nodes x 0.0 layer ++
      placeFrom spacing nodes (x + (widest nodes layer + spacing.layer)) rest

def place (g : Graph) (spacing : Spacing) : List (Nat × Position) :=
  placeFrom spacing g.nodes.toArray 0.0 (arrange g.layers g.flows)

def positionOf (placed : List (Nat × Position)) (node : Nat) : Position :=
  (placed.lookup node).getD .origin

def Endpoint.absolute (placed : List (Nat × Position)) (e : Endpoint) : Position :=
  let origin := positionOf placed e.node
  ⟨origin.x + e.x, origin.y + e.y⟩

def routeEdge (placed : List (Nat × Position)) (spacing : Spacing) (e : Edge) : List Position :=
  routeBetween (e.source.absolute placed) (e.target.absolute placed) e.source.side
    (spacing.layer / 2.0)

/-- The response to a request. Of several entries with one id the last counts. -/
def layout (spacing : Spacing) (r : LayoutRequest) : Except LayoutError LayoutResponse := do
  let g ← Graph.ofRequest r
  let placed := place g spacing
  return {
    positions := .ofList (g.nodes.mapIdx fun number n => (n.id, positionOf placed number))
    routes := .ofList (g.edges.map fun e => (e.id, routeEdge placed spacing e)) }

end BlockSchematic.Layered
