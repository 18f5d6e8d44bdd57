import BlockSchematic.Schematic.Basic
import BlockSchematic.Text.Number
import BlockSchematic.WordBound

/-!
# Layout requests and responses

A request describes each instance as a node with ports at fixed places and each wire as an edge
between two port ids. A response gives new places for nodes and polylines for edges; whatever it
does not name stays as it was.
-/

namespace BlockSchematic

inductive Side where
  | west
  | east
  deriving DecidableEq, Repr, Inhabited

structure LayoutPort where
  id : String
  x : Float
  y : Float
  side : Side
  deriving Repr, BEq, Inhabited

structure LayoutNode where
  id : String
  width : Float
  height : Float
  ports : List LayoutPort
  deriving Repr, BEq, Inhabited

structure LayoutEdge where
  id : String
  source : String
  target : String
  deriving Repr, BEq, DecidableEq, Inhabited

structure LayoutRequest where
  nodes : List LayoutNode
  edges : List LayoutEdge
  deriving Repr, BEq, Inhabited

structure LayoutResponse where
  positions : KeyMap Position
  routes : KeyMap (List Position)
  deriving Inhabited

inductive LayoutError where
  | unavailable (reason : String)
  | failed (reason : String)
  deriving DecidableEq, Repr

def LayoutError.message : LayoutError → String
  | .unavailable reason => "layout engine unavailable: " ++ reason
  | .failed reason => "layout failed: " ++ reason

/-- The id of a port in a request: the instance id, `-p` and the index. -/
def PortRef.layoutId (p : PortRef) : String :=
  String.ofList (p.instanceId.toList ++ '-' :: 'p' :: Text.natChars p.index)

/-- The two sides of the last `-p`. -/
def splitPortMark? : List Char → Option (List Char × List Char)
  | [] => none
  | c :: rest =>
    match splitPortMark? rest with
    | some (before, after) => some (c :: before, after)
    | none =>
      match c, rest with
      | '-', 'p' :: after => some ([], after)
      | _, _ => none

/-- Indices are words of 64 bits. -/
def PortRef.ofLayoutId? (id : String) : Option PortRef := do
  let (before, after) ← splitPortMark? id.toList
  let index ← Text.readNatBelow? WordBound.unsigned64 after
  return ⟨String.ofList before, index⟩

/-- A port in the left half of its node faces west. -/
def Side.of (x width : Float) : Side := if x * 2.0 ≤ width then .west else .east

def Instance.layoutNode (i : Instance) : LayoutNode :=
  let width := wordValue i.symbol.width
  { id := i.id
    width
    height := wordValue i.symbol.height
    ports := i.symbol.ports.mapIdx fun index p =>
      let x := wordValue p.location.x
      ⟨PortRef.layoutId ⟨i.id, index⟩, x, wordValue p.location.y, .of x width⟩ }

def Wire.layoutEdge (w : Wire) : LayoutEdge :=
  ⟨w.id, w.start.port.layoutId, w.finish.port.layoutId⟩

namespace Schematic

def layoutRequest (s : Schematic) : LayoutRequest :=
  ⟨s.instances.map Instance.layoutNode, s.wires.map Wire.layoutEdge⟩

def withLayout (s : Schematic) (r : LayoutResponse) : Schematic :=
  ({ s with
    instances := s.instances.map fun i =>
      { i with position := (r.positions.get? i.id).getD i.position }
    wires := s.wires.map fun w => { w with route := (r.routes.get? w.id).or w.route }
    : Schematic }).refreshWires

end Schematic

end BlockSchematic
