import BlockSchematic.Document.Read
import BlockSchematic.Json.Value

/-!
# Writing documents

The members of a record come in a fixed order. Fragments and routes are written only where there
are any.
-/

namespace BlockSchematic

namespace Json

def ofWord (n : UInt32) : Json := .integer n.toNat

def ofSigned (n : Int32) : Json := .integer n.toInt

end Json

open Json (ofWord ofSigned)

def Point.toJson (p : Point) : Json := .object [("x", ofSigned p.x), ("y", ofSigned p.y)]

def Rect.toJson (r : Rect) : Json :=
  .object [("x1", ofSigned r.x1), ("y1", ofSigned r.y1), ("x2", ofSigned r.x2),
    ("y2", ofSigned r.y2)]

def Font.toJson (f : Font) : Json := .object [("family", .text f.family), ("size", ofSigned f.size)]

def Caption.toJson (c : Caption) : Json :=
  .object [("value", .text c.value), ("rect", c.rect.toJson), ("font", c.font.toJson)]

def Segment.toJson (s : Segment) : Json :=
  .object [("p1", s.p1.toJson), ("p2", s.p2.toJson), ("width", ofSigned s.width)]

def Drawing.toJson (d : Drawing) : Json :=
  .object [("lines", .array (d.lines.map Segment.toJson)),
    ("texts", .array (d.texts.map Caption.toJson))]

def Port.toJson (p : Port) : Json :=
  .object [("name", .text p.name), ("direction", .text p.direction.keyword),
    ("width", ofWord p.width), ("location", p.location.toJson),
    ("texts", .array (p.texts.map Caption.toJson)),
    ("lines", .array (p.lines.map Segment.toJson))]

def Symbol.toJson (s : Symbol) : Json :=
  .object [("name", .text s.name), ("version", .text s.version), ("bounds", s.bounds.toJson),
    ("ports", .array (s.ports.map Port.toJson)), ("drawing", s.drawing.toJson),
    ("main_texts", .array (s.mainTexts.map Caption.toJson))]

def PortSpec.toJson (p : PortSpec) : Json :=
  .object [("name", .text p.name), ("mode", .text p.mode.keyword), ("width", ofWord p.width)]

def Entity.toJson (e : Entity) : Json :=
  .object [("name", .text e.name), ("ports", .array (e.ports.map PortSpec.toJson))]

def Glue.toJson (g : Glue) : Json :=
  .object [("code", .text g.code), ("ports", .array (g.ports.map PortSpec.toJson))]

def Position.toJson (p : Position) : Json := .object [("x", .double p.x), ("y", .double p.y)]

/-- A member that is written only if it has a value. -/
def optionalMember {α : Type} (name : String) (toJson : α → Json) (value : Option α) :
    List (String × Json) :=
  match value with
  | none => []
  | some a => [(name, toJson a)]

def Instance.toJson (i : Instance) : Json :=
  .object ([("id", .text i.id), ("template_name", .text i.template),
    ("instance_name", .text i.name), ("position", i.position.toJson),
    ("role", .text (Document.roleName i.role)), ("symbol", i.symbol.toJson)] ++
    optionalMember "glue" Glue.toJson i.glue)

def WireEnd.toJson (e : WireEnd) : Json :=
  .object [("instance_id", .text e.port.instanceId), ("port_index", .integer e.port.index),
    ("location", e.position.toJson)]

def routeJson (route : List Position) : Json := .array (route.map Position.toJson)

def Wire.toJson (w : Wire) : Json :=
  .object ([("id", .text w.id), ("start", w.start.toJson), ("end", w.finish.toJson)] ++
    optionalMember "route" routeJson w.route ++ [("width", ofWord w.width)])

def Schematic.toJson (s : Schematic) : Json :=
  .object [("instances", .array (s.instances.map Instance.toJson)),
    ("wires", .array (s.wires.map Wire.toJson)),
    ("counters", .object (s.counters.toList.map fun (key, n) => (key, ofWord n)))]

def Document.write (s : Schematic) : String := s.toJson.pretty

end BlockSchematic
