import BlockSchematic.Json.Decoder
import BlockSchematic.Schematic.Basic

/-!
# Reading documents

A document is a JSON record of instances, wires and counters. Counters, roles, fragments and
routes may be missing.
-/

namespace BlockSchematic.Document

open Json (Decoder Field Fields)

def point : Decoder Point :=
  (Fields.cons (.required "x" .signedWord) <| .cons (.required "y" .signedWord) .nil).decoder.map
    fun (x, y, ()) => ⟨x, y⟩

def rect : Decoder Rect :=
  (Fields.cons (.required "x1" .signedWord) <| .cons (.required "y1" .signedWord) <|
    .cons (.required "x2" .signedWord) <| .cons (.required "y2" .signedWord) .nil).decoder.map
    fun (x1, y1, x2, y2, ()) => ⟨x1, y1, x2, y2⟩

def font : Decoder Font :=
  (Fields.cons (.required "family" .text) <| .cons (.required "size" .signedWord)
    .nil).decoder.map
    fun (family, size, ()) => ⟨family, size⟩

def caption : Decoder Caption :=
  (Fields.cons (.required "value" .text) <| .cons (.required "rect" rect) <|
    .cons (.required "font" font) .nil).decoder.map
    fun (value, rect, font, ()) => ⟨value, rect, font⟩

def segment : Decoder Segment :=
  (Fields.cons (.required "p1" point) <| .cons (.required "p2" point) <|
    .cons (.required "width" .signedWord) .nil).decoder.map
    fun (p1, p2, width, ()) => ⟨p1, p2, width⟩

def drawing : Decoder Drawing :=
  (Fields.cons (.required "lines" (.list segment)) <|
    .cons (.required "texts" (.list caption)) .nil).decoder.map
    fun (lines, texts, ()) => ⟨lines, texts⟩

def direction : Decoder Direction := .choice Direction.ofKeyword?

def port : Decoder Port :=
  (Fields.cons (.required "name" .text) <| .cons (.required "direction" direction) <|
    .cons (.required "width" .word) <| .cons (.required "location" point) <|
    .cons (.required "texts" (.list caption)) <|
    .cons (.required "lines" (.list segment)) .nil).decoder.map
    fun (name, direction, width, location, texts, lines, ()) =>
      ⟨name, direction, width, location, texts, lines⟩

def symbol : Decoder Symbol :=
  (Fields.cons (.required "name" .text) <| .cons (.required "version" .text) <|
    .cons (.required "bounds" rect) <| .cons (.required "ports" (.list port)) <|
    .cons (.required "drawing" drawing) <|
    .cons (.required "main_texts" (.list caption)) .nil).decoder.map
    fun (name, version, bounds, ports, drawing, mainTexts, ()) =>
      ⟨name, version, bounds, ports, drawing, mainTexts⟩

def modeOfName? (name : String) : Option PortMode := PortMode.all.find? (·.keyword = name)

def portSpec : Decoder PortSpec :=
  (Fields.cons (.required "name" .text) <| .cons (.required "mode" (.choice modeOfName?)) <|
    .cons (.required "width" .word) .nil).decoder.map
    fun (name, mode, width, ()) => ⟨name, mode, width⟩

def glue : Decoder Glue :=
  (Fields.cons (.required "code" .text) <|
    .cons (.required "ports" (.list portSpec)) .nil).decoder.map
    fun (code, ports, ()) => ⟨code, ports⟩

def position : Decoder Position :=
  (Fields.cons (.required "x" .double) <| .cons (.required "y" .double) .nil).decoder.map
    fun (x, y, ()) => ⟨x, y⟩

def roleName : Role → String
  | .component => "component"
  | .inputPin => "input_pin"
  | .outputPin => "output_pin"
  | .glue => "glue"

def roleOfName? (name : String) : Option Role :=
  [Role.component, .inputPin, .outputPin, .glue].find? (roleName · = name)

def «instance» : Decoder Instance :=
  (Fields.cons (.required "id" .text) <| .cons (.required "template_name" .text) <|
    .cons (.required "instance_name" .text) <| .cons (.required "position" position) <|
    .cons (.defaulted "role" (.choice roleOfName?) .component) <|
    .cons (.required "symbol" symbol) <|
    .cons (.defaulted "glue" (.optional glue) none) .nil).decoder.map
    fun (id, template, name, position, role, symbol, glue, ()) =>
      ⟨id, template, name, position, role, symbol, glue⟩

def wireEnd : Decoder WireEnd :=
  (Fields.cons (.required "instance_id" .text) <| .cons (.required "port_index" .index) <|
    .cons (.required "location" position) .nil).decoder.map
    fun (id, index, position, ()) => ⟨⟨id, index⟩, position⟩

def wire : Decoder Wire :=
  (Fields.cons (.required "id" .text) <| .cons (.required "start" wireEnd) <|
    .cons (.required "end" wireEnd) <|
    .cons (.defaulted "route" (.optional (.list position)) none) <|
    .cons (.required "width" .word) .nil).decoder.map
    fun (id, start, finish, route, width, ()) => ⟨id, start, finish, route, width⟩

def counters : Decoder (KeyMap UInt32) := (Decoder.members .word).map KeyMap.ofList

def schematic : Decoder Schematic :=
  (Fields.cons (.required "instances" (.list «instance»)) <|
    .cons (.required "wires" (.list wire)) <|
    .cons (.defaulted "counters" counters .empty) .nil).decoder.map
    fun (instances, wires, counters, ()) => ⟨instances, wires, counters⟩

def read (text : String) : Except Json.Fault Schematic := Json.decodeText schematic text

end BlockSchematic.Document
