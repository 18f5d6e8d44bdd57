import BlockSchematic.Netlist.Forest
import BlockSchematic.Schematic.Basic
import BlockSchematic.Vhdl.Identifier

/-!
# Nets

Ports that a chain of wires links form a net. A net is named after the index of its first wire,
unless it reaches a top-level pin: then it takes the pin's name and needs no signal of its own.
-/

namespace BlockSchematic

structure Net where
  name : String
  width : UInt32
  members : List PortRef
  /-- The id of the pin the net is bound to. -/
  pin : Option String
  deriving DecidableEq, Repr

def Net.isSignal (n : Net) : Bool := n.pin.isNone

structure Netlist where
  nets : List Net
  deriving DecidableEq, Repr

namespace Schematic

/-- The ports at wire ends, in the order in which the wires first mention them. -/
def wiredPorts (s : Schematic) : List PortRef :=
  (s.wires.flatMap fun w => [w.start.port, w.finish.port]).eraseDups

/-- The ports of `ports` linked by the wires of a schematic; ports go by their places. -/
def links (s : Schematic) (ports : List PortRef) : Forest :=
  s.wires.foldl (fun f w => f.link (ports.idxOf w.start.port) (ports.idxOf w.finish.port))
    (.discrete ports.length)

end Schematic

/-- Keeps the first item of each key. -/
def firstOfEach {α β : Type} [BEq β] (key : α → β) : List β → List α → List α
  | _, [] => []
  | seen, a :: rest =>
    if seen.contains (key a) then firstOfEach key seen rest
    else a :: firstOfEach key (key a :: seen) rest

/-- The pin that a net with the given members is bound to, the first in instance order. -/
def Schematic.bindingPin? (s : Schematic) (members : List PortRef) : Option Instance :=
  s.instances.find? fun i => i.isPin && members.contains ⟨i.id, 0⟩

def Net.make (s : Schematic) (firstWire : Nat) (width : UInt32) (members : List PortRef) : Net :=
  match s.bindingPin? members with
  | some pin => ⟨Vhdl.sanitize pin.name, width, members, some pin.id⟩
  | none => ⟨s!"net_{firstWire}", width, members, none⟩

namespace Netlist

def build (s : Schematic) : Netlist :=
  let ports := s.wiredPorts
  let forest := s.links ports
  let rooted := ports.mapIdx fun slot p => (forest.root slot, p)
  let wires := s.wires.mapIdx fun k w => (forest.root (ports.idxOf w.start.port), k, w.width)
  ⟨(firstOfEach (·.1) [] wires).map fun (root, k, width) =>
    Net.make s k width ((rooted.filter (·.1 = root)).map (·.2))⟩

def netOf? (n : Netlist) (p : PortRef) : Option Net := n.nets.find? (·.members.contains p)

/-- Stands for the signal of a port that has no wire. -/
def unconnected : String := "open"

def signalFor (n : Netlist) (p : PortRef) : String :=
  ((n.netOf? p).map (·.name)).getD unconnected

end Netlist

end BlockSchematic
