import BlockSchematic.Schematic.IdSource
import BlockSchematic.Schematic.Rules
import BlockSchematic.Symbol.Synthesis

/-!
# Edits

An edit makes a new schematic and leaves the old one as it was; a refused edit makes none. Edits
that name something new draw ids, and an id that was drawn stays used even if the edit is refused
afterwards.
-/

namespace BlockSchematic

inductive EditError where
  | unknownInstance (id : String)
  | unknownWire (id : String)
  | unknownPort (port : PortRef)
  | illegalConnection (source target : PortRef) (reason : Rejection)
  | notAPinSymbol (name : String)
  deriving DecidableEq, Repr

def EditError.message : EditError → String
  | .unknownInstance id => s!"no instance with id '{id}'"
  | .unknownWire id => s!"no wire with id '{id}'"
  | .unknownPort port => s!"no port {port.text}"
  | .illegalConnection source target reason =>
    s!"cannot connect {source.text} to {target.text}: {reason.message}"
  | .notAPinSymbol name => s!"symbol '{name}' is not a pin symbol"

/-- Changes the first member that satisfies `p`. -/
def updateFirst {α : Type} (p : α → Bool) (f : α → α) : List α → List α
  | [] => []
  | a :: rest => if p a then f a :: rest else a :: updateFirst p f rest

namespace Schematic

variable (src : IdSource)

def fresh (s : Schematic) (kind : String) (st : src.State) : String × src.State :=
  src.fresh kind s.ids st

def countPlaced (s : Schematic) (template : String) : UInt32 :=
  (s.counters.get? template).getD 0 + 1

/-- Places an instance, named after its template and the number of those placed so far unless a
name is given. -/
def place (s : Schematic) (symbol : Symbol) (role : Role) (glue : Option Glue)
    (name : Option String) (position : Position) (st : src.State) :
    (Schematic × String) × src.State :=
  let (id, st) := s.fresh src "inst" st
  let count := s.countPlaced symbol.name
  let placed : Instance := {
    id
    template := symbol.name
    name := name.getD s!"{symbol.name}_{count.toNat}"
    position
    role
    symbol
    glue }
  (({ s with
      instances := s.instances ++ [placed]
      counters := s.counters.insert symbol.name count }, id), st)

def addInstance (s : Schematic) (symbol : Symbol) (position : Position) (st : src.State) :
    (Schematic × String) × src.State :=
  s.place src symbol (.ofTemplate symbol.name) none none position st

/-- Places a code fragment with the symbol drawn for its ports; the fragment keeps the ports in
the order in which they are drawn. -/
def addGlue (s : Schematic) (name code : String) (ports : List PortSpec) (position : Position)
    (st : src.State) : (Schematic × String) × src.State :=
  let ports := Synthesis.drawnPorts ports
  s.place src (.ofInterface name ports) .glue (some ⟨code, ports⟩) none position st

def removeInstance (s : Schematic) (id : String) : Except EditError Schematic :=
  if (s.instance? id).isSome then
    .ok { s with
      instances := s.instances.filter (·.id ≠ id)
      wires := s.wires.filter (!·.touchesInstance id) }
  else .error (.unknownInstance id)

/-- The wires of a moved instance follow it and lose their routes. -/
def moveInstance (s : Schematic) (id : String) (position : Position) :
    Except EditError Schematic :=
  if (s.instance? id).isSome then
    .ok ({ s with
      instances := updateFirst (·.id = id) (fun i => { i with position }) s.instances
      wires := s.wires.map fun w => if w.touchesInstance id then { w with route := none } else w
      : Schematic }).refreshWires
  else .error (.unknownInstance id)

def orUnknown {α : Type} (x : Option α) (p : PortRef) : Except EditError α :=
  match x with
  | some a => .ok a
  | none => .error (.unknownPort p)

def checkEdit (s : Schematic) (p q : PortRef) : Except EditError Unit :=
  match s.check p q with
  | .ok () => .ok ()
  | .error reason => .error (.illegalConnection p q reason)

/-- Appends a wire between two ports that exist; the rules are not asked. -/
def pushWire (s : Schematic) (p q : PortRef) (st : src.State) :
    Except EditError (Schematic × String) × src.State :=
  match orUnknown (s.wireEnd? p) p, orUnknown (s.wireEnd? q) q with
  | .error e, _ => (.error e, st)
  | .ok _, .error e => (.error e, st)
  | .ok start, .ok finish =>
    let width := ((s.port? p).map (·.2.width)).getD 1
    let (id, st) := s.fresh src "w" st
    (.ok ({ s with wires := s.wires ++ [⟨id, start, finish, none, width⟩] }, id), st)

def connect (s : Schematic) (p q : PortRef) (st : src.State) :
    Except EditError (Schematic × String) × src.State :=
  match s.checkEdit p q with
  | .error e => (.error e, st)
  | .ok () => s.pushWire src p q st

/-- Connects after dropping every wire on the source port. -/
def reconnect (s : Schematic) (p q : PortRef) (st : src.State) :
    Except EditError (Schematic × String) × src.State :=
  match s.checkEdit p q with
  | .error e => (.error e, st)
  | .ok () => { s with wires := s.wires.filter (!·.touches p) : Schematic }.pushWire src p q st

def removeWire (s : Schematic) (id : String) : Except EditError Schematic :=
  if (s.wire? id).isSome then .ok { s with wires := s.wires.filter (·.id ≠ id) }
  else .error (.unknownWire id)

/-- The base itself, or with the first number from 2 on that makes a name nobody bears. Among one
number more than there are instances there is one. -/
def unusedName (s : Schematic) (base : String) : String :=
  let numbered := (List.range (s.instances.length + 1)).map fun n => s!"{base}_{n + 2}"
  ((base :: numbered).find? fun name => (s.instanceNamed? name).isNone).getD base

/-- A pin with the width of the port it is made for. -/
def widenPin (pin : Symbol) (width : UInt32) : Symbol :=
  match pin.ports with
  | [] => pin
  | p :: rest =>
    let texts :=
      match p.texts with
      | [] => []
      | t :: more => { t with value := busLabel p.name width } :: more
    { pin with ports := { p with width, texts } :: rest }

/-- A new pin stands beside its port: inputs to the left of it, outputs to the right. -/
def pinPosition (role : Role) (port : Position) : Position :=
  let dx := match role with
    | .inputPin => -120.0
    | _ => 40.0
  ⟨port.x + dx, port.y + -20.0⟩

/-- Places a pin beside a port and wires it up. The pin is named for the port. -/
def exportToPin (s : Schematic) (p : PortRef) (pin : Symbol) (st : src.State) :
    Except EditError (Schematic × String) × src.State :=
  let role := Role.ofTemplate pin.name
  if !role.isPin then (.error (.notAPinSymbol pin.name), st)
  else
    match s.port? p with
    | none => (.error (.unknownPort p), st)
    | some (_, port) =>
      let position := pinPosition role ((s.portPosition? p).getD .origin)
      let name := s.unusedName s!"{port.name}_pin"
      let ((placed, id), st) :=
        s.place src (widenPin pin port.width) role none (some name) position st
      match placed.connect src p ⟨id, 0⟩ st with
      | (.error e, st) => (.error e, st)
      | (.ok (wired, _), st) => (.ok (wired, id), st)

end Schematic

end BlockSchematic
