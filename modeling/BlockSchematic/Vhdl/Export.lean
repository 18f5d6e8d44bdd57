import BlockSchematic.Netlist.Basic
import BlockSchematic.Text.Number
import BlockSchematic.Vhdl.Substitution

/-!
# Structural export

The text declares the entity of the top-level pins, a component for each template, and a signal
for each net without a pin. Then each component instance has its port map, and the fragments
follow with their port names replaced by signals.
-/

namespace BlockSchematic.Vhdl

def defaultTop : String := "TopLevelSchematic"

def directionMode : Direction → String
  | .input => "in"
  | .output => "out"
  | .bidirectional => "inout"

def typeName (width : UInt32) : String :=
  if 1 < width then s!"std_logic_vector({width.toNat - 1} downto 0)" else "std_logic"

/-- The items, all but the last with a mark behind. -/
def separated (mark : String) : List String → List String
  | [] => []
  | [last] => [last]
  | item :: rest => (item ++ mark) :: separated mark rest

/-- A port clause with an entry on each line, or nothing for no entries. -/
def portClause (margin : String) (entries : List String) : List String :=
  if entries.isEmpty then []
  else
    (margin ++ "port (") :: (separated ";" entries).map (margin ++ "    " ++ ·) ++
      [margin ++ ");"]

def pinMode (role : Role) : String := if role = .inputPin then "in" else "out"

def pinWidth (i : Instance) : UInt32 := ((i.port? 0).map (·.width)).getD 1

def pinEntry (i : Instance) : String :=
  s!"{sanitize i.name} : {pinMode i.role} {typeName (pinWidth i)}"

def entityLines (s : Schematic) (top : String) : List String :=
  s!"entity {top} is" :: portClause "    " ((s.instances.filter (·.isPin)).map pinEntry) ++
    [s!"end {top};"]

def portEntry (p : Port) : String :=
  s!"{sanitize p.name} : {directionMode p.direction} {typeName p.width}"

/-- The first instance of each template that is used as a component. -/
def templates (s : Schematic) : List Instance :=
  firstOfEach (·.template) [] (s.instances.filter (·.role = .component))

def componentLines (i : Instance) : List String :=
  s!"    component {sanitize i.template}" ::
    portClause "        " (i.symbol.ports.map portEntry) ++ ["    end component;", ""]

def signalLine (n : Net) : String := s!"    signal {n.name} : {typeName n.width};"

def actuals (n : Netlist) (i : Instance) : List String :=
  i.symbol.ports.mapIdx fun index p => s!"{sanitize p.name} => {n.signalFor ⟨i.id, index⟩}"

def instanceLines (n : Netlist) (i : Instance) : List String :=
  let head := s!"    {sanitize i.name} : {sanitize i.template}"
  if i.symbol.ports.isEmpty then [head ++ ";", ""]
  else
    head :: "        port map (" :: (separated "," (actuals n i)).map ("            " ++ ·) ++
      ["        );", ""]

/-- The signals of a fragment's ports under the ports' names, last ports first, so that the last
of several ports with one name is found. -/
def replacements (n : Netlist) (i : Instance) (g : Glue) : List (String × String) :=
  (g.ports.mapIdx fun index p => (p.name, n.signalFor ⟨i.id, index⟩)).reverse

def fragmentLine (line : List Char) : String :=
  if line.all Text.isBlank then "" else "    " ++ String.ofList line

def fragmentLines (n : Netlist) (i : Instance) (g : Glue) : List String :=
  let code := String.ofList (Text.trimEnd g.code.toList)
  let replaced := substitute (fun word => (replacements n i g).lookup word) code
  (Text.lines replaced.toList).map fragmentLine

def glueLines (n : Netlist) (i : Instance) : List String :=
  s!"    -- Glue logic: {i.name}" ::
    (match i.glue with
      | none => []
      | some g => fragmentLines n i g) ++ [""]

def rule : String := String.ofList (List.replicate 60 '-')

def headLines : List String :=
  [rule, "-- Generated by schemix", rule, "", "library IEEE;", "use IEEE.STD_LOGIC_1164.ALL;",
    "use IEEE.NUMERIC_STD.ALL;", ""]

def architectureLines (s : Schematic) (n : Netlist) (top : String) : List String :=
  [s!"architecture Structural of {top} is", "", "    -- Component declarations"] ++
    (templates s).flatMap componentLines ++
    "    -- Signal declarations" :: (n.nets.filter (·.isSignal)).map signalLine ++
    ["", "begin", ""] ++
    (s.instances.filter (·.role = .component)).flatMap (instanceLines n) ++
    (s.instances.filter (·.role = .glue)).flatMap (glueLines n) ++
    ["end Structural;"]

def unlines (lines : List String) : String :=
  String.join (lines.map (· ++ "\n"))

def ofSchematic (s : Schematic) (top : String) : String :=
  let top := sanitize top
  unlines (headLines ++ entityLines s top ++ [""] ++ architectureLines s (.build s) top)

end BlockSchematic.Vhdl
