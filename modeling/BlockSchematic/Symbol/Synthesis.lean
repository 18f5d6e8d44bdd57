import BlockSchematic.Entity.Basic
import BlockSchematic.Symbol.Label

/-!
# Symbols drawn from an interface

Inputs stand on the left edge and all other ports on the right, each side from the top at a fixed
pitch. A port ends in a pigtail outside the body, and the body is wide enough for the longest
labels of both sides.
-/

namespace BlockSchematic.Synthesis

def pigtail : Nat := 16

def portPitch : Nat := 16

def topMargin : Nat := 24

def bottomMargin : Nat := 16

def letterWidth : Nat := 7

def labelLetterWidth : Nat := 6

def labelGap : Nat := 4

def titleLetterWidth : Nat := 8

def leastBodyWidth : Nat := 60

def centerGap : Nat := 20

def grid : Nat := 10

/-- The next multiple of `grid`. -/
def ceilToGrid (n : Nat) : Nat := (n + grid - 1) / grid * grid

def textLength (s : String) : Nat := s.toList.length

/-- The length of a port's label; a bus counts five characters more than its name. -/
def labelLength (p : PortSpec) : Nat := textLength p.name + if 1 < p.width then 5 else 0

def longestLabel (ports : List PortSpec) : Nat := (ports.map labelLength).foldl max 0

def isLeft (p : PortSpec) : Bool := p.mode == .input

def leftPorts (ports : List PortSpec) : List PortSpec := ports.filter isLeft

def rightPorts (ports : List PortSpec) : List PortSpec := ports.filter (!isLeft ·)

/-- The ports in the order in which they are drawn. -/
def drawnPorts (ports : List PortSpec) : List PortSpec := leftPorts ports ++ rightPorts ports

def rows (ports : List PortSpec) : Nat := max (leftPorts ports).length (rightPorts ports).length

def totalHeight (ports : List PortSpec) : Nat :=
  topMargin + (rows ports - 1) * portPitch + bottomMargin

def bodyWidth (ports : List PortSpec) : Nat :=
  max leastBodyWidth (ceilToGrid (longestLabel (leftPorts ports) * letterWidth + centerGap +
    longestLabel (rightPorts ports) * letterWidth))

def totalWidth (ports : List PortSpec) : Nat := bodyWidth ports + 2 * pigtail

def coordinate (n : Int) : Int32 := Int32.ofInt n

def point (x y : Int) : Point := ⟨coordinate x, coordinate y⟩

def rect (x1 y1 x2 y2 : Int) : Rect := ⟨coordinate x1, coordinate y1, coordinate x2, coordinate y2⟩

def rowHeight (row : Nat) : Int := topMargin + row * portPitch

def labelFont : Font := ⟨"Arial", 8⟩

/-- A port on the left edge. -/
def leftPort (spec : PortSpec) (row : Nat) : Port :=
  let y := rowHeight row
  let label := busLabel spec.name spec.width
  let x : Int := pigtail + labelGap
  { name := spec.name
    direction := spec.mode.direction
    width := spec.width
    location := point 0 y
    texts := [⟨label, rect x (y - 6) (x + textLength label * labelLetterWidth) (y + 6), labelFont⟩]
    lines := [.thin (point 0 y) (point pigtail y)] }

/-- A port on the right edge of a symbol of width `total`. -/
def rightPort (total : Nat) (spec : PortSpec) (row : Nat) : Port :=
  let y := rowHeight row
  let label := busLabel spec.name spec.width
  let x : Int := (total : Int) - pigtail - labelGap
  { name := spec.name
    direction := spec.mode.direction
    width := spec.width
    location := point total y
    texts := [⟨label, rect (x - textLength label * labelLetterWidth) (y - 6) x (y + 6), labelFont⟩]
    lines := [.thin (point (total - pigtail : Int) y) (point total y)] }

/-- The rectangle between the pigtails. -/
def bodyOutline (total height : Nat) : List Segment :=
  let right : Int := (total : Int) - pigtail
  outline (point pigtail 0) (point right 0) (point right height) (point pigtail height)

def title (name : String) (total : Nat) : Caption :=
  let half : Int := textLength name * titleLetterWidth / 2
  let middle : Int := total / 2
  ⟨name, rect (middle - half) 2 (middle + half) 18, ⟨"Arial", 10⟩⟩

end Synthesis

open Synthesis in
/-- The symbol drawn for a name and an interface. -/
def Symbol.ofInterface (name : String) (ports : List PortSpec) : Symbol :=
  let total := totalWidth ports
  let height := totalHeight ports
  { name
    version := "1.0"
    bounds := rect 0 0 total height
    ports := (leftPorts ports).mapIdx (fun row spec => leftPort spec row) ++
      (rightPorts ports).mapIdx (fun row spec => rightPort total spec row)
    drawing := ⟨bodyOutline total height, []⟩
    mainTexts := [title name total] }

def Entity.symbol (e : Entity) : Symbol := Symbol.ofInterface e.name e.ports

end BlockSchematic
