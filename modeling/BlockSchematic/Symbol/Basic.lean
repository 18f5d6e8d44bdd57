/-!
# Block symbols

A symbol is a drawing of a block with ports at fixed places. Coordinates are words of 32 bits,
relative to the symbol's corner. The drawing itself carries no meaning for connections.
-/

namespace BlockSchematic

structure Point where
  x : Int32
  y : Int32
  deriving DecidableEq, Repr, Inhabited

structure Rect where
  x1 : Int32
  y1 : Int32
  x2 : Int32
  y2 : Int32
  deriving DecidableEq, Repr, Inhabited

def Point.origin : Point := ⟨0, 0⟩

def Rect.zero : Rect := ⟨0, 0, 0, 0⟩

def Rect.width (r : Rect) : Int32 := (r.x2 - r.x1).abs

def Rect.height (r : Rect) : Int32 := (r.y2 - r.y1).abs

structure Font where
  family : String
  size : Int32
  deriving DecidableEq, Repr, Inhabited

def Font.standard : Font := ⟨"Arial", 10⟩

/-- A text placed in a drawing. -/
structure Caption where
  value : String
  rect : Rect
  font : Font
  deriving DecidableEq, Repr, Inhabited

structure Segment where
  p1 : Point
  p2 : Point
  width : Int32
  deriving DecidableEq, Repr, Inhabited

def Segment.thin (p1 p2 : Point) : Segment := ⟨p1, p2, 1⟩

/-- The closed outline through four corners. -/
def outline (a b c d : Point) : List Segment := [.thin a b, .thin b c, .thin c d, .thin d a]

structure Drawing where
  lines : List Segment
  texts : List Caption
  deriving DecidableEq, Repr, Inhabited

def Drawing.blank : Drawing := ⟨[], []⟩

inductive Direction where
  | input
  | output
  | bidirectional
  deriving DecidableEq, Repr, Inhabited

def Direction.keyword : Direction → String
  | .input => "input"
  | .output => "output"
  | .bidirectional => "bidir"

def Direction.ofKeyword? (word : String) : Option Direction :=
  [Direction.input, .output, .bidirectional].find? (·.keyword = word)

structure Port where
  name : String
  direction : Direction
  width : UInt32
  /-- The place where a wire ends. -/
  location : Point
  texts : List Caption
  lines : List Segment
  deriving DecidableEq, Repr, Inhabited

structure Symbol where
  name : String
  version : String
  bounds : Rect
  ports : List Port
  drawing : Drawing
  mainTexts : List Caption
  deriving DecidableEq, Repr, Inhabited

def Symbol.width (s : Symbol) : Int32 := s.bounds.width

def Symbol.height (s : Symbol) : Int32 := s.bounds.height

def Symbol.port? (s : Symbol) (index : Nat) : Option Port := s.ports[index]?

@[simp] theorem Direction.ofKeyword?_keyword (d : Direction) :
    Direction.ofKeyword? d.keyword = some d := by
  cases d <;> decide

end BlockSchematic
