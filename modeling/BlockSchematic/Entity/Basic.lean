import BlockSchematic.Symbol.Basic

/-!
# Entities

An entity is a name with a list of ports that have a mode and a width but no place.
-/

namespace BlockSchematic

inductive PortMode where
  | input
  | output
  | inout
  | buffer
  deriving DecidableEq, Repr, Inhabited

namespace PortMode

def keyword : PortMode → String
  | .input => "in"
  | .output => "out"
  | .inout => "inout"
  | .buffer => "buffer"

def all : List PortMode := [.input, .output, .inout, .buffer]

/-- Keywords are read in any letter case. -/
def ofKeyword? (word : String) : Option PortMode :=
  all.find? (·.keyword = word.map Char.toLower)

def direction : PortMode → Direction
  | .input => .input
  | .inout => .bidirectional
  | .output => .output
  | .buffer => .output

end PortMode

structure PortSpec where
  name : String
  mode : PortMode
  width : UInt32
  deriving DecidableEq, Repr, Inhabited

/-- A port is at least one line wide. -/
def PortSpec.make (name : String) (mode : PortMode) (width : UInt32) : PortSpec :=
  ⟨name, mode, if width = 0 then 1 else width⟩

structure Entity where
  name : String
  ports : List PortSpec
  deriving DecidableEq, Repr, Inhabited

theorem PortSpec.width_make_ne_zero (name : String) (mode : PortMode) (width : UInt32) :
    (PortSpec.make name mode width).width ≠ 0 := by
  unfold PortSpec.make
  dsimp only
  split
  · decide
  · assumption

end BlockSchematic
