import BlockSchematic.Symbol.Basic

/-!
# Built-in symbols

The two pins stand for the top-level ports of a schematic; the multiplexer is a sample block.
-/

namespace BlockSchematic

namespace Symbol

def pinInputName : String := "PIN_INPUT"

def pinOutputName : String := "PIN_OUTPUT"

def arial (size : Int32) : Font := ⟨"Arial", size⟩

/-- A top-level input: its one port drives the schematic. -/
def pinInput : Symbol where
  name := pinInputName
  version := "0.1"
  bounds := ⟨0, 0, 80, 40⟩
  ports := [{
    name := "PIN"
    direction := .output
    width := 1
    location := ⟨80, 20⟩
    texts := [⟨"PIN", ⟨60, 15, 75, 25⟩, arial 8⟩]
    lines := [.thin ⟨80, 20⟩ ⟨60, 20⟩] }]
  drawing := ⟨outline ⟨0, 10⟩ ⟨60, 10⟩ ⟨60, 30⟩ ⟨0, 30⟩, []⟩
  mainTexts := [⟨"INPUT", ⟨5, 5, 50, 20⟩, arial 8⟩]

/-- A top-level output: its one port is driven by the schematic. -/
def pinOutput : Symbol where
  name := pinOutputName
  version := "0.1"
  bounds := ⟨0, 0, 80, 40⟩
  ports := [{
    name := "PIN"
    direction := .input
    width := 1
    location := ⟨0, 20⟩
    texts := [⟨"PIN", ⟨5, 15, 20, 25⟩, arial 8⟩]
    lines := [.thin ⟨0, 20⟩ ⟨20, 20⟩] }]
  drawing := ⟨outline ⟨20, 10⟩ ⟨80, 10⟩ ⟨80, 30⟩ ⟨20, 30⟩, []⟩
  mainTexts := [⟨"OUTPUT", ⟨5, 5, 55, 20⟩, arial 8⟩]

/-- A port of the multiplexer; its caption is drawn twice. -/
def muxPort (name : String) (direction : Direction) (width : UInt32) (label : String)
    (location : Point) (rect : Rect) (line : Segment) : Port where
  name
  direction
  width
  location
  texts := [⟨label, rect, arial 8⟩, ⟨label, rect, arial 8⟩]
  lines := [line]

/-- Two buses of eight lines, one of which is passed on. -/
def multiplexer : Symbol where
  name := "2x8mux"
  version := "0.1"
  bounds := ⟨100, 100, 260, 180⟩
  ports := [
    muxPort "SEL" .input 1 "SEL" ⟨0, 24⟩ ⟨20, 16, 39, 30⟩ (.thin ⟨0, 24⟩ ⟨16, 24⟩),
    muxPort "A" .input 8 "A[7..0]" ⟨0, 40⟩ ⟨20, 32, 52, 46⟩ (.thin ⟨0, 40⟩ ⟨16, 40⟩),
    muxPort "B" .input 8 "B[7..0]" ⟨0, 56⟩ ⟨20, 48, 51, 62⟩ (.thin ⟨0, 56⟩ ⟨16, 56⟩),
    muxPort "Y" .output 8 "Y[7..0]" ⟨160, 24⟩ ⟨108, 17, 140, 31⟩ (.thin ⟨144, 24⟩ ⟨160, 24⟩)]
  drawing := {
    lines := [.thin ⟨16, 16⟩ ⟨144, 16⟩, .thin ⟨16, 64⟩ ⟨144, 64⟩, .thin ⟨16, 64⟩ ⟨16, 16⟩,
      .thin ⟨144, 64⟩ ⟨144, 16⟩]
    texts := [⟨"8 X 8 MULTIPLEXER", ⟨37, 65, 132, 79⟩, arial 8⟩] }
  mainTexts := [⟨"2x8mux", ⟨62, 0, 108, 16⟩, arial 10⟩, ⟨"0", ⟨3, 69, 7, 79⟩, arial 6⟩]

end Symbol

end BlockSchematic
