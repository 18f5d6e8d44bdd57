import BlockSchematic.Entity.Reader
import BlockSchematic.Symbol.Builtin
import BlockSchematic.Symbol.Describe
import BlockSchematic.Symbol.Extract
import BlockSchematic.Symbol.Synthesis

/-!
# Symbol libraries

A library holds symbols in the order in which their names came in; no name occurs twice. A symbol
comes from a description or is drawn for an entity, as the type of its source says.
-/

namespace BlockSchematic

/-- Why a source gives no symbol. -/
inductive SourceError where
  | noEntity
  | unsupportedType (fileType : String)
  deriving DecidableEq, Repr

def SourceError.message : SourceError → String
  | .noEntity => "No entity declaration found"
  | .unsupportedType fileType => "Unsupported file type: " ++ fileType

def Symbol.ofSource (text fileType : String) : Except SourceError Symbol :=
  if fileType = "bsf" then .ok (.ofDescription text)
  else if fileType = "vhd" ∨ fileType = "vhdl" then
    match Entity.read? text with
    | some entity => .ok entity.symbol
    | none => .error .noEntity
  else .error (.unsupportedType fileType)

structure Library where
  symbols : List Symbol
  distinct : (symbols.map (·.name)).Nodup

namespace Library

def empty : Library := ⟨[], by simp⟩

def names (l : Library) : List String := l.symbols.map (·.name)

def get? (l : Library) (name : String) : Option Symbol := l.symbols.find? (·.name = name)

def replace (symbols : List Symbol) (s : Symbol) : List Symbol :=
  symbols.map fun t => if t.name = s.name then s else t

theorem map_name_replace (symbols : List Symbol) (s : Symbol) :
    (replace symbols s).map (·.name) = symbols.map (·.name) := by
  simp only [replace, List.map_map]
  refine List.map_congr_left fun t _ => ?_
  by_cases h : t.name = s.name <;> simp [h]

/-- Adds a symbol, in the place of the one with its name if there is one. -/
def add (l : Library) (s : Symbol) : Library :=
  if h : s.name ∈ l.symbols.map (·.name) then
    ⟨replace l.symbols s, by rw [map_name_replace]; exact l.distinct⟩
  else
    ⟨l.symbols ++ [s], by
      rw [List.map_append, List.nodup_append]
      refine ⟨l.distinct, by simp, fun a ha b hb e => h ?_⟩
      rw [List.map_singleton, List.mem_singleton] at hb
      exact hb ▸ e ▸ ha⟩

def builtin : Library := ((empty.add .multiplexer).add .pinInput).add .pinOutput

end Library

end BlockSchematic
