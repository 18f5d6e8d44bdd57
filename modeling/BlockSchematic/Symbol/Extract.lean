import BlockSchematic.Sexpr.Reader
import BlockSchematic.Symbol.Label

/-!
# Symbols from their description

The description of a symbol is a `symbol` form. Each part is read from the children headed by its
name; where only one value is kept the last child wins, lists collect all of them, and children
that are not known are passed over. No description is refused: without a `symbol` form the result
is a placeholder.
-/

namespace BlockSchematic

/-- The children headed by `name`, in order. -/
def formsNamed (name : String) (items : List Sexpr) : List Sexpr := items.filter (·.isForm name)

def lastOr {α : Type} (default : α) (xs : List α) : α := xs.getLast?.getD default

/-- The whole number at the start of a text, 0 if there is none or it is too large. -/
def leadingInt (text : String) : Int32 :=
  let cs := Text.trimChars text.toList
  let number :=
    match cs with
    | [] => []
    | c :: rest =>
      if c.isDigit || c == '-' || c == '+' then c :: rest.takeWhile Char.isDigit else []
  Int32.ofInt ((Text.readIntBelow? WordBound.signed32 number).getD 0)

namespace Sexpr

def item? (e : Sexpr) (index : Nat) : Option Sexpr := e.items?.bind (·[index]?)

def toInt (e : Sexpr) : Int32 := (e.text?.map leadingInt).getD 0

def intAt (e : Sexpr) (index : Nat) : Int32 := ((e.item? index).map toInt).getD 0

def textAt? (e : Sexpr) (index : Nat) : Option String := (e.item? index).bind text?

end Sexpr

def Point.ofForm (e : Sexpr) : Point := ⟨e.intAt 1, e.intAt 2⟩

def Rect.ofForm (e : Sexpr) : Rect := ⟨e.intAt 1, e.intAt 2, e.intAt 3, e.intAt 4⟩

def Font.ofForms (fonts : List Sexpr) : Font where
  family := lastOr Font.standard.family (fonts.filterMap (·.textAt? 1))
  size := lastOr Font.standard.size
    (fonts.filterMap fun f => ((f.findForm? "font_size").bind (·.item? 1)).map Sexpr.toInt)

def Caption.ofForm? (e : Sexpr) : Option Caption := do
  let value ← e.textAt? 1
  let parts := e.children.drop 1
  return {
    value
    rect := lastOr .zero ((formsNamed "rect" parts).map Rect.ofForm)
    font := Font.ofForms (formsNamed "font" parts)
  }

def Segment.ofForm? (e : Sexpr) : Option Segment :=
  let width := ((e.findForm? "line_width").bind (·.item? 1)).map Sexpr.toInt
  match (formsNamed "pt" e.children).map Point.ofForm with
  | p1 :: p2 :: _ => some ⟨p1, p2, width.getD 1⟩
  | _ => none

def captions (items : List Sexpr) : List Caption :=
  (formsNamed "text" items).filterMap Caption.ofForm?

def segments (items : List Sexpr) : List Segment :=
  (formsNamed "line" items).filterMap Segment.ofForm?

/-- A direction stands bare or heads a list. -/
def Direction.ofItem? : Sexpr → Option Direction
  | .atom word => Direction.ofKeyword? word
  | .quoted _ => none
  | .list items => (Sexpr.head? (.list items)).bind Direction.ofKeyword?

def Port.ofForm (e : Sexpr) : Port :=
  let items := e.children
  let texts := captions items
  let (name, width) :=
    match texts with
    | first :: _ => splitBusLabel first.value
    | [] => ("unknown", 1)
  { name
    direction := lastOr .input (items.filterMap Direction.ofItem?)
    width
    location := lastOr .origin ((formsNamed "pt" items).map Point.ofForm)
    texts
    lines := segments items }

def Drawing.ofForms (drawings : List Sexpr) : Drawing where
  lines := drawings.flatMap fun d => segments d.children
  texts := drawings.flatMap fun d => captions d.children

/-- The name of a symbol that has no title. -/
def untitled : String := "Unknown"

def Symbol.ofForm (version : String) (e : Sexpr) : Symbol :=
  let items := e.children
  let mainTexts := captions items
  { name := (mainTexts.head?.map (·.value)).getD untitled
    version
    bounds := lastOr .zero ((formsNamed "rect" items).map Rect.ofForm)
    ports := (formsNamed "port" items).map Port.ofForm
    drawing := Drawing.ofForms (formsNamed "drawing" items)
    mainTexts }

/-- The version said in the first header. -/
def headerVersion? (forms : List Sexpr) : Option String := do
  let header ← forms.find? (·.isForm "header")
  let version ← header.findForm? "version"
  version.textAt? 1

/-- Stands in where no symbol can be found. -/
def Symbol.placeholder : Symbol where
  name := "No Symbol"
  version := "0.0"
  bounds := ⟨0, 0, 200, 200⟩
  ports := []
  drawing := {
    lines := outline ⟨0, 0⟩ ⟨200, 0⟩ ⟨200, 200⟩ ⟨0, 200⟩
    texts := [⟨"Symbol Not Found", ⟨50, 90, 150, 110⟩, ⟨"Arial", 12⟩⟩]
  }
  mainTexts := []

def Symbol.ofForms (forms : List Sexpr) : Symbol :=
  match forms.find? (·.isForm "symbol") with
  | some e => Symbol.ofForm ((headerVersion? forms).getD "0.1") e
  | none => .placeholder

def Symbol.ofDescription (text : String) : Symbol :=
  match Sexpr.parseAll text with
  | .ok forms => .ofForms forms
  | .error _ => .placeholder

end BlockSchematic
