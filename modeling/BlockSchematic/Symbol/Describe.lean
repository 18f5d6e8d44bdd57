import BlockSchematic.Sexpr.Printer
import BlockSchematic.Symbol.Label

/-!
# Descriptions of symbols

A symbol is written as a header and a `symbol` form. A port without captions gets one that holds
its label, so that reading finds its name and width again.
-/

namespace BlockSchematic

namespace Sexpr

def ofInt (n : Int32) : Sexpr := .atom (Text.intText n.toInt)

end Sexpr

open Sexpr (form)

def Point.toForm (p : Point) : Sexpr := form "pt" [.ofInt p.x, .ofInt p.y]

def Rect.toForm (r : Rect) : Sexpr :=
  form "rect" [.ofInt r.x1, .ofInt r.y1, .ofInt r.x2, .ofInt r.y2]

def Caption.toForm (c : Caption) : Sexpr :=
  form "text" [.quoted c.value, c.rect.toForm,
    form "font" [.quoted c.font.family, form "font_size" [.ofInt c.font.size]]]

def Segment.toForm (s : Segment) : Sexpr :=
  form "line" [s.p1.toForm, s.p2.toForm, form "line_width" [.ofInt s.width]]

def Port.captionForms (p : Port) : List Sexpr :=
  if p.texts.isEmpty then [form "text" [.quoted p.label]] else p.texts.map Caption.toForm

def Port.toForm (p : Port) : Sexpr :=
  form "port" (p.location.toForm :: form p.direction.keyword [] ::
    (p.captionForms ++ p.lines.map Segment.toForm))

def Drawing.toForm (d : Drawing) : Sexpr :=
  form "drawing" (d.texts.map Caption.toForm ++ d.lines.map Segment.toForm)

namespace Symbol

def toForm (s : Symbol) : Sexpr :=
  form "symbol" (s.bounds.toForm ::
    (s.mainTexts.map Caption.toForm ++ s.ports.map Port.toForm ++ [s.drawing.toForm]))

def headerForm (s : Symbol) : Sexpr :=
  form "header" [.quoted "symbol", form "version" [.quoted s.version]]

def description (s : Symbol) : String :=
  "// Generated by schemix\n" ++ s.headerForm.format 0 ++ "\n" ++ s.toForm.format 0 ++ "\n"

end Symbol

end BlockSchematic
