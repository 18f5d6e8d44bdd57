import BlockSchematic.Proofs.NumberText
import BlockSchematic.Proofs.PrintedTrees
import BlockSchematic.Symbol.Builtin

/-!
# Symbols read back from their description

Each form of a description gives back just what it was made of. So a symbol comes back from its
description but for what the text does not keep: quotes inside texts, ports without captions, and
names and widths that the captions do not say.
-/

namespace BlockSchematic

open Sexpr

/-! ## What a description keeps -/

def Font.written (f : Font) : Font := { f with family := withoutQuotesText f.family }

def Caption.written (c : Caption) : Caption where
  value := withoutQuotesText c.value
  rect := c.rect
  font := c.font.written

def Drawing.written (d : Drawing) : Drawing := { d with texts := d.texts.map Caption.written }

/-- The captions of a port; without any, one that holds the label. -/
def Port.writtenTexts (p : Port) : List Caption :=
  if p.texts.isEmpty then [⟨withoutQuotesText p.label, .zero, .standard⟩]
  else p.texts.map Caption.written

/-- A port has the name and the width that its first caption says. -/
def Port.written (p : Port) : Port where
  name := (splitBusLabel (withoutQuotesText p.label)).1
  direction := p.direction
  width := (splitBusLabel (withoutQuotesText p.label)).2
  location := p.location
  texts := p.writtenTexts
  lines := p.lines

/-- The first caption names a symbol. -/
def titleOf (mainTexts : List Caption) : String :=
  (mainTexts.head?.map (·.value)).getD untitled

/-- The symbol that comes back from a description. -/
def Symbol.written (s : Symbol) : Symbol where
  name := titleOf (s.mainTexts.map Caption.written)
  version := withoutQuotesText s.version
  bounds := s.bounds
  ports := s.ports.map Port.written
  drawing := s.drawing.written
  mainTexts := s.mainTexts.map Caption.written

@[simp] theorem Font.written_standard : Font.standard.written = .standard := by
  rw [written, withoutQuotesText_eq_self (by decide)]

@[simp] theorem Font.written_written (f : Font) : f.written.written = f.written := by
  simp [Font.written]

@[simp] theorem Caption.written_written (c : Caption) : c.written.written = c.written := by
  simp [Caption.written]

@[simp] theorem Caption.written_comp_written :
    Caption.written ∘ Caption.written = Caption.written := funext Caption.written_written

@[simp] theorem Drawing.written_written (d : Drawing) : d.written.written = d.written := by
  simp [Drawing.written]

theorem Port.exists_writtenTexts_eq_cons (p : Port) :
    ∃ c rest, p.writtenTexts = c :: rest ∧ c.value = withoutQuotesText p.label := by
  rw [writtenTexts, label]
  cases p.texts with
  | nil => exact ⟨_, [], rfl, rfl⟩
  | cons c rest => exact ⟨c.written, rest.map Caption.written, rfl, rfl⟩

theorem Port.map_written_writtenTexts (p : Port) :
    p.writtenTexts.map Caption.written = p.writtenTexts := by
  rw [writtenTexts]
  split <;> simp [Caption.written]

theorem Port.label_written (p : Port) : p.written.label = withoutQuotesText p.label := by
  obtain ⟨c, rest, texts, value⟩ := p.exists_writtenTexts_eq_cons
  rw [written, label, texts]
  exact value

@[simp] theorem Port.direction_written (p : Port) : p.written.direction = p.direction := by
  rw [written]

@[simp] theorem Port.location_written (p : Port) : p.written.location = p.location := by
  rw [written]

@[simp] theorem Port.lines_written (p : Port) : p.written.lines = p.lines := by
  rw [written]

theorem Port.exists_head?_written (p : Port) :
    ∃ c, p.written.texts.head? = some c ∧
      splitBusLabel c.value = (p.written.name, p.written.width) := by
  obtain ⟨c, rest, texts, value⟩ := p.exists_writtenTexts_eq_cons
  refine ⟨c, ?_, ?_⟩
  · rw [written, texts, List.head?_cons]
  · rw [written, value]

theorem Port.writtenTexts_written (p : Port) : p.written.writtenTexts = p.writtenTexts := by
  obtain ⟨c, rest, texts, -⟩ := p.exists_writtenTexts_eq_cons
  have kept : p.written.texts = p.writtenTexts := by rw [written]
  have some : p.written.texts.isEmpty = false := by rw [kept, texts]; rfl
  rw [writtenTexts, some, kept]
  exact p.map_written_writtenTexts

@[simp] theorem Port.written_written (p : Port) : p.written.written = p.written := by
  have label : withoutQuotesText p.written.label = withoutQuotesText p.label := by
    rw [label_written, withoutQuotesText_idem]
  rw [written.eq_def p.written, label, writtenTexts_written, direction_written, location_written,
    lines_written, written]

@[simp] theorem Symbol.written_written (s : Symbol) : s.written.written = s.written := by
  simp [Symbol.written]

/-- A caption that is written as it is. -/
def Caption.Plain (c : Caption) : Prop := '"' ∉ c.value.toList ∧ '"' ∉ c.font.family.toList

/-- Where a caption stands and how large it is. -/
def Caption.place (c : Caption) : Rect × Int32 := (c.rect, c.font.size)

theorem Caption.written_eq_self_iff {c : Caption} : c.written = c ↔ c.Plain := by
  obtain ⟨value, rect, family, size⟩ := c
  simp [Caption.written, Font.written, Plain, withoutQuotesText_eq_self_iff]

theorem map_eq_self_iff {α : Type} {f : α → α} {xs : List α} :
    xs.map f = xs ↔ ∀ x ∈ xs, f x = x := by
  have pointwise : xs.map f = xs.map id ↔ ∀ x ∈ xs, f x = id x := List.map_inj_left
  rwa [List.map_id] at pointwise

theorem map_written_eq_self_iff {cs : List Caption} :
    cs.map Caption.written = cs ↔ ∀ c ∈ cs, c.Plain := by
  rw [map_eq_self_iff]
  exact forall₂_congr fun _ _ => Caption.written_eq_self_iff

theorem map_place_written (cs : List Caption) :
    (cs.map Caption.written).map Caption.place = cs.map Caption.place := by
  rw [List.map_map]
  rfl

theorem Drawing.written_eq_self_iff {d : Drawing} :
    d.written = d ↔ ∀ c ∈ d.texts, c.Plain := by
  rw [← map_written_eq_self_iff]
  exact ⟨congrArg Drawing.texts, fun same => by rw [written, same]⟩

theorem Port.writtenTexts_eq_self_iff {p : Port} :
    p.writtenTexts = p.texts ↔ p.texts ≠ [] ∧ ∀ c ∈ p.texts, c.Plain := by
  rw [writtenTexts, ← map_written_eq_self_iff]
  cases p.texts with
  | nil => simp
  | cons c rest => simp

/-- A port that has captions, the first of which says its name and its width. -/
def Port.Captioned (p : Port) : Prop :=
  (p.texts ≠ [] ∧ ∀ c ∈ p.texts, c.Plain) ∧ splitBusLabel p.label = (p.name, p.width)

theorem Port.written_eq_self_iff {p : Port} : p.written = p ↔ p.Captioned := by
  constructor
  · intro same
    have label : withoutQuotesText p.label = p.label := by rw [← label_written, same]
    rw [written, label] at same
    have texts : p.writtenTexts = p.texts := congrArg Port.texts same
    exact ⟨writtenTexts_eq_self_iff.1 texts,
      Prod.ext (congrArg Port.name same) (congrArg Port.width same)⟩
  · rintro ⟨plain, said⟩
    have texts : p.writtenTexts = p.texts := writtenTexts_eq_self_iff.2 plain
    obtain ⟨c, rest, first, value⟩ := p.exists_writtenTexts_eq_cons
    have label : withoutQuotesText p.label = p.label := by
      rw [← value, label, ← texts, first]
    rw [written, label, said, texts]

/-- A symbol comes back as it was if it holds no quotes, if its ports have captions that say what
they are, and if its title is its name. -/
theorem Symbol.written_eq_self_iff {s : Symbol} :
    s.written = s ↔ '"' ∉ s.version.toList ∧ (∀ c ∈ s.mainTexts ++ s.drawing.texts, c.Plain) ∧
      (∀ p ∈ s.ports, p.Captioned) ∧ titleOf s.mainTexts = s.name := by
  have settled : (∀ p ∈ s.ports, p.Captioned) ↔ s.ports.map Port.written = s.ports := by
    rw [map_eq_self_iff]
    exact forall₂_congr fun _ _ => Port.written_eq_self_iff.symm
  rw [List.forall_mem_append, ← map_written_eq_self_iff, ← Drawing.written_eq_self_iff, settled,
    ← withoutQuotesText_eq_self_iff]
  constructor
  · intro same
    have mainTexts : s.mainTexts.map Caption.written = s.mainTexts :=
      congrArg Symbol.mainTexts same
    rw [written, mainTexts] at same
    exact ⟨congrArg Symbol.version same, ⟨mainTexts, congrArg Symbol.drawing same⟩,
      congrArg Symbol.ports same, congrArg Symbol.name same⟩
  · rintro ⟨version, ⟨mainTexts, drawing⟩, ports, name⟩
    rw [written, mainTexts, version, drawing, ports, name]

example : Symbol.multiplexer.written = .multiplexer := by decide

-- A pin is not named as it is titled.
example : Symbol.pinOutput.written = { Symbol.pinOutput with name := "OUTPUT" } := by decide

/-! ## Forms read back -/

@[simp] theorem Point.ofForm_toForm (p : Point) : Point.ofForm p.toForm = p := by
  simp [Point.ofForm, Point.toForm, intAt, item?, items?, form]

@[simp] theorem Rect.ofForm_toForm (r : Rect) : Rect.ofForm r.toForm = r := by
  simp [Rect.ofForm, Rect.toForm, intAt, item?, items?, form]

/-- A family and a size, in this order. -/
def Font.toForm (f : Font) : Sexpr :=
  form "font" [.quoted f.family, form "font_size" [.ofInt f.size]]

theorem Font.ofForms_toForm (f : Font) : Font.ofForms [f.toForm] = f := by
  simp [Font.ofForms, Font.toForm, findForm?, isForm, textAt?, item?, items?, text?, children, form,
    head?, lastOr]

theorem Caption.toForm_eq (c : Caption) :
    c.toForm = form "text" [.quoted c.value, c.rect.toForm, c.font.toForm] := rfl

@[simp] theorem Caption.ofForm?_toForm (c : Caption) : Caption.ofForm? c.toForm = some c := by
  have value : c.toForm.textAt? 1 = some c.value := rfl
  have rects : formsNamed "rect" c.toForm.children.tail = [c.rect.toForm] := rfl
  have fonts : formsNamed "font" c.toForm.children.tail = [c.font.toForm] := rfl
  simp [Caption.ofForm?, value, rects, fonts, Font.ofForms_toForm, lastOr]

@[simp] theorem Segment.ofForm?_toForm (l : Segment) : Segment.ofForm? l.toForm = some l := by
  have points : formsNamed "pt" l.toForm.children = [l.p1.toForm, l.p2.toForm] := rfl
  have width : (l.toForm.findForm? "line_width").bind (·.item? 1) = some (.ofInt l.width) := rfl
  simp [Segment.ofForm?, points, width]

theorem filterMap_caption_toForm (cs : List Caption) :
    (cs.map Caption.toForm).filterMap Caption.ofForm? = cs := by
  rw [List.filterMap_map]
  simp

theorem filterMap_segment_toForm (ls : List Segment) :
    (ls.map Segment.toForm).filterMap Segment.ofForm? = ls := by
  rw [List.filterMap_map]
  simp

@[simp] theorem Caption.asWritten_toForm (c : Caption) :
    c.toForm.asWritten = c.written.toForm := rfl

@[simp] theorem Segment.asWritten_toForm (l : Segment) : l.toForm.asWritten = l.toForm := rfl

theorem map_asWritten_captions (cs : List Caption) :
    (cs.map Caption.toForm).map asWritten = (cs.map Caption.written).map Caption.toForm := by
  simp

theorem map_asWritten_segments (ls : List Segment) :
    (ls.map Segment.toForm).map asWritten = ls.map Segment.toForm := by
  simp

/-- Forms with one head. -/
structure FormGroup where
  head : String
  forms : List Sexpr
  headed : ∀ e ∈ forms, e.head? = some head

namespace FormGroup

def single (head : String) (e : Sexpr) (headed : e.head? = some head) : FormGroup :=
  ⟨head, [e], List.forall_mem_singleton.2 headed⟩

def captions (cs : List Caption) : FormGroup :=
  ⟨"text", cs.map Caption.toForm, List.forall_mem_map.2 fun _ _ => rfl⟩

def segments (ls : List Segment) : FormGroup :=
  ⟨"line", ls.map Segment.toForm, List.forall_mem_map.2 fun _ _ => rfl⟩

def joined (groups : List FormGroup) : List Sexpr := groups.flatMap forms

theorem formsNamed_forms_self (g : FormGroup) : formsNamed g.head g.forms = g.forms := by
  refine List.filter_eq_self.2 fun e he => ?_
  rw [isForm, g.headed e he, beq_self_eq_true]

theorem formsNamed_forms_other (g : FormGroup) {name : String} (other : g.head ≠ name) :
    formsNamed name g.forms = [] := by
  refine List.filter_eq_nil_iff.2 fun e he => ?_
  rw [isForm, g.headed e he]
  simpa using other

/-- The forms with a name are those of the groups with this name. -/
theorem formsNamed_joined (name : String) (groups : List FormGroup) :
    formsNamed name (joined groups) = joined (groups.filter (·.head = name)) := by
  induction groups with
  | nil => rfl
  | cons g groups ih =>
    have split : formsNamed name (joined (g :: groups)) =
        formsNamed name g.forms ++ formsNamed name (joined groups) := List.filter_append ..
    rw [split, ih]
    by_cases same : g.head = name
    · rw [List.filter_cons_of_pos (by simpa using same), ← same, formsNamed_forms_self]
      rfl
    · rw [List.filter_cons_of_neg (by simpa using same), formsNamed_forms_other g same]
      rfl

end FormGroup

/-! ### Ports -/

/-- A form that is a list is read as a direction by its head. -/
theorem Direction.ofItem?_of_head {e : Sexpr} {head : String} (headed : e.head? = some head) :
    Direction.ofItem? e = Direction.ofKeyword? head := by
  cases e with
  | atom s => cases headed
  | quoted s => cases headed
  | list items => rw [Direction.ofItem?, headed, Option.bind_some]

/-- No other form of a port is headed like its direction. -/
theorem Direction.keyword_ne {d : Direction} {head : String}
    (unknown : Direction.ofKeyword? head = none) : d.keyword ≠ head := by
  rintro rfl
  rw [Direction.ofKeyword?_keyword] at unknown
  cases unknown

theorem FormGroup.filterMap_direction (groups : List FormGroup) :
    (joined groups).filterMap Direction.ofItem? =
      groups.flatMap fun g => g.forms.filterMap fun _ => Direction.ofKeyword? g.head := by
  rw [joined, List.filterMap_flatMap]
  congr 1
  funext g
  exact List.filterMap_congr fun e he => Direction.ofItem?_of_head (g.headed e he)

namespace Port

variable (p : Port)

theorem head?_of_mem_captionForms : ∀ e ∈ p.captionForms.map asWritten, e.head? = some "text" := by
  rw [captionForms]
  split
  · exact List.forall_mem_singleton.2 rfl
  · rw [map_asWritten_captions]
    exact (FormGroup.captions _).headed

/-- The forms of a port as they come back. -/
def groups : List FormGroup :=
  [.single "pt" p.location.toForm rfl, .single p.direction.keyword (form p.direction.keyword []) rfl,
    ⟨"text", p.captionForms.map asWritten, p.head?_of_mem_captionForms⟩, .segments p.lines]

theorem asWritten_toForm : p.toForm.asWritten = form "port" (FormGroup.joined p.groups) := by
  rw [toForm, asWritten_form, List.map_cons, List.map_cons, List.map_append,
    map_asWritten_segments]
  simp only [groups, FormGroup.joined, FormGroup.single, FormGroup.segments, List.flatMap_cons,
    List.flatMap_nil, List.append_nil, List.singleton_append]
  rfl

theorem filterMap_captionForms :
    (p.captionForms.map asWritten).filterMap Caption.ofForm? = p.writtenTexts := by
  rw [captionForms, writtenTexts]
  split
  · rfl
  · rw [map_asWritten_captions, filterMap_caption_toForm]

theorem formsNamed_groups :
    formsNamed "pt" (FormGroup.joined p.groups) = [p.location.toForm] ∧
    formsNamed "text" (FormGroup.joined p.groups) = p.captionForms.map asWritten ∧
    formsNamed "line" (FormGroup.joined p.groups) = p.lines.map Segment.toForm := by
  have pt : p.direction.keyword ≠ "pt" := Direction.keyword_ne (by decide)
  have text : p.direction.keyword ≠ "text" := Direction.keyword_ne (by decide)
  have line : p.direction.keyword ≠ "line" := Direction.keyword_ne (by decide)
  refine ⟨?_, ?_, ?_⟩ <;> rw [FormGroup.formsNamed_joined] <;>
    simp [groups, FormGroup.single, FormGroup.segments, FormGroup.joined, pt, text, line]

theorem directions_groups :
    (FormGroup.joined p.groups).filterMap Direction.ofItem? = [p.direction] := by
  have pt : Direction.ofKeyword? "pt" = none := by decide
  have text : Direction.ofKeyword? "text" = none := by decide
  have line : Direction.ofKeyword? "line" = none := by decide
  rw [FormGroup.filterMap_direction]
  simp [groups, FormGroup.single, FormGroup.segments, pt, text, line]

theorem ofForm_asWritten_toForm : Port.ofForm p.toForm.asWritten = p.written := by
  obtain ⟨c, rest, texts, value⟩ := p.exists_writtenTexts_eq_cons
  obtain ⟨pts, captionForms, lines⟩ := p.formsNamed_groups
  have captionsRead : captions (FormGroup.joined p.groups) = c :: rest := by
    rw [captions, captionForms, filterMap_captionForms, texts]
  have segmentsRead : segments (FormGroup.joined p.groups) = p.lines := by
    rw [segments, lines, filterMap_segment_toForm]
  rw [asWritten_toForm, Port.ofForm, children_form, captionsRead, segmentsRead, pts,
    directions_groups, written, ← value, texts]
  simp [lastOr]

end Port

/-! ### Symbols -/

theorem Drawing.asWritten_toForm (d : Drawing) : d.toForm.asWritten = d.written.toForm := by
  rw [toForm, asWritten_form, List.map_append, map_asWritten_captions, map_asWritten_segments]
  rfl

theorem Drawing.ofForms_toForm (d : Drawing) : Drawing.ofForms [d.toForm] = d := by
  have children : d.toForm.children = FormGroup.joined [.captions d.texts, .segments d.lines] := by
    simp [toForm, FormGroup.joined, FormGroup.captions, FormGroup.segments]
  have texts : formsNamed "text" d.toForm.children = d.texts.map Caption.toForm := by
    rw [children, FormGroup.formsNamed_joined]
    simp [FormGroup.joined, FormGroup.captions, FormGroup.segments]
  have lines : formsNamed "line" d.toForm.children = d.lines.map Segment.toForm := by
    rw [children, FormGroup.formsNamed_joined]
    simp [FormGroup.joined, FormGroup.captions, FormGroup.segments]
  rw [Drawing.ofForms, List.flatMap_singleton, List.flatMap_singleton, captions, segments, texts,
    lines, filterMap_caption_toForm, filterMap_segment_toForm]

namespace Symbol

variable (s : Symbol)

theorem head?_of_mem_portForms :
    ∀ e ∈ (s.ports.map Port.toForm).map asWritten, e.head? = some "port" := by
  rw [List.map_map]
  refine List.forall_mem_map.2 fun p _ => ?_
  rw [Function.comp_apply, Port.asWritten_toForm, head?_form]

/-- The forms of a symbol as they come back. -/
def groups : List FormGroup :=
  [.single "rect" s.bounds.toForm rfl, .captions (s.mainTexts.map Caption.written),
    ⟨"port", (s.ports.map Port.toForm).map asWritten, s.head?_of_mem_portForms⟩,
    .single "drawing" s.drawing.written.toForm rfl]

theorem asWritten_toForm : s.toForm.asWritten = form "symbol" (FormGroup.joined s.groups) := by
  rw [toForm, asWritten_form, List.map_cons, List.map_append, List.map_append,
    map_asWritten_captions, List.map_singleton, Drawing.asWritten_toForm, List.append_assoc]
  simp only [groups, FormGroup.joined, FormGroup.single, FormGroup.captions, List.flatMap_cons,
    List.flatMap_nil, List.append_nil, List.singleton_append]
  rfl

theorem formsNamed_groups :
    formsNamed "rect" (FormGroup.joined s.groups) = [s.bounds.toForm] ∧
    formsNamed "text" (FormGroup.joined s.groups) =
      (s.mainTexts.map Caption.written).map Caption.toForm ∧
    formsNamed "port" (FormGroup.joined s.groups) = (s.ports.map Port.toForm).map asWritten ∧
    formsNamed "drawing" (FormGroup.joined s.groups) = [s.drawing.written.toForm] := by
  refine ⟨?_, ?_, ?_, ?_⟩ <;> rw [FormGroup.formsNamed_joined] <;>
    simp [groups, FormGroup.single, FormGroup.captions, FormGroup.joined]

theorem ofForm_asWritten_toForm (version : String) :
    Symbol.ofForm version s.toForm.asWritten = { s.written with version } := by
  obtain ⟨rects, captionForms, portForms, drawings⟩ := s.formsNamed_groups
  have captionsRead :
      captions (FormGroup.joined s.groups) = s.mainTexts.map Caption.written := by
    rw [captions, captionForms, filterMap_caption_toForm]
  have portsRead :
      (formsNamed "port" (FormGroup.joined s.groups)).map Port.ofForm =
        s.ports.map Port.written := by
    rw [portForms, List.map_map, List.map_map]
    exact List.map_congr_left fun p _ => p.ofForm_asWritten_toForm
  rw [asWritten_toForm, Symbol.ofForm, children_form, captionsRead, rects, portsRead, drawings,
    Drawing.ofForms_toForm]
  simp [lastOr, written, titleOf]

theorem headerVersion?_asWritten (forms : List Sexpr) :
    headerVersion? (s.headerForm.asWritten :: forms) = some (withoutQuotesText s.version) := rfl

theorem ofForms_asWritten :
    Symbol.ofForms [s.headerForm.asWritten, s.toForm.asWritten] = s.written := by
  have found : [s.headerForm.asWritten, s.toForm.asWritten].find? (·.isForm "symbol") =
      some s.toForm.asWritten := rfl
  rw [Symbol.ofForms, found, headerVersion?_asWritten]
  exact s.ofForm_asWritten_toForm _

end Symbol

/-! ## Descriptions read back -/

theorem Sexpr.bareAtoms_ofInt (n : Int32) : BareAtoms (tokens (ofInt n)) :=
  bareAtoms_atom (isBare_intText _)

theorem Point.bareAtoms_toForm (p : Point) : BareAtoms (tokens p.toForm) := by
  refine bareAtoms_form (isBare_of_isWord (by decide)) ?_
  simp [bareAtoms_ofInt]

theorem Rect.bareAtoms_toForm (r : Rect) : BareAtoms (tokens r.toForm) := by
  refine bareAtoms_form (isBare_of_isWord (by decide)) ?_
  simp [bareAtoms_ofInt]

theorem Font.bareAtoms_toForm (f : Font) : BareAtoms (tokens f.toForm) := by
  have size : BareAtoms (tokens (form "font_size" [.ofInt f.size])) :=
    bareAtoms_form (isBare_of_isWord (by decide)) (List.forall_mem_singleton.2 (bareAtoms_ofInt _))
  refine bareAtoms_form (isBare_of_isWord (by decide)) ?_
  simp [bareAtoms_quoted, size]

theorem Caption.bareAtoms_toForm (c : Caption) : BareAtoms (tokens c.toForm) := by
  rw [toForm_eq]
  refine bareAtoms_form (isBare_of_isWord (by decide)) ?_
  simp [bareAtoms_quoted, Rect.bareAtoms_toForm, Font.bareAtoms_toForm]

theorem Segment.bareAtoms_toForm (l : Segment) : BareAtoms (tokens l.toForm) := by
  have width : BareAtoms (tokens (form "line_width" [.ofInt l.width])) :=
    bareAtoms_form (isBare_of_isWord (by decide)) (List.forall_mem_singleton.2 (bareAtoms_ofInt _))
  refine bareAtoms_form (isBare_of_isWord (by decide)) ?_
  simp [Point.bareAtoms_toForm, width]

theorem Port.bareAtoms_captionForms (p : Port) : ∀ e ∈ p.captionForms, BareAtoms (tokens e) := by
  rw [captionForms]
  split
  · refine List.forall_mem_singleton.2 (bareAtoms_form (isBare_of_isWord (by decide)) ?_)
    exact List.forall_mem_singleton.2 (bareAtoms_quoted _)
  · exact List.forall_mem_map.2 fun c _ => c.bareAtoms_toForm

theorem Direction.isBare_keyword (d : Direction) : IsBare d.keyword.toList := by
  cases d <;> exact isBare_of_isWord (by decide)

theorem Port.bareAtoms_toForm (p : Port) : BareAtoms (tokens p.toForm) := by
  refine bareAtoms_form (isBare_of_isWord (by decide)) ?_
  have direction : BareAtoms (tokens (form p.direction.keyword [])) :=
    bareAtoms_form p.direction.isBare_keyword (by simp)
  have lines : ∀ e ∈ p.lines.map Segment.toForm, BareAtoms (tokens e) :=
    List.forall_mem_map.2 fun l _ => l.bareAtoms_toForm
  exact List.forall_mem_cons.2 ⟨p.location.bareAtoms_toForm, List.forall_mem_cons.2
    ⟨direction, List.forall_mem_append.2 ⟨p.bareAtoms_captionForms, lines⟩⟩⟩

theorem Drawing.bareAtoms_toForm (d : Drawing) : BareAtoms (tokens d.toForm) := by
  refine bareAtoms_form (isBare_of_isWord (by decide)) (List.forall_mem_append.2 ⟨?_, ?_⟩)
  · exact List.forall_mem_map.2 fun c _ => c.bareAtoms_toForm
  · exact List.forall_mem_map.2 fun l _ => l.bareAtoms_toForm

namespace Symbol

variable (s : Symbol)

theorem bareAtoms_toForm : BareAtoms (tokens s.toForm) := by
  refine bareAtoms_form (isBare_of_isWord (by decide)) ?_
  have texts : ∀ e ∈ s.mainTexts.map Caption.toForm, BareAtoms (tokens e) :=
    List.forall_mem_map.2 fun c _ => c.bareAtoms_toForm
  have ports : ∀ e ∈ s.ports.map Port.toForm, BareAtoms (tokens e) :=
    List.forall_mem_map.2 fun p _ => p.bareAtoms_toForm
  have drawing : ∀ e ∈ [s.drawing.toForm], BareAtoms (tokens e) :=
    List.forall_mem_singleton.2 s.drawing.bareAtoms_toForm
  exact List.forall_mem_cons.2 ⟨s.bounds.bareAtoms_toForm,
    List.forall_mem_append.2 ⟨List.forall_mem_append.2 ⟨texts, ports⟩, drawing⟩⟩

theorem bareAtoms_headerForm : BareAtoms (tokens s.headerForm) := by
  have version : BareAtoms (tokens (form "version" [.quoted s.version])) :=
    bareAtoms_form (isBare_of_isWord (by decide)) (List.forall_mem_singleton.2 (bareAtoms_quoted _))
  refine bareAtoms_form (isBare_of_isWord (by decide)) ?_
  simp [bareAtoms_quoted, version]

theorem tokenize_description :
    tokenize s.description.toList = forestTokens [s.headerForm.asWritten, s.toForm.asWritten] := by
  obtain ⟨line, noBreak, comment⟩ : ∃ line, '\n' ∉ line ∧
      "// Generated by schemix\n".toList = '/' :: '/' :: (line ++ ['\n']) :=
    ⟨" Generated by schemix".toList, by decide, rfl⟩
  have breaks : ∀ rest, EndsAtom ('\n' :: rest) := fun rest => endsAtom_cons (by decide)
  have pieces : s.description.toList = '/' :: '/' :: (line ++ '\n' ::
      (formatChars 0 s.headerForm ++ '\n' :: (formatChars 0 s.toForm ++ ['\n']))) := by
    -- Unfolding by an equation would evaluate the literals.
    have whole : s.description = "// Generated by schemix\n" ++ s.headerForm.format 0 ++ "\n" ++
      s.toForm.format 0 ++ "\n" := rfl
    simp only [whole, String.toList_append, toList_format]
    rw [comment]
    simp
  rw [pieces, tokenize_comment noBreak, tokenize_formatChars 0 _ s.bareAtoms_headerForm (breaks _),
    tokenize_blank (by decide), tokenize_formatChars 0 _ s.bareAtoms_toForm (breaks _),
    tokenize_blank (by decide), tokenize_nil, List.append_nil, forestTokens, forestTokens_singleton]

theorem parseAll_description :
    parseAll s.description = .ok [s.headerForm.asWritten, s.toForm.asWritten] :=
  parseAll_of_tokenize s.tokenize_description

end Symbol

end BlockSchematic
