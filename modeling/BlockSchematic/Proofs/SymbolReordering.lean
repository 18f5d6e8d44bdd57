import BlockSchematic.Proofs.SymbolDescription
import Mathlib.Logic.Relation

/-!
# Descriptions in another order

Parts of different kinds are picked out of the children of a form one kind at a time, and what is
of no kind is never picked. So children that are not known may come and go, and neighbours of
different kinds may change places, without a difference to the symbol. Among parts of one kind the
order does count.
-/

namespace BlockSchematic

open Sexpr

/-! ## What is a part -/

/-- The kinds of parts that are told apart in some form. -/
inductive PartKind where
  | bounds
  | caption
  | port
  | drawing
  | location
  | segment
  | direction
  deriving DecidableEq, Repr

namespace PartKind

/-- A list is of the kind that belongs to its head. -/
def ofHead? (heads : List (String × PartKind)) (e : Sexpr) : Option PartKind :=
  e.head?.bind fun head => heads.lookup head

/-- What is known in a symbol. -/
def inSymbol? : Sexpr → Option PartKind :=
  ofHead? [("rect", .bounds), ("text", .caption), ("port", .port), ("drawing", .drawing)]

/-- What is known in a drawing. -/
def inDrawing? : Sexpr → Option PartKind := ofHead? [("line", .segment), ("text", .caption)]

/-- What is known in a port. All directions are of one kind, bare or heading a list. -/
def inPort? (e : Sexpr) : Option PartKind :=
  if (Direction.ofItem? e).isSome then some .direction
  else ofHead? [("pt", .location), ("text", .caption), ("line", .segment)] e

variable {heads : List (String × PartKind)} {name : String} {k : PartKind} {e : Sexpr}

theorem ofHead?_of_isForm (known : heads.lookup name = some k) (named : e.isForm name = true) :
    ofHead? heads e = some k := by
  rw [ofHead?, eq_of_beq named, Option.bind_some, known]

theorem inPort?_of_isForm (other : Direction.ofKeyword? name = none)
    (known : [("pt", location), ("text", caption), ("line", segment)].lookup name = some k)
    (named : e.isForm name = true) : inPort? e = some k := by
  have none : Direction.ofItem? e = none := by
    rw [Direction.ofItem?_of_head (eq_of_beq named), other]
  rw [inPort?, none, Option.isSome_none, if_neg Bool.false_ne_true, ofHead?_of_isForm known named]

end PartKind

/-! ## Changes -/

/-- One change to the children of a form: one of no kind comes or goes, or two neighbours that are
not of one kind change places. -/
inductive ChildChange (kind? : Sexpr → Option PartKind) : List Sexpr → List Sexpr → Prop where
  | insert (before after : List Sexpr) {e : Sexpr} (unknown : kind? e = none) :
      ChildChange kind? (before ++ after) (before ++ e :: after)
  | delete (before after : List Sexpr) {e : Sexpr} (unknown : kind? e = none) :
      ChildChange kind? (before ++ e :: after) (before ++ after)
  | swap (before after : List Sexpr) {a b : Sexpr} (apart : kind? a = kind? b → kind? a = none) :
      ChildChange kind? (before ++ a :: b :: after) (before ++ b :: a :: after)

/-- One of the forms with the name has its children changed. Its head stays, bare or quoted. -/
inductive FormChange (name : String) (change : List Sexpr → List Sexpr → Prop) :
    List Sexpr → List Sexpr → Prop where
  | intro (before after : List Sexpr) {head : Sexpr} {items items' : List Sexpr}
      (named : head.text? = some name) (changed : change items items') :
      FormChange name change (before ++ .list (head :: items) :: after)
        (before ++ .list (head :: items') :: after)

/-- One change to the children of a symbol, or to those of one of its ports or drawings. -/
inductive SymbolChange (items items' : List Sexpr) : Prop where
  | own (changed : ChildChange PartKind.inSymbol? items items')
  | port (changed : FormChange "port" (ChildChange PartKind.inPort?) items items')
  | drawing (changed : FormChange "drawing" (ChildChange PartKind.inDrawing?) items items')

/-- One change to a symbol form among others. -/
def DescriptionChange : List Sexpr → List Sexpr → Prop := FormChange "symbol" SymbolChange

/-! ## What a change keeps -/

section ChildChange

variable {kind? : Sexpr → Option PartKind} {k : PartKind} {items items' : List Sexpr}

/-- A reader of one kind of parts reads the same after a change. -/
theorem ChildChange.filterMap_eq {α : Type} {read : Sexpr → Option α}
    (changed : ChildChange kind? items items') (others : ∀ e, kind? e ≠ some k → read e = none) :
    items'.filterMap read = items.filterMap read := by
  have unread : ∀ {e}, kind? e = none → read e = none := fun unknown =>
    others _ fun some => by rw [unknown] at some; cases some
  cases changed with
  | insert before after unknown =>
    rw [List.filterMap_append, List.filterMap_append, List.filterMap_cons_none (unread unknown)]
  | delete before after unknown =>
    rw [List.filterMap_append, List.filterMap_append, List.filterMap_cons_none (unread unknown)]
  | @swap before after a b apart =>
    have one : read a = none ∨ read b = none := by
      by_cases first : kind? a = some k
      · refine .inr (others b fun second => ?_)
        rw [apart (first.trans second.symm)] at first
        cases first
      · exact .inl (others a first)
    rcases one with none | none <;>
      simp only [List.filterMap_append, List.filterMap_cons, none]

theorem ChildChange.formsNamed_eq {name : String} (changed : ChildChange kind? items items')
    (known : ∀ e, e.isForm name = true → kind? e = some k) :
    formsNamed name items' = formsNamed name items := by
  rw [formsNamed, formsNamed, ← List.filterMap_eq_filter]
  refine changed.filterMap_eq (k := k) fun e other => ?_
  rw [Option.guard, if_neg fun named => other (known e named)]

theorem ChildChange.formsNamed_of_heads {heads : List (String × PartKind)} {name : String}
    (changed : ChildChange (PartKind.ofHead? heads) items items')
    (known : heads.lookup name = some k) : formsNamed name items' = formsNamed name items :=
  changed.formsNamed_eq fun _ => PartKind.ofHead?_of_isForm known

end ChildChange

namespace FormChange

variable {name : String} {change : List Sexpr → List Sexpr → Prop} {forms forms' : List Sexpr}

theorem isForm_list {head : Sexpr} {items : List Sexpr} (named : head.text? = some name)
    (other : String) : (Sexpr.list (head :: items)).isForm other = (name == other) := by
  rw [isForm, head?, named, Option.some_beq_some]

/-- The forms with another name are the same. -/
theorem formsNamed_eq {other : String} (changed : FormChange name change forms forms')
    (differs : name ≠ other) : formsNamed other forms' = formsNamed other forms := by
  cases changed with
  | intro before after named _ =>
    have passed : (name == other) = false := beq_eq_false_iff_ne.2 differs
    simp only [formsNamed, List.filter_append, List.filter_cons, isForm_list named, passed,
      Bool.false_eq_true, if_false]

/-- A reader of a single form gives the same for all of them if it does for the changed one. -/
theorem map_formsNamed_eq {α : Type} (read : Sexpr → α)
    (changed : FormChange name change forms forms')
    (same : ∀ head items items', change items items' →
      read (.list (head :: items')) = read (.list (head :: items))) :
    (formsNamed name forms').map read = (formsNamed name forms).map read := by
  cases changed with
  | intro before after named step =>
    simp only [formsNamed, List.filter_append, List.filter_cons, isForm_list named, beq_self_eq_true,
      if_true, List.map_append, List.map_cons, same _ _ _ step]

end FormChange

/-! ### Ports and drawings -/

section Parts

variable {items items' : List Sexpr}

theorem Port.ofForm_of_change (changed : ChildChange PartKind.inPort? items items')
    (head : Sexpr) : Port.ofForm (.list (head :: items')) = Port.ofForm (.list (head :: items)) := by
  have points : formsNamed "pt" items' = formsNamed "pt" items :=
    changed.formsNamed_eq fun _ => PartKind.inPort?_of_isForm (by decide) rfl
  have texts : formsNamed "text" items' = formsNamed "text" items :=
    changed.formsNamed_eq fun _ => PartKind.inPort?_of_isForm (by decide) rfl
  have lines : formsNamed "line" items' = formsNamed "line" items :=
    changed.formsNamed_eq fun _ => PartKind.inPort?_of_isForm (by decide) rfl
  have directions : items'.filterMap Direction.ofItem? = items.filterMap Direction.ofItem? := by
    refine changed.filterMap_eq (k := .direction) fun e other => ?_
    by_contra some
    exact other (if_pos (Option.isSome_iff_ne_none.2 some))
  simp only [Port.ofForm, children, List.drop_one, List.tail_cons, captions, segments, points,
    texts, lines, directions]

theorem segments_of_drawingChange (changed : ChildChange PartKind.inDrawing? items items') :
    segments items' = segments items := by
  rw [segments, segments, changed.formsNamed_of_heads rfl]

theorem captions_of_drawingChange (changed : ChildChange PartKind.inDrawing? items items') :
    captions items' = captions items := by
  rw [captions, captions, changed.formsNamed_of_heads rfl]

end Parts

/-! ### Symbols -/

/-- A symbol is made of the same parts in both. -/
structure SameParts (items items' : List Sexpr) : Prop where
  bounds : formsNamed "rect" items' = formsNamed "rect" items
  captions : formsNamed "text" items' = formsNamed "text" items
  ports : (formsNamed "port" items').map Port.ofForm = (formsNamed "port" items).map Port.ofForm
  drawing : Drawing.ofForms (formsNamed "drawing" items') =
    Drawing.ofForms (formsNamed "drawing" items)

theorem SymbolChange.sameParts {items items' : List Sexpr} (changed : SymbolChange items items') :
    SameParts items items' := by
  cases changed with
  | own changed =>
    refine ⟨changed.formsNamed_of_heads rfl, changed.formsNamed_of_heads rfl, ?_, ?_⟩
    · rw [changed.formsNamed_of_heads rfl]
    · rw [changed.formsNamed_of_heads rfl]
  | port changed =>
    have ports := changed.map_formsNamed_eq Port.ofForm fun head _ _ step =>
      Port.ofForm_of_change step head
    refine ⟨changed.formsNamed_eq (by decide), changed.formsNamed_eq (by decide), ports, ?_⟩
    rw [changed.formsNamed_eq (by decide)]
  | drawing changed =>
    have lines := changed.map_formsNamed_eq (fun d => segments d.children) fun _ _ _ step =>
      segments_of_drawingChange step
    have texts := changed.map_formsNamed_eq (fun d => captions d.children) fun _ _ _ step =>
      captions_of_drawingChange step
    refine ⟨changed.formsNamed_eq (by decide), changed.formsNamed_eq (by decide), ?_, ?_⟩
    · rw [changed.formsNamed_eq (by decide)]
    · rw [Drawing.ofForms, Drawing.ofForms, List.flatMap_def, List.flatMap_def, lines, texts]
      rfl

namespace Symbol

theorem ofForm_of_sameParts {items items' : List Sexpr} (same : SameParts items items')
    (version : String) (head : Sexpr) :
    Symbol.ofForm version (.list (head :: items')) =
      Symbol.ofForm version (.list (head :: items)) := by
  simp only [Symbol.ofForm, children, List.drop_one, List.tail_cons, BlockSchematic.captions,
    same.bounds, same.captions, same.ports, same.drawing]

/-- The version comes from the header, the rest from the first symbol form. -/
theorem ofForms_eq (forms : List Sexpr) : Symbol.ofForms forms =
    ((formsNamed "symbol" forms).map
      (Symbol.ofForm ((headerVersion? forms).getD "0.1"))).head?.getD .placeholder := by
  rw [ofForms, List.head?_map, formsNamed, List.head?_filter]
  cases forms.find? (·.isForm "symbol") <;> rfl

theorem headerVersion?_of_change {forms forms' : List Sexpr}
    (changed : DescriptionChange forms forms') : headerVersion? forms' = headerVersion? forms := by
  have header : formsNamed "header" forms' = formsNamed "header" forms :=
    FormChange.formsNamed_eq changed (by decide)
  rw [formsNamed, formsNamed] at header
  rw [headerVersion?, headerVersion?, ← List.head?_filter, ← List.head?_filter, header]

theorem ofForms_of_change {forms forms' : List Sexpr} (changed : DescriptionChange forms forms') :
    Symbol.ofForms forms' = Symbol.ofForms forms := by
  rw [ofForms_eq, ofForms_eq, headerVersion?_of_change changed,
    FormChange.map_formsNamed_eq _ changed fun head _ _ step =>
      ofForm_of_sameParts step.sameParts _ head]

def latchBounds : Sexpr := Rect.toForm ⟨0, 0, 32, 32⟩

def latchTitle : Sexpr := Caption.toForm ⟨"LATCH", .zero, .standard⟩

def latchPin : Sexpr := Point.toForm ⟨0, 16⟩

def latch : List Sexpr :=
  [form "symbol" [latchBounds, latchTitle, form "port" [latchPin, .atom "input"]]]

/-- The same in another order, with a form that is not known. -/
def latchRewritten : List Sexpr :=
  [form "symbol" [latchTitle, latchBounds, form "shadow" [.atom "on"],
    form "port" [.atom "input", latchPin]]]

-- Of two bounds the last counts, so they do not change places.
example : Symbol.ofForms [form "symbol" [latchBounds, Rect.toForm .zero]] ≠
    Symbol.ofForms [form "symbol" [Rect.toForm .zero, latchBounds]] := by
  decide

end Symbol

end BlockSchematic
