import BlockSchematic.Proofs.Pieces
import BlockSchematic.Proofs.SymbolDescription
import BlockSchematic.Symbol.Synthesis
import Mathlib.Data.List.Forall2

/-!
# Drawn symbols read back

A symbol that is drawn from an interface comes back from its description as it was. The width of a
port stands nowhere in the description but in its label, so this rests on labels reading back.
-/

namespace BlockSchematic

open Text

/-! ## Labels -/

theorem splitDots?_digits {digits : List Char} (h : ∀ c ∈ digits, c.isDigit = true)
    (rest : List Char) : splitDots? (digits ++ '.' :: '.' :: rest) = some (digits, rest) := by
  induction digits with
  | nil => rfl
  | cons c more ih =>
    obtain ⟨here, later⟩ := List.forall_mem_cons.1 h
    have noDot : c ≠ '.' := by
      rintro rfl
      cases here
    rw [List.cons_append, splitDots?, ih later, Option.map_some]
    exact fun _ same => absurd same noDot

/-- What stands after the opening bracket of a bus label. -/
def busRange (top : Nat) : List Char := natChars top ++ ['.', '.', '0', ']']

theorem solid_bracket (top : Nat) : Solid ('[' :: busRange top) := by
  refine ⟨⟨'[', rfl, by decide⟩, ⟨']', ?_, by decide⟩⟩
  simp [busRange, List.getLast?_cons, List.getLast?_append]

theorem bracketWidth?_busRange {top : Nat} (small : top < WordBound.signed64) :
    bracketWidth? (busRange top) = some (wordWidth (top + 1)) := by
  have digits := List.all_eq_true.1 (all_isDigit_natChars top)
  have closed : (busRange top).getLast? = some ']' := by simp [busRange, List.getLast?_append]
  have inside : (busRange top).dropLast = natChars top ++ '.' :: '.' :: ['0'] := by
    simp [busRange, List.dropLast_append_of_ne_nil]
  have high : trimChars (natChars top) = natChars top :=
    trimChars_eq_self fun c hc => isBlank_eq_false_of_isDigit (digits c hc)
  have low : readIntBelow? WordBound.signed64 (trimChars ['0']) = some 0 := by decide
  simp only [bracketWidth?, closed, if_true, inside, splitDots?_digits digits, high,
    readIntBelow?_natChars small, low, bind, Option.bind_some, pure, rangeWidth, Int.sub_zero,
    Int.natAbs_natCast]

/-- A name that a label says: without blanks around it and without a bracket. -/
structure LabelName (name : String) : Prop where
  trimmed : trim name = name
  noBracket : '[' ∉ name.toList

instance (name : String) : Decidable (LabelName name) :=
  decidable_of_iff (trim name = name ∧ '[' ∉ name.toList)
    ⟨fun h => ⟨h.1, h.2⟩, fun h => ⟨h.trimmed, h.noBracket⟩⟩

theorem LabelName.trimChars_eq {name : String} (h : LabelName name) :
    trimChars name.toList = name.toList := by
  have chars := congrArg String.toList h.trimmed
  rwa [trim, String.toList_ofList] at chars

theorem splitBusLabel_name {name : String} (h : LabelName name) : splitBusLabel name = (name, 1) := by
  have noRange : splitFirst? '[' name.toList = none := by
    cases found : splitFirst? '[' name.toList with
    | none => rfl
    | some sides =>
      obtain ⟨before, after⟩ := sides
      refine absurd ?_ h.noBracket
      rw [eq_of_splitFirst?_eq_some found]
      simp
  simp [splitBusLabel, h.trimChars_eq, noRange]

theorem splitBusLabel_bus {name : String} (h : LabelName name) {top : Nat}
    (small : top < WordBound.signed64) :
    splitBusLabel (String.ofList (name.toList ++ '[' :: busRange top)) =
      (name, wordWidth (top + 1)) := by
  have solid : Solid (name.toList ++ '[' :: busRange top) := by
    by_cases empty : name.toList = []
    · rw [empty]
      exact solid_bracket top
    · have edges : Solid (trimChars name.toList) := solid_trimChars (by rwa [h.trimChars_eq])
      have whole := edges.append (solid_bracket top) []
      rwa [h.trimChars_eq, List.append_nil] at whole
  have trimmed : trimChars (name.toList ++ '[' :: busRange top) =
      name.toList ++ '[' :: busRange top := by
    have noMargin : ∀ c ∈ [], isBlank c = true := List.forall_mem_nil _
    have whole := solid.trimChars_eq noMargin noMargin
    rwa [List.append_nil, List.nil_append] at whole
  simp only [splitBusLabel, String.toList_ofList, trimmed,
    splitFirst?_append_cons h.noBracket, bracketWidth?_busRange small, h.trimChars_eq, bind,
    Option.bind_some, pure, Option.getD_some, String.ofList_toList]

/-- The label of a port says its name and its width. -/
theorem splitBusLabel_busLabel {name : String} (h : LabelName name) {width : UInt32}
    (wide : width ≠ 0) : splitBusLabel (busLabel name width) = (name, width) := by
  have bound := width.toNat_lt
  by_cases bus : 1 < width
  · have more : 1 < width.toNat := UInt32.lt_iff_toNat_lt.1 bus
    have small : width.toNat - 1 < WordBound.signed64 := by
      rw [WordBound.signed64]
      omega
    have fits : width.toNat < WordBound.unsigned32 := by
      rw [WordBound.unsigned32]
      omega
    have back : width.toNat - 1 + 1 = width.toNat := by omega
    have label : busLabel name width =
        String.ofList (name.toList ++ '[' :: busRange (width.toNat - 1)) := by
      rw [busLabel, if_pos bus, busRange, List.append_assoc, List.cons_append]
    rw [label, splitBusLabel_bus h small, back, wordWidth, if_pos fits, UInt32.ofNat_toNat]
  · have single : width = 1 := by
      have most : width.toNat ≤ 1 := Nat.le_of_not_lt fun more => bus (UInt32.lt_iff_toNat_lt.2 more)
      have least : width.toNat ≠ 0 := fun zero => wide (UInt32.toNat_inj.1 zero)
      refine UInt32.toNat_inj.1 ?_
      change width.toNat = 1
      omega
    rw [busLabel, if_neg bus, splitBusLabel_name h, single]

/-! ## Drawn symbols -/

/-- A port whose label keeps its name and its width. -/
structure PortSpec.Labelled (p : PortSpec) : Prop where
  name : LabelName p.name
  noQuote : '"' ∉ p.name.toList
  wide : p.width ≠ 0

instance (p : PortSpec) : Decidable p.Labelled :=
  decidable_of_iff (LabelName p.name ∧ '"' ∉ p.name.toList ∧ p.width ≠ 0)
    ⟨fun h => ⟨h.1, h.2.1, h.2.2⟩, fun h => ⟨h.name, h.noQuote, h.wide⟩⟩

/-- What wiring needs to know of a port. -/
def PortSpec.interface (p : PortSpec) : String × Direction × UInt32 :=
  (p.name, p.mode.direction, p.width)

def Port.interface (p : Port) : String × Direction × UInt32 := (p.name, p.direction, p.width)

/-- The port is drawn for the specification, with its label as the only caption. -/
structure PortSpec.DrawnAs (spec : PortSpec) (p : Port) : Prop where
  interface : p.interface = spec.interface
  texts : ∃ place, p.texts = [⟨busLabel spec.name spec.width, place, Synthesis.labelFont⟩]

namespace Synthesis

theorem drawnAs_leftPort (spec : PortSpec) (row : Nat) : spec.DrawnAs (leftPort spec row) :=
  ⟨rfl, _, rfl⟩

theorem drawnAs_rightPort (total : Nat) (spec : PortSpec) (row : Nat) :
    spec.DrawnAs (rightPort total spec row) :=
  ⟨rfl, _, rfl⟩

/-- Ports are drawn one for each specification, in the order in which these are drawn. -/
theorem forall₂_drawnAs (name : String) (ports : List PortSpec) :
    List.Forall₂ PortSpec.DrawnAs (drawnPorts ports) (Symbol.ofInterface name ports).ports := by
  have side : ∀ {specs : List PortSpec} {draw : Nat → PortSpec → Port},
      (∀ row (spec : PortSpec), spec.DrawnAs (draw row spec)) →
      List.Forall₂ PortSpec.DrawnAs specs (specs.mapIdx draw) := by
    intro specs draw drawn
    refine List.forall₂_iff_get.2 ⟨by rw [List.length_mapIdx], fun k hk hk' => ?_⟩
    rw [List.get_eq_getElem, List.get_eq_getElem, List.getElem_mapIdx]
    exact drawn k _
  exact List.rel_append (side fun row spec => drawnAs_leftPort spec row)
    (side fun row spec => drawnAs_rightPort _ spec row)

end Synthesis

theorem quote_notMem_arial : '"' ∉ "Arial".toList := by decide

theorem quote_notMem_busLabel {name : String} (h : '"' ∉ name.toList) (width : UInt32) :
    '"' ∉ (busLabel name width).toList := by
  rw [busLabel]
  split
  · have digits : '"' ∉ natChars (width.toNat - 1) := fun member => by
      have digit := List.all_eq_true.1 (all_isDigit_natChars _) _ member
      cases digit
    simp [h, digits]
  · exact h

theorem PortSpec.DrawnAs.captioned {spec : PortSpec} {p : Port} (h : spec.DrawnAs p)
    (labelled : spec.Labelled) : p.Captioned := by
  obtain ⟨place, texts⟩ := h.texts
  obtain ⟨name, rest⟩ := Prod.mk.inj h.interface
  obtain ⟨-, width⟩ := Prod.mk.inj rest
  have label : p.label = busLabel spec.name spec.width := by rw [Port.label, texts]
  refine ⟨⟨by simp [texts], ?_⟩, ?_⟩
  · rw [texts, List.forall_mem_singleton]
    exact ⟨quote_notMem_busLabel labelled.noQuote _, quote_notMem_arial⟩
  · rw [label, splitBusLabel_busLabel labelled.name labelled.wide, name, width]

/-- A description gives back the symbol as it was written. -/
theorem Symbol.ofDescription_description (s : Symbol) :
    Symbol.ofDescription s.description = s.written := by
  rw [Symbol.ofDescription, parseAll_description]
  exact s.ofForms_asWritten

namespace Synthesis

variable {name : String} {ports : List PortSpec}

theorem map_interface_ports : (Symbol.ofInterface name ports).ports.map Port.interface =
    (drawnPorts ports).map PortSpec.interface := by
  have same : List.Forall₂ (· = ·) ((Symbol.ofInterface name ports).ports.map Port.interface)
      ((drawnPorts ports).map PortSpec.interface) := by
    rw [List.forall₂_map_left_iff, List.forall₂_map_right_iff]
    exact (forall₂_drawnAs name ports).flip.imp fun _ _ drawn => drawn.interface
  rwa [List.forall₂_eq_eq_eq] at same

theorem captioned_of_mem_ports (labelled : ∀ p ∈ ports, p.Labelled) {p : Port}
    (listed : p ∈ (Symbol.ofInterface name ports).ports) : p.Captioned := by
  have kept : ∀ p ∈ drawnPorts ports, p.Labelled := by
    intro p hp
    rcases List.mem_append.1 hp with left | right
    · exact labelled p (List.mem_of_mem_filter left)
    · exact labelled p (List.mem_of_mem_filter right)
  have drawn := forall₂_drawnAs name ports
  obtain ⟨k, hk, rfl⟩ := List.getElem_of_mem listed
  have as := drawn.get (drawn.length_eq.symm ▸ hk) hk
  exact as.captioned (kept _ (List.getElem_mem _))

theorem written_ofInterface (title : '"' ∉ name.toList) (labelled : ∀ p ∈ ports, p.Labelled) :
    (Symbol.ofInterface name ports).written = Symbol.ofInterface name ports := by
  have version : '"' ∉ "1.0".toList := by decide
  exact Symbol.written_eq_self_iff.2
    ⟨version, List.forall_mem_singleton.2 ⟨title, quote_notMem_arial⟩,
      fun _ => captioned_of_mem_ports labelled, rfl⟩

/-- A symbol drawn from an interface comes back from its description unchanged. So its ports have
the names, widths and directions of the interface, in the order in which they are drawn, and their
labels say so. -/
theorem drawn_symbol_reads_back (title : '"' ∉ name.toList)
    (labelled : ∀ p ∈ ports, p.Labelled) :
    Symbol.ofDescription (Symbol.ofInterface name ports).description =
      Symbol.ofInterface name ports ∧
    (Symbol.ofDescription (Symbol.ofInterface name ports).description).ports.map Port.interface =
      (drawnPorts ports).map PortSpec.interface ∧
    ∀ p ∈ (Symbol.ofDescription (Symbol.ofInterface name ports).description).ports,
      splitBusLabel p.label = (p.name, p.width) := by
  have back : Symbol.ofDescription (Symbol.ofInterface name ports).description =
      Symbol.ofInterface name ports := by
    rw [Symbol.ofDescription_description, written_ofInterface title labelled]
  rw [back]
  exact ⟨rfl, map_interface_ports, fun p listed => (captioned_of_mem_ports labelled listed).2⟩

def wideRegister : List PortSpec :=
  [⟨"Q out", .output, 4294967295⟩, ⟨"", .inout, 8⟩, ⟨"D]", .input, 1⟩]

/-- Blanks inside a name, a name that is empty and the widest bus are kept. -/
theorem wideRegister_reads_back :
    let register := Symbol.ofInterface "REG (wide)" wideRegister
    Symbol.ofDescription register.description = register ∧
    (Symbol.ofDescription register.description).ports.map Port.interface =
      [("D]", .input, 1), ("Q out", .output, 4294967295), ("", .bidirectional, 8)] := by
  intro register
  have labelled : ∀ p ∈ wideRegister, p.Labelled := by decide
  have unquoted : '"' ∉ "REG (wide)".toList := by decide
  obtain ⟨back, interface, -⟩ := drawn_symbol_reads_back unquoted labelled
  exact ⟨back, interface⟩

end Synthesis

end BlockSchematic
