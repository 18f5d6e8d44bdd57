import BlockSchematic.Proofs.Nets
import BlockSchematic.Proofs.PinExport

/-!
# The names of nets with pins

A net with top-level pins bears the name of the first of them in instance order. The names of the
pins after it stand in the entity only.
-/

namespace BlockSchematic

open Schematic

namespace Schematic

/-- The instance is a pin, and its port is linked to the given one. -/
def PinOn (s : Schematic) (p : PortRef) (i : Instance) : Prop :=
  i.isPin = true ∧ s.Linked p ⟨i.id, 0⟩

/-- The first pin in instance order that is linked to the port. -/
def FirstPin (s : Schematic) (p : PortRef) (i : Instance) : Prop :=
  s.PinOn p i ∧ ∃ before after, s.instances = before ++ i :: after ∧ ∀ j ∈ before, ¬ s.PinOn p j

theorem pinOn_iff_mem {s : Schematic} {p : PortRef} (wired : s.Wired p) {i : Instance} :
    (i.isPin && (s.membersOf (s.group p)).contains ⟨i.id, 0⟩) = true ↔ s.PinOn p i := by
  rw [Bool.and_eq_true, List.contains_iff_mem, mem_membersOf, PinOn, and_congr_right_iff]
  intro _
  constructor
  · rintro ⟨other, same⟩
    exact (group_eq_iff_linked wired other).1 same.symm
  · intro linked
    exact ⟨linked.wired_iff.1 wired, linked.group_eq.symm⟩

theorem bindingPin?_eq_some_iff {s : Schematic} {p : PortRef} (wired : s.Wired p)
    {i : Instance} :
    s.bindingPin? (s.membersOf (s.group p)) = some i ↔ s.FirstPin p i := by
  rw [bindingPin?, List.find?_eq_some_iff_append, FirstPin, pinOn_iff_mem wired]
  simp only [Bool.not_eq_true', ← Bool.not_eq_true, pinOn_iff_mem wired]

theorem bindingPin?_eq_none_iff {s : Schematic} {p : PortRef} (wired : s.Wired p) :
    s.bindingPin? (s.membersOf (s.group p)) = none ↔ ∀ i ∈ s.instances, ¬ s.PinOn p i := by
  simp only [bindingPin?, List.find?_eq_none, pinOn_iff_mem wired]

theorem FirstPin.mem {s : Schematic} {p : PortRef} {i : Instance} (h : s.FirstPin p i) :
    i ∈ s.instances := by
  obtain ⟨-, before, after, split, -⟩ := h
  exact split ▸ List.mem_append_right _ List.mem_cons_self

/-- Where a pin is linked to a wired port, there is a first one. -/
theorem exists_firstPin {s : Schematic} {p : PortRef} (wired : s.Wired p) {pin : Instance}
    (present : pin ∈ s.instances) (on : s.PinOn p pin) : ∃ first, s.FirstPin p first := by
  cases found : s.bindingPin? (s.membersOf (s.group p)) with
  | none => exact absurd on ((bindingPin?_eq_none_iff wired).1 found pin present)
  | some first => exact ⟨first, (bindingPin?_eq_some_iff wired).1 found⟩

/-- The first pin that a wired port is linked to gives the port its signal. -/
theorem signalFor_of_firstPin {s : Schematic} {p : PortRef} (wired : s.Wired p)
    {first : Instance} (h : s.FirstPin p first) :
    (Netlist.build s).signalFor p = Vhdl.sanitize first.name := by
  obtain ⟨e, he, key⟩ := exists_netEntry wired
  rw [Netlist.signalFor, netOf?_eq_some_iff.2 ⟨wired, e, he, key, rfl⟩, netOf, Net.make, key,
    (bindingPin?_eq_some_iff wired).2 h]
  rfl

theorem FirstPin.linked {s : Schematic} {p q : PortRef} {first : Instance}
    (h : s.FirstPin p first) (linked : s.Linked p q) : s.FirstPin q first := by
  have same : ∀ {i}, s.PinOn q i ↔ s.PinOn p i := fun {i} =>
    and_congr_right fun _ => ⟨linked.trans _ _ _, (linked.symm _ _).trans _ _ _⟩
  simpa only [FirstPin, same] using h

/-- A wire on a pin leads to an existing port of something that is no pin. -/
theorem WellFormed.joined_of_pin {s : Schematic} (hs : s.WellFormed) {pin : Instance}
    (present : pin ∈ s.instances) (isPin : pin.isPin = true) (wired : s.Wired ⟨pin.id, 0⟩) :
    ∃ q i port, s.port? q = some (i, port) ∧ i.isPin = false ∧ s.Joined ⟨pin.id, 0⟩ q := by
  obtain ⟨w, hw, touches⟩ := wired
  obtain ⟨-, i, j, source, target, hi, hj, fits⟩ := check_eq_ok_iff.1 (hs.wires w hw).legal
  simp only [Wire.touches, Bool.or_eq_true, beq_iff_eq] at touches
  rcases touches with start | finish
  · obtain rfl := hs.eq_of_port? present hi (by rw [start])
    exact ⟨_, j, target, hj, by simpa [isPin] using fits.pins, w, hw, by simp [Wire.joins, start]⟩
  · obtain rfl := hs.eq_of_port? present hj (by rw [finish])
    exact ⟨_, i, source, hi, by simpa [isPin] using fits.pins, w, hw,
      by simp [Wire.joins, finish]⟩

theorem WellFormed.signalFor_pin {s : Schematic} (hs : s.WellFormed) {pin first : Instance}
    (present : pin ∈ s.instances) (isPin : pin.isPin = true) (wired : s.Wired ⟨pin.id, 0⟩)
    (h : s.FirstPin ⟨pin.id, 0⟩ first) :
    (Netlist.build s).signalFor ⟨pin.id, 0⟩ = Vhdl.sanitize first.name ∧
      ∃ q i port, s.port? q = some (i, port) ∧ i.isPin = false ∧ s.Joined ⟨pin.id, 0⟩ q ∧
        (Netlist.build s).signalFor q = Vhdl.sanitize first.name := by
  refine ⟨signalFor_of_firstPin wired h, ?_⟩
  obtain ⟨q, i, port, found, block, joined⟩ := hs.joined_of_pin present isPin wired
  exact ⟨q, i, port, found, block, joined,
    signalFor_of_firstPin joined.wired.2 (h.linked (.rel _ _ joined))⟩

end Schematic

/-- After any edits a wired pin's port has a first pin, the pin itself where no other pin is
linked to it. The port is mapped to that pin's name, and so is a port that a wire joins to it and
that belongs to no pin. -/
theorem wired_pin_has_first_name {s : Schematic} (reached : Reachable s) {pin : Instance}
    (present : pin ∈ s.instances) (isPin : pin.isPin = true) (wired : s.Wired ⟨pin.id, 0⟩) :
    (∃ first, s.FirstPin ⟨pin.id, 0⟩ first) ∧
    (∀ first, s.FirstPin ⟨pin.id, 0⟩ first →
      (Netlist.build s).signalFor ⟨pin.id, 0⟩ = Vhdl.sanitize first.name ∧
      ∃ q i port, s.port? q = some (i, port) ∧ i.isPin = false ∧ s.Joined ⟨pin.id, 0⟩ q ∧
        (Netlist.build s).signalFor q = Vhdl.sanitize first.name) ∧
    ((∀ other ∈ s.instances, s.PinOn ⟨pin.id, 0⟩ other → other = pin) →
      (Netlist.build s).signalFor ⟨pin.id, 0⟩ = Vhdl.sanitize pin.name) := by
  have on : s.PinOn ⟨pin.id, 0⟩ pin := ⟨isPin, .refl _⟩
  obtain ⟨first, h⟩ := exists_firstPin wired present on
  refine ⟨⟨first, h⟩, fun first h => reached.wellFormed.signalFor_pin present isPin wired h, ?_⟩
  intro alone
  obtain rfl := alone first h.mem h.1
  exact signalFor_of_firstPin wired h

def loneMux : Instance :=
  ⟨"inst_1", "2x8mux", "2x8mux_1", .origin, .component, .multiplexer, none⟩

def muxOutput : Port :=
  Symbol.muxPort "Y" .output 8 "Y[7..0]" ⟨160, 24⟩ ⟨108, 17, 140, 31⟩
    (.thin ⟨144, 24⟩ ⟨160, 24⟩)

/-- The port of a pin that was made for the multiplexer's output. -/
def outputPinPort : Port :=
  ⟨"PIN", .input, 8, ⟨0, 20⟩, [⟨"PIN[7..0]", ⟨5, 15, 20, 25⟩, Symbol.arial 8⟩],
    [.thin ⟨0, 20⟩ ⟨20, 20⟩]⟩

/-- The multiplexer's output is exported to a pin, and then to another. -/
def oncePinned : Schematic :=
  (Schematic.empty.withInstance loneMux).withExport ⟨"inst_1", 3⟩ .pinOutput loneMux muxOutput
    outputPinPort "inst_2" "w_3"

def twicePinned : Schematic :=
  oncePinned.withExport ⟨"inst_1", 3⟩ .pinOutput loneMux muxOutput outputPinPort "inst_4" "w_5"

def secondPin : Instance := oncePinned.exportedPin .pinOutput loneMux muxOutput "inst_4"

theorem reachable_twicePinned : Reachable twicePinned := by
  have placed : Reachable (Schematic.empty.withInstance loneMux) :=
    Reachable.empty.withSymbol 0 .multiplexer .origin (by decide)
  have once : Reachable oncePinned :=
    placed.withExport 1 (by decide) rfl rfl (by decide) (by decide) (by decide)
  exact once.withExport 3 (by decide) rfl rfl (by decide) (by decide) (by decide)

theorem secondPin_mem : secondPin ∈ twicePinned.instances :=
  List.mem_append_right _ (List.mem_singleton_self _)

theorem wired_secondPin : twicePinned.Wired ⟨"inst_4", 0⟩ :=
  ⟨_, List.mem_append_right _ (List.mem_singleton_self _), by decide⟩

/-- The second pin's port is mapped to the first pin's name. -/
theorem secondPin_has_first_name :
    ∃ first, twicePinned.FirstPin ⟨"inst_4", 0⟩ first ∧
      (Netlist.build twicePinned).signalFor ⟨"inst_4", 0⟩ = Vhdl.sanitize first.name := by
  obtain ⟨⟨first, h⟩, named, -⟩ :=
    wired_pin_has_first_name reachable_twicePinned secondPin_mem (by decide) wired_secondPin
  exact ⟨first, h, (named first h).1⟩

/-- A wired pin does not always have its own name. -/
theorem pin_without_own_name : ¬ ∀ {s : Schematic}, Reachable s → ∀ pin ∈ s.instances,
    pin.isPin = true → s.Wired ⟨pin.id, 0⟩ →
      (Netlist.build s).signalFor ⟨pin.id, 0⟩ = Vhdl.sanitize pin.name := by
  intro own
  have same := own reachable_twicePinned secondPin secondPin_mem (by decide) wired_secondPin
  have shared : (Netlist.build twicePinned).signalFor ⟨secondPin.id, 0⟩ = "Y_pin" := by decide
  have named : Vhdl.sanitize secondPin.name = "Y_pin_2" := by decide
  rw [shared, named] at same
  exact absurd same (by decide)

end BlockSchematic
