import BlockSchematic.Proofs.LayoutCompletion
import BlockSchematic.Vhdl.Export

/-!
# Geometry is inert

Where instances stand and how wires are drawn has no say in the nets or in the exported text. Both
are the same for the schematic with all of that taken away, and a layout or a move changes nothing
else. Nothing is assumed of the schematic.
-/

namespace BlockSchematic

open Vhdl

def Instance.undrawn (i : Instance) : Instance := { i with position := .origin }

def WireEnd.undrawn (e : WireEnd) : WireEnd := { e with position := .origin }

def Wire.undrawn (w : Wire) : Wire :=
  { w with route := none, start := w.start.undrawn, finish := w.finish.undrawn }

theorem Instance.Moved.undrawn_eq {i j : Instance} (h : i.Moved j) : i.undrawn = j.undrawn := by
  rw [h]
  rfl

theorem Wire.Redrawn.undrawn_eq {w v : Wire} (h : w.Redrawn v) : w.undrawn = v.undrawn := by
  rw [h]
  rfl

theorem mapIdx_map {α β γ : Type} (f : α → β) (g : Nat → β → γ) (l : List α) :
    (l.map f).mapIdx g = l.mapIdx fun k a => g k (f a) := by
  rw [List.mapIdx_eq_zipIdx_map, List.mapIdx_eq_zipIdx_map, List.zipIdx_map, List.map_map]
  rfl

theorem firstOfEach_map {α β γ : Type} [BEq γ] (f : α → β) (key : β → γ) (seen : List γ)
    (l : List α) :
    firstOfEach key seen (l.map f) = (firstOfEach (fun a => key (f a)) seen l).map f := by
  induction l generalizing seen with
  | nil => rfl
  | cons a rest ih =>
    rw [List.map_cons, firstOfEach, firstOfEach]
    split
    · exact ih seen
    · rw [ih, List.map_cons]

namespace Schematic

/-- The schematic as if nothing had a place yet. -/
def undrawn (s : Schematic) : Schematic :=
  ⟨s.instances.map Instance.undrawn, s.wires.map Wire.undrawn, s.counters⟩

theorem Redrawn.undrawn_eq {s t : Schematic} (h : s.Redrawn t) : s.undrawn = t.undrawn := by
  have instances := map_eq_of_forall₂ h.instances Instance.Moved.undrawn_eq
  have wires := map_eq_of_forall₂ h.wires Wire.Redrawn.undrawn_eq
  rw [undrawn, undrawn, instances, wires, h.counters]

theorem redrawn_refreshWires (s : Schematic) : s.Redrawn s.refreshWires where
  instances := List.forall₂_same.2 fun _ _ => rfl
  wires := forall₂_map_self fun _ _ => rfl
  counters := rfl

theorem redrawn_moveInstance {s t : Schematic} {id : String} {position : Position}
    (h : s.moveInstance id position = .ok t) : s.Redrawn t := by
  rw [moveInstance] at h
  split at h
  · obtain rfl := Except.ok.inj h
    refine Redrawn.trans ?_ (redrawn_refreshWires _)
    refine ⟨moved_updateFirst _ _ _, forall₂_map_self fun w _ => ?_, rfl⟩
    split <;> rfl
  · cases h

variable (s : Schematic)

theorem wiredPorts_undrawn : s.undrawn.wiredPorts = s.wiredPorts := by
  rw [wiredPorts, undrawn, List.flatMap_map]
  rfl

theorem links_undrawn (ports : List PortRef) : s.undrawn.links ports = s.links ports := by
  rw [links, undrawn, List.foldl_map]
  rfl

theorem bindingPin?_undrawn (members : List PortRef) :
    s.undrawn.bindingPin? members = (s.bindingPin? members).map Instance.undrawn := by
  rw [bindingPin?, undrawn, List.find?_map]
  rfl

theorem make_undrawn (k : Nat) (width : UInt32) (members : List PortRef) :
    Net.make s.undrawn k width members = Net.make s k width members := by
  rw [Net.make, Net.make, bindingPin?_undrawn]
  cases s.bindingPin? members <;> rfl

/-- The nets hang on which ports the wires join and on the pins. -/
theorem build_undrawn : Netlist.build s.undrawn = Netlist.build s := by
  simp only [Netlist.build, wiredPorts_undrawn, links_undrawn, make_undrawn]
  rw [undrawn, mapIdx_map]
  rfl

end Schematic

namespace Vhdl

variable (s : Schematic)

theorem entityLines_undrawn (top : String) : entityLines s.undrawn top = entityLines s top := by
  rw [entityLines, Schematic.undrawn, List.filter_map, List.map_map]
  rfl

theorem templates_undrawn : templates s.undrawn = (templates s).map Instance.undrawn := by
  rw [templates, Schematic.undrawn, List.filter_map, firstOfEach_map]
  rfl

theorem architectureLines_undrawn (n : Netlist) (top : String) :
    architectureLines s.undrawn n top = architectureLines s n top := by
  have instances : ∀ role, s.undrawn.instances.filter (·.role = role) =
      (s.instances.filter (·.role = role)).map Instance.undrawn := fun role => List.filter_map
  simp only [architectureLines, templates_undrawn, instances, List.flatMap_map]
  rfl

/-- The text of a schematic is that of the schematic without its geometry. -/
theorem ofSchematic_undrawn (top : String) : ofSchematic s.undrawn top = ofSchematic s top := by
  simp only [ofSchematic, entityLines_undrawn, s.build_undrawn, architectureLines_undrawn]

end Vhdl

namespace Schematic.Redrawn

variable {s t : Schematic} (h : s.Redrawn t)
include h

theorem build_eq : Netlist.build t = Netlist.build s := by
  rw [← t.build_undrawn, ← h.undrawn_eq, s.build_undrawn]

theorem ofSchematic_eq (top : String) : ofSchematic t top = ofSchematic s top := by
  rw [← ofSchematic_undrawn t, ← h.undrawn_eq, ofSchematic_undrawn s]

end Schematic.Redrawn

/-- A layout, and a move that is not refused, change nothing but where instances stand and how
wires are drawn. The nets stay the same by that, and so does the exported text. -/
theorem geometry_is_inert (s : Schematic) :
    (∀ response, s.Redrawn (s.withLayout response) ∧
      Netlist.build (s.withLayout response) = Netlist.build s ∧
      ∀ top, ofSchematic (s.withLayout response) top = ofSchematic s top) ∧
    ∀ id position t, s.moveInstance id position = .ok t → s.Redrawn t ∧
      Netlist.build t = Netlist.build s ∧ ∀ top, ofSchematic t top = ofSchematic s top := by
  constructor
  · intro response
    have redrawn := s.redrawn_withLayout response
    exact ⟨redrawn, redrawn.build_eq, redrawn.ofSchematic_eq⟩
  · intro id position t done
    have redrawn := Schematic.redrawn_moveInstance done
    exact ⟨redrawn, redrawn.build_eq, redrawn.ofSchematic_eq⟩

/-- Two instances with one id, and a wire that leads nowhere. -/
def doubled : Schematic where
  instances := List.replicate 2
    ⟨"m", Symbol.multiplexer.name, "2x8mux_1", .origin, .component, .multiplexer, none⟩
  wires := [⟨"w", ⟨⟨"m", 3⟩, .origin⟩, ⟨⟨"gone", 0⟩, .origin⟩, none, 8⟩]
  counters := .empty

theorem geometry_is_inert_doubled : ∃ t, doubled.moveInstance "m" ⟨40.0, 0.0⟩ = .ok t ∧
    Netlist.build t = Netlist.build doubled ∧
    ofSchematic t defaultTop = ofSchematic doubled defaultTop := by
  obtain ⟨t, done⟩ : ∃ t, doubled.moveInstance "m" ⟨40.0, 0.0⟩ = .ok t := ⟨_, rfl⟩
  obtain ⟨-, nets, text⟩ := (geometry_is_inert doubled).2 _ _ t done
  exact ⟨t, done, nets, text defaultTop⟩

end BlockSchematic
