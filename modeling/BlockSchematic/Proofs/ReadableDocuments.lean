import BlockSchematic.Proofs.DocumentRoundTrip
import BlockSchematic.Proofs.WrittenDoubles

/-!
# Which documents are read back

Whether a written document can be read again is decided by its numbers alone: all coordinates are
finite, and the indices of all ports fit a word of 64 bits.
-/

namespace BlockSchematic

open Json (Decides decides_double decides_index decides_list decodes_choice decodes_text
  decodes_word opens_array)
open Json.Fields (Decided decides_built)

structure Position.Finite (p : Position) : Prop where
  x : p.x.isFinite = true
  y : p.y.isFinite = true

structure WireEnd.Readable (e : WireEnd) : Prop where
  indexed : e.port.index < WordBound.unsigned64
  placed : e.position.Finite

structure Wire.Readable (w : Wire) : Prop where
  start : w.start.Readable
  finish : w.finish.Readable
  route : ∀ route, w.route = some route → ∀ p ∈ route, p.Finite

structure Schematic.Readable (s : Schematic) : Prop where
  instances : ∀ i ∈ s.instances, i.position.Finite
  wires : ∀ w ∈ s.wires, w.Readable

namespace Document

theorem decides_position (p : Position) : Decides position p.toJson p.Finite :=
  (decides_built _ (.next (decides_double p.x) <| .next (decides_double p.y) .done)
    (by decide)).congr ⟨fun ⟨x, y, _⟩ => ⟨x, y⟩, fun ⟨x, y⟩ => ⟨x, y, trivial⟩⟩

theorem decides_instance (i : Instance) : Decides «instance» i.toJson i.position.Finite := by
  have last : Decided (.cons (.defaulted "glue" (.optional glue) none) .nil)
      (optionalMember "glue" Glue.toJson i.glue ++ []) _ :=
    .optional (fun g _ => (decodes_glue g).decides) (fun g _ => (decodes_glue g).opens) .done
  rw [List.append_nil] at last
  refine (decides_built _ (.next (decodes_text i.id).decides <|
    .next (decodes_text i.template).decides <| .next (decodes_text i.name).decides <|
    .next (decides_position i.position) <|
    .next (decodes_choice (roleOfName?_roleName i.role)).decides <|
    .next (decodes_symbol i.symbol).decides last) (by decide)).congr ?_
  simp

theorem decides_wireEnd (e : WireEnd) : Decides wireEnd e.toJson e.Readable :=
  (decides_built _ (.next (decodes_text e.port.instanceId).decides <|
    .next (decides_index e.port.index) <| .next (decides_position e.position) .done)
    (by decide)).congr ⟨fun ⟨_, i, p, _⟩ => ⟨i, p⟩, fun ⟨i, p⟩ => ⟨trivial, i, p, trivial⟩⟩

theorem decides_wire (w : Wire) : Decides wire w.toJson w.Readable := by
  have route (route : List Position) (_ : w.route = some route) :
      Decides (.list position) (routeJson route) (∀ p ∈ route, p.Finite) :=
    decides_list (fun p _ => decides_position p) (fun p _ => Json.opens_object _)
  refine (decides_built _ (.next (decodes_text w.id).decides <|
    .next (decides_wireEnd w.start) <| .next (decides_wireEnd w.finish) <|
    .optional route (fun _ _ => opens_array _) <| .next (decodes_word w.width).decides .done)
    (by decide)).congr ?_
  exact ⟨fun ⟨_, start, finish, route, _⟩ => ⟨start, finish, route⟩,
    fun ⟨start, finish, route⟩ => ⟨trivial, start, finish, route, trivial, trivial⟩⟩

theorem decides_schematic (s : Schematic) : Decides schematic s.toJson s.Readable := by
  have instances := decides_list (fun i (_ : i ∈ s.instances) => decides_instance i)
    (fun i _ => Json.opens_object _)
  have wires := decides_list (fun w (_ : w ∈ s.wires) => decides_wire w)
    (fun w _ => Json.opens_object _)
  refine (decides_built _ (.next instances <| .next wires <|
    .next (decodes_counters s.counters).decides .done) (by decide)).congr ?_
  exact ⟨fun ⟨instances, wires, _⟩ => ⟨instances, wires⟩,
    fun ⟨instances, wires⟩ => ⟨instances, wires, trivial, trivial⟩⟩

/-- A written document is read, as some schematic, exactly if all its numbers can be read. -/
theorem exists_read_write_iff (s : Schematic) : (∃ t, read (write s) = .ok t) ↔ s.Readable :=
  (decides_schematic s).decodeText_iff

end Document

end BlockSchematic
