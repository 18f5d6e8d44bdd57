import BlockSchematic.Proofs.JsonRecords

/-!
# A written document reads back

Each kind of record in a document is decoded from the members that are written for it. So a
document reads back as the schematic it was written from, if the text of each coordinate reads
back as that coordinate.
-/

namespace BlockSchematic

open Json (Decodes ReadsBack decodes_text decodes_word decodes_signedWord decodes_index
  decodes_double decodes_choice decodes_list decodes_members)
open Json.Fields (Completes decodes_built)

/-! ## Coordinates -/

def Position.coordinates (p : Position) : List Float := [p.x, p.y]

def Wire.positions (w : Wire) : List Position :=
  w.start.position :: w.finish.position :: w.route.getD []

/-- Where the instances are, where the wires end and how they run. -/
def Schematic.positions (s : Schematic) : List Position :=
  s.instances.map (·.position) ++ s.wires.flatMap Wire.positions

def Schematic.coordinates (s : Schematic) : List Float := s.positions.flatMap Position.coordinates

namespace Document

/-! ## Symbols -/

theorem decodes_point (p : Point) : Decodes point p.toJson p :=
  decodes_built (.next (decodes_signedWord p.x) <| .next (decodes_signedWord p.y) .done) rfl
    (by decide)

theorem decodes_rect (r : Rect) : Decodes rect r.toJson r :=
  decodes_built (.next (decodes_signedWord r.x1) <| .next (decodes_signedWord r.y1) <|
    .next (decodes_signedWord r.x2) <| .next (decodes_signedWord r.y2) .done) rfl (by decide)

theorem decodes_font (f : Font) : Decodes font f.toJson f :=
  decodes_built (.next (decodes_text f.family) <| .next (decodes_signedWord f.size) .done) rfl
    (by decide)

theorem decodes_caption (c : Caption) : Decodes caption c.toJson c :=
  decodes_built (.next (decodes_text c.value) <| .next (decodes_rect c.rect) <|
    .next (decodes_font c.font) .done) rfl (by decide)

theorem decodes_segment (s : Segment) : Decodes segment s.toJson s :=
  decodes_built (.next (decodes_point s.p1) <| .next (decodes_point s.p2) <|
    .next (decodes_signedWord s.width) .done) rfl (by decide)

theorem decodes_captions (cs : List Caption) :
    Decodes (.list caption) (.array (cs.map Caption.toJson)) cs :=
  decodes_list fun c _ => decodes_caption c

theorem decodes_segments (ss : List Segment) :
    Decodes (.list segment) (.array (ss.map Segment.toJson)) ss :=
  decodes_list fun s _ => decodes_segment s

theorem decodes_drawing (d : Drawing) : Decodes drawing d.toJson d :=
  decodes_built (.next (decodes_segments d.lines) <| .next (decodes_captions d.texts) .done) rfl
    (by decide)

theorem decodes_direction (d : Direction) : Decodes direction (.text d.keyword) d :=
  decodes_choice (Direction.ofKeyword?_keyword d)

theorem decodes_port (p : Port) : Decodes port p.toJson p :=
  decodes_built (.next (decodes_text p.name) <| .next (decodes_direction p.direction) <|
    .next (decodes_word p.width) <| .next (decodes_point p.location) <|
    .next (decodes_captions p.texts) <| .next (decodes_segments p.lines) .done) rfl (by decide)

theorem decodes_symbol (s : Symbol) : Decodes symbol s.toJson s :=
  decodes_built (.next (decodes_text s.name) <| .next (decodes_text s.version) <|
    .next (decodes_rect s.bounds) <|
    .next (decodes_list fun p (_ : p ∈ s.ports) => decodes_port p) <|
    .next (decodes_drawing s.drawing) <| .next (decodes_captions s.mainTexts) .done) rfl
    (by decide)

/-! ## Instances and wires -/

theorem modeOfName?_keyword (m : PortMode) : modeOfName? m.keyword = some m := by
  cases m <;> decide

theorem decodes_portSpec (p : PortSpec) : Decodes portSpec p.toJson p :=
  decodes_built (.next (decodes_text p.name) <|
    .next (decodes_choice (modeOfName?_keyword p.mode)) <| .next (decodes_word p.width) .done) rfl
    (by decide)

theorem decodes_glue (g : Glue) : Decodes glue g.toJson g :=
  decodes_built (.next (decodes_text g.code) <|
    .next (decodes_list fun p (_ : p ∈ g.ports) => decodes_portSpec p) .done) rfl (by decide)

theorem decodes_position {p : Position} (readsBack : ∀ x ∈ p.coordinates, ReadsBack x) :
    Decodes position p.toJson p :=
  have x := decodes_double (readsBack p.x List.mem_cons_self)
  have y := decodes_double (readsBack p.y (List.mem_cons_of_mem _ List.mem_cons_self))
  decodes_built (.next x <| .next y .done) rfl (by decide)

theorem roleOfName?_roleName (r : Role) : roleOfName? (roleName r) = some r := by
  cases r <;> decide

theorem decodes_instance {i : Instance} (readsBack : ∀ x ∈ i.position.coordinates, ReadsBack x) :
    Decodes «instance» i.toJson i := by
  have last : Completes (.cons (.defaulted "glue" (.optional glue) none) .nil) (none, ())
      (optionalMember "glue" Glue.toJson i.glue ++ []) (i.glue, ()) :=
    .optional (fun g _ => decodes_glue g) .done
  rw [List.append_nil] at last
  exact decodes_built (.next (decodes_text i.id) <| .next (decodes_text i.template) <|
    .next (decodes_text i.name) <| .next (decodes_position readsBack) <|
    .next (decodes_choice (roleOfName?_roleName i.role)) <| .next (decodes_symbol i.symbol) last)
    rfl (by decide)

theorem decodes_wireEnd {e : WireEnd} (readsBack : ∀ x ∈ e.position.coordinates, ReadsBack x)
    (indexed : e.port.index < WordBound.unsigned64) : Decodes wireEnd e.toJson e :=
  decodes_built (.next (decodes_text e.port.instanceId) <| .next (decodes_index indexed) <|
    .next (decodes_position readsBack) .done) rfl (by decide)

theorem decodes_wire {w : Wire}
    (readsBack : ∀ p ∈ w.positions, ∀ x ∈ p.coordinates, ReadsBack x)
    (indexed : w.start.port.index < WordBound.unsigned64 ∧
      w.finish.port.index < WordBound.unsigned64) : Decodes wire w.toJson w := by
  obtain ⟨start, ends⟩ := List.forall_mem_cons.1 readsBack
  obtain ⟨finish, run⟩ := List.forall_mem_cons.1 ends
  have route (route : List Position) (drawn : w.route = some route) :
      Decodes (.list position) (routeJson route) route := by
    rw [drawn] at run
    exact decodes_list fun p hp => decodes_position (run p hp)
  exact decodes_built (.next (decodes_text w.id) <| .next (decodes_wireEnd start indexed.1) <|
    .next (decodes_wireEnd finish indexed.2) <| .optional route <|
    .next (decodes_word w.width) .done) rfl (by decide)

theorem decodes_counters (m : KeyMap UInt32) :
    Decodes counters (.object (m.toList.map fun (key, n) => (key, Json.ofWord n))) m := by
  have read := (decodes_members fun e (_ : e ∈ m.toList) => decodes_word e.2).map KeyMap.ofList
  rwa [KeyMap.ofList_toList] at read

theorem decodes_schematic {s : Schematic} (readsBack : ∀ x ∈ s.coordinates, ReadsBack x)
    (indexed : ∀ w ∈ s.wires, w.start.port.index < WordBound.unsigned64 ∧
      w.finish.port.index < WordBound.unsigned64) : Decodes schematic s.toJson s := by
  have placed : ∀ p ∈ s.positions, ∀ x ∈ p.coordinates, ReadsBack x := fun p hp x hx =>
    readsBack x (List.mem_flatMap.2 ⟨p, hp, hx⟩)
  have instances : ∀ i ∈ s.instances, Decodes «instance» i.toJson i := fun i hi =>
    decodes_instance (placed i.position (List.mem_append_left _ (List.mem_map_of_mem hi)))
  have wires : ∀ w ∈ s.wires, Decodes wire w.toJson w := fun w hw =>
    decodes_wire (fun p hp => placed p (List.mem_append_right _ (List.mem_flatMap.2 ⟨w, hw, hp⟩)))
      (indexed w hw)
  exact decodes_built (.next (decodes_list instances) <| .next (decodes_list wires) <|
    .next (decodes_counters s.counters) .done) rfl (by decide)

/-- Nothing of a schematic is lost or changed on the way through its document. -/
theorem written_document_reads_back (s : Schematic)
    (finite : ∀ x ∈ s.coordinates, x.isFinite = true)
    (printed : ∀ x ∈ s.coordinates, x.isFinite = true → ReadsBack x)
    (indexed : ∀ w ∈ s.wires, w.start.port.index < WordBound.unsigned64 ∧
      w.finish.port.index < WordBound.unsigned64) :
    read (write s) = .ok s :=
  (decodes_schematic (fun x hx => printed x hx (finite x hx)) indexed).decodeText_pretty

/-- A fragment and a block, each wired to itself. Texts hold quotes, backslashes and control
characters, numbers stand at the limits of their words, and lists are empty or not. -/
def markedSheet : Schematic where
  instances :=
    [⟨"inst_1", "glue", "say \"hi\"\\\n\x01", ⟨-12.25, 0.0⟩, .glue,
      ⟨"glue", "", ⟨-2147483648, 0, 2147483647, 0⟩,
        [⟨"Y", .output, 4294967295, ⟨0, 0⟩, [⟨"Y", ⟨0, 0, 1, 1⟩, ⟨"Arial", 8⟩⟩], []⟩],
        ⟨[⟨⟨0, 0⟩, ⟨16, 0⟩, 1⟩], []⟩, []⟩,
      some ⟨"Y <= '1'; -- naïve ∀ 🙂\t\x7f", [⟨"Y", .output, 1⟩]⟩⟩,
     ⟨"", "2x8mux", "2x8mux_1", ⟨0.0, -12.25⟩, .component,
      ⟨"2x8mux", "0.1", .zero, [], .blank, []⟩, none⟩]
  wires :=
    [⟨"w_1", ⟨⟨"inst_1", 0⟩, ⟨0.0, 0.0⟩⟩, ⟨⟨"inst_1", 18446744073709551615⟩, ⟨0.0, 0.0⟩⟩,
      some [⟨-12.25, -12.25⟩], 4294967295⟩,
     ⟨"w_2", ⟨⟨"", 1⟩, ⟨0.0, 0.0⟩⟩, ⟨⟨"", 2⟩, ⟨0.0, 0.0⟩⟩, none, 0⟩]
  counters := .ofList [("glue", 1), ("2x8mux", 4294967295)]

theorem markedSheet_reads_back :
    (∀ x ∈ markedSheet.coordinates, x.isFinite = true) ∧
      (∀ x ∈ markedSheet.coordinates, x.isFinite = true → ReadsBack x) ∧
      (∀ w ∈ markedSheet.wires, w.start.port.index < WordBound.unsigned64 ∧
        w.finish.port.index < WordBound.unsigned64) ∧
      read (write markedSheet) = .ok markedSheet := by
  have finite : ∀ x ∈ markedSheet.coordinates, x.isFinite = true := by decide +kernel
  have indexed : ∀ w ∈ markedSheet.wires, w.start.port.index < WordBound.unsigned64 ∧
      w.finish.port.index < WordBound.unsigned64 := by decide
  have zero : ReadsBack 0.0 :=
    Json.readsBack_of_fraction (show Json.doubleChars 0.0 = ['0', '.', '0'] by decide +kernel)
      (by decide) rfl (by decide) (by decide +kernel)
  have quarters : ReadsBack (-12.25) :=
    Json.readsBack_of_fraction
      (show Json.doubleChars (-12.25) = ['-', '1', '2', '.', '2', '5'] by decide +kernel)
      (by decide) rfl (by decide) (by decide +kernel)
  have values : ∀ x ∈ markedSheet.coordinates, x = 0.0 ∨ x = -12.25 := by decide +kernel
  have printed : ∀ x ∈ markedSheet.coordinates, x.isFinite = true → ReadsBack x := by
    intro x hx _
    rcases values x hx with rfl | rfl
    · exact zero
    · exact quarters
  exact ⟨finite, printed, indexed,
    written_document_reads_back markedSheet finite printed indexed⟩

end Document

end BlockSchematic
