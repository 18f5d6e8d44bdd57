import BlockSchematic.Proofs.DeclaredSignals
import BlockSchematic.Proofs.DrawnSymbol
import BlockSchematic.Proofs.EditedInstances
import BlockSchematic.Proofs.PinExport

/-!
# Fragments keep in step with their symbols

Wires count the ports of a fragment's symbol, and the export counts the ports of the fragment. The
two lists are in step from the start, since drawing does not reorder ports that are in drawing
order, and they stay in step as long as the instance is kept. So the export replaces the name of a
port by the signal of the port that was drawn for it.
-/

namespace BlockSchematic

open Synthesis

/-- The given ports with the inputs in front, both kinds in the order in which they were given. -/
structure InputsFirst (given ordered : List PortSpec) : Prop where
  perm : ordered.Perm given
  inputs : leftPorts ordered = leftPorts given
  others : rightPorts ordered = rightPorts given
  front : ordered.Pairwise fun p q => q.mode = .input → p.mode = .input

/-- The instance holds the fragment, and its symbol has the fragment's ports in the same order. -/
structure Instance.Aligned (i : Instance) (g : Glue) : Prop where
  role : i.role = .glue
  glue : i.glue = some g
  count : i.symbol.ports.length = g.ports.length
  drawn : ∀ k p spec, i.port? k = some p → g.ports[k]? = some spec → p.interface = spec.interface

/-- The last port of the instance with the name. -/
structure Instance.LastNamed (i : Instance) (name : String) (k : Nat) : Prop where
  here : (i.port? k).map (·.name) = some name
  last : ∀ later, k < later → (i.port? later).map (·.name) ≠ some name

namespace Vhdl

/-- The lines of a fragment with its words replaced. -/
def writtenFragment (signalOf : String → Option String) (code : String) : List String :=
  (Text.lines (substitute signalOf (String.ofList (Text.trimEnd code.toList))).toList).map
    fragmentLine

/-- The export has the fragment with each port's name replaced by the signal of the port that is
drawn for it. -/
def WritesSignals (s : Schematic) (i : Instance) (code : String) : Prop :=
  ∃ signalOf : String → Option String,
    (∀ word signal, signalOf word = some signal ↔
      ∃ k, i.LastNamed word k ∧ signal = (Netlist.build s).signalFor ⟨i.id, k⟩) ∧
    ∀ top, ∃ before after, ofSchematic s top = unlines (before ++
      s!"    -- Glue logic: {i.name}" :: writtenFragment signalOf code ++ after)

end Vhdl

/-! ## The order of ports -/

namespace Synthesis

variable (ports : List PortSpec)

theorem leftPorts_drawnPorts : leftPorts (drawnPorts ports) = leftPorts ports := by
  simp [leftPorts, drawnPorts, rightPorts, List.filter_filter]

theorem rightPorts_drawnPorts : rightPorts (drawnPorts ports) = rightPorts ports := by
  simp [leftPorts, drawnPorts, rightPorts, List.filter_filter]

/-- Ports in drawing order are drawn in that order. -/
theorem drawnPorts_drawnPorts : drawnPorts (drawnPorts ports) = drawnPorts ports := by
  rw [drawnPorts, leftPorts_drawnPorts, rightPorts_drawnPorts, drawnPorts]

theorem inputsFirst_drawnPorts : InputsFirst ports (drawnPorts ports) := by
  have input : ∀ p ∈ leftPorts ports, p.mode = .input := fun p hp => by
    simpa [isLeft] using List.of_mem_filter hp
  have other : ∀ p ∈ rightPorts ports, p.mode ≠ .input := fun p hp => by
    simpa [isLeft] using List.of_mem_filter hp
  refine ⟨List.filter_append_perm isLeft ports, leftPorts_drawnPorts ports,
    rightPorts_drawnPorts ports, List.pairwise_append.2 ⟨?_, ?_, ?_⟩⟩
  · exact List.pairwise_of_forall_mem_list fun p hp _ _ _ => input p hp
  · exact List.pairwise_of_forall_mem_list fun _ _ q hq is => absurd is (other q hq)
  · exact fun p hp _ _ _ => input p hp

end Synthesis

/-! ## Aligned instances -/

variable {i j : Instance} {g : Glue} {s t : Schematic} {id : String}

theorem Instance.Aligned.moved (aligned : i.Aligned g) (moved : i.Moved j) : j.Aligned g := by
  rw [moved]
  exact ⟨aligned.role, aligned.glue, aligned.count, aligned.drawn⟩

theorem Instance.aligned_of_interface (role : i.role = .glue) (glue : i.glue = some g)
    (same : i.symbol.ports.map Port.interface = g.ports.map PortSpec.interface) : i.Aligned g := by
  refine ⟨role, glue, by simpa using congrArg List.length same, fun k p spec hp hspec => ?_⟩
  have here := congrArg (·[k]?) same
  rw [List.getElem?_map, List.getElem?_map, hspec,
    show i.symbol.ports[k]? = some p from hp] at here
  exact Option.some.inj here

theorem Instance.Aligned.name_eq (aligned : i.Aligned g) (k : Nat) :
    (i.port? k).map (·.name) = g.ports[k]?.map (·.name) := by
  have count := aligned.count
  by_cases listed : k < g.ports.length
  · have hspec := List.getElem?_eq_getElem listed
    have hp : i.port? k = some (i.symbol.ports.get ⟨k, count ▸ listed⟩) :=
      List.getElem?_eq_getElem _
    have same := aligned.drawn k _ _ hp hspec
    rw [hp, hspec]
    exact congrArg some (Prod.mk.inj same).1
  · have none : i.port? k = none := List.getElem?_eq_none (by omega)
    rw [none, List.getElem?_eq_none (Nat.le_of_not_lt listed)]
    rfl

/-- Where the two lists are in step, a word is replaced by the signal of the last port of that
name. -/
theorem Instance.Aligned.lookup_replacements_iff (aligned : i.Aligned g) (n : Netlist)
    {word signal : String} : (Vhdl.replacements n i g).lookup word = some signal ↔
      ∃ k, i.LastNamed word k ∧ signal = n.signalFor ⟨i.id, k⟩ := by
  have entry : ∀ k (e : String × String),
      (g.ports.mapIdx fun index p => (p.name, n.signalFor ⟨i.id, index⟩))[k]? = some e ↔
        (i.port? k).map (·.name) = some e.1 ∧ e.2 = n.signalFor ⟨i.id, k⟩ := by
    intro k e
    rw [List.getElem?_mapIdx, aligned.name_eq k]
    cases g.ports[k]? with
    | none => simp
    | some p => simp [Prod.ext_iff, eq_comm]
  rw [Vhdl.replacements, Vhdl.lookup_reverse_eq_some_iff]
  constructor
  · rintro ⟨k, here, last⟩
    obtain ⟨named, value⟩ := (entry k _).1 here
    refine ⟨k, ⟨named, fun later after same => ?_⟩, value⟩
    exact last later (word, n.signalFor ⟨i.id, later⟩) after ((entry later _).2 ⟨same, rfl⟩) rfl
  · rintro ⟨k, named, value⟩
    refine ⟨k, (entry k _).2 ⟨named.here, value⟩, fun later d after listed same => ?_⟩
    exact named.last later after (same ▸ ((entry later d).1 listed).1)

/-! ## The lines of a fragment -/

namespace Vhdl

/-- The lines of a fragment stand together in the export. -/
theorem exists_lines_of_mem_fragments (placed : i ∈ fragments s) (top : String) :
    ∃ before after, ofSchematic s top =
      unlines (before ++ glueLines (.build s) i ++ after) := by
  obtain ⟨front, back, parts⟩ : ∃ front back, recordLines s (sanitize top) =
      front ++ (fragments s).flatMap (glueLines (.build s)) ++ back := ⟨_, _, rfl⟩
  obtain ⟨earlier, later, split⟩ := List.append_of_mem placed
  refine ⟨front ++ earlier.flatMap (glueLines (.build s)),
    later.flatMap (glueLines (.build s)) ++ back, ?_⟩
  rw [ofSchematic_eq_recordLines, parts, split, List.flatMap_append, List.flatMap_cons]
  simp only [List.append_assoc]

theorem glueLines_eq {n : Netlist} (glue : i.glue = some g) :
    glueLines n i = s!"    -- Glue logic: {i.name}" ::
      writtenFragment (fun word => (replacements n i g).lookup word) g.code ++ [""] := by
  rw [glueLines, glue]
  rfl

/-- The export of an aligned instance is right. -/
theorem writesSignals_of_aligned (aligned : i.Aligned g) (placed : i ∈ s.instances) :
    WritesSignals s i g.code := by
  have listed : i ∈ fragments s := List.mem_filter.2 ⟨placed, decide_eq_true aligned.role⟩
  refine ⟨fun word => (replacements (.build s) i g).lookup word,
    fun word signal => aligned.lookup_replacements_iff _, fun top => ?_⟩
  obtain ⟨before, after, text⟩ := exists_lines_of_mem_fragments listed top
  refine ⟨before, "" :: after, ?_⟩
  rw [text, glueLines_eq aligned.glue]
  simp only [List.append_assoc, List.cons_append, List.nil_append]

end Vhdl

/-- An instance that is kept stays aligned, and so its code is written with the right signals. -/
theorem Instance.Aligned.kept (aligned : i.Aligned g) (here : s.instance? id = some i)
    (run : KeptThrough id s t) : ∃ j, t.instance? id = some j ∧ i.Moved j ∧ j.Aligned g ∧
      Vhdl.WritesSignals t j g.code := by
  obtain ⟨j, found, moved⟩ := run.instance? here
  have stays := aligned.moved moved
  exact ⟨j, found, moved, stays,
    Vhdl.writesSignals_of_aligned stays (List.mem_of_find?_eq_some found)⟩

/-! ## Placed fragments -/

namespace Schematic

/-- The instance that is placed for a fragment under an id. -/
def fragmentOf (s : Schematic) (name code : String) (ports : List PortSpec) (position : Position)
    (id : String) : Instance :=
  let symbol := Symbol.ofInterface name (drawnPorts ports)
  { id
    template := symbol.name
    name := s!"{symbol.name}_{(s.countPlaced symbol.name).toNat}"
    position
    role := .glue
    symbol
    glue := some ⟨code, drawnPorts ports⟩ }

variable (s : Schematic) (name code : String) (ports : List PortSpec) (position : Position)

theorem addGlue_eq {src : IdSource} {st st' : src.State} {id : String} (drawn : s.fresh src "inst" st = (id, st')) :
    (s.addGlue src name code ports position st).1 =
      (s.withInstance (s.fragmentOf name code ports position id), id) := by
  simp only [addGlue, place, drawn]
  rfl

theorem aligned_fragmentOf (id : String) :
    (s.fragmentOf name code ports position id).Aligned ⟨code, drawnPorts ports⟩ := by
  refine Instance.aligned_of_interface rfl rfl ?_
  rw [fragmentOf, map_interface_ports, drawnPorts_drawnPorts]

/-- A new fragment has its ports with the inputs in front, and its symbol has them in the same
order. This remains so as long as the instance is kept, so the export gives the code with each
port's name replaced by the signal of the port that is drawn for it. -/
theorem fragment_stays_aligned (src : IdSource) (st : src.State) :
    let made := (s.addGlue src name code ports position st).1
    ∃ i g, made.1.instance? made.2 = some i ∧ g.code = code ∧ InputsFirst ports g.ports ∧
      i.Aligned g ∧
      ∀ t, KeptThrough made.2 made.1 t → ∃ j, t.instance? made.2 = some j ∧ i.Moved j ∧
        j.Aligned g ∧ Vhdl.WritesSignals t j code := by
  intro made
  have aligned := s.aligned_fragmentOf name code ports position made.2
  have here : made.1.instance? made.2 = some (s.fragmentOf name code ports position made.2) := by
    rw [show made = _ from s.addGlue_eq name code ports position rfl]
    exact instance?_withInstance (src.fresh_notMem "inst" s.ids st)
  exact ⟨_, ⟨code, drawnPorts ports⟩, here, rfl, inputsFirst_drawnPorts ports, aligned,
    fun t run => aligned.kept here run⟩

def registerPorts : List PortSpec := [⟨"q", .output, 1⟩, ⟨"d", .input, 1⟩]

/-- A fragment whose output is given before its input. -/
def register : Schematic :=
  empty.withInstance (empty.fragmentOf "REG" "q <= d;" registerPorts .origin "inst_1")

/-- The output is drawn as the second port, so it is the second port that its pin is for. -/
theorem register_stays_aligned : ∃ t j g, KeptThrough "inst_1" register t ∧
    t.instance? "inst_1" = some j ∧ InputsFirst registerPorts g.ports ∧ j.Aligned g ∧
    Vhdl.WritesSignals t j "q <= d;" ∧ (Netlist.build t).signalFor ⟨"inst_1", 1⟩ = "q_pin" := by
  have placed : (empty.addGlue (.numbered "") "REG" "q <= d;" registerPorts .origin (0 : Nat)).1 =
      (register, "inst_1") :=
    empty.addGlue_eq _ _ _ _ (IdSource.fresh_numbered (by decide))
  have stays := fragment_stays_aligned empty "REG" "q <= d;" registerPorts .origin
    (.numbered "") (0 : Nat)
  simp only [placed] at stays
  obtain ⟨i, g, -, -, first, -, kept⟩ := stays
  have output : (Role.ofTemplate Symbol.pinOutput.name).isPin = true := by decide
  have exported := Edit.apply_exportToPin_numbered (s := register) 1 (p := ⟨"inst_1", 1⟩) output
    rfl rfl (by decide) (by decide) (by decide)
  have begun : KeptThrough "inst_1" register register := .start
  have run := begun.edit _ exported (by decide)
  obtain ⟨j, found, -, aligned, writes⟩ := kept _ run
  exact ⟨_, j, g, run, found, first, aligned, writes, by decide⟩

end Schematic

end BlockSchematic
