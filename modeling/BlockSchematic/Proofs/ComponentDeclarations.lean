import BlockSchematic.Proofs.ExportedEntity
import BlockSchematic.Proofs.Nets
import BlockSchematic.Proofs.PinExport
import Mathlib.Data.List.Find

/-!
# Component declarations and instantiations

The declarations and the instantiations of an export are read as records. A template is declared
once, with the ports of its first instance. Every instance has a copy of its symbol, and symbols
of one name may differ, so an instantiation fits the declaration exactly when its own ports are
those of the first instance.
-/

namespace BlockSchematic

theorem filter_eq_singleton {α : Type} {l : List α} {p : α → Bool} {a : α} (distinct : l.Nodup)
    (mem : a ∈ l) (holds : p a = true) (only : ∀ b ∈ l, p b = true → b = a) :
    l.filter p = [a] := by
  apply List.perm_singleton.1
  apply (List.perm_ext_iff_of_nodup (distinct.filter p) (List.nodup_singleton a)).2
  intro b
  rw [List.mem_filter, List.mem_singleton]
  constructor
  · rintro ⟨listed, hb⟩
    exact only b listed hb
  · rintro rfl
    exact ⟨mem, holds⟩

namespace Vhdl

structure DeclaredPort where
  name : String
  mode : String
  type : String
  deriving DecidableEq

def DeclaredPort.entry (p : DeclaredPort) : String := s!"{p.name} : {p.mode} {p.type}"

/-- How many lines the type stands for. -/
def DeclaredPort.width (p : DeclaredPort) : UInt32 := Entity.typeWidth p.type.toList

structure Declaration where
  name : String
  ports : List DeclaredPort
  deriving DecidableEq

def Declaration.lines (d : Declaration) : List String :=
  s!"    component {d.name}" ::
    portClause "        " (d.ports.map (·.entry)) ++ ["    end component;", ""]

structure Association where
  formal : String
  actual : String
  deriving DecidableEq

def Association.text (a : Association) : String := s!"{a.formal} => {a.actual}"

structure Instantiation where
  label : String
  component : String
  portMap : List Association
  deriving DecidableEq

def Instantiation.lines (u : Instantiation) : List String :=
  let head := s!"    {u.label} : {u.component}"
  if u.portMap.isEmpty then [head ++ ";", ""]
  else
    head :: "        port map (" ::
      (separated "," (u.portMap.map (·.text))).map ("            " ++ ·) ++ ["        );", ""]

def components (s : Schematic) : List Instance := s.instances.filter (·.role = .component)

def declaration (i : Instance) : Declaration where
  name := sanitize i.template
  ports := i.symbol.ports.map fun p =>
    ⟨sanitize p.name, directionMode p.direction, typeName p.width⟩

def instantiation (n : Netlist) (i : Instance) : Instantiation where
  label := sanitize i.name
  component := sanitize i.template
  portMap := i.symbol.ports.mapIdx fun index p => ⟨sanitize p.name, n.signalFor ⟨i.id, index⟩⟩

def declarations (s : Schematic) : List Declaration := (templates s).map declaration

def instantiations (s : Schematic) : List Instantiation :=
  (components s).map (instantiation (.build s))

theorem lines_declaration (i : Instance) : (declaration i).lines = componentLines i := by
  simp only [Declaration.lines, declaration, componentLines, List.map_map]
  rfl

theorem lines_instantiation (n : Netlist) (i : Instance) :
    (instantiation n i).lines = instanceLines n i := by
  have texts : (instantiation n i).portMap.map (·.text) = actuals n i := by
    apply List.ext_getElem?
    intro index
    simp only [instantiation, actuals, List.getElem?_map, List.getElem?_mapIdx, Option.map_map]
    rfl
  have none : (instantiation n i).portMap.isEmpty = i.symbol.ports.isEmpty := by
    rw [Bool.eq_iff_iff, List.isEmpty_iff, List.isEmpty_iff]
    simp [instantiation]
  rw [Instantiation.lines, instanceLines, texts, none]
  rfl

/-- The export up to the component declarations. -/
def linesBeforeDeclarations (s : Schematic) (top : String) : List String :=
  headLines ++ entityLines s top ++
    ["", s!"architecture Structural of {top} is", "", "    -- Component declarations"]

/-- The export between the component declarations and the instantiations. -/
def signalLines (s : Schematic) : List String :=
  "    -- Signal declarations" ::
    ((Netlist.build s).nets.filter (·.isSignal)).map signalLine ++ ["", "begin", ""]

def linesAfterInstantiations (s : Schematic) : List String :=
  (s.instances.filter (·.role = .glue)).flatMap (glueLines (.build s)) ++ ["end Structural;"]

/-- The export is made of the two kinds of records and what stands around them. -/
theorem ofSchematic_eq_records (s : Schematic) (top : String) :
    ofSchematic s top = unlines (linesBeforeDeclarations s (sanitize top) ++
      (declarations s).flatMap (·.lines) ++ signalLines s ++
        (instantiations s).flatMap (·.lines) ++ linesAfterInstantiations s) := by
  have declared : (declarations s).flatMap (·.lines) = (templates s).flatMap componentLines := by
    simp only [declarations, List.flatMap_map, lines_declaration]
  have placed : (instantiations s).flatMap (·.lines) =
      (components s).flatMap (instanceLines (.build s)) := by
    simp only [instantiations, List.flatMap_map, lines_instantiation]
  rw [declared, placed, ofSchematic, linesBeforeDeclarations, signalLines,
    linesAfterInstantiations, architectureLines, components]
  simp only [List.append_assoc, List.cons_append, List.nil_append]

/-- A template in use is shown by its first component instance. -/
theorem exists_firstOfTemplate {s : Schematic} {i : Instance} (h : i ∈ components s) :
    ∃ first ∈ templates s, (components s).find? (·.template = i.template) = some first ∧
      first.template = i.template := by
  obtain ⟨first, kept, same⟩ : ∃ first ∈ templates s, first.template = i.template :=
    exists_mem_firstOfEach h List.not_mem_nil
  refine ⟨first, kept, ?_, same⟩
  have found := find?_of_mem_firstOfEach kept
  simp only [same] at found
  exact found

/-- Each template in use is declared once. -/
theorem filter_templates {s : Schematic} {first : Instance} (kept : first ∈ templates s) :
    (templates s).filter (·.template = first.template) = [first] := by
  have keys : ((templates s).map (·.template)).Nodup := (keys_firstOfEach [] (components s)).1
  apply filter_eq_singleton (List.Nodup.of_map _ keys) kept (decide_eq_true rfl)
  intro other listed same
  exact List.inj_on_of_nodup_map keys listed kept (of_decide_eq_true same)

/-- How wide a port is declared: one line for a width of nothing. -/
def declaredWidth (p : Port) : UInt32 := if p.width = 0 then 1 else p.width

/-- The instantiation of an instance names a component that is declared once, its port map has the
declared names in order, and each is declared as wide as the instance's own port. -/
structure Matches (s : Schematic) (i : Instance) (d : Declaration) : Prop where
  declared : (declarations s).filter (·.name = (instantiation (.build s) i).component) = [d]
  formals : (instantiation (.build s) i).portMap.map (·.formal) = d.ports.map (·.name)
  widths : d.ports.map (·.width) = i.symbol.ports.map declaredWidth

/-- The ports as a declaration shows them. -/
def shownPorts (i : Instance) : List (String × UInt32) :=
  i.symbol.ports.map fun p => (sanitize p.name, declaredWidth p)

theorem shownPorts_eq_iff {i j : Instance} : shownPorts i = shownPorts j ↔
    i.symbol.ports.map (fun p => sanitize p.name) = j.symbol.ports.map (fun p => sanitize p.name) ∧
      i.symbol.ports.map declaredWidth = j.symbol.ports.map declaredWidth := by
  constructor
  · intro same
    have names := congrArg (List.map Prod.fst) same
    have widths := congrArg (List.map Prod.snd) same
    rw [shownPorts, shownPorts, List.map_map, List.map_map] at names widths
    exact ⟨names, widths⟩
  · rintro ⟨names, widths⟩
    rw [shownPorts, shownPorts, ← List.zip_map', ← List.zip_map', names, widths]

theorem formals_instantiation (n : Netlist) (i : Instance) :
    (instantiation n i).portMap.map (·.formal) =
      i.symbol.ports.map (fun p => sanitize p.name) := by
  apply List.ext_getElem?
  intro index
  simp only [instantiation, List.getElem?_map, List.getElem?_mapIdx, Option.map_map]
  rfl

theorem widths_declaration (i : Instance) :
    (declaration i).ports.map (·.width) = i.symbol.ports.map declaredWidth := by
  simp only [declaration, List.map_map]
  apply List.map_congr_left
  intro p _
  exact typeWidth_typeName p.width

/-- The printed name belongs to no other template in use. -/
def PrintsApart (s : Schematic) (i : Instance) : Prop :=
  ∀ j ∈ components s, sanitize j.template = sanitize i.template → j.template = i.template

theorem filter_declarations {s : Schematic} {i first : Instance} (apart : PrintsApart s i)
    (kept : first ∈ templates s) (same : first.template = i.template) :
    (declarations s).filter (·.name = (instantiation (.build s) i).component) =
      [declaration first] := by
  have printed : ∀ j ∈ templates s,
      ((declaration j).name = (instantiation (.build s) i).component ↔
        j.template = first.template) := by
    intro j listed
    constructor
    · intro alike
      exact (apart j (mem_of_mem_firstOfEach listed) alike).trans same.symm
    · intro equal
      exact congrArg sanitize (equal.trans same)
  rw [declarations, List.filter_map, ← List.map_singleton, ← filter_templates kept]
  apply congrArg
  apply List.filter_congr
  intro j listed
  rw [Function.comp_apply, decide_eq_decide]
  exact printed j listed

theorem matches_iff {s : Schematic} {i first : Instance} (apart : PrintsApart s i)
    (kept : first ∈ templates s) (same : first.template = i.template) :
    Matches s i (declaration first) ↔ shownPorts first = shownPorts i := by
  have names : (declaration first).ports.map (·.name) =
      first.symbol.ports.map (fun p => sanitize p.name) := by
    simp only [declaration, List.map_map]
    rfl
  rw [shownPorts_eq_iff, ← names, ← widths_declaration first, ← formals_instantiation (.build s) i]
  constructor
  · intro fits
    exact ⟨fits.formals.symm, fits.widths⟩
  · rintro ⟨formals, widths⟩
    exact ⟨filter_declarations apart kept same, formals.symm, widths⟩

end Vhdl

/-- A component bears the name of its symbol as its template. -/
def Schematic.TemplatesNamed (s : Schematic) : Prop :=
  ∀ i ∈ s.instances, i.role = .component → i.template = i.symbol.name

theorem Schematic.TemplatesNamed.change {s t : Schematic} (h : Change s t)
    (named : s.TemplatesNamed) : t.TemplatesNamed := by
  cases h with
  | place i _ placeable =>
    intro j listed component
    rcases List.mem_append.1 listed with old | new
    · exact named j old component
    · obtain rfl := List.mem_singleton.1 new
      cases placeable with
      | symbol => rfl
      | glue => cases component
      | pin => rfl
  | dropInstance id =>
    intro i listed
    exact named i (List.mem_of_mem_filter listed)
  | dropWires => exact named
  | wire => exact named
  | rearrange instances route moved =>
    intro j listed component
    obtain ⟨i, before, here⟩ := exists_of_mem_moved moved listed
    rw [here] at component ⊢
    exact named i before component

theorem Reachable.templatesNamed {s : Schematic} (h : Reachable s) : s.TemplatesNamed :=
  h.induction (P := Schematic.TemplatesNamed) nofun Schematic.TemplatesNamed.change

open Vhdl

/-- In a schematic made by edits every template in use is declared once, with the ports of the
first instance whose symbol has its name. Where no other template is printed alike, an
instantiation matches a declaration if and only if its instance shows the ports of that first
one. -/
theorem instantiation_matches_iff {s : Schematic} (reached : Reachable s) :
    (∀ top, ofSchematic s top = unlines (linesBeforeDeclarations s (sanitize top) ++
      (declarations s).flatMap (·.lines) ++ signalLines s ++
        (instantiations s).flatMap (·.lines) ++ linesAfterInstantiations s)) ∧
    ∀ i ∈ components s, ∃ first,
      (components s).find? (·.symbol.name = i.symbol.name) = some first ∧
      (templates s).filter (·.template = i.template) = [first] ∧
      (declaration first).name = (instantiation (.build s) i).component ∧
      (PrintsApart s i → ((∃ d, Matches s i d) ↔ shownPorts first = shownPorts i)) := by
  refine ⟨ofSchematic_eq_records s, ?_⟩
  intro i listed
  have named : ∀ j ∈ components s, j.template = j.symbol.name := by
    intro j hj
    obtain ⟨present, component⟩ := List.mem_filter.1 hj
    exact reached.templatesNamed j present (of_decide_eq_true component)
  obtain ⟨first, kept, found, same⟩ := exists_firstOfTemplate listed
  refine ⟨first, ?_, same ▸ filter_templates kept, congrArg sanitize same, ?_⟩
  · rw [← found]
    apply List.find?_congr
    intro j hj
    rw [← named j hj, ← named i listed]
  · intro apart
    rw [← matches_iff apart kept same]
    constructor
    · rintro ⟨d, fits⟩
      have only := fits.declared.symm.trans (filter_declarations apart kept same)
      exact List.singleton_inj.1 only ▸ fits
    · intro fits
      exact ⟨_, fits⟩

def portBlock (port : String) : Symbol :=
  ⟨"blk", "1.0", .zero, [⟨port, .input, 1, .origin, [], []⟩], .blank, []⟩

def placedBlock (id name port : String) : Instance :=
  ⟨id, "blk", name, .origin, .component, portBlock port, none⟩

def firstBlock : Instance := placedBlock "inst_1" "blk_1" "a"

def secondBlock : Instance := placedBlock "inst_2" "blk_2" "a"

def thirdBlock : Instance := placedBlock "inst_3" "blk_3" "b"

/-- Three blocks of one name, the last with a port of another name. -/
def threeBlocks : Schematic :=
  ((Schematic.empty.withInstance firstBlock).withInstance secondBlock).withInstance thirdBlock

theorem reachable_threeBlocks : Reachable threeBlocks := by
  have first : Reachable (Schematic.empty.withInstance firstBlock) :=
    Reachable.empty.withSymbol 0 firstBlock.symbol .origin (by decide)
  have second : Reachable ((Schematic.empty.withInstance firstBlock).withInstance secondBlock) :=
    first.withSymbol 1 secondBlock.symbol .origin (by decide)
  exact second.withSymbol 2 thirdBlock.symbol .origin (by decide)

theorem components_threeBlocks :
    components threeBlocks = [firstBlock, secondBlock, thirdBlock] :=
  rfl

theorem printsApart_threeBlocks (i : Instance) (h : i ∈ components threeBlocks) :
    PrintsApart threeBlocks i := by
  have template : ∀ j ∈ components threeBlocks, j.template = "blk" := by
    simp [components_threeBlocks, firstBlock, secondBlock, thirdBlock, placedBlock]
  intro j listed _
  exact (template j listed).trans (template i h).symm

/-- The second block matches the declaration that the first one makes. -/
theorem second_block_matches : ∃ d, Matches threeBlocks secondBlock d := by
  have listed : secondBlock ∈ components threeBlocks :=
    List.mem_cons_of_mem _ List.mem_cons_self
  obtain ⟨first, found, -, -, fits⟩ :=
    (instantiation_matches_iff reachable_threeBlocks).2 _ listed
  obtain rfl : firstBlock = first := Option.some.inj found
  exact (fits (printsApart_threeBlocks _ listed)).2 (by decide)

/-- The third block is instantiated with a port that is not declared. -/
theorem third_block_mismatched : ¬ ∀ {s : Schematic}, Reachable s → ∀ i ∈ components s,
    ∃ d, Matches s i d := by
  intro all
  have listed : thirdBlock ∈ components threeBlocks :=
    List.mem_cons_of_mem _ (List.mem_cons_of_mem _ List.mem_cons_self)
  obtain ⟨d, fits⟩ := all reachable_threeBlocks _ listed
  have declared : declarations threeBlocks = [⟨"blk", [⟨"a", "in", "std_logic"⟩]⟩] := by decide
  have only : d ∈ declarations threeBlocks :=
    List.mem_of_mem_filter (fits.declared ▸ List.mem_singleton_self d)
  rw [declared, List.mem_singleton] at only
  have formals := fits.formals
  rw [only, formals_instantiation] at formals
  exact absurd formals (by decide)

end BlockSchematic
