import BlockSchematic.Proofs.ComponentDeclarations
import BlockSchematic.Proofs.FirstWires

/-!
# Signals that are used are declared

The signal declarations and the entity ports of an export are read as records. Whatever a port map
or a fragment is connected to is left open, declared once as a signal or listed as a port of the
entity, whether or not the schematic is well formed: wires may dangle, and pins may share a net or
have no port.
-/

namespace BlockSchematic.Vhdl

structure SignalDeclaration where
  name : String
  type : String
  deriving DecidableEq

def SignalDeclaration.line (d : SignalDeclaration) : String := s!"    signal {d.name} : {d.type};"

def signalDeclarations (s : Schematic) : List SignalDeclaration :=
  ((Netlist.build s).nets.filter (·.isSignal)).map fun n => ⟨n.name, typeName n.width⟩

def signalNames (s : Schematic) : List String := (signalDeclarations s).map (·.name)

def entityPorts (s : Schematic) : List DeclaredPort :=
  (s.instances.filter (·.isPin)).map fun i =>
    ⟨sanitize i.name, pinMode i.role, typeName (pinWidth i)⟩

def fragments (s : Schematic) : List Instance := s.instances.filter (·.role = .glue)

/-- The export is made of four kinds of records and the fragments. -/
def recordLines (s : Schematic) (top : String) : List String :=
  headLines ++
    (s!"entity {top} is" :: portClause "    " ((entityPorts s).map (·.entry)) ++
      [s!"end {top};"]) ++
    ["", s!"architecture Structural of {top} is", "", "    -- Component declarations"] ++
    (declarations s).flatMap (·.lines) ++
    "    -- Signal declarations" :: (signalDeclarations s).map (·.line) ++
    ["", "begin", ""] ++
    (instantiations s).flatMap (·.lines) ++
    (fragments s).flatMap (glueLines (.build s)) ++
    ["end Structural;"]

/-- What a port may be connected to. -/
inductive Declared (s : Schematic) (name : String) : Prop where
  | unconnected (left : name = Netlist.unconnected) : Declared s name
  | signal (once : (signalNames s).count name = 1) : Declared s name
  | entityPort (listed : name ∈ (entityPorts s).map (·.name)) : Declared s name

/-- The export connects the port to the signal: in the port map of its component, or by handing
the signal to its fragment for the port's name. Of several ports with one name a fragment knows
the last. -/
inductive Connects (s : Schematic) : PortRef → String → Prop where
  | association {i : Instance} {k : Nat} {a : Association} (placed : i ∈ components s)
      (here : (instantiation (.build s) i).portMap[k]? = some a) : Connects s ⟨i.id, k⟩ a.actual
  | replacement {i : Instance} {g : Glue} {k : Nat} {p : PortSpec} {signal : String}
      (placed : i ∈ fragments s) (fragment : i.glue = some g) (port : g.ports[k]? = some p)
      (last : ∀ later q, k < later → g.ports[later]? = some q → q.name ≠ p.name)
      (handed : (replacements (.build s) i g).lookup p.name = some signal) :
      Connects s ⟨i.id, k⟩ signal

variable {s : Schematic}

theorem ofSchematic_eq_recordLines (s : Schematic) (top : String) :
    ofSchematic s top = unlines (recordLines s (sanitize top)) := by
  have entity : (entityPorts s).map (·.entry) = (s.instances.filter (·.isPin)).map pinEntry := by
    rw [entityPorts, List.map_map]
    rfl
  have signals : (signalDeclarations s).map (·.line) =
      ((Netlist.build s).nets.filter (·.isSignal)).map signalLine := by
    rw [signalDeclarations, List.map_map]
    rfl
  rw [ofSchematic_eq_records, recordLines, entity, signals, linesBeforeDeclarations, entityLines,
    signalLines, linesAfterInstantiations, fragments]
  simp only [List.append_assoc, List.cons_append, List.nil_append]

/-- From behind, the first entry of a key is its last one. -/
theorem lookup_reverse_eq_some_iff {α β : Type} [BEq α] [LawfulBEq α] {entries : List (α × β)}
    {key : α} {value : β} : entries.reverse.lookup key = some value ↔
      ∃ k, entries[k]? = some (key, value) ∧
        ∀ (later : Nat) (d : α × β), k < later → entries[later]? = some d → d.1 ≠ key := by
  constructor
  · intro found
    obtain ⟨behind, before, split, others⟩ := List.lookup_eq_some_iff.1 found
    obtain rfl : entries = before.reverse ++ (key, value) :: behind.reverse := by
      rw [← List.reverse_reverse entries, split]
      simp
    refine ⟨before.reverse.length, by simp, fun later d after here same => ?_⟩
    obtain ⟨n, rfl⟩ := Nat.exists_eq_add_of_lt after
    rw [List.getElem?_append_right (by omega), Nat.add_assoc, Nat.add_sub_cancel_left,
      List.getElem?_cons_succ] at here
    have listed : d ∈ behind := List.mem_reverse.1 (List.mem_of_getElem? here)
    simpa [same] using others d listed
  · rintro ⟨k, here, last⟩
    obtain ⟨listed, entry⟩ := List.getElem?_eq_some_iff.1 here
    have split : entries.take k ++ (key, value) :: entries.drop (k + 1) = entries := by
      rw [← entry, List.getElem_cons_drop, List.take_append_drop]
    refine List.lookup_eq_some_iff.2
      ⟨(entries.drop (k + 1)).reverse, (entries.take k).reverse, ?_, fun d behind => ?_⟩
    · have back := congrArg List.reverse split
      rw [List.reverse_append, List.reverse_cons, List.append_assoc, List.singleton_append] at back
      exact back.symm
    · obtain ⟨n, hn⟩ := List.getElem?_of_mem (List.mem_reverse.1 behind)
      rw [List.getElem?_drop] at hn
      simpa using (last (k + 1 + n) d (by omega) hn).symm

theorem Connects.eq_signalFor {p : PortRef} {signal : String} (h : Connects s p signal) :
    signal = (Netlist.build s).signalFor p := by
  cases h with
  | @association i k a placed here =>
    rw [instantiation, List.getElem?_mapIdx] at here
    obtain ⟨port, -, rfl⟩ := Option.map_eq_some_iff.1 here
    rfl
  | @replacement i g k p signal placed fragment port last handed =>
    have entry : ∀ index, (g.ports.mapIdx fun index q =>
        (q.name, (Netlist.build s).signalFor ⟨i.id, index⟩))[index]? =
          g.ports[index]?.map fun q => (q.name, (Netlist.build s).signalFor ⟨i.id, index⟩) :=
      fun index => List.getElem?_mapIdx
    have here := entry k
    rw [port, Option.map_some] at here
    have known := lookup_reverse_eq_some_iff.2 ⟨k, here, fun later d after hd => by
      rw [entry later] at hd
      obtain ⟨q, hq, rfl⟩ := Option.map_eq_some_iff.1 hd
      exact last later q after hq⟩
    exact Option.some.inj (handed.symm.trans known)

/-- The name of a net is declared: as a signal if it has no pin, else in the entity. -/
theorem declared_name {n : Net} (listed : n ∈ (Netlist.build s).nets) : Declared s n.name := by
  rw [Schematic.nets_build] at listed
  obtain ⟨e, he, rfl⟩ := List.mem_map.1 listed
  rcases s.netOf_cases e with ⟨pin, present, isPin, -, name⟩ | ⟨free, -⟩
  · refine .entityPort ?_
    rw [name, entityPorts, List.map_map]
    exact List.mem_map_of_mem (List.mem_filter.2 ⟨present, isPin⟩)
  · refine .signal ?_
    have signal : s.netOf e ∈ (Netlist.build s).nets.filter (·.isSignal) := by
      rw [Schematic.nets_build]
      exact List.mem_filter.2 ⟨List.mem_map_of_mem he, by rw [Net.isSignal, free]; rfl⟩
    have names : signalNames s = ((Netlist.build s).nets.filter (·.isSignal)).map (·.name) := by
      rw [signalNames, signalDeclarations, List.map_map]
      rfl
    rw [names]
    exact List.count_eq_one_of_mem s.nodup_signalNames (List.mem_map_of_mem signal)

theorem declared_signalFor (s : Schematic) (p : PortRef) :
    Declared s ((Netlist.build s).signalFor p) := by
  rw [Netlist.signalFor]
  cases found : (Netlist.build s).netOf? p with
  | none => exact .unconnected rfl
  | some n => exact declared_name (List.mem_of_find?_eq_some found)

theorem signalFor_of_not_wired {p : PortRef} (unwired : ¬ s.Wired p) :
    (Netlist.build s).signalFor p = Netlist.unconnected := by
  have none : (Netlist.build s).netOf? p = none := by
    rw [← Option.not_isSome_iff_eq_none, Schematic.isSome_netOf?]
    exact unwired
  rw [Netlist.signalFor, none]
  rfl

theorem signalFor_of_linked {p q : PortRef} (linked : s.Linked p q) :
    (Netlist.build s).signalFor p = (Netlist.build s).signalFor q := by
  by_cases wired : s.Wired p
  · obtain ⟨n, hp, hq⟩ := Schematic.sameNet_iff.2 ⟨wired, linked⟩
    rw [Netlist.signalFor, Netlist.signalFor, hp, hq]
  · rw [signalFor_of_not_wired wired,
      signalFor_of_not_wired fun other => wired (linked.wired_iff.2 other)]

/-- A signal is declared for a net only if a wire leads to it and none of its ports is a pin's. -/
theorem exists_net_of_mem_signalDeclarations {d : SignalDeclaration}
    (listed : d ∈ signalDeclarations s) :
    ∃ n ∈ (Netlist.build s).nets, n.name = d.name ∧ (∃ w ∈ s.wires, n.holds w = true) ∧
      ∀ i ∈ s.instances, ¬ n.HasPin i := by
  obtain ⟨n, hn, rfl⟩ := List.mem_map.1 listed
  obtain ⟨built, free⟩ := List.mem_filter.1 hn
  refine ⟨n, built, rfl, ?_⟩
  rw [Schematic.nets_build] at built
  obtain ⟨e, he, rfl⟩ := List.mem_map.1 built
  constructor
  · obtain ⟨w, hw, here, -⟩ := Schematic.wire_of_mem_netEntries he
    have drawn : w ∈ s.wires := List.mem_of_getElem? hw
    exact ⟨w, drawn, (Schematic.holds_netOf_iff drawn).2 here.symm⟩
  · cases Schematic.named_netOf he with
    | pin first _ _ _ bound =>
      rw [Net.isSignal, bound] at free
      cases free
    | number pinless => exact pinless

/-- In the export of any schematic each port map and each fragment uses only what is declared: what
stands for no connection, a signal that is declared once, or a port of the entity. A port without
a wire is left open, linked ports are connected to one signal, and signals are declared only for
nets that a wire leads to and that have no pin. -/
theorem used_signals_are_declared (s : Schematic) :
    (∀ top, ofSchematic s top = unlines (recordLines s (sanitize top))) ∧
    (∀ u ∈ instantiations s, ∀ a ∈ u.portMap, Declared s a.actual) ∧
    (∀ i ∈ fragments s, ∀ g, i.glue = some g → ∀ word signal,
      (replacements (.build s) i g).lookup word = some signal → Declared s signal) ∧
    (∀ p signal, Connects s p signal → ¬ s.Wired p → signal = "open") ∧
    (∀ p q signal other, Connects s p signal → Connects s q other → s.Linked p q →
      signal = other) ∧
    ∀ d ∈ signalDeclarations s, ∃ n ∈ (Netlist.build s).nets, n.name = d.name ∧
      (∃ w ∈ s.wires, n.holds w = true) ∧ ∀ i ∈ s.instances, ¬ n.HasPin i := by
  refine ⟨ofSchematic_eq_recordLines s, fun u hu a ha => ?_, fun i _ g _ word signal handed => ?_,
    fun p signal connects unwired => ?_, fun p q signal other hp hq linked => ?_,
    fun d => exists_net_of_mem_signalDeclarations⟩
  · obtain ⟨i, -, rfl⟩ := List.mem_map.1 hu
    obtain ⟨k, hk, rfl⟩ := List.mem_mapIdx.1 ha
    exact declared_signalFor s ⟨i.id, k⟩
  · obtain ⟨before, after, split, -⟩ := List.lookup_eq_some_iff.1 handed
    have listed : (word, signal) ∈ replacements (.build s) i g :=
      split ▸ List.mem_append_right _ List.mem_cons_self
    obtain ⟨k, hk, same⟩ := List.mem_mapIdx.1 (List.mem_reverse.1 listed)
    rw [← (Prod.mk.inj same).2]
    exact declared_signalFor s ⟨i.id, k⟩
  · rw [connects.eq_signalFor, signalFor_of_not_wired unwired]
    rfl
  · rw [hp.eq_signalFor, hq.eq_signalFor, signalFor_of_linked linked]

end BlockSchematic.Vhdl
