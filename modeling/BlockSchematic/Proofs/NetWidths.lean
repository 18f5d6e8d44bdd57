import BlockSchematic.Proofs.PinNets
import BlockSchematic.Vhdl.Export

/-!
# The widths of nets

The rules compare the widths of two ports when a wire is drawn, and a net takes its width from its
first wire. Along a chain of wires the ports are equally wide, so where the first wire is as wide
as the port it starts at, the whole net is.
-/

namespace BlockSchematic

open Schematic Vhdl

namespace Schematic

def portWidth? (s : Schematic) (p : PortRef) : Option UInt32 := (s.port? p).map (·.2.width)

/-- Ids are distinct, the rules accept the wires, and these are as wide as where they start. -/
structure WidthsKept (s : Schematic) : Prop where
  ids : (s.instances.map (·.id)).Nodup
  legal : ∀ w ∈ s.wires, s.check w.start.port w.finish.port = .ok ()
  stored : ∀ w ∈ s.wires, s.portWidth? w.start.port = some w.width

variable {s : Schematic}

theorem WellFormed.widthsKept (hs : s.WellFormed) : s.WidthsKept where
  ids := hs.instanceIds
  legal w hw := (hs.wires w hw).legal
  stored := by
    intro w hw
    obtain ⟨i, port, found, width, -⟩ := (hs.wires w hw).start
    rw [portWidth?, found, Option.map_some, width]

theorem portWidth?_of_mem (ids : (s.instances.map (·.id)).Nodup) {i : Instance}
    (present : i ∈ s.instances) {k : Nat} {port : Port} (hport : i.port? k = some port) :
    s.portWidth? ⟨i.id, k⟩ = some port.width := by
  have found : s.port? ⟨i.id, k⟩ = some (i, port) :=
    port?_eq_some_iff.2 ⟨instance?_of_mem ids present, hport⟩
  rw [portWidth?, found, Option.map_some]

theorem portWidth?_of_check {p q : PortRef} (legal : s.check p q = .ok ()) :
    s.portWidth? p = s.portWidth? q := by
  obtain ⟨-, i, j, source, target, hp, hq, fits⟩ := check_eq_ok_iff.1 legal
  rw [portWidth?, portWidth?, hp, hq, Option.map_some, Option.map_some, fits.width]

/-- Ports that a chain of wires links are equally wide. -/
theorem Linked.portWidth?_eq (legal : ∀ w ∈ s.wires, s.check w.start.port w.finish.port = .ok ())
    {p q : PortRef} (h : s.Linked p q) : s.portWidth? p = s.portWidth? q := by
  induction h with
  | rel p q h =>
    obtain ⟨w, hw, joins⟩ := h
    have same := portWidth?_of_check (legal w hw)
    simp only [Wire.joins, Bool.or_eq_true, Bool.and_eq_true, beq_iff_eq] at joins
    rcases joins with ⟨start, finish⟩ | ⟨start, finish⟩
    · rwa [start, finish] at same
    · rw [start, finish] at same
      exact same.symm
  | refl p => rfl
  | symm p q _ ih => exact ih.symm
  | trans p q r _ _ ih ih' => exact ih.trans ih'

/-- The members of a net are as wide as it is. -/
theorem WidthsKept.width_of_mem (hs : s.WidthsKept) {net : Net}
    (listed : net ∈ (Netlist.build s).nets) {p : PortRef} (member : p ∈ net.members) :
    s.portWidth? p = some net.width := by
  rw [nets_build] at listed
  obtain ⟨e, he, rfl⟩ := List.mem_map.1 listed
  obtain ⟨w, hw, first, width⟩ := wire_of_mem_netEntries he
  have drawn : w ∈ s.wires := List.mem_of_getElem? hw
  have starts : s.Wired w.start.port := ⟨w, drawn, by simp [Wire.touches]⟩
  rw [members_netOf, mem_membersOf, first] at member
  have linked : s.Linked p w.start.port := (group_eq_iff_linked member.1 starts).1 member.2
  rw [linked.portWidth?_eq hs.legal, hs.stored w drawn, width_netOf, width]

/-- The pin that a net is bound to is on the net and gives it its name. -/
theorem exists_pin_of_netOf {e : Nat × Nat × UInt32} {id : String}
    (bound : (s.netOf e).pin = some id) :
    ∃ pin ∈ s.instances, pin.isPin = true ∧ pin.id = id ∧
      (s.netOf e).name = sanitize pin.name ∧ ⟨pin.id, 0⟩ ∈ (s.netOf e).members := by
  rw [members_netOf]
  rw [netOf, Net.make] at bound ⊢
  cases found : s.bindingPin? (s.membersOf e.1) with
  | none =>
    rw [found] at bound
    cases bound
  | some pin =>
    rw [found] at bound
    have holds := List.find?_some found
    rw [Bool.and_eq_true, List.contains_iff_mem] at holds
    exact ⟨pin, List.mem_of_find?_eq_some found, holds.1, Option.some.inj bound, rfl, holds.2⟩

/-- A port that some schematic has a width for is the port that a pin's entry is made from. -/
theorem pinWidth_of_portWidth? (ids : (s.instances.map (·.id)).Nodup) {pin : Instance}
    (present : pin ∈ s.instances) {width : UInt32} (h : s.portWidth? ⟨pin.id, 0⟩ = some width) :
    pinWidth pin = width := by
  rw [portWidth?, Option.map_eq_some_iff] at h
  obtain ⟨⟨i, port⟩, found, rfl⟩ := h
  obtain ⟨here, hport⟩ := port?_eq_some_iff.1 found
  rw [instance?_of_mem ids present] at here
  obtain rfl := Option.some.inj here
  rw [pinWidth, hport, Option.map_some, Option.getD_some]

/-- The net of a pin is as wide as the pin's entry in the entity says. -/
theorem WidthsKept.exists_pin (hs : s.WidthsKept) {net : Net}
    (listed : net ∈ (Netlist.build s).nets) {id : String} (bound : net.pin = some id) :
    ∃ pin ∈ s.instances, pin.isPin = true ∧ pin.id = id ∧ net.name = sanitize pin.name ∧
      pinWidth pin = net.width := by
  have entry := listed
  rw [nets_build] at entry
  obtain ⟨e, -, rfl⟩ := List.mem_map.1 entry
  obtain ⟨pin, present, isPin, same, name, member⟩ := exists_pin_of_netOf bound
  exact ⟨pin, present, isPin, same, name,
    pinWidth_of_portWidth? hs.ids present (hs.width_of_mem listed member)⟩

end Schematic

/-- The entry stands among the lines, behind a margin and perhaps with a mark after it. -/
def HasEntry (margin mark entry : String) (lines : List String) : Prop :=
  ∃ ending ∈ ["", mark], margin ++ (entry ++ ending) ∈ lines

theorem exists_mem_separated (mark : String) {entry : String} {entries : List String}
    (h : entry ∈ entries) : ∃ ending ∈ ["", mark], entry ++ ending ∈ separated mark entries := by
  induction entries using separated.induct with
  | case1 => cases h
  | case2 last =>
    rw [List.mem_singleton.1 h]
    exact ⟨"", List.mem_cons_self, by simp [separated]⟩
  | case3 item rest more ih =>
    rw [separated]
    · rcases List.mem_cons.1 h with rfl | later
      · exact ⟨mark, by simp, List.mem_cons_self⟩
      · obtain ⟨ending, known, listed⟩ := ih later
        exact ⟨ending, known, List.mem_cons_of_mem _ listed⟩
    · exact more

theorem hasEntry_of_mem {margin mark entry : String} {entries : List String} (h : entry ∈ entries) :
    HasEntry margin mark entry ((separated mark entries).map (margin ++ ·)) := by
  obtain ⟨ending, known, listed⟩ := exists_mem_separated mark h
  exact ⟨ending, known, List.mem_map_of_mem listed⟩

theorem HasEntry.mono {margin mark entry : String} {lines more : List String}
    (h : HasEntry margin mark entry lines) (sub : lines ⊆ more) :
    HasEntry margin mark entry more := by
  obtain ⟨ending, known, listed⟩ := h
  exact ⟨ending, known, sub listed⟩

theorem hasEntry_portClause {margin entry : String} {entries : List String} (h : entry ∈ entries) :
    HasEntry (margin ++ "    ") ";" entry (portClause margin entries) := by
  have filled : ¬ entries.isEmpty = true := fun empty => by
    rw [List.isEmpty_iff.1 empty] at h
    cases h
  rw [portClause, if_neg filled]
  refine (hasEntry_of_mem h).mono fun line listed => ?_
  exact List.mem_append_left _ (List.mem_cons_of_mem _ listed)

theorem hasEntry_instanceLines {n : Netlist} {i : Instance} {k : Nat} {port : Port}
    (hport : i.port? k = some port) :
    HasEntry "            " "," s!"{sanitize port.name} => {n.signalFor ⟨i.id, k⟩}"
      (instanceLines n i) := by
  have bound := List.getElem?_eq_some_iff.1 hport
  obtain ⟨hk, rfl⟩ := bound
  have filled : ¬ i.symbol.ports.isEmpty = true := fun empty => by
    rw [List.isEmpty_iff.1 empty] at hk
    exact Nat.not_lt_zero k hk
  simp only [instanceLines, if_neg filled]
  have listed : s!"{sanitize i.symbol.ports[k].name} => {n.signalFor ⟨i.id, k⟩}" ∈ actuals n i :=
    List.mem_mapIdx.2 ⟨k, hk, rfl⟩
  refine (hasEntry_of_mem listed).mono fun line here => ?_
  exact List.mem_append_left _ (List.mem_cons_of_mem _ (List.mem_cons_of_mem _ here))

theorem instanceLines_inside {s : Schematic} {i : Instance} (present : i ∈ s.instances)
    (role : i.role = .component) (n : Netlist) (top : String) :
    instanceLines n i <:+: architectureLines s n top := by
  have component : i ∈ s.instances.filter (·.role = .component) := by
    rw [List.mem_filter]
    exact ⟨present, decide_eq_true role⟩
  have inside : instanceLines n i <:+:
      (s.instances.filter (·.role = .component)).flatMap (instanceLines n) := by
    rw [List.flatMap_def]
    exact List.infix_of_mem_flatten (List.mem_map_of_mem component)
  refine inside.trans ?_
  unfold architectureLines
  exact ⟨_, _, (List.append_assoc _ _ _).symm⟩

/-- What the export declares that a port may be connected to, with a width: the signal of a net
without a pin, or the entity port of a pin. -/
inductive Declares (s : Schematic) (top : String) (width : UInt32) : String → Prop where
  | signal (net : Net) (listed : net ∈ (Netlist.build s).nets)
      (line : s!"    signal {net.name} : {typeName width};" ∈
        architectureLines s (.build s) top) : Declares s top width net.name
  | entityPort (pin : Instance) (present : pin ∈ s.instances) (isPin : pin.isPin = true)
      (entry : HasEntry "        " ";"
        s!"{sanitize pin.name} : {pinMode pin.role} {typeName width}" (entityLines s top)) :
      Declares s top width (sanitize pin.name)

theorem signalLine_mem {s : Schematic} {net : Net} (listed : net ∈ (Netlist.build s).nets)
    (free : net.pin = none) (top : String) :
    signalLine net ∈ architectureLines s (.build s) top := by
  have isSignal : net.isSignal = true := by rw [Net.isSignal, free, Option.isNone_none]
  have line : signalLine net ∈ ((Netlist.build s).nets.filter (·.isSignal)).map signalLine :=
    List.mem_map_of_mem (List.mem_filter.2 ⟨listed, isSignal⟩)
  simp only [architectureLines, List.mem_append, List.mem_cons_of_mem _ line, true_or, or_true]

theorem hasEntry_entityLines {s : Schematic} {pin : Instance} (present : pin ∈ s.instances)
    (isPin : pin.isPin = true) (top : String) :
    HasEntry "        " ";" (pinEntry pin) (entityLines s top) := by
  have listed : pinEntry pin ∈ (s.instances.filter (·.isPin)).map pinEntry :=
    List.mem_map_of_mem (List.mem_filter.2 ⟨present, isPin⟩)
  have entry : HasEntry ("    " ++ "    ") ";" (pinEntry pin)
      (portClause "    " ((s.instances.filter (·.isPin)).map pinEntry)) :=
    hasEntry_portClause listed
  exact entry.mono fun line here => List.mem_append_left _ (List.mem_cons_of_mem _ here)

theorem Schematic.WidthsKept.declares {s : Schematic} (hs : s.WidthsKept) {net : Net}
    (listed : net ∈ (Netlist.build s).nets) (top : String) :
    Declares s top net.width net.name := by
  cases bound : net.pin with
  | none => exact .signal net listed (signalLine_mem listed bound top)
  | some id =>
    obtain ⟨pin, present, isPin, -, name, width⟩ := hs.exists_pin listed bound
    have entry := hasEntry_entityLines present isPin top
    rw [pinEntry, width] at entry
    rw [name]
    exact .entityPort pin present isPin entry

/-- A component's port is left open, or what it is connected to is declared as wide as it. -/
theorem Schematic.WidthsKept.declares_signalFor {s : Schematic} (hs : s.WidthsKept)
    {i : Instance} (present : i ∈ s.instances) {k : Nat} {port : Port}
    (hport : i.port? k = some port) (top : String) :
    ¬ s.Wired ⟨i.id, k⟩ ∧ (Netlist.build s).signalFor ⟨i.id, k⟩ = Netlist.unconnected ∨
      Declares s top port.width ((Netlist.build s).signalFor ⟨i.id, k⟩) := by
  rw [Netlist.signalFor, ← isSome_netOf?]
  cases found : (Netlist.build s).netOf? ⟨i.id, k⟩ with
  | none => exact .inl ⟨Bool.false_ne_true, rfl⟩
  | some net =>
    have listed : net ∈ (Netlist.build s).nets := List.mem_of_find?_eq_some found
    have member : ⟨i.id, k⟩ ∈ net.members := (mem_members_iff_linked found).2 (.refl _)
    have width := hs.width_of_mem listed member
    rw [portWidth?_of_mem hs.ids present hport] at width
    rw [Option.some.inj width]
    exact .inr (hs.declares listed top)

/-- What edits make keeps widths, and where widths are kept, a net is as wide as its members and
as the entity port of its pin. So in the export a component's port is left open or connected to
what is declared as wide as it. -/
theorem nets_keep_widths :
    (∀ {s : Schematic}, Reachable s → s.WidthsKept) ∧
    ∀ {s : Schematic}, s.WidthsKept →
      (∀ net ∈ (Netlist.build s).nets,
        (∀ p ∈ net.members, s.portWidth? p = some net.width) ∧
        ∀ id, net.pin = some id →
          ∃ pin ∈ s.instances, pin.isPin = true ∧ pin.id = id ∧ pinWidth pin = net.width) ∧
      ∀ top : String, ∀ i ∈ s.instances, i.role = .component → ∀ k port, i.port? k = some port →
        instanceLines (.build s) i <:+: architectureLines s (.build s) (sanitize top) ∧
        ∃ signal : String,
          HasEntry "            " "," s!"{sanitize port.name} => {signal}"
            (instanceLines (.build s) i) ∧
          (¬ s.Wired ⟨i.id, k⟩ ∧ signal = "open" ∨ Declares s (sanitize top) port.width signal) := by
  refine ⟨fun reached => reached.wellFormed.widthsKept, fun {s} hs => ⟨fun net listed => ?_, ?_⟩⟩
  · refine ⟨fun p member => hs.width_of_mem listed member, fun id bound => ?_⟩
    obtain ⟨pin, present, isPin, same, -, width⟩ := hs.exists_pin listed bound
    exact ⟨pin, present, isPin, same, width⟩
  · intro top i present role k port hport
    exact ⟨instanceLines_inside present role (.build s) (sanitize top),
      (Netlist.build s).signalFor ⟨i.id, k⟩, hasEntry_instanceLines hport,
      hs.declares_signalFor present hport (sanitize top)⟩

/-- The exported output of the multiplexer is connected to something eight lines wide. -/
theorem muxOutput_connected_at_width : ∃ signal : String,
    HasEntry "            " "," s!"{sanitize muxOutput.name} => {signal}"
      (instanceLines (.build twicePinned) loneMux) ∧
    Declares twicePinned (sanitize defaultTop) 8 signal := by
  have placed : loneMux ∈ twicePinned.instances :=
    List.mem_append_left _ (List.mem_append_left _ (List.mem_singleton_self _))
  have wired : twicePinned.Wired ⟨"inst_1", 3⟩ :=
    ⟨_, List.mem_append_right _ (List.mem_singleton_self _), by decide⟩
  obtain ⟨-, signal, entry, unwired | declared⟩ :=
    (nets_keep_widths.2 (nets_keep_widths.1 reachable_twicePinned)).2 defaultTop loneMux placed rfl
      3 muxOutput rfl
  · exact absurd wired unwired.1
  · exact ⟨signal, entry, declared⟩

/-- Two multiplexers and a wire that says it has four lines, between ports that have eight. -/
def narrowlyWired : Schematic :=
  ⟨[loneMux, { loneMux with id := "inst_2", name := "2x8mux_2" }],
    [⟨"w_3", ⟨⟨"inst_1", 3⟩, .origin⟩, ⟨⟨"inst_2", 1⟩, .origin⟩, none, 4⟩], .empty⟩

/-- The rules do not ask how wide a wire says it is, and its net takes its word. -/
theorem net_narrower_than_ports : ¬ ∀ s : Schematic, (s.instances.map (·.id)).Nodup →
    (∀ w ∈ s.wires, s.check w.start.port w.finish.port = .ok ()) →
    ∀ net ∈ (Netlist.build s).nets, ∀ p ∈ net.members, s.portWidth? p = some net.width := by
  intro agree
  have legal : ∀ w ∈ narrowlyWired.wires,
      narrowlyWired.check w.start.port w.finish.port = .ok () := by
    intro w hw
    rw [List.mem_singleton.1 hw]
    decide
  have nets : (Netlist.build narrowlyWired).nets =
      [⟨"net_0", 4, [⟨"inst_1", 3⟩, ⟨"inst_2", 1⟩], none⟩] := by decide
  have width := agree narrowlyWired (by decide) legal
  rw [nets] at width
  have same := width _ List.mem_cons_self ⟨"inst_1", 3⟩ List.mem_cons_self
  exact absurd same (by decide)

end BlockSchematic
