import BlockSchematic.Command.Run
import BlockSchematic.Proofs.InstanceNames

/-!
# The default pin of a port

Where no kind of pin is asked for, an output is exported to an output pin and any other port to an
input pin. Such an export is never refused. All that the net of the port gains by it is the port of
the new pin.
-/

namespace BlockSchematic

open Schematic

/-! ## The default pin fits -/

theorem ofTemplate_defaultPin (direction : Direction) :
    Role.ofTemplate (pinSymbol .byDirection direction).name =
      if direction = .output then .outputPin else .inputPin := by
  cases direction <;> decide

/-- A default pin has the one port, of the asked width and for signals the other way. -/
theorem port?_defaultPin (direction : Direction) (width : UInt32) :
    ∃ pinPort, (widenPin (pinSymbol .byDirection direction) width).port? 0 = some pinPort ∧
      pinPort.width = width ∧
      pinPort.direction = if direction = .output then .input else .output := by
  cases direction <;> exact ⟨_, rfl, rfl, rfl⟩

theorem pinConflict?_of_block {i : Instance} (block : i.isPin = false) (other : Direction) :
    pinConflict? i.role other = none := by
  rw [Instance.isPin] at block
  cases role : i.role with
  | inputPin => rw [role] at block; cases block
  | outputPin => rw [role] at block; cases block
  | component => rfl
  | glue => rfl

theorem compatible_defaultPin {i pin : Instance} {port pinPort : Port} (block : i.isPin = false)
    (role : pin.role = if port.direction = .output then .outputPin else .inputPin)
    (width : pinPort.width = port.width)
    (direction : pinPort.direction = if port.direction = .output then .input else .output) :
    Compatible i pin port pinPort where
  pins := by rw [block, Bool.false_and]
  width := width.symm
  sourcePin := pinConflict?_of_block block _
  targetPin := by
    rw [role]
    cases port.direction <;> rfl
  directions := by
    rw [direction]
    cases port.direction <;> rfl

/-! ## A wire to a port that had none -/

namespace Schematic

/-- A port that exists belongs to an instance under an id in use. -/
theorem instanceId_mem_ids {s : Schematic} {p : PortRef} {i : Instance} {port : Port}
    (found : s.port? p = some (i, port)) : p.instanceId ∈ s.ids := by
  have here := (port?_eq_some_iff.1 found).1
  have same : i.id = p.instanceId := by simpa using List.find?_some here
  exact same ▸ mem_ids_of_instance (List.mem_of_find?_eq_some here)

/-- Everything that is wired is wired to a port that exists. -/
def EndsExist (s : Schematic) : Prop :=
  ∀ w ∈ s.wires, (s.port? w.start.port).isSome ∧ (s.port? w.finish.port).isSome

theorem EndsExist.instanceId_mem {s : Schematic} (ends : s.EndsExist) {q : PortRef}
    (wired : s.Wired q) : q.instanceId ∈ s.ids := by
  obtain ⟨w, hw, touches⟩ := wired
  have exist : (s.port? q).isSome := by
    simp only [Wire.touches, Bool.or_eq_true, beq_iff_eq] at touches
    rcases touches with rfl | rfl
    · exact (ends w hw).1
    · exact (ends w hw).2
  obtain ⟨⟨i, port⟩, found⟩ := Option.isSome_iff_exists.1 exist
  exact instanceId_mem_ids found

theorem Linked.eq_of_not_wired {s : Schematic} {p q : PortRef} (linked : s.Linked p q)
    (bare : ¬ s.Wired p) : p = q := by
  induction linked with
  | rel p q joined => exact absurd joined.wired.1 bare
  | refl p => rfl
  | symm p q linked ih => exact (ih fun wired => bare ((Linked.wired_iff linked).1 wired)).symm
  | trans p q r first _ ih ih' =>
    obtain rfl := ih bare
    exact ih' bare

/-- The wires of `t` are those of `s` and one from `p` to a port that had no wire. -/
structure GainsEnd (s t : Schematic) (p q : PortRef) : Prop where
  joined : ∀ {x y}, t.Joined x y → s.Joined x y ∨ s(x, y) = s(p, q)
  bare : ¬ s.Wired q

/-- The port itself, and for the new end the port that it is wired to. -/
def foldedOnto (p q x : PortRef) : PortRef := if x = q then p else x

theorem foldedOnto_new (p q : PortRef) : foldedOnto p q q = p := if_pos rfl

theorem foldedOnto_old {p q x : PortRef} (other : x ≠ q) : foldedOnto p q x = x := if_neg other

/-- A chain over the new wire comes back over it, so the old wires link what it links. -/
theorem GainsEnd.linked {s t : Schematic} {p q x y : PortRef} (h : s.GainsEnd t p q)
    (linked : t.Linked x y) : s.Linked (foldedOnto p q x) (foldedOnto p q y) := by
  induction linked with
  | refl x => exact .refl _
  | symm x y _ ih => exact ih.symm
  | trans x y z _ _ ih ih' => exact ih.trans _ _ _ ih'
  | rel x y joined =>
    rcases h.joined joined with old | new
    · have hx : x ≠ q := fun same => h.bare (same ▸ old.wired.1)
      have hy : y ≠ q := fun same => h.bare (same ▸ old.wired.2)
      rw [foldedOnto_old hx, foldedOnto_old hy]
      exact .rel _ _ old
    · have ends : foldedOnto p q p = p := by
        rw [foldedOnto]
        split <;> rfl
      rcases Sym2.eq_iff.1 new with ⟨rfl, rfl⟩ | ⟨rfl, rfl⟩
      · rw [foldedOnto_new, ends]
        exact .refl _
      · rw [foldedOnto_new, ends]
        exact .refl _

/-- A port of a block whose net is bound to no pin is linked to none. -/
theorem not_pinOn_of_pin_eq_none {s : Schematic} (ids : (s.instances.map (·.id)).Nodup)
    {p : PortRef} {i : Instance} {port : Port} (exported : s.port? p = some (i, port))
    (block : i.isPin = false)
    (free : ∀ net, (Netlist.build s).netOf? p = some net → net.pin = none) :
    ∀ j ∈ s.instances, ¬ s.PinOn p j := by
  by_cases wired : s.Wired p
  · obtain ⟨net, found⟩ := Option.isSome_iff_exists.1 (isSome_netOf?.2 wired)
    have none := free net found
    obtain ⟨-, e, -, key, rfl⟩ := entry_of_netOf? found
    rw [← bindingPin?_eq_none_iff wired, ← key]
    rw [netOf, Net.make] at none
    split at none
    · cases none
    · assumption
  · rintro j hj ⟨isPin, linked⟩
    have here := (port?_eq_some_iff.1 exported).1
    rw [linked.eq_of_not_wired wired, instance?_of_mem ids hj] at here
    obtain rfl := Option.some.inj here
    rw [block] at isPin
    cases isPin

/-! ## The export -/

/-- A pin was made for a port, of the port's width and with a name of its own, and a wire leads
to it. Nothing else has changed. -/
structure GainsPin (s t : Schematic) (p : PortRef) (port : Port) (pin : Instance) (w : Wire) :
    Prop where
  instances : t.instances = s.instances ++ [pin]
  wires : t.wires = s.wires ++ [w]
  role : pin.role = if port.direction = .output then .outputPin else .inputPin
  fresh : pin.id ∉ s.ids
  width : ∃ pinPort, t.port? ⟨pin.id, 0⟩ = some (pin, pinPort) ∧ pinPort.width = port.width
  named : ∀ j ∈ s.instances, j.name ≠ pin.name
  start : w.start.port = p
  finish : w.finish.port = ⟨pin.id, 0⟩

variable {s t : Schematic} {p : PortRef} {i pin : Instance} {port : Port} {w : Wire}

theorem GainsPin.joined (h : s.GainsPin t p port pin w) : t.Joined p ⟨pin.id, 0⟩ := by
  refine ⟨w, ?_, Wire.joins_iff_ends.2 ?_⟩
  · rw [h.wires]
    exact List.mem_append_right _ (List.mem_singleton_self w)
  · rw [Wire.ends, h.start, h.finish]

theorem GainsPin.gainsEnd (h : s.GainsPin t p port pin w) (ends : s.EndsExist) :
    s.GainsEnd t p ⟨pin.id, 0⟩ where
  bare wired := h.fresh (ends.instanceId_mem wired)
  joined := by
    intro x y joined
    rw [joined_iff_ends, h.wires, List.map_append, List.map_singleton, List.mem_append,
      ← joined_iff_ends, List.mem_singleton, Wire.ends, h.start, h.finish] at joined
    exact joined

/-- Where the net had no pin, the new one is its first. -/
theorem GainsPin.firstPin (h : s.GainsPin t p port pin w) (ends : s.EndsExist)
    (exported : s.port? p = some (i, port)) (unpinned : ∀ j ∈ s.instances, ¬ s.PinOn p j) :
    t.FirstPin p pin := by
  have isPin : pin.isPin = true := by
    rw [Instance.isPin, h.role]
    split <;> rfl
  refine ⟨⟨isPin, .rel _ _ h.joined⟩, s.instances, [], h.instances, fun j hj on => ?_⟩
  have source : p ≠ ⟨pin.id, 0⟩ := by
    rintro rfl
    exact h.fresh (instanceId_mem_ids exported)
  have other : (⟨j.id, 0⟩ : PortRef) ≠ ⟨pin.id, 0⟩ := fun same =>
    h.fresh ((PortRef.mk.inj same).1 ▸ mem_ids_of_instance hj)
  have linked := (h.gainsEnd ends).linked on.2
  rw [foldedOnto_old source, foldedOnto_old other] at linked
  exact unpinned j hj ⟨on.1, linked⟩

theorem gainsPin_withExport {id wireId : String} {pinPort : Port} (fresh : id ∉ s.ids)
    (pinHas : (widenPin (pinSymbol .byDirection port.direction) port.width).port? 0 =
      some pinPort) (width : pinPort.width = port.width) :
    let made := s.exportedPin (pinSymbol .byDirection port.direction) i port id
    s.GainsPin (s.withExport p (pinSymbol .byDirection port.direction) i port pinPort id wireId) p
      port made (drawnWire wireId p ⟨id, 0⟩ i made port pinPort) where
  instances := rfl
  wires := rfl
  role := ofTemplate_defaultPin port.direction
  fresh := fresh
  width := by
    have found := instance?_withInstance
      (i := s.exportedPin (pinSymbol .byDirection port.direction) i port id) fresh
    exact ⟨pinPort, port?_eq_some_iff.2 ⟨found, pinHas⟩, width⟩
  named := s.unusedName_ne _
  start := rfl
  finish := rfl

/-- The rules accept the default pin of a port of a block, whatever the source of ids draws. -/
theorem exists_gainsPin (src : IdSource) (exported : s.port? p = some (i, port))
    (block : i.isPin = false) (st : src.State) :
    ∃ t pin w st', s.exportToPin src p (pinSymbol .byDirection port.direction) st =
      (.ok (t, pin.id), st') ∧ s.GainsPin t p port pin w := by
  let symbol := pinSymbol .byDirection port.direction
  obtain ⟨pinPort, pinHas, width, direction⟩ := port?_defaultPin port.direction port.width
  obtain ⟨⟨id, st'⟩, drawn⟩ : ∃ x, s.fresh src "inst" st = x := ⟨_, rfl⟩
  let made := s.exportedPin symbol i port id
  obtain ⟨⟨wireId, st''⟩, drawnNext⟩ : ∃ x, (s.withInstance made).fresh src "w" st' = x :=
    ⟨_, rfl⟩
  have fresh : id ∉ s.ids := by
    have unused := src.fresh_notMem "inst" s.ids st
    rwa [show src.fresh "inst" s.ids st = _ from drawn] at unused
  have role : made.role = if port.direction = .output then .outputPin else .inputPin :=
    ofTemplate_defaultPin port.direction
  have apart : p.instanceId ≠ id := fun same => fresh (same ▸ instanceId_mem_ids exported)
  have legal : (s.withInstance made).check p ⟨id, 0⟩ = .ok () :=
    check_eq_ok_iff.2 ⟨apart, i, made, port, pinPort, port?_withInstance exported,
      port?_eq_some_iff.2 ⟨instance?_withInstance (i := made) fresh, pinHas⟩,
      compatible_defaultPin block role width direction⟩
  have isPin : (Role.ofTemplate symbol.name).isPin = true := by
    rw [ofTemplate_defaultPin]
    split <;> rfl
  exact ⟨_, made, _, st'', exportToPin_eq_ok isPin exported pinHas drawn drawnNext legal,
    gainsPin_withExport fresh pinHas width⟩

end Schematic

/-- An export with the default kind of pin is never refused. It places one pin, of the port's width
and with a name of its own, and draws one wire to it. If the net of the port had no pin, the port
and the pin's port are both mapped to the new pin's name. -/
theorem default_export_succeeds (src : IdSource) {s : Schematic}
    (ids : (s.instances.map (·.id)).Nodup)
    (ends : ∀ w ∈ s.wires, (s.port? w.start.port).isSome ∧ (s.port? w.finish.port).isSome)
    {p : PortRef} {i : Instance} {port : Port} (exported : s.port? p = some (i, port))
    (block : i.isPin = false) (st : src.State) :
    ∃ t pin w st', s.exportToPin src p (pinSymbol .byDirection port.direction) st =
        (.ok (t, pin.id), st') ∧
      s.GainsPin t p port pin w ∧
      ((∀ net, (Netlist.build s).netOf? p = some net → net.pin = none) →
        (Netlist.build t).signalFor p = Vhdl.sanitize pin.name ∧
        (Netlist.build t).signalFor ⟨pin.id, 0⟩ = Vhdl.sanitize pin.name) := by
  obtain ⟨t, pin, w, st', done, gains⟩ := exists_gainsPin src exported block st
  refine ⟨t, pin, w, st', done, gains, fun free => ?_⟩
  have first := gains.firstPin ends exported (not_pinOn_of_pin_eq_none ids exported block free)
  have wired := gains.joined.wired
  exact ⟨signalFor_of_firstPin wired.1 first,
    signalFor_of_firstPin wired.2 (first.linked (.rel _ _ gains.joined))⟩

/-- An input of the multiplexer whose output has a pin already. -/
theorem muxInput_exported : ∃ (t : Schematic) (pin : Instance) (w : Wire) (st' : Nat),
    oncePinned.exportToPin (IdSource.numbered "") ⟨"inst_1", 1⟩ .pinInput (3 : Nat) =
        (.ok (t, pin.id), st') ∧
      pin.role = .inputPin ∧ t.wires = oncePinned.wires ++ [w] ∧
      (Netlist.build t).signalFor ⟨"inst_1", 1⟩ = Vhdl.sanitize pin.name := by
  obtain ⟨t, pin, w, st', done, gains, named⟩ :=
    default_export_succeeds (IdSource.numbered "") (s := oncePinned) (p := ⟨"inst_1", 1⟩)
      (i := loneMux) (by decide) (by decide) rfl rfl (3 : Nat)
  have free : (Netlist.build oncePinned).netOf? ⟨"inst_1", 1⟩ = none := by decide
  refine ⟨t, pin, w, st', done, gains.role, gains.wires, (named fun net found => ?_).1⟩
  rw [free] at found
  cases found

end BlockSchematic
