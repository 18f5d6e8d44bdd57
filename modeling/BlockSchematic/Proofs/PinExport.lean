import BlockSchematic.Proofs.WellFormed

/-!
# What an export to a pin makes

Where the rules accept the new pin, an export adds one pin and one wire, and both are known from
the port and the two ids that were drawn.
-/

namespace BlockSchematic

open Schematic

/-- An unused id is taken as it is drawn. -/
theorem IdDraws.fresh_of_notMem {d : IdDraws} {kind : String} {used : List String} {st : d.State}
    (h : d.Ends kind used st) (unused : (d.draw kind st).1 ∉ used) :
    d.fresh kind used st h = d.draw kind st := by
  rw [IdDraws.fresh, dif_neg unused]

theorem IdSource.fresh_numbered {kind label : String} {used : List String} {n : Nat}
    (unused : numberedId kind label (n + 1) ∉ used) :
    (IdSource.numbered label).fresh kind used n = (numberedId kind label (n + 1), n + 1) :=
  IdDraws.fresh_of_notMem _ unused

namespace Schematic

variable {src : IdSource}

/-- The pin that an export of an instance's port places under an id. -/
def exportedPin (s : Schematic) (pin : Symbol) (i : Instance) (port : Port) (id : String) :
    Instance where
  id
  template := (widenPin pin port.width).name
  name := s.unusedName s!"{port.name}_pin"
  position := pinPosition (.ofTemplate pin.name) (i.position.offset port.location)
  role := .ofTemplate pin.name
  symbol := widenPin pin port.width
  glue := none

theorem place_eq {s : Schematic} {symbol : Symbol} {role : Role} {glue : Option Glue}
    {name : String} {position : Position} {st st' : src.State} {id : String}
    (drawn : s.fresh src "inst" st = (id, st')) :
    s.place src symbol role glue (some name) position st =
      ((s.withInstance ⟨id, symbol.name, name, position, role, symbol, glue⟩, id), st') := by
  simp [place, drawn, withInstance]

theorem connect_eq_ok {s : Schematic} {p q : PortRef} {i j : Instance} {source target : Port}
    {st st' : src.State} {id : String} (legal : s.check p q = .ok ())
    (hs : s.port? p = some (i, source)) (ht : s.port? q = some (j, target))
    (drawn : s.fresh src "w" st = (id, st')) :
    s.connect src p q st =
      (.ok (s.withWire (drawnWire id p q i j source target), id), st') := by
  rw [connect, checkEdit_eq_ok_iff.2 legal]
  exact pushWire_eq_ok hs ht drawn

/-- A new instance is found under its id. -/
theorem instance?_withInstance {s : Schematic} {i : Instance} (fresh : i.id ∉ s.ids) :
    (s.withInstance i).instance? i.id = some i := by
  have missing : s.instances.find? (·.id = i.id) = none := by
    rw [List.find?_eq_none]
    intro j hj same
    exact fresh (of_decide_eq_true same ▸ mem_ids_of_instance hj)
  simp [instance?, withInstance, missing]

/-- The schematic with a pin for a port and the wire to it. -/
def withExport (s : Schematic) (p : PortRef) (pin : Symbol) (i : Instance) (port pinPort : Port)
    (id wireId : String) : Schematic :=
  let made := s.exportedPin pin i port id
  (s.withInstance made).withWire (drawnWire wireId p ⟨id, 0⟩ i made port pinPort)

/-- An export that the rules accept places the pin and draws the wire. -/
theorem exportToPin_eq_ok {s : Schematic} {p : PortRef} {pin : Symbol} {i : Instance}
    {port pinPort : Port} {st st' st'' : src.State} {id wireId : String}
    (role : (Role.ofTemplate pin.name).isPin = true) (exported : s.port? p = some (i, port))
    (pinHas : (widenPin pin port.width).port? 0 = some pinPort)
    (drawn : s.fresh src "inst" st = (id, st'))
    (drawnNext : (s.withInstance (s.exportedPin pin i port id)).fresh src "w" st' =
      (wireId, st''))
    (legal : (s.withInstance (s.exportedPin pin i port id)).check p ⟨id, 0⟩ = .ok ()) :
    s.exportToPin src p pin st = (.ok (s.withExport p pin i port pinPort id wireId, id), st'') := by
  have position : (s.portPosition? p).getD .origin = i.position.offset port.location := by
    simp [portPosition?_eq, exported]
  have fresh : id ∉ s.ids := by
    have unused := src.fresh_notMem "inst" s.ids st
    rwa [show src.fresh "inst" s.ids st = _ from drawn] at unused
  have placed : (s.withInstance (s.exportedPin pin i port id)).port? ⟨id, 0⟩ =
      some (s.exportedPin pin i port id, pinPort) :=
    port?_eq_some_iff.2 ⟨instance?_withInstance (i := s.exportedPin pin i port id) fresh, pinHas⟩
  have connected := connect_eq_ok legal (port?_withInstance exported) placed drawnNext
  simp only [exportToPin, role, exported, place_eq drawn, position]
  rw [exportedPin] at connected
  simp only [connected]
  rfl

end Schematic

/-- A symbol is placed under the next number, where that is not in use. -/
theorem Edit.apply_addInstance_numbered {s : Schematic} (n : Nat) (symbol : Symbol)
    (position : Position) (unused : numberedId "inst" "" (n + 1) ∉ s.ids) :
    (Edit.addInstance symbol position).apply (IdSource.numbered "") s n =
      (.ok (s.withInstance ⟨numberedId "inst" "" (n + 1), symbol.name,
        s!"{symbol.name}_{(s.countPlaced symbol.name).toNat}", position,
        .ofTemplate symbol.name, symbol, none⟩), (n + 1 : Nat)) := by
  simp only [Edit.apply, Schematic.addInstance, place, Schematic.fresh,
    IdSource.fresh_numbered unused]
  rfl

/-- Two numbers in a row are given to a pin and its wire, where neither is in use. -/
theorem Edit.apply_exportToPin_numbered {s : Schematic} (n : Nat) {p : PortRef}
    {pin : Symbol} {i : Instance} {port pinPort : Port}
    (role : (Role.ofTemplate pin.name).isPin = true) (exported : s.port? p = some (i, port))
    (pinHas : (widenPin pin port.width).port? 0 = some pinPort)
    (unused : numberedId "inst" "" (n + 1) ∉ s.ids)
    (unusedNext : numberedId "w" "" (n + 2) ∉
      (s.withInstance (s.exportedPin pin i port (numberedId "inst" "" (n + 1)))).ids)
    (legal : (s.withInstance (s.exportedPin pin i port (numberedId "inst" "" (n + 1)))).check p
      ⟨numberedId "inst" "" (n + 1), 0⟩ = .ok ()) :
    (Edit.exportToPin p pin).apply (IdSource.numbered "") s n =
      (.ok (s.withExport p pin i port pinPort (numberedId "inst" "" (n + 1))
        (numberedId "w" "" (n + 2))), (n + 2 : Nat)) := by
  have done := exportToPin_eq_ok role exported pinHas (IdSource.fresh_numbered unused)
    (IdSource.fresh_numbered unusedNext) legal
  simp only [Edit.apply, done]
  rfl

theorem Reachable.withSymbol {s : Schematic} (reached : Reachable s) (n : Nat) (symbol : Symbol)
    (position : Position) (unused : numberedId "inst" "" (n + 1) ∉ s.ids) :
    Reachable (s.withInstance ⟨numberedId "inst" "" (n + 1), symbol.name,
      s!"{symbol.name}_{(s.countPlaced symbol.name).toNat}", position,
      .ofTemplate symbol.name, symbol, none⟩) :=
  .edit _ reached (Edit.apply_addInstance_numbered n symbol position unused)

theorem Reachable.withExport {s : Schematic} (reached : Reachable s) (n : Nat) {p : PortRef}
    {pin : Symbol} {i : Instance} {port pinPort : Port}
    (role : (Role.ofTemplate pin.name).isPin = true) (exported : s.port? p = some (i, port))
    (pinHas : (widenPin pin port.width).port? 0 = some pinPort)
    (unused : numberedId "inst" "" (n + 1) ∉ s.ids)
    (unusedNext : numberedId "w" "" (n + 2) ∉
      (s.withInstance (s.exportedPin pin i port (numberedId "inst" "" (n + 1)))).ids)
    (legal : (s.withInstance (s.exportedPin pin i port (numberedId "inst" "" (n + 1)))).check p
      ⟨numberedId "inst" "" (n + 1), 0⟩ = .ok ()) :
    Reachable (s.withExport p pin i port pinPort (numberedId "inst" "" (n + 1))
      (numberedId "w" "" (n + 2))) :=
  .edit _ reached
    (Edit.apply_exportToPin_numbered n role exported pinHas unused unusedNext legal)

end BlockSchematic
