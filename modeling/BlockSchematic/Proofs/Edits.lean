import BlockSchematic.Layout.Request
import BlockSchematic.Proofs.Rules
import BlockSchematic.Schematic.AutoConnect
import Mathlib.Logic.Relation
import Mathlib.Data.List.Forall2

/-!
# Sequences of edits

Every edit that is not refused is a chain of small changes: an instance is placed, an instance
goes with its wires, wires go, a wire that the rules allow is added, or instances are put
elsewhere. What each of these changes keeps is kept by every sequence of edits.
-/

namespace BlockSchematic

theorem map_eq_of_forall₂ {α β γ : Type} {R : α → β → Prop} {f : α → γ} {g : β → γ} {as : List α}
    {bs : List β} (h : List.Forall₂ R as bs) (same : ∀ {a : α} {b : β}, R a b → f a = g b) :
    as.map f = bs.map g := by
  have pairs : List.Forall₂ (· = ·) (as.map f) (bs.map g) := by
    rw [List.forall₂_map_left_iff, List.forall₂_map_right_iff]
    exact h.imp fun _ _ => same
  rwa [List.forall₂_eq_eq_eq] at pairs

theorem forall₂_map_self {α β : Type} {R : α → β → Prop} {f : α → β} {as : List α}
    (here : ∀ a ∈ as, R a (f a)) : List.Forall₂ R as (as.map f) := by
  rw [List.forall₂_map_right_iff]
  exact List.forall₂_same.2 here

theorem IdDraws.fresh_notMem {d : IdDraws} {kind : String} {used : List String} {st : d.State}
    (h : d.Ends kind used st) : (d.fresh kind used st h).1 ∉ used := by
  induction h with
  | intro st next ih =>
    rw [IdDraws.fresh]
    split
    · rename_i taken
      exact ih taken
    · assumption

theorem IdSource.fresh_notMem (src : IdSource) (kind : String) (used : List String)
    (st : src.State) : (src.fresh kind used st).1 ∉ used :=
  IdDraws.fresh_notMem _

inductive Edit where
  | addInstance (symbol : Symbol) (position : Position)
  | addGlue (name code : String) (ports : List PortSpec) (position : Position)
  | removeInstance (id : String)
  | moveInstance (id : String) (position : Position)
  | connect (p q : PortRef)
  | reconnect (p q : PortRef)
  | removeWire (id : String)
  | exportToPin (p : PortRef) (pin : Symbol)
  | autoConnect
  | withLayout (response : LayoutResponse)

/-- The schematic that an edit makes, and the source after its draws. -/
def Edit.apply (src : IdSource) (s : Schematic) (st : src.State) :
    Edit → Except EditError Schematic × src.State
  | .addInstance symbol position =>
    let ((next, _), st) := s.addInstance src symbol position st
    (.ok next, st)
  | .addGlue name code ports position =>
    let ((next, _), st) := s.addGlue src name code ports position st
    (.ok next, st)
  | .removeInstance id => (s.removeInstance id, st)
  | .moveInstance id position => (s.moveInstance id position, st)
  | .connect p q =>
    let (result, st) := s.connect src p q st
    (result.map (·.1), st)
  | .reconnect p q =>
    let (result, st) := s.reconnect src p q st
    (result.map (·.1), st)
  | .removeWire id => (s.removeWire id, st)
  | .exportToPin p pin =>
    let (result, st) := s.exportToPin src p pin st
    (result.map (·.1), st)
  | .autoConnect =>
    let ((next, _), st) := s.autoConnect src st
    (.ok next, st)
  | .withLayout response => (.ok (s.withLayout response), st)

/-- Made from the empty schematic by edits. Each edit may draw from a source of its own, and a
refused edit changes nothing, so it needs no step here. -/
inductive Reachable : Schematic → Prop where
  | empty : Reachable .empty
  | edit {s t : Schematic} {src : IdSource} {st st' : src.State} (e : Edit) (before : Reachable s)
      (done : e.apply src s st = (.ok t, st')) : Reachable t

/-- The two instances differ at most in where they stand. -/
def Instance.Moved (i j : Instance) : Prop := j = { i with position := j.position }

theorem Instance.Moved.trans {i j k : Instance} (h : i.Moved j) (h' : j.Moved k) : i.Moved k := by
  rw [h', h]
  rfl

namespace Schematic

/-- An end at a port that exists, as wide as the port and drawn to where the port is. -/
def EndFits (s : Schematic) (width : UInt32) (e : WireEnd) : Prop :=
  ∃ i port, s.port? e.port = some (i, port) ∧ port.width = width ∧
    e.position = i.position.offset port.location

/-- A wire that the rules accept and both of whose ends fit. -/
structure WireFits (s : Schematic) (w : Wire) : Prop where
  legal : s.check w.start.port w.finish.port = .ok ()
  start : s.EndFits w.width w.start
  finish : s.EndFits w.width w.finish

/-- The instances an edit of a schematic may place. A pin is named either for its template or for
the port that it was made for. -/
inductive Placeable (s : Schematic) : Instance → Prop where
  | symbol {id : String} (symbol : Symbol) (position : Position) :
      Placeable s ⟨id, symbol.name,
        s!"{symbol.name}_{(s.countPlaced symbol.name).toNat}", position,
        .ofTemplate symbol.name, symbol, none⟩
  | glue {id : String} (name code : String) (ports : List PortSpec) (position : Position) :
      Placeable s ⟨id, name, s!"{name}_{(s.countPlaced name).toNat}", position, .glue,
        .ofInterface name (Synthesis.drawnPorts ports),
        some ⟨code, Synthesis.drawnPorts ports⟩⟩
  | pin {id : String} {p : PortRef} {i : Instance} {port : Port} (pin : Symbol)
      (position : Position) (role : (Role.ofTemplate pin.name).isPin = true)
      (exported : s.port? p = some (i, port)) :
      Placeable s ⟨id, (widenPin pin port.width).name, s.unusedName s!"{port.name}_pin",
        position, .ofTemplate pin.name, widenPin pin port.width, none⟩

def withInstance (s : Schematic) (i : Instance) : Schematic :=
  { s with
    instances := s.instances ++ [i]
    counters := s.counters.insert i.template (s.countPlaced i.template) }

def withWire (s : Schematic) (w : Wire) : Schematic := { s with wires := s.wires ++ [w] }

/-- The small changes that edits are made of. -/
inductive Change (s : Schematic) : Schematic → Prop where
  | place (i : Instance) (fresh : i.id ∉ s.ids) (placeable : s.Placeable i) :
      Change s (s.withInstance i)
  | dropInstance (id : String) :
      Change s { s with
        instances := s.instances.filter (·.id ≠ id)
        wires := s.wires.filter (!·.touchesInstance id) }
  | dropWires (keep : Wire → Bool) : Change s { s with wires := s.wires.filter keep }
  | wire (w : Wire) (fresh : w.id ∉ s.ids) (fits : s.WireFits w) :
      Change s (s.withWire w)
  | rearrange (instances : List Instance) (route : Wire → Option (List Position))
      (moved : List.Forall₂ Instance.Moved s.instances instances) :
      Change s ({ s with
        instances
        wires := s.wires.map fun w => { w with route := route w } } : Schematic).refreshWires

abbrev Changes : Schematic → Schematic → Prop := Relation.ReflTransGen Change

variable {src : IdSource}

theorem wireEnd?_of_port? {s : Schematic} {p : PortRef} {i : Instance} {port : Port}
    (h : s.port? p = some (i, port)) :
    s.wireEnd? p = some ⟨p, i.position.offset port.location⟩ := by
  simp [wireEnd?, portPosition?_eq, h]

/-- A wire drawn between two ports, as wide as the first. -/
def drawnWire (id : String) (p q : PortRef) (i j : Instance) (source target : Port) : Wire where
  id
  start := ⟨p, i.position.offset source.location⟩
  finish := ⟨q, j.position.offset target.location⟩
  route := none
  width := source.width

theorem pushWire_eq_ok {s : Schematic} {p q : PortRef} {i j : Instance} {source target : Port}
    {st st' : src.State} {id : String} (hs : s.port? p = some (i, source))
    (ht : s.port? q = some (j, target)) (drawn : s.fresh src "w" st = (id, st')) :
    s.pushWire src p q st =
      (.ok (s.withWire (drawnWire id p q i j source target), id), st') := by
  simp [pushWire, wireEnd?_of_port? hs, wireEnd?_of_port? ht, hs, orUnknown, drawn, drawnWire,
    withWire]

/-- Where the rules accept, a wire can be added, and it fits. -/
theorem pushWire_of_check {s : Schematic} {p q : PortRef} (st : src.State)
    (legal : s.check p q = .ok ()) :
    ∃ w : Wire, w.start.port = p ∧ w.finish.port = q ∧ w.id ∉ s.ids ∧ s.WireFits w ∧
      (s.pushWire src p q st).1 = .ok (s.withWire w, w.id) := by
  obtain ⟨_, i, j, source, target, hs, ht, fits⟩ := check_eq_ok_iff.1 legal
  refine ⟨drawnWire (s.fresh src "w" st).1 p q i j source target, rfl, rfl,
    src.fresh_notMem _ _ _, ⟨legal, ⟨i, source, hs, rfl, rfl⟩,
      ⟨j, target, ht, fits.width.symm, rfl⟩⟩, ?_⟩
  rw [pushWire_eq_ok hs ht rfl]
  rfl

theorem change_pushWire {s t : Schematic} {p q : PortRef} {st st' : src.State} {id : String}
    (legal : s.check p q = .ok ()) (h : s.pushWire src p q st = (.ok (t, id), st')) :
    Change s t := by
  obtain ⟨w, -, -, fresh, fits, hw⟩ := pushWire_of_check st legal
  rw [h] at hw
  obtain ⟨rfl, -⟩ := Prod.mk.inj (Except.ok.inj hw)
  exact .wire w fresh fits

theorem checkEdit_eq_ok_iff {s : Schematic} {p q : PortRef} :
    s.checkEdit p q = .ok () ↔ s.check p q = .ok () := by
  rw [checkEdit]
  cases s.check p q <;> simp

theorem change_connect {s t : Schematic} {p q : PortRef} {st st' : src.State} {id : String}
    (h : s.connect src p q st = (.ok (t, id), st')) : Change s t := by
  rw [connect] at h
  split at h
  · cases h
  · rename_i legal
    exact change_pushWire (checkEdit_eq_ok_iff.1 legal) h

theorem changes_reconnect {s t : Schematic} {p q : PortRef} {st st' : src.State} {id : String}
    (h : s.reconnect src p q st = (.ok (t, id), st')) : Changes s t := by
  rw [reconnect] at h
  split at h
  · cases h
  · rename_i legal
    exact .head (.dropWires _) (.single (change_pushWire (checkEdit_eq_ok_iff.1 legal) h))

theorem change_addInstance (s : Schematic) (symbol : Symbol) (position : Position)
    (st : src.State) : Change s (s.addInstance src symbol position st).1.1 :=
  .place _ (src.fresh_notMem _ _ _) (.symbol symbol position)

theorem change_addGlue (s : Schematic) (name code : String) (ports : List PortSpec)
    (position : Position) (st : src.State) :
    Change s (s.addGlue src name code ports position st).1.1 :=
  .place _ (src.fresh_notMem _ _ _) (.glue name code ports position)

theorem changes_exportToPin {s t : Schematic} {p : PortRef} {pin : Symbol} {st st' : src.State}
    {id : String} (h : s.exportToPin src p pin st = (.ok (t, id), st')) : Changes s t := by
  simp only [exportToPin] at h
  split at h
  · cases h
  rename_i role
  split at h
  · cases h
  rename_i i port exported
  split at h
  · cases h
  rename_i wired _ _ connected
  obtain ⟨rfl, -⟩ := Prod.mk.inj (Except.ok.inj (Prod.mk.inj h).1)
  refine (Relation.ReflTransGen.single (.place _ (src.fresh_notMem _ _ _)
    (.pin pin _ (by simpa using role) exported))).tail (change_connect connected)

theorem change_removeInstance {s t : Schematic} {id : String}
    (h : s.removeInstance id = .ok t) : Change s t := by
  rw [removeInstance] at h
  split at h
  · obtain rfl := Except.ok.inj h
    exact .dropInstance id
  · cases h

theorem change_removeWire {s t : Schematic} {id : String} (h : s.removeWire id = .ok t) :
    Change s t := by
  rw [removeWire] at h
  split at h
  · obtain rfl := Except.ok.inj h
    exact .dropWires _
  · cases h

theorem moved_updateFirst (p : Instance → Bool) (position : Position) (is : List Instance) :
    List.Forall₂ Instance.Moved is (updateFirst p (fun i => { i with position }) is) := by
  induction is with
  | nil => exact .nil
  | cons i rest ih =>
    rw [updateFirst]
    split
    · exact .cons rfl (List.forall₂_same.2 fun _ _ => rfl)
    · exact .cons rfl ih

theorem exists_of_mem_moved {is js : List Instance} (moved : List.Forall₂ Instance.Moved is js)
    {j : Instance} (hj : j ∈ js) : ∃ i ∈ is, i.Moved j := by
  induction moved with
  | nil => cases hj
  | @cons i j' is js here _ ih =>
    rcases List.mem_cons.1 hj with rfl | hj
    · exact ⟨i, List.mem_cons_self, here⟩
    · obtain ⟨k, hk, moved⟩ := ih hj
      exact ⟨k, List.mem_cons_of_mem _ hk, moved⟩

theorem change_moveInstance {s t : Schematic} {id : String} {position : Position}
    (h : s.moveInstance id position = .ok t) : Change s t := by
  rw [moveInstance] at h
  split at h
  · obtain rfl := Except.ok.inj h
    have routes : (fun w : Wire => if w.touchesInstance id then { w with route := none } else w) =
        fun w => { w with route := if w.touchesInstance id then none else w.route } := by
      funext w
      split <;> rfl
    rw [routes]
    exact .rearrange _ _ (moved_updateFirst _ _ _)
  · cases h

theorem change_withLayout (s : Schematic) (response : LayoutResponse) :
    Change s (s.withLayout response) :=
  .rearrange _ _ (forall₂_map_self fun _ _ => rfl)

theorem Sweep.step_of_joined {sweep : Sweep src} {pair : PortRef × PortRef}
    (joined : (sweep.schematic.wireBetween? pair.1 pair.2).isSome = true) :
    sweep.step pair = sweep := by
  rw [Sweep.step, if_pos joined]

/-- A pair without a wire gets one if the rules accept it. -/
theorem Sweep.step_of_check {sweep : Sweep src} {pair : PortRef × PortRef}
    (apart : (sweep.schematic.wireBetween? pair.1 pair.2).isSome = false)
    (legal : sweep.schematic.check pair.1 pair.2 = .ok ()) :
    ∃ w : Wire, w.start.port = pair.1 ∧ w.finish.port = pair.2 ∧
      w.id ∉ sweep.schematic.ids ∧ sweep.schematic.WireFits w ∧
      (sweep.step pair).schematic = sweep.schematic.withWire w ∧
      (sweep.step pair).added = sweep.added + 1 := by
  obtain ⟨w, hs, hf, fresh, fits, hw⟩ := pushWire_of_check sweep.state legal
  refine ⟨w, hs, hf, fresh, fits, ?_⟩
  rw [Sweep.step, apart]
  cases pushed : sweep.schematic.pushWire src pair.1 pair.2 sweep.state with
  | mk result st =>
    rw [pushed] at hw
    obtain rfl : result = _ := hw
    exact ⟨rfl, rfl⟩

/-- A sweep over pairs that the rules accept adds fitting wires and leaves the instances alone. -/
theorem changes_sweep {s : Schematic} (pairs : List (PortRef × PortRef))
    (legal : ∀ pair ∈ pairs, s.check pair.1 pair.2 = .ok ()) (sweep : Sweep src)
    (same : sweep.schematic.instances = s.instances) :
    Changes sweep.schematic (pairs.foldl Sweep.step sweep).schematic := by
  induction pairs generalizing sweep with
  | nil => exact .refl
  | cons pair rest ih =>
    have legalRest : ∀ q ∈ rest, s.check q.1 q.2 = .ok () := fun q hq =>
      legal q (List.mem_cons_of_mem _ hq)
    rw [List.foldl_cons]
    cases joined : (sweep.schematic.wireBetween? pair.1 pair.2).isSome with
    | true =>
      rw [Sweep.step_of_joined joined]
      exact ih legalRest sweep same
    | false =>
      have here : sweep.schematic.check pair.1 pair.2 = .ok () :=
        (check_congr same _ _).trans (legal pair List.mem_cons_self)
      obtain ⟨w, -, -, fresh, fits, stepped, -⟩ := Sweep.step_of_check joined here
      have next := ih legalRest (sweep.step pair) (by rw [stepped]; exact same)
      rw [stepped] at next
      exact .head (.wire w fresh fits) next

theorem check_of_mem_matchingPairs {s : Schematic} {pair : PortRef × PortRef}
    (h : pair ∈ s.matchingPairs) : s.check pair.1 pair.2 = .ok () := by
  simp only [matchingPairs, List.mem_flatMap, List.mem_map, List.mem_filter,
    Bool.and_eq_true] at h
  obtain ⟨a, _, b, ⟨_, _, legal⟩, rfl⟩ := h
  exact isLegal_iff.1 legal

theorem changes_autoConnect (s : Schematic) (st : src.State) :
    Changes s (s.autoConnect src st).1.1 :=
  changes_sweep s.matchingPairs (fun _ => check_of_mem_matchingPairs) ⟨s, 0, st⟩ rfl

end Schematic

open Schematic

theorem exists_of_map_fst_eq_ok {ε α β : Type} {r : Except ε (α × β)} {a : α}
    (h : r.map (·.1) = .ok a) : ∃ b, r = .ok (a, b) := by
  cases r with
  | error why => cases h
  | ok x => exact ⟨x.2, by rw [← Except.ok.inj h]⟩

/-- Every edit that is not refused is a chain of small changes. -/
theorem Edit.changes {src : IdSource} {s t : Schematic} {st st' : src.State} {e : Edit}
    (h : e.apply src s st = (.ok t, st')) : Changes s t := by
  cases e with
  | addInstance symbol position =>
    obtain rfl := Except.ok.inj (Prod.mk.inj h).1
    exact .single (change_addInstance s symbol position st)
  | addGlue name code ports position =>
    obtain rfl := Except.ok.inj (Prod.mk.inj h).1
    exact .single (change_addGlue s name code ports position st)
  | removeInstance id => exact .single (change_removeInstance (Prod.mk.inj h).1)
  | moveInstance id position => exact .single (change_moveInstance (Prod.mk.inj h).1)
  | connect p q =>
    obtain ⟨id, hr⟩ := exists_of_map_fst_eq_ok (Prod.mk.inj h).1
    exact .single (change_connect (Prod.ext hr rfl))
  | reconnect p q =>
    obtain ⟨id, hr⟩ := exists_of_map_fst_eq_ok (Prod.mk.inj h).1
    exact changes_reconnect (Prod.ext hr rfl)
  | removeWire id => exact .single (change_removeWire (Prod.mk.inj h).1)
  | exportToPin p pin =>
    obtain ⟨id, hr⟩ := exists_of_map_fst_eq_ok (Prod.mk.inj h).1
    exact changes_exportToPin (Prod.ext hr rfl)
  | autoConnect =>
    obtain rfl := Except.ok.inj (Prod.mk.inj h).1
    exact changes_autoConnect s st
  | withLayout response =>
    obtain rfl := Except.ok.inj (Prod.mk.inj h).1
    exact .single (change_withLayout s response)

theorem Reachable.changes {s : Schematic} (h : Reachable s) : Changes .empty s := by
  induction h with
  | empty => exact .refl
  | edit e _ done ih => exact ih.trans (e.changes done)

/-- What holds of the empty schematic and is kept by small changes holds after any edits. -/
theorem Reachable.induction {P : Schematic → Prop} (start : P .empty)
    (step : ∀ {s t}, Change s t → P s → P t) {s : Schematic} (h : Reachable s) : P s := by
  have chain := h.changes
  clear h
  induction chain with
  | refl => exact start
  | tail _ change ih => exact step change ih

end BlockSchematic
