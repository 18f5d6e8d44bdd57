import BlockSchematic.Proofs.WellFormed

/-!
# What becomes of an instance

An edit puts instances elsewhere, takes one away or adds one under an id that was not in use;
wiring leaves them alone. So an instance that a run of edits does not take away is found under its
id at the end, and differs at most in where it stands.
-/

namespace BlockSchematic

namespace Schematic

/-- The two schematics differ in their wires at most. -/
def SameInstances (s t : Schematic) : Prop := t.instances = s.instances ∧ t.counters = s.counters

theorem SameInstances.trans {s t u : Schematic} (h : s.SameInstances t) (h' : t.SameInstances u) :
    s.SameInstances u :=
  ⟨h'.1.trans h.1, h'.2.trans h.2⟩

variable {src : IdSource} {s t : Schematic} {p q : PortRef} {st st' : src.State} {id : String}

theorem sameInstances_pushWire (h : s.pushWire src p q st = (.ok (t, id), st')) :
    s.SameInstances t := by
  rw [pushWire] at h
  split at h
  · cases h
  · cases h
  · obtain ⟨rfl, -⟩ := Prod.mk.inj (Except.ok.inj (Prod.mk.inj h).1)
    exact ⟨rfl, rfl⟩

theorem sameInstances_connect (h : s.connect src p q st = (.ok (t, id), st')) :
    s.SameInstances t := by
  rw [connect] at h
  split at h
  · cases h
  · exact sameInstances_pushWire h

theorem sameInstances_reconnect (h : s.reconnect src p q st = (.ok (t, id), st')) :
    s.SameInstances t := by
  rw [reconnect] at h
  split at h
  · cases h
  · have kept := sameInstances_pushWire h
    exact kept

theorem sameInstances_removeWire (h : s.removeWire id = .ok t) : s.SameInstances t := by
  rw [removeWire] at h
  split at h
  · obtain rfl := Except.ok.inj h
    exact ⟨rfl, rfl⟩
  · cases h

theorem sameInstances_step (sweep : Sweep src) (pair : PortRef × PortRef) :
    sweep.schematic.SameInstances (sweep.step pair).schematic := by
  rw [Sweep.step]
  split
  · exact ⟨rfl, rfl⟩
  · split
    · rename_i pushed
      exact sameInstances_pushWire pushed
    · exact ⟨rfl, rfl⟩

theorem sameInstances_autoConnect (s : Schematic) (st : src.State) :
    s.SameInstances (s.autoConnect src st).1.1 := by
  have run : ∀ (pairs : List (PortRef × PortRef)) (sweep : Sweep src),
      sweep.schematic.SameInstances (pairs.foldl Sweep.step sweep).schematic := by
    intro pairs
    induction pairs with
    | nil => exact fun _ => ⟨rfl, rfl⟩
    | cons pair rest ih => exact fun sweep => (sameInstances_step sweep pair).trans (ih _)
  exact run s.matchingPairs ⟨s, 0, st⟩

/-- The instances of `t` come from those of `s` by one edit. -/
inductive InstancesEdited (s t : Schematic) : Prop where
  | moved (places : List.Forall₂ Instance.Moved s.instances t.instances)
  | dropped (id : String) (rest : t.instances = s.instances.filter (·.id ≠ id))
  | placed (i : Instance) (fresh : i.id ∉ s.ids) (more : t.instances = s.instances ++ [i])

theorem SameInstances.edited (h : s.SameInstances t) : InstancesEdited s t :=
  .moved (h.1 ▸ List.forall₂_same.2 fun _ _ => rfl)

theorem instancesEdited_exportToPin {pin : Symbol}
    (h : s.exportToPin src p pin st = (.ok (t, id), st')) : InstancesEdited s t := by
  simp only [exportToPin] at h
  split at h
  · cases h
  split at h
  · cases h
  split at h
  · cases h
  rename_i connected
  obtain ⟨rfl, -⟩ := Prod.mk.inj (Except.ok.inj (Prod.mk.inj h).1)
  exact .placed _ (src.fresh_notMem _ _ _) (sameInstances_connect connected).1

theorem instancesEdited_removeInstance (h : s.removeInstance id = .ok t) :
    InstancesEdited s t := by
  rw [removeInstance] at h
  split at h
  · obtain rfl := Except.ok.inj h
    exact .dropped id rfl
  · cases h

theorem instancesEdited_moveInstance {position : Position}
    (h : s.moveInstance id position = .ok t) : InstancesEdited s t := by
  rw [moveInstance] at h
  split at h
  · obtain rfl := Except.ok.inj h
    exact .moved (moved_updateFirst _ _ _)
  · cases h

end Schematic

open Schematic

variable {src : IdSource} {s t : Schematic} {st st' : src.State} {e : Edit} {i : Instance}
  {id : String}

/-- Every edit that is not refused does one of the three things to the instances. -/
theorem Edit.instancesEdited (done : e.apply src s st = (.ok t, st')) : InstancesEdited s t := by
  cases e with
  | addInstance symbol position =>
    obtain rfl := Except.ok.inj (Prod.mk.inj done).1
    exact .placed _ (src.fresh_notMem _ _ _) rfl
  | addGlue name code ports position =>
    obtain rfl := Except.ok.inj (Prod.mk.inj done).1
    exact .placed _ (src.fresh_notMem _ _ _) rfl
  | removeInstance id => exact instancesEdited_removeInstance (Prod.mk.inj done).1
  | moveInstance id position => exact instancesEdited_moveInstance (Prod.mk.inj done).1
  | connect p q =>
    obtain ⟨id, connected⟩ := exists_of_map_fst_eq_ok (Prod.mk.inj done).1
    exact (sameInstances_connect (Prod.ext connected rfl)).edited
  | reconnect p q =>
    obtain ⟨id, connected⟩ := exists_of_map_fst_eq_ok (Prod.mk.inj done).1
    exact (sameInstances_reconnect (Prod.ext connected rfl)).edited
  | removeWire id => exact (sameInstances_removeWire (Prod.mk.inj done).1).edited
  | exportToPin p pin =>
    obtain ⟨id, exported⟩ := exists_of_map_fst_eq_ok (Prod.mk.inj done).1
    exact instancesEdited_exportToPin (Prod.ext exported rfl)
  | autoConnect =>
    obtain rfl := Except.ok.inj (Prod.mk.inj done).1
    exact (sameInstances_autoConnect s st).edited
  | withLayout response =>
    obtain rfl := Except.ok.inj (Prod.mk.inj done).1
    exact .moved (forall₂_map_self fun _ _ => rfl)

/-- An instance that an edit does not take away is the same afterwards, but for its place. -/
theorem Schematic.InstancesEdited.instance? (edited : InstancesEdited s t)
    (here : s.instance? id = some i) (kept : (t.instance? id).isSome = true) :
    ∃ j, t.instance? id = some j ∧ i.Moved j := by
  cases edited with
  | moved places =>
    obtain ⟨j, moved, found⟩ := find?_moved places here
    exact ⟨j, found, moved⟩
  | dropped other rest =>
    rw [Schematic.instance?, rest] at kept ⊢
    by_cases same : id = other
    · subst same
      simp [List.find?_filter] at kept
    · rw [find?_dropped same]
      exact ⟨i, here, rfl⟩
  | placed new fresh more =>
    refine ⟨i, ?_, rfl⟩
    rw [Schematic.instance?, more, List.find?_append]
    rw [Schematic.instance?] at here
    rw [here, Option.some_or]

/-- A run of edits after each of which there is an instance under the id. -/
inductive KeptThrough (id : String) (s : Schematic) : Schematic → Prop where
  | start : KeptThrough id s s
  | edit {t u : Schematic} {src : IdSource} {st st' : src.State} (e : Edit)
      (before : KeptThrough id s t) (done : e.apply src t st = (.ok u, st'))
      (kept : (u.instance? id).isSome = true) : KeptThrough id s u

/-- Nothing but the place of an instance changes while it is kept. -/
theorem KeptThrough.instance? (run : KeptThrough id s t) (here : s.instance? id = some i) :
    ∃ j, t.instance? id = some j ∧ i.Moved j := by
  induction run with
  | start => exact ⟨i, here, rfl⟩
  | edit e _ done kept ih =>
    obtain ⟨j, found, moved⟩ := ih
    obtain ⟨k, foundNext, movedNext⟩ := (e.instancesEdited done).instance? found kept
    exact ⟨k, foundNext, moved.trans movedNext⟩

end BlockSchematic
