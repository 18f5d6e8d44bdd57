import BlockSchematic.Proofs.Edits
import Mathlib.Data.List.Nodup

/-!
# Edits keep a schematic well formed

No id names two things, every wire is one that the rules accept, and its ends are where its ports
are. The conditions are kept by each small change, and therefore by every sequence of edits.
-/

namespace BlockSchematic

open Schematic

/-- The rules do not ask where an instance stands. -/
theorem Compatible.moved {i j i' j' : Instance} {source target : Port}
    (h : Compatible i j source target) (hi : i.Moved i') (hj : j.Moved j') :
    Compatible i' j' source target := by
  rw [hi, hj]
  exact ⟨h.pins, h.width, h.sourcePin, h.targetPin, h.directions⟩

namespace Schematic

structure WellFormed (s : Schematic) : Prop where
  instanceIds : (s.instances.map (·.id)).Nodup
  wireIds : (s.wires.map (·.id)).Nodup
  apart : ∀ w ∈ s.wires, ∀ i ∈ s.instances, w.id ≠ i.id
  wires : ∀ w ∈ s.wires, s.WireFits w

theorem mem_ids_of_instance {s : Schematic} {i : Instance} (h : i ∈ s.instances) : i.id ∈ s.ids :=
  List.mem_append_left _ (List.mem_map_of_mem h)

theorem mem_ids_of_wire {s : Schematic} {w : Wire} (h : w ∈ s.wires) : w.id ∈ s.ids :=
  List.mem_append_right _ (List.mem_map_of_mem h)

/-- Where ids are distinct, no other instance hides a present one. -/
theorem instance?_of_mem {s : Schematic} (ids : (s.instances.map (·.id)).Nodup) {i : Instance}
    (h : i ∈ s.instances) : s.instance? i.id = some i := by
  have present : (s.instance? i.id).isSome := List.find?_isSome.2 ⟨i, h, by simp⟩
  obtain ⟨j, found⟩ := Option.isSome_iff_exists.1 present
  have same : j.id = i.id := by simpa using List.find?_some found
  rw [found, List.inj_on_of_nodup_map ids (List.mem_of_find?_eq_some found) h same]

theorem WellFormed.eq_of_id {s : Schematic} (hs : s.WellFormed) {i j : Instance}
    (hi : i ∈ s.instances) (hj : j ∈ s.instances) (same : i.id = j.id) : i = j :=
  List.inj_on_of_nodup_map hs.instanceIds hi hj same

theorem WellFormed.instance?_of_mem {s : Schematic} (hs : s.WellFormed) {i : Instance}
    (h : i ∈ s.instances) : s.instance? i.id = some i :=
  Schematic.instance?_of_mem hs.instanceIds h

theorem WellFormed.eq_of_port? {s : Schematic} (hs : s.WellFormed) {i j : Instance} {port : Port}
    {p : PortRef} (hi : i ∈ s.instances) (h : s.port? p = some (j, port))
    (same : p.instanceId = i.id) : i = j := by
  have found := (port?_eq_some_iff.1 h).1
  rw [same, hs.instance?_of_mem hi] at found
  exact Option.some.inj found

theorem wellFormed_empty : WellFormed .empty where
  instanceIds := List.nodup_nil
  wireIds := List.nodup_nil
  apart := nofun
  wires := nofun

/-- A wire goes on fitting while its two ports stay as they are. -/
theorem WireFits.of_ports {s t : Schematic} {w : Wire} (fits : s.WireFits w)
    (keeps : ∀ p, w.touchesInstance p.instanceId = true → ∀ x, s.port? p = some x →
      t.port? p = some x) : t.WireFits w := by
  obtain ⟨legal, ⟨i, source, hs, sourceWidth, sourcePlace⟩, ⟨j, target, ht, targetWidth,
    targetPlace⟩⟩ := fits
  have hs' := keeps w.start.port (by simp [Wire.touchesInstance]) _ hs
  have ht' := keeps w.finish.port (by simp [Wire.touchesInstance]) _ ht
  obtain ⟨apart, i', j', source', target', hi, hj, compatible⟩ := check_eq_ok_iff.1 legal
  refine ⟨check_eq_ok_iff.2 ⟨apart, i, j, source, target, hs', ht', ?_⟩,
    ⟨i, source, hs', sourceWidth, sourcePlace⟩, ⟨j, target, ht', targetWidth, targetPlace⟩⟩
  obtain ⟨rfl, rfl⟩ := Prod.mk.inj (Option.some.inj (hi.symm.trans hs))
  obtain ⟨rfl, rfl⟩ := Prod.mk.inj (Option.some.inj (hj.symm.trans ht))
  exact compatible

/-- Ports are found by instance, so an unchanged instance has unchanged ports. -/
theorem port?_of_instance? {s t : Schematic} {p : PortRef}
    (keeps : ∀ i, s.instance? p.instanceId = some i → t.instance? p.instanceId = some i)
    (x : Instance × Port) (h : s.port? p = some x) : t.port? p = some x := by
  obtain ⟨hi, hport⟩ := port?_eq_some_iff.1 h
  exact port?_eq_some_iff.2 ⟨keeps _ hi, hport⟩

theorem port?_withInstance {s : Schematic} {i : Instance} {p : PortRef} {x : Instance × Port}
    (h : s.port? p = some x) : (s.withInstance i).port? p = some x := by
  refine port?_of_instance? (fun j hj => ?_) x h
  simp only [instance?, withInstance, List.find?_append] at hj ⊢
  rw [hj, Option.some_or]

theorem WellFormed.place {s : Schematic} (hs : s.WellFormed) {i : Instance}
    (fresh : i.id ∉ s.ids) : (s.withInstance i).WellFormed where
  instanceIds := by
    rw [withInstance, List.map_append, List.map_singleton, ← List.concat_eq_append, List.nodup_concat]
    exact ⟨fun taken => fresh (List.mem_append_left _ taken), hs.instanceIds⟩
  wireIds := hs.wireIds
  apart := by
    intro w hw j hj same
    rcases List.mem_append.1 hj with hj | hj
    · exact hs.apart w hw j hj same
    · obtain rfl := List.mem_singleton.1 hj
      exact fresh (same ▸ mem_ids_of_wire hw)
  wires := by
    intro w hw
    exact (hs.wires w hw).of_ports fun p _ x hx => port?_withInstance hx

/-- Where an instance is taken away, the others are found as before. -/
theorem find?_dropped {is : List Instance} {id other : String} (apart : id ≠ other) :
    (is.filter (·.id ≠ other)).find? (·.id = id) = is.find? (·.id = id) := by
  rw [List.find?_filter]
  congr 1
  funext i
  by_cases here : i.id = id
  · simp [here, apart]
  · simp [here]

theorem WellFormed.dropInstance {s : Schematic} (hs : s.WellFormed) (id : String) :
    WellFormed { s with
      instances := s.instances.filter (·.id ≠ id)
      wires := s.wires.filter (!·.touchesInstance id) } where
  instanceIds := hs.instanceIds.sublist (List.filter_sublist.map _)
  wireIds := hs.wireIds.sublist (List.filter_sublist.map _)
  apart w hw i hi := hs.apart w (List.mem_of_mem_filter hw) i (List.mem_of_mem_filter hi)
  wires := by
    intro w hw
    obtain ⟨hw, untouched⟩ := List.mem_filter.1 hw
    refine (hs.wires w hw).of_ports fun p touched => port?_of_instance? fun j hj => ?_
    have other : p.instanceId ≠ id := by
      rintro rfl
      simp [touched] at untouched
    exact (find?_dropped other).trans hj

theorem WellFormed.dropWires {s : Schematic} (hs : s.WellFormed) (keep : Wire → Bool) :
    WellFormed { s with wires := s.wires.filter keep } where
  instanceIds := hs.instanceIds
  wireIds := hs.wireIds.sublist (List.filter_sublist.map _)
  apart w hw := hs.apart w (List.mem_of_mem_filter hw)
  wires w hw := (hs.wires w (List.mem_of_mem_filter hw)).of_ports fun _ _ _ h => h

theorem WellFormed.wire {s : Schematic} (hs : s.WellFormed) {w : Wire} (fresh : w.id ∉ s.ids)
    (fits : s.WireFits w) : (s.withWire w).WellFormed where
  instanceIds := hs.instanceIds
  wireIds := by
    rw [withWire, List.map_append, List.map_singleton, ← List.concat_eq_append, List.nodup_concat]
    exact ⟨fun taken => fresh (List.mem_append_right _ taken), hs.wireIds⟩
  apart := by
    intro v hv i hi same
    rcases List.mem_append.1 hv with hv | hv
    · exact hs.apart v hv i hi same
    · obtain rfl := List.mem_singleton.1 hv
      exact fresh (same ▸ mem_ids_of_instance hi)
  wires := by
    intro v hv
    rcases List.mem_append.1 hv with hv | hv
    · exact (hs.wires v hv).of_ports fun _ _ _ h => h
    · obtain rfl := List.mem_singleton.1 hv
      exact fits.of_ports fun _ _ _ h => h

/-- Instances that were put elsewhere are found under their ids as before. -/
theorem find?_moved {is js : List Instance} (moved : List.Forall₂ Instance.Moved is js)
    {id : String} {i : Instance} (h : is.find? (·.id = id) = some i) :
    ∃ j, i.Moved j ∧ js.find? (·.id = id) = some j := by
  induction moved with
  | nil => cases h
  | @cons i' j' is js here _ ih =>
    have sameId : j'.id = i'.id := by rw [here]
    by_cases hid : i'.id = id
    · simp only [List.find?_cons, hid, decide_true, Option.some.injEq] at h
      subst h
      exact ⟨j', here, by simp [sameId, hid]⟩
    · simp only [List.find?_cons, hid, decide_false] at h
      obtain ⟨j, hj, found⟩ := ih h
      exact ⟨j, hj, by simpa [sameId, hid] using found⟩

theorem port?_moved {s t : Schematic} (moved : List.Forall₂ Instance.Moved s.instances t.instances)
    {p : PortRef} {i : Instance} {port : Port} (h : s.port? p = some (i, port)) :
    ∃ j, i.Moved j ∧ t.port? p = some (j, port) := by
  obtain ⟨hi, hport⟩ := port?_eq_some_iff.1 h
  obtain ⟨j, hj, found⟩ := find?_moved moved hi
  refine ⟨j, hj, port?_eq_some_iff.2 ⟨found, ?_⟩⟩
  rw [hj]
  exact hport

theorem map_id_moved {is js : List Instance} (moved : List.Forall₂ Instance.Moved is js) :
    js.map (·.id) = is.map (·.id) :=
  (map_eq_of_forall₂ moved fun here => by rw [here]).symm

/-- A refreshed end is where its port is. -/
theorem EndFits.refresh {s t : Schematic} {e : WireEnd} {width : UInt32} (h : s.EndFits width e)
    (moved : List.Forall₂ Instance.Moved s.instances t.instances) :
    t.EndFits width (t.refreshEnd e) := by
  obtain ⟨i, port, found, hw, -⟩ := h
  obtain ⟨j, -, found'⟩ := port?_moved moved found
  exact ⟨j, port, found', hw, by simp [refreshEnd, portPosition?_eq, found']⟩

theorem WireFits.refresh {s t : Schematic} {w : Wire} {route : Option (List Position)}
    (h : s.WireFits w) (moved : List.Forall₂ Instance.Moved s.instances t.instances) :
    t.WireFits { w with route, start := t.refreshEnd w.start, finish := t.refreshEnd w.finish } := by
  refine ⟨?_, h.start.refresh moved, h.finish.refresh moved⟩
  obtain ⟨apart, i, j, source, target, hs, ht, compatible⟩ := check_eq_ok_iff.1 h.legal
  obtain ⟨i', hi, hs'⟩ := port?_moved moved hs
  obtain ⟨j', hj, ht'⟩ := port?_moved moved ht
  exact check_eq_ok_iff.2 ⟨apart, i', j', source, target, hs', ht', compatible.moved hi hj⟩

theorem WellFormed.rearrange {s : Schematic} (hs : s.WellFormed) {instances : List Instance}
    (route : Wire → Option (List Position))
    (moved : List.Forall₂ Instance.Moved s.instances instances) :
    WellFormed ({ s with
      instances
      wires := s.wires.map fun w => { w with route := route w } } : Schematic).refreshWires where
  instanceIds := by
    rw [refreshWires, map_id_moved moved]
    exact hs.instanceIds
  wireIds := by
    simp only [refreshWires, List.map_map]
    exact hs.wireIds
  apart := by
    simp only [refreshWires, List.map_map, List.forall_mem_map]
    intro w hw i hi
    have kept : i.id ∈ s.instances.map (·.id) := map_id_moved moved ▸ List.mem_map_of_mem hi
    obtain ⟨j, hj, same⟩ := List.mem_map.1 kept
    exact same ▸ hs.apart w hw j hj
  wires := by
    simp only [refreshWires, List.map_map, List.forall_mem_map]
    intro w hw
    exact (hs.wires w hw).refresh moved

/-- Each small change keeps a schematic well formed. -/
theorem WellFormed.change {s t : Schematic} (h : Change s t) (hs : s.WellFormed) :
    t.WellFormed := by
  cases h with
  | place i fresh _ => exact hs.place fresh
  | dropInstance id => exact hs.dropInstance id
  | dropWires keep => exact hs.dropWires keep
  | wire w fresh fits => exact hs.wire fresh fits
  | rearrange instances route moved => exact hs.rearrange route moved

theorem WellFormed.changes {s t : Schematic} (h : Changes s t) (hs : s.WellFormed) :
    t.WellFormed := by
  induction h with
  | refl => exact hs
  | tail _ last ih => exact ih.change last

end Schematic

theorem Reachable.wellFormed {s : Schematic} (h : Reachable s) : s.WellFormed :=
  Schematic.wellFormed_empty.changes h.changes

end BlockSchematic
