import BlockSchematic.Proofs.NetNames
import Mathlib.Data.List.Basic

/-!
# Nets follow their first wires

Nets are listed by their first wires. The first wire of a net gives it its width and its number,
and the net lists its ports as the wires first mention them. A net with pins is bound to the first
of them in instance order and takes that pin's name; every other net is named by its number.
-/

namespace BlockSchematic

/-! ## First occurrences -/

theorem idxOf_filter_lt {α : Type} [BEq α] [LawfulBEq α] {p : α → Bool} {a b : α} (ha : p a = true)
    (hb : p b = true) {l : List α} (before : (l.filter p).idxOf a < (l.filter p).idxOf b) :
    l.idxOf a < l.idxOf b := by
  induction l with
  | nil => exact before
  | cons c rest ih =>
    rw [List.idxOf_cons, List.idxOf_cons]
    by_cases kept : p c = true
    · rw [List.filter_cons_of_pos kept, List.idxOf_cons, List.idxOf_cons] at before
      cases first : c == a <;> cases second : c == b <;>
        simp only [first, second, cond_true, cond_false] at before ⊢ <;> omega
    · rw [List.filter_cons_of_neg kept] at before
      have first : (c == a) = false := beq_false_of_ne fun same => kept (same ▸ ha)
      have second : (c == b) = false := beq_false_of_ne fun same => kept (same ▸ hb)
      rw [first, second]
      exact Nat.succ_lt_succ (ih before)

/-- Without its repetitions a list stands in the order of first occurrences. -/
theorem pairwise_idxOf_eraseDups {α : Type} [BEq α] [LawfulBEq α] (l : List α) :
    l.eraseDups.Pairwise fun a b => l.idxOf a < l.idxOf b := by
  cases l with
  | nil => exact .nil
  | cons c rest =>
    have other : ∀ a ∈ (rest.filter fun b => !b == c).eraseDups, (!a == c) = true := fun a ha =>
      (List.mem_filter.1 (List.mem_eraseDups.1 ha)).2
    have later : ∀ a ∈ (rest.filter fun b => !b == c).eraseDups,
        (c :: rest).idxOf a = rest.idxOf a + 1 := by
      intro a ha
      have apart : (c == a) = false := by
        rw [Bool.beq_comm]
        simpa using other a ha
      rw [List.idxOf_cons, apart, cond_false]
    rw [List.eraseDups_cons, List.pairwise_cons]
    refine ⟨fun a ha => ?_, ?_⟩
    · rw [later a ha, List.idxOf_cons_self]
      exact Nat.succ_pos _
    · refine (pairwise_idxOf_eraseDups _).imp_of_mem fun {a b} ha hb before => ?_
      rw [later a ha, later b hb]
      exact Nat.succ_lt_succ
        (idxOf_filter_lt (p := fun b => !b == c) (other a ha) (other b hb) before)
  termination_by l.length
  decreasing_by
    have := List.length_filter_le (fun b => !b == c) rest
    simp only [List.length_cons]
    omega

namespace Schematic

/-- The ports at the ends of the wires, each as often as the wires mention it. -/
def mentions (s : Schematic) : List PortRef :=
  s.wires.flatMap fun w => [w.start.port, w.finish.port]

/-- The wires mention the first port before the second. -/
def MentionedBefore (s : Schematic) (p q : PortRef) : Prop :=
  s.mentions.idxOf p < s.mentions.idxOf q

end Schematic

/-- The wire has an end at a port of the net. -/
def Net.holds (n : Net) (w : Wire) : Bool := n.members.any w.touches

/-- The instance is a pin, and its port belongs to the net. -/
def Net.HasPin (n : Net) (i : Instance) : Prop := i.isPin = true ∧ ⟨i.id, 0⟩ ∈ n.members

namespace Schematic

/-- The place of the first wire of a net among all wires. -/
def firstWire (s : Schematic) (n : Net) : Nat := s.wires.findIdx n.holds

/-- What a net is made of: the width of its first wire and the ports linked to it. -/
structure FollowsWire (s : Schematic) (n : Net) (w : Wire) : Prop where
  first : s.wires[s.firstWire n]? = some w
  width : n.width = w.width
  members : ∀ p, p ∈ n.members ↔ s.Linked w.start.port p
  order : n.members.Pairwise s.MentionedBefore

/-- How a net is named: for its first pin, or by its number where it has none. -/
inductive Named (s : Schematic) (n : Net) : Prop where
  | pin (first : Instance) {before after : List Instance}
      (split : s.instances = before ++ first :: after) (has : n.HasPin first)
      (earlier : ∀ i ∈ before, ¬ n.HasPin i) (bound : n.pin = some first.id)
      (name : n.name = Vhdl.sanitize first.name) : Named s n
  | number (pinless : ∀ i ∈ s.instances, ¬ n.HasPin i) (free : n.pin = none)
      (name : n.name = s!"net_{s.firstWire n}") : Named s n

variable {s : Schematic}

theorem mentionedBefore_members (s : Schematic) (root : Nat) :
    (s.membersOf root).Pairwise s.MentionedBefore :=
  (pairwise_idxOf_eraseDups s.mentions).filter _

/-- A wire has an end in a group exactly when it starts there. -/
theorem holds_netOf_iff {e : Nat × Nat × UInt32} {w : Wire} (hw : w ∈ s.wires) :
    (s.netOf e).holds w = true ↔ s.group w.start.port = e.1 := by
  have along : s.group w.start.port = s.group w.finish.port :=
    Linked.group_eq (.rel _ _ ⟨w, hw, by simp [Wire.joins]⟩)
  rw [Net.holds, List.any_eq_true, members_netOf]
  constructor
  · rintro ⟨p, member, touches⟩
    rw [← (mem_membersOf.1 member).2]
    rcases (Bool.or_eq_true _ _).mp touches with start | finish
    · rw [eq_of_beq start]
    · rw [along, eq_of_beq finish]
  · intro here
    exact ⟨w.start.port, mem_membersOf.2 ⟨⟨w, hw, by simp [Wire.touches]⟩, here⟩,
      by simp [Wire.touches]⟩

/-- The number of an entry is that of the first wire of its group. -/
theorem firstWire_netOf {e : Nat × Nat × UInt32} (listed : e ∈ s.netEntries) :
    s.firstWire (s.netOf e) = e.2.1 := by
  obtain ⟨w, hw, here, -⟩ := wire_of_mem_netEntries listed
  obtain ⟨inside, rfl⟩ := List.getElem?_eq_some_iff.1 hw
  have found := find?_of_mem_firstOfEach listed
  obtain ⟨-, k, hk, same, earlier⟩ := List.find?_eq_some_iff_getElem.1 found
  obtain rfl : k = e.2.1 := by rw [← same, List.getElem_mapIdx]
  rw [firstWire, List.findIdx_eq inside]
  refine ⟨(holds_netOf_iff (List.getElem_mem inside)).2 here.symm, fun j before => ?_⟩
  have other := earlier j before
  rw [List.getElem_mapIdx] at other
  rw [← Bool.not_eq_true, holds_netOf_iff (List.getElem_mem _)]
  simpa using other

/-- Entries stand in the order of their numbers. -/
theorem pairwise_netEntries (s : Schematic) :
    s.netEntries.Pairwise fun d e => d.2.1 < e.2.1 := by
  refine List.Pairwise.sublist (firstOfEach_sublist _ _) ?_
  rw [List.pairwise_iff_getElem]
  intro i j hi hj before
  rw [List.getElem_mapIdx, List.getElem_mapIdx]
  exact before

theorem pairwise_firstWire (s : Schematic) :
    ((Netlist.build s).nets.map s.firstWire).Pairwise (· < ·) := by
  rw [nets_build, List.map_map, List.pairwise_map]
  refine (s.pairwise_netEntries).imp_of_mem fun {d e} hd he before => ?_
  rw [Function.comp_apply, Function.comp_apply, firstWire_netOf hd, firstWire_netOf he]
  exact before

theorem followsWire_netOf {e : Nat × Nat × UInt32} (listed : e ∈ s.netEntries) :
    ∃ w, s.FollowsWire (s.netOf e) w := by
  obtain ⟨w, hw, here, width⟩ := wire_of_mem_netEntries listed
  have starts : s.Wired w.start.port := ⟨w, List.mem_of_getElem? hw, by simp [Wire.touches]⟩
  refine ⟨w, ?_, ?_, fun p => ?_, ?_⟩
  · rw [firstWire_netOf listed, hw]
  · rw [width_netOf, width]
  · rw [members_netOf, mem_membersOf, here]
    constructor
    · rintro ⟨wired, same⟩
      exact (group_eq_iff_linked starts wired).1 same.symm
    · intro linked
      exact ⟨linked.wired_iff.1 starts, linked.group_eq.symm⟩
  · rw [members_netOf]
    exact s.mentionedBefore_members e.1

theorem named_netOf {e : Nat × Nat × UInt32} (listed : e ∈ s.netEntries) :
    s.Named (s.netOf e) := by
  have has : ∀ i : Instance, (i.isPin && (s.membersOf e.1).contains ⟨i.id, 0⟩) = true ↔
      (s.netOf e).HasPin i := by
    intro i
    rw [Bool.and_eq_true, List.contains_iff_mem, Net.HasPin, members_netOf]
  cases found : s.bindingPin? (s.membersOf e.1) with
  | none =>
    have made : s.netOf e = ⟨s!"net_{e.2.1}", e.2.2, s.membersOf e.1, none⟩ := by
      rw [netOf, Net.make, found]
    refine .number (fun i hi => ?_) (by rw [made]) (by rw [firstWire_netOf listed, made])
    rw [← has]
    exact List.find?_eq_none.1 found i hi
  | some first =>
    have made : s.netOf e =
        ⟨Vhdl.sanitize first.name, e.2.2, s.membersOf e.1, some first.id⟩ := by
      rw [netOf, Net.make, found]
    obtain ⟨holds, before, after, split, earlier⟩ := List.find?_eq_some_iff_append.1 found
    refine .pin first split ((has first).1 holds) (fun i hi => ?_) (by rw [made]) (by rw [made])
    rw [← has, Bool.not_eq_true]
    simpa only [Bool.not_eq_true'] using earlier i hi

/-- Nets without a pin are numbered, and no number is given twice. -/
theorem nodup_signalNames (s : Schematic) :
    (((Netlist.build s).nets.filter (·.isSignal)).map (·.name)).Nodup := by
  have numbered : ∀ e, (s.netOf e).isSignal = true → (s.netOf e).name = s!"net_{e.2.1}" := by
    intro e free
    rcases s.netOf_cases e with ⟨a, -, -, bound, -⟩ | ⟨-, name⟩
    · rw [Net.isSignal, bound] at free
      cases free
    · exact name
  rw [nets_build, List.filter_map, List.map_map, List.Nodup, List.pairwise_map]
  refine (s.pairwise_netEntries.filter _).imp_of_mem fun {d e} hd he before same => ?_
  have freeD := (List.mem_filter.1 hd).2
  have freeE := (List.mem_filter.1 he).2
  simp only [Function.comp_apply, numbered d freeD, numbered e freeE] at same
  have alike : Vhdl.SameIdentifier s!"net_{d.2.1}" s!"net_{e.2.1}" := by rw [same]; rfl
  exact Nat.ne_of_lt before (netName_inj alike)

/-- The nets of any schematic follow their first wires, by which they are listed. Every wire is on a
net; a net has the width of its first wire and lists the ports linked to it as the wires first
mention them. It is bound to its first pin in instance order and named for it, or has no pin and
bears the number of its first wire, and no two nets without a pin have one name. -/
theorem nets_follow_first_wires (s : Schematic) :
    ((Netlist.build s).nets.map s.firstWire).Pairwise (· < ·) ∧
    (∀ w ∈ s.wires, ∃ n ∈ (Netlist.build s).nets, n.holds w = true) ∧
    (∀ n ∈ (Netlist.build s).nets, (∃ w, s.FollowsWire n w) ∧ s.Named n) ∧
    (((Netlist.build s).nets.filter (·.isSignal)).map (·.name)).Nodup := by
  refine ⟨s.pairwise_firstWire, fun w hw => ?_, fun n hn => ?_, s.nodup_signalNames⟩
  · obtain ⟨e, he, key⟩ :=
      exists_netEntry (s := s) (p := w.start.port) ⟨w, hw, by simp [Wire.touches]⟩
    rw [nets_build]
    exact ⟨s.netOf e, List.mem_map_of_mem he, (holds_netOf_iff hw).2 key.symm⟩
  · rw [nets_build] at hn
    obtain ⟨e, he, rfl⟩ := List.mem_map.1 hn
    exact ⟨followsWire_netOf he, named_netOf he⟩

end Schematic

end BlockSchematic
