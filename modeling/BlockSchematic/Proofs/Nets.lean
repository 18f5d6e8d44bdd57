import BlockSchematic.Netlist.Basic
import BlockSchematic.Proofs.Forest
import Mathlib.Data.List.Basic
import Mathlib.Data.List.Nodup
import Mathlib.Data.Sym.Sym2

/-!
# Nets are the connected components of the wires

Two ports are linked when a chain of wires joins them, each wire taken in either direction. The
nets of a schematic are the classes of wired ports under this relation. Nothing is assumed of the
schematic: wires may dangle, repeat or join a port to itself.
-/

namespace BlockSchematic

theorem nodup_eraseDups {α : Type} [BEq α] [LawfulBEq α] (l : List α) : l.eraseDups.Nodup := by
  cases l with
  | nil => exact List.nodup_nil
  | cons a rest =>
    rw [List.eraseDups_cons, List.nodup_cons]
    exact ⟨by simp [List.mem_eraseDups], nodup_eraseDups _⟩
  termination_by l.length
  decreasing_by
    have := List.length_filter_le (fun b => !b == a) rest
    simp only [List.length_cons]
    omega

section FirstOfEach

variable {α β : Type} [BEq β] {key : α → β}

theorem firstOfEach_sublist (seen : List β) (l : List α) :
    (firstOfEach key seen l).Sublist l := by
  induction l generalizing seen with
  | nil => exact .slnil
  | cons b rest ih =>
    rw [firstOfEach]
    split
    · exact (ih seen).cons b
    · exact (ih (key b :: seen)).cons_cons b

theorem mem_of_mem_firstOfEach {seen : List β} {l : List α} {a : α}
    (h : a ∈ firstOfEach key seen l) : a ∈ l :=
  (firstOfEach_sublist seen l).subset h

variable [LawfulBEq β]

/-- No key is kept twice, and none that was seen before. -/
theorem keys_firstOfEach (seen : List β) (l : List α) :
    ((firstOfEach key seen l).map key).Nodup ∧ ∀ a ∈ firstOfEach key seen l, key a ∉ seen := by
  induction l generalizing seen with
  | nil => exact ⟨List.nodup_nil, nofun⟩
  | cons b rest ih =>
    rw [firstOfEach]
    split
    · exact ih seen
    · rename_i new
      obtain ⟨nodup, unseen⟩ := ih (key b :: seen)
      refine ⟨List.nodup_cons.2 ⟨?_, nodup⟩, ?_⟩
      · intro taken
        obtain ⟨a, ha, same⟩ := List.mem_map.1 taken
        exact unseen a ha (same ▸ List.mem_cons_self)
      · intro a ha
        rcases List.mem_cons.1 ha with rfl | ha
        · simpa using new
        · exact fun old => unseen a ha (List.mem_cons_of_mem _ old)

/-- Every key that was not seen before is kept. -/
theorem exists_mem_firstOfEach {seen : List β} {l : List α} {a : α} (ha : a ∈ l)
    (new : key a ∉ seen) : ∃ b ∈ firstOfEach key seen l, key b = key a := by
  induction l generalizing seen with
  | nil => cases ha
  | cons c rest ih =>
    rw [firstOfEach]
    by_cases old : key c ∈ seen
    · rw [if_pos (by simpa using old)]
      rcases List.mem_cons.1 ha with rfl | ha
      · exact absurd old new
      · exact ih ha new
    · rw [if_neg (by simpa using old)]
      by_cases same : key a = key c
      · exact ⟨c, List.mem_cons_self, same.symm⟩
      · rcases List.mem_cons.1 ha with rfl | ha
        · exact absurd rfl same
        · have unseen : key a ∉ key c :: seen := by simp [same, new]
          obtain ⟨b, hb, hkey⟩ := ih ha unseen
          exact ⟨b, List.mem_cons_of_mem _ hb, hkey⟩

end FirstOfEach

/-- What is kept is the first item of its key. -/
theorem find?_of_mem_firstOfEach {α β : Type} [DecidableEq β] {key : α → β} {seen : List β}
    {l : List α} {a : α} (kept : a ∈ firstOfEach key seen l) :
    l.find? (key · = key a) = some a := by
  induction l generalizing seen with
  | nil => cases kept
  | cons b rest ih =>
    rw [firstOfEach] at kept
    split at kept
    · rename_i old
      have other : key b ≠ key a := by
        intro same
        exact (keys_firstOfEach seen rest).2 a kept (same ▸ List.contains_iff_mem.1 old)
      simp only [List.find?_cons, other, decide_false]
      exact ih kept
    · rcases List.mem_cons.1 kept with rfl | later
      · simp
      · have other : key b ≠ key a := by
          intro same
          exact (keys_firstOfEach (key b :: seen) rest).2 a later (same ▸ List.mem_cons_self)
        simp only [List.find?_cons, other, decide_false]
        exact ih later

/-- The two ports of a wire, whichever way it was drawn. -/
def Wire.ends (w : Wire) : Sym2 PortRef := s(w.start.port, w.finish.port)

theorem Wire.joins_iff_ends {w : Wire} {p q : PortRef} :
    w.joins p q = true ↔ w.ends = s(p, q) := by
  simp [joins, ends]

namespace Schematic

/-- The port is an end of some wire. -/
def Wired (s : Schematic) (p : PortRef) : Prop := ∃ w ∈ s.wires, w.touches p = true

def Joined (s : Schematic) (p q : PortRef) : Prop := ∃ w ∈ s.wires, w.joins p q = true

/-- A chain of wires leads from one port to the other. -/
def Linked (s : Schematic) : PortRef → PortRef → Prop := Relation.EqvGen s.Joined

/-- Both ports have a net, and it is the same. -/
def SameNet (s : Schematic) (p q : PortRef) : Prop :=
  ∃ net, (Netlist.build s).netOf? p = some net ∧ (Netlist.build s).netOf? q = some net

/-- The root of the group that a port is put into. -/
def group (s : Schematic) (p : PortRef) : Nat :=
  (s.links s.wiredPorts).root (s.wiredPorts.idxOf p)

theorem joined_iff_ends {s : Schematic} {p q : PortRef} :
    s.Joined p q ↔ s(p, q) ∈ s.wires.map Wire.ends := by
  simp only [Joined, Wire.joins_iff_ends, List.mem_map]

theorem wired_iff_ends {s : Schematic} {p : PortRef} :
    s.Wired p ↔ ∃ e ∈ s.wires.map Wire.ends, p ∈ e := by
  simp only [Wired, Wire.touches, List.mem_map, exists_exists_and_eq_and, Wire.ends, Sym2.mem_iff,
    Bool.or_eq_true, beq_iff_eq, eq_comm (a := p)]

theorem Joined.wired {s : Schematic} {p q : PortRef} (h : s.Joined p q) :
    s.Wired p ∧ s.Wired q := by
  obtain ⟨w, hw, joins⟩ := h
  simp only [Wire.joins, Bool.or_eq_true, Bool.and_eq_true] at joins
  constructor <;> refine ⟨w, hw, ?_⟩ <;> simp only [Wire.touches, Bool.or_eq_true]
  · exact joins.imp And.left And.right
  · exact joins.symm.imp And.left And.right

theorem Linked.wired_iff {s : Schematic} {p q : PortRef} (h : s.Linked p q) :
    s.Wired p ↔ s.Wired q := by
  induction h with
  | rel p q h => exact ⟨fun _ => h.wired.2, fun _ => h.wired.1⟩
  | refl p => rfl
  | symm p q _ ih => exact ih.symm
  | trans p q r _ _ ih ih' => exact ih.trans ih'

theorem mem_wiredPorts {s : Schematic} {p : PortRef} : p ∈ s.wiredPorts ↔ s.Wired p := by
  simp only [wiredPorts, List.mem_eraseDups, List.mem_flatMap, Wired, Wire.touches,
    List.mem_cons, List.not_mem_nil, or_false, Bool.or_eq_true, beq_iff_eq]
  simp only [eq_comm]

theorem nodup_wiredPorts (s : Schematic) : s.wiredPorts.Nodup := nodup_eraseDups _

theorem start_mem_wiredPorts {s : Schematic} {w : Wire} (hw : w ∈ s.wires) :
    w.start.port ∈ s.wiredPorts :=
  mem_wiredPorts.2 ⟨w, hw, by simp [Wire.touches]⟩

theorem finish_mem_wiredPorts {s : Schematic} {w : Wire} (hw : w ∈ s.wires) :
    w.finish.port ∈ s.wiredPorts :=
  mem_wiredPorts.2 ⟨w, hw, by simp [Wire.touches]⟩

/-- The places of the two ports of each wire. -/
def linkPlaces (s : Schematic) : List (Nat × Nat) :=
  s.wires.map fun w => (s.wiredPorts.idxOf w.start.port, s.wiredPorts.idxOf w.finish.port)

theorem links_eq (s : Schematic) :
    s.links s.wiredPorts = (Forest.discrete s.wiredPorts.length).linkAll s.linkPlaces := by
  simp only [links, Forest.linkAll, linkPlaces, List.foldl_map]

theorem group_eq_iff_places (s : Schematic) (p q : PortRef) : s.group p = s.group q ↔
    Relation.EqvGen ((Forest.discrete s.wiredPorts.length).Touching s.linkPlaces)
      (s.wiredPorts.idxOf p) (s.wiredPorts.idxOf q) := by
  have inRange : ∀ e ∈ s.linkPlaces, e.1 < (Forest.discrete s.wiredPorts.length).size ∧
      e.2 < (Forest.discrete s.wiredPorts.length).size := by
    simp only [linkPlaces, List.forall_mem_map, Forest.size_discrete, List.idxOf_lt_length_iff]
    exact fun w hw => ⟨start_mem_wiredPorts hw, finish_mem_wiredPorts hw⟩
  rw [group, group, links_eq]
  exact ((Forest.sound_discrete _).linkAll _ inRange).2 _ _

theorem Linked.group_eq {s : Schematic} {p q : PortRef} (h : s.Linked p q) :
    s.group p = s.group q := by
  induction h with
  | refl p => rfl
  | symm p q _ ih => exact ih.symm
  | trans p q r _ _ ih ih' => exact ih.trans ih'
  | rel p q h =>
    obtain ⟨w, hw, joins⟩ := h
    have placed : (s.wiredPorts.idxOf w.start.port, s.wiredPorts.idxOf w.finish.port) ∈
        s.linkPlaces := List.mem_map_of_mem hw
    rw [group_eq_iff_places]
    simp only [Wire.joins, Bool.or_eq_true, Bool.and_eq_true, beq_iff_eq] at joins
    rcases joins with ⟨rfl, rfl⟩ | ⟨rfl, rfl⟩
    · exact .rel _ _ (.inr placed)
    · exact .symm _ _ (.rel _ _ (.inr placed))

/-- The port at a place. -/
def portAt (s : Schematic) (x : Nat) : PortRef := s.wiredPorts[x]?.getD default

theorem portAt_idxOf {s : Schematic} {p : PortRef} (h : p ∈ s.wiredPorts) :
    s.portAt (s.wiredPorts.idxOf p) = p := by
  rw [portAt, List.getElem?_idxOf h, Option.getD_some]

theorem linked_portAt {s : Schematic} {x y : Nat}
    (h : Relation.EqvGen ((Forest.discrete s.wiredPorts.length).Touching s.linkPlaces) x y) :
    s.Linked (s.portAt x) (s.portAt y) := by
  induction h with
  | refl x => exact .refl _
  | symm x y _ ih => exact .symm _ _ ih
  | trans x y z _ _ ih ih' => exact .trans _ _ _ ih ih'
  | rel x y h =>
    rcases h with h | h
    · obtain rfl : x = y := by simpa using h
      exact .refl _
    · obtain ⟨w, hw, same⟩ := List.mem_map.1 h
      obtain ⟨rfl, rfl⟩ := Prod.mk.inj same
      rw [portAt_idxOf (start_mem_wiredPorts hw), portAt_idxOf (finish_mem_wiredPorts hw)]
      exact .rel _ _ ⟨w, hw, by simp [Wire.joins]⟩

/-- Wired ports are put into one group exactly when a chain of wires links them. -/
theorem group_eq_iff_linked {s : Schematic} {p q : PortRef} (hp : s.Wired p) (hq : s.Wired q) :
    s.group p = s.group q ↔ s.Linked p q := by
  constructor
  · intro same
    have linked := linked_portAt ((group_eq_iff_places s p q).1 same)
    rwa [portAt_idxOf (mem_wiredPorts.2 hp), portAt_idxOf (mem_wiredPorts.2 hq)] at linked
  · exact Linked.group_eq

/-- A net in the making: its group, its first wire and that wire's width. -/
def netEntries (s : Schematic) : List (Nat × Nat × UInt32) :=
  firstOfEach (·.1) [] (s.wires.mapIdx fun k w => (s.group w.start.port, k, w.width))

def membersOf (s : Schematic) (root : Nat) : List PortRef :=
  s.wiredPorts.filter (s.group · = root)

def netOf (s : Schematic) (e : Nat × Nat × UInt32) : Net :=
  Net.make s e.2.1 e.2.2 (s.membersOf e.1)

theorem mem_membersOf {s : Schematic} {root : Nat} {p : PortRef} :
    p ∈ s.membersOf root ↔ s.Wired p ∧ s.group p = root := by
  simp [membersOf, mem_wiredPorts]

theorem nets_build (s : Schematic) : (Netlist.build s).nets = s.netEntries.map s.netOf := by
  have rooted : (s.wiredPorts.mapIdx fun slot p => ((s.links s.wiredPorts).root slot, p)) =
      s.wiredPorts.map fun p => (s.group p, p) := by
    refine List.ext_getElem (by simp) fun i hi _ => ?_
    have hi : i < s.wiredPorts.length := by simpa using hi
    simp [group, s.nodup_wiredPorts.idxOf_getElem i hi]
  have members : ∀ root, ((s.wiredPorts.map fun p => (s.group p, p)).filter (·.1 = root)).map (·.2)
      = s.membersOf root := by
    intro root
    simp [membersOf, List.filter_map, Function.comp_def]
  simp only [Netlist.build, rooted, members]
  rfl

theorem members_netOf (s : Schematic) (e : Nat × Nat × UInt32) :
    (s.netOf e).members = s.membersOf e.1 := by
  rw [netOf, Net.make]
  split <;> rfl

theorem width_netOf (s : Schematic) (e : Nat × Nat × UInt32) : (s.netOf e).width = e.2.2 := by
  rw [netOf, Net.make]
  split <;> rfl

/-- An entry stands for a wire, which gives it its group, number and width. -/
theorem wire_of_mem_netEntries {s : Schematic} {e : Nat × Nat × UInt32} (h : e ∈ s.netEntries) :
    ∃ w, s.wires[e.2.1]? = some w ∧ e.1 = s.group w.start.port ∧ e.2.2 = w.width := by
  obtain ⟨k, hk, rfl⟩ := List.mem_mapIdx.1 (mem_of_mem_firstOfEach h)
  exact ⟨s.wires[k], List.getElem?_eq_getElem hk, rfl, rfl⟩

theorem netEntries_unique {s : Schematic} {d e : Nat × Nat × UInt32} (hd : d ∈ s.netEntries)
    (he : e ∈ s.netEntries) (same : d.1 = e.1) : d = e :=
  List.inj_on_of_nodup_map (keys_firstOfEach [] _).1 hd he same

theorem nodup_netEntries (s : Schematic) : s.netEntries.Nodup :=
  List.Nodup.of_map _ (keys_firstOfEach [] _).1

/-- The group of each wired port has an entry: the port is linked to the start of its wire. -/
theorem exists_netEntry {s : Schematic} {p : PortRef} (h : s.Wired p) :
    ∃ e ∈ s.netEntries, e.1 = s.group p := by
  obtain ⟨w, hw, touches⟩ := h
  have linked : s.Linked w.start.port p := by
    simp only [Wire.touches, Bool.or_eq_true, beq_iff_eq] at touches
    rcases touches with rfl | rfl
    · exact .refl _
    · exact .rel _ _ ⟨w, hw, by simp [Wire.joins]⟩
  obtain ⟨k, hk, rfl⟩ := List.getElem_of_mem hw
  obtain ⟨e, he, key⟩ : ∃ e ∈ s.netEntries, e.1 = s.group s.wires[k].start.port :=
    exists_mem_firstOfEach (List.mem_mapIdx.2 ⟨k, hk, rfl⟩) List.not_mem_nil
  exact ⟨e, he, key.trans linked.group_eq⟩

theorem entry_of_netOf? {s : Schematic} {p : PortRef} {net : Net}
    (h : (Netlist.build s).netOf? p = some net) :
    s.Wired p ∧ ∃ e ∈ s.netEntries, e.1 = s.group p ∧ s.netOf e = net := by
  rw [Netlist.netOf?, nets_build] at h
  have holds := List.find?_some h
  obtain ⟨e, he, rfl⟩ := List.mem_map.1 (List.mem_of_find?_eq_some h)
  rw [List.contains_iff_mem, members_netOf, mem_membersOf] at holds
  exact ⟨holds.1, e, he, holds.2.symm, rfl⟩

/-- A wired port has the net of its group, and no other port has one. -/
theorem netOf?_eq_some_iff {s : Schematic} {p : PortRef} {net : Net} :
    (Netlist.build s).netOf? p = some net ↔
      s.Wired p ∧ ∃ e ∈ s.netEntries, e.1 = s.group p ∧ s.netOf e = net := by
  constructor
  · exact entry_of_netOf?
  · rintro ⟨wired, e, he, key, rfl⟩
    have present : ((Netlist.build s).netOf? p).isSome := by
      rw [Netlist.netOf?, nets_build, List.find?_isSome]
      refine ⟨s.netOf e, List.mem_map_of_mem he, ?_⟩
      rw [List.contains_iff_mem, members_netOf]
      exact mem_membersOf.2 ⟨wired, key.symm⟩
    obtain ⟨net, found⟩ := Option.isSome_iff_exists.1 present
    obtain ⟨_, d, hd, key', rfl⟩ := entry_of_netOf? found
    rwa [netEntries_unique hd he (key'.trans key.symm)] at found

theorem isSome_netOf? {s : Schematic} {p : PortRef} :
    ((Netlist.build s).netOf? p).isSome = true ↔ s.Wired p := by
  rw [Option.isSome_iff_exists]
  constructor
  · rintro ⟨net, found⟩
    exact (entry_of_netOf? found).1
  · intro wired
    obtain ⟨e, he, key⟩ := exists_netEntry wired
    exact ⟨s.netOf e, netOf?_eq_some_iff.2 ⟨wired, e, he, key, rfl⟩⟩

/-- The net of a port lists it, together with the ports linked to it. -/
theorem mem_members_iff_linked {s : Schematic} {p q : PortRef} {net : Net}
    (h : (Netlist.build s).netOf? p = some net) : q ∈ net.members ↔ s.Linked p q := by
  obtain ⟨wired, e, he, key, rfl⟩ := entry_of_netOf? h
  rw [members_netOf, mem_membersOf, key]
  constructor
  · rintro ⟨hq, same⟩
    exact (group_eq_iff_linked wired hq).1 same.symm
  · intro linked
    exact ⟨linked.wired_iff.1 wired, linked.group_eq.symm⟩

theorem sameNet_iff {s : Schematic} {p q : PortRef} :
    s.SameNet p q ↔ s.Wired p ∧ s.Linked p q := by
  constructor
  · rintro ⟨net, hp, hq⟩
    exact ⟨(entry_of_netOf? hp).1, (mem_members_iff_linked hp).1
      ((mem_members_iff_linked hq).2 (.refl q))⟩
  · rintro ⟨wired, linked⟩
    obtain ⟨net, hp⟩ := Option.isSome_iff_exists.1 (isSome_netOf?.2 wired)
    obtain ⟨_, e, he, key, hnet⟩ := entry_of_netOf? hp
    exact ⟨net, hp, netOf?_eq_some_iff.2
      ⟨linked.wired_iff.1 wired, e, he, key.trans linked.group_eq, hnet⟩⟩

/-- No port is listed twice, neither in one net nor in two. -/
theorem nodup_members (s : Schematic) : ((Netlist.build s).nets.flatMap (·.members)).Nodup := by
  rw [nets_build, List.flatMap_map, List.nodup_flatMap]
  constructor
  · intro e _
    rw [members_netOf]
    exact s.nodup_wiredPorts.filter _
  · refine s.nodup_netEntries.imp_of_mem fun {d e} hd he apart p hpd hpe => apart ?_
    simp only [members_netOf, mem_membersOf] at hpd hpe
    exact netEntries_unique hd he (hpd.2.symm.trans hpe.2)

theorem linked_congr {s t : Schematic}
    (same : (t.wires.map Wire.ends).Perm (s.wires.map Wire.ends)) : t.Linked = s.Linked := by
  have joined : t.Joined = s.Joined := by
    funext p q
    exact propext (by rw [joined_iff_ends, joined_iff_ends, same.mem_iff])
  rw [Linked, Linked, joined]

theorem wired_congr {s t : Schematic}
    (same : (t.wires.map Wire.ends).Perm (s.wires.map Wire.ends)) (p : PortRef) :
    t.Wired p ↔ s.Wired p := by
  simp only [wired_iff_ends, same.mem_iff]

/-- The nets of any schematic are the components of its wires: a port has a net exactly when it is
wired, two wired ports have one net exactly when a chain of wires links them, and each wired port
is listed once, in its own net. The order of the wires and their orientation do not matter. -/
theorem nets_are_components (s : Schematic) :
    (∀ p, ((Netlist.build s).netOf? p).isSome = true ↔ s.Wired p) ∧
    (∀ p q, s.Wired p → s.Wired q → (s.SameNet p q ↔ s.Linked p q)) ∧
    (∀ p, s.Wired p → ((Netlist.build s).nets.flatMap (·.members)).count p = 1 ∧
      ∃ net ∈ (Netlist.build s).nets, (Netlist.build s).netOf? p = some net ∧
        p ∈ net.members) ∧
    ∀ t : Schematic, (t.wires.map Wire.ends).Perm (s.wires.map Wire.ends) →
      ∀ p q, t.SameNet p q ↔ s.SameNet p q := by
  refine ⟨fun p => isSome_netOf?, fun p q hp _ => ?_, fun p hp => ?_, fun t same p q => ?_⟩
  · rw [sameNet_iff, and_iff_right hp]
  · obtain ⟨net, found⟩ := Option.isSome_iff_exists.1 (isSome_netOf?.2 hp)
    have listed : p ∈ net.members := (mem_members_iff_linked found).2 (.refl p)
    have hnet : net ∈ (Netlist.build s).nets := List.mem_of_find?_eq_some found
    exact ⟨List.count_eq_one_of_mem s.nodup_members (List.mem_flatMap.2 ⟨net, hnet, listed⟩),
      net, hnet, found, listed⟩
  · rw [sameNet_iff, sameNet_iff, wired_congr same, linked_congr same]

/-- A wire between ports of instances that need not exist. -/
def looseWire (id a b : String) : Wire :=
  ⟨id, ⟨⟨a, 0⟩, .origin⟩, ⟨⟨b, 0⟩, .origin⟩, none, 1⟩

/-- Two nets that the last wire makes one. -/
def looseChain : Schematic :=
  ⟨[], [looseWire "w_1" "a" "b", looseWire "w_2" "c" "d", looseWire "w_3" "b" "c"], .empty⟩

theorem sameNet_looseChain : looseChain.SameNet ⟨"a", 0⟩ ⟨"d", 0⟩ := by
  have joined : ∀ {id a b}, looseWire id a b ∈ looseChain.wires →
      looseChain.Joined ⟨a, 0⟩ ⟨b, 0⟩ := fun {id a b} h =>
    ⟨looseWire id a b, h, by simp [Wire.joins, looseWire]⟩
  have ab : looseChain.Joined ⟨"a", 0⟩ ⟨"b", 0⟩ := joined List.mem_cons_self
  have cd : looseChain.Joined ⟨"c", 0⟩ ⟨"d", 0⟩ :=
    joined (List.mem_cons_of_mem _ List.mem_cons_self)
  have bc : looseChain.Joined ⟨"b", 0⟩ ⟨"c", 0⟩ :=
    joined (List.mem_cons_of_mem _ (List.mem_cons_of_mem _ List.mem_cons_self))
  have linked : looseChain.Linked ⟨"a", 0⟩ ⟨"d", 0⟩ :=
    .trans _ _ _ (.rel _ _ ab) (.trans _ _ _ (.rel _ _ bc) (.rel _ _ cd))
  exact ((nets_are_components looseChain).2.1 _ _ ab.wired.1 cd.wired.2).2 linked

end Schematic

end BlockSchematic
