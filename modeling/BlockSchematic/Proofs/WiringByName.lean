import BlockSchematic.Proofs.Nets
import BlockSchematic.Proofs.WellFormed

/-!
# What wiring by name adds

The sweep meets every pair of ports twice, once from each side, and first from the side of the
instance that stands first. It wires the pair there unless it has a wire already, so the wires it
adds are those of the pairs that lack one, each drawn forwards, in the order of the ports.
-/

namespace BlockSchematic

def Wire.portPair (w : Wire) : PortRef × PortRef := (w.start.port, w.finish.port)

namespace Schematic

/-- The place of a port's instance among the instances. -/
def instancePlace (s : Schematic) (p : PortRef) : Nat :=
  (s.instances.map (·.id)).idxOf p.instanceId

/-- In instance order, and on one instance in port order. -/
def PortBefore (s : Schematic) (p q : PortRef) : Prop :=
  s.instancePlace p < s.instancePlace q ∨
    s.instancePlace p = s.instancePlace q ∧ p.index < q.index

/-- By the first port, and for one first port by the second. -/
def PairBefore (s : Schematic) (x y : PortRef × PortRef) : Prop :=
  s.PortBefore x.1 y.1 ∨ x.1 = y.1 ∧ s.PortBefore x.2 y.2

/-- Both ports exist and agree in width and base name. -/
def NamedAlike (s : Schematic) (p q : PortRef) : Prop :=
  ∃ i j source target, s.port? p = some (i, source) ∧ s.port? q = some (j, target) ∧
    baseName source.name = baseName target.name ∧ source.width = target.width

/-- A pair that ought to be wired by name and is not. -/
structure LacksWire (s : Schematic) (p q : PortRef) : Prop where
  order : s.instancePlace p < s.instancePlace q
  alike : s.NamedAlike p q
  legal : s.check p q = .ok ()
  unjoined : ¬ s.Joined p q

variable {s : Schematic}

theorem NamedAlike.symm {p q : PortRef} (h : s.NamedAlike p q) : s.NamedAlike q p := by
  obtain ⟨i, j, source, target, hp, hq, name, width⟩ := h
  exact ⟨j, i, target, source, hq, hp, name.symm, width.symm⟩

theorem joined_symm {p q : PortRef} (h : s.Joined p q) : s.Joined q p := by
  rw [joined_iff_ends] at h ⊢
  rw [Sym2.eq_swap]
  exact h

theorem isSome_wireBetween? {p q : PortRef} :
    (s.wireBetween? p q).isSome = true ↔ s.Joined p q := by
  rw [wireBetween?, List.find?_isSome, Joined]

theorem PortBefore.irrefl (p : PortRef) : ¬ s.PortBefore p p := by
  rw [PortBefore]
  omega

theorem PortBefore.asymm {p q : PortRef} (h : s.PortBefore p q) : ¬ s.PortBefore q p := by
  rw [PortBefore] at h ⊢
  omega

theorem PairBefore.asymm {x y : PortRef × PortRef} (h : s.PairBefore x y) :
    ¬ s.PairBefore y x := by
  rintro (first | ⟨same, second⟩)
  · rcases h with first' | ⟨same', -⟩
    · exact first.asymm first'
    · rw [same'] at first
      exact PortBefore.irrefl _ first
  · rcases h with first' | ⟨-, second'⟩
    · rw [same] at first'
      exact PortBefore.irrefl _ first'
    · exact second.asymm second'

theorem instancePlace_inj {p q : PortRef} {x : Instance × Port} (found : s.port? p = some x)
    (same : s.instancePlace p = s.instancePlace q) : p.instanceId = q.instanceId := by
  have present := (port?_eq_some_iff.1 found).1
  have named : x.1.id = p.instanceId := by simpa using List.find?_some present
  have listed : p.instanceId ∈ s.instances.map (·.id) :=
    named ▸ List.mem_map_of_mem (List.mem_of_find?_eq_some present)
  exact (List.idxOf_inj listed).1 same

section Ids

variable (ids : (s.instances.map (·.id)).Nodup)
include ids

theorem mem_ports_iff {p : PortRef} {i : Instance} {port : Port} :
    (p, i, port) ∈ s.ports ↔ s.port? p = some (i, port) := by
  rw [ports, List.mem_flatMap, port?_eq_some_iff]
  constructor
  · rintro ⟨j, hj, listed⟩
    obtain ⟨k, hk, same⟩ := List.mem_mapIdx.1 listed
    obtain ⟨rfl, rest⟩ := Prod.mk.inj same
    obtain ⟨rfl, rfl⟩ := Prod.mk.inj rest
    exact ⟨instance?_of_mem ids hj, List.getElem?_eq_getElem hk⟩
  · rintro ⟨present, hport⟩
    have named : i.id = p.instanceId := by simpa using List.find?_some present
    obtain ⟨hk, rfl⟩ := List.getElem?_eq_some_iff.1 hport
    exact ⟨i, List.mem_of_find?_eq_some present,
      List.mem_mapIdx.2 ⟨p.index, hk, by rw [named]⟩⟩

/-- Instances stand at different places, the earlier of two at the smaller one. -/
theorem pairwise_instances :
    s.instances.Pairwise fun i j => ∀ m n, s.instancePlace ⟨i.id, m⟩ < s.instancePlace ⟨j.id, n⟩ := by
  rw [List.pairwise_iff_getElem]
  intro k l hk hl before m n
  have place : ∀ k (hk : k < s.instances.length) m,
      s.instancePlace ⟨s.instances[k].id, m⟩ = k := by
    intro k hk m
    have := ids.idxOf_getElem k (by simpa using hk)
    simpa [instancePlace] using this
  rw [place, place]
  exact before

theorem pairwise_ports : s.ports.Pairwise fun x y => s.PortBefore x.1 y.1 := by
  rw [ports, List.pairwise_flatMap]
  constructor
  · intro i _
    rw [List.pairwise_iff_getElem]
    intro k l hk hl before
    simp only [List.getElem_mapIdx]
    exact .inr ⟨rfl, before⟩
  · refine (pairwise_instances ids).imp fun {i j} before x hx y hy => ?_
    obtain ⟨k, hk, rfl⟩ := List.mem_mapIdx.1 hx
    obtain ⟨l, hl, rfl⟩ := List.mem_mapIdx.1 hy
    exact .inl (before k l)

theorem mem_namedPorts_iff {a : NamedPort} : a ∈ s.namedPorts ↔
    ∃ i port, s.port? a.port = some (i, port) ∧ a = ⟨a.port, baseName port.name, port.width⟩ := by
  rw [namedPorts, List.mem_map]
  constructor
  · rintro ⟨⟨p, i, port⟩, listed, rfl⟩
    exact ⟨i, port, (mem_ports_iff ids).1 listed, rfl⟩
  · rintro ⟨i, port, found, same⟩
    exact ⟨(a.port, i, port), (mem_ports_iff ids).2 found, same.symm⟩

/-- Both orders of two ports are met where they agree and the rules accept them. -/
theorem mem_matchingPairs_iff {p q : PortRef} :
    (p, q) ∈ s.matchingPairs ↔ s.NamedAlike p q ∧ s.check p q = .ok () := by
  simp only [matchingPairs, List.mem_flatMap, List.mem_map, List.mem_filter, matches?,
    Bool.and_eq_true, bne_iff_ne, beq_iff_eq, isLegal_iff]
  constructor
  · rintro ⟨a, ha, b, ⟨hb, ⟨⟨-, width⟩, name⟩, legal⟩, same⟩
    obtain ⟨rfl, rfl⟩ := Prod.mk.inj same
    obtain ⟨i, source, hs, ha⟩ := (mem_namedPorts_iff ids).1 ha
    obtain ⟨j, target, ht, hb⟩ := (mem_namedPorts_iff ids).1 hb
    rw [ha, hb] at name width
    exact ⟨⟨i, j, source, target, hs, ht, name, width⟩, legal⟩
  · rintro ⟨⟨i, j, source, target, hs, ht, name, width⟩, legal⟩
    have apart := (check_eq_ok_iff.1 legal).1
    exact ⟨⟨p, baseName source.name, source.width⟩, (mem_namedPorts_iff ids).2 ⟨i, source, hs, rfl⟩,
      ⟨q, baseName target.name, target.width⟩,
      ⟨(mem_namedPorts_iff ids).2 ⟨j, target, ht, rfl⟩, ⟨⟨apart, width⟩, name⟩, legal⟩, rfl⟩

theorem swap_mem_matchingPairs {p q : PortRef} (h : (p, q) ∈ s.matchingPairs) :
    (q, p) ∈ s.matchingPairs := by
  obtain ⟨alike, legal⟩ := (mem_matchingPairs_iff ids).1 h
  exact (mem_matchingPairs_iff ids).2 ⟨alike.symm, check_symm legal⟩

/-- The ports of a pair are on instances at different places. -/
theorem places_of_mem_matchingPairs {p q : PortRef} (h : (p, q) ∈ s.matchingPairs) :
    s.instancePlace p < s.instancePlace q ∨ s.instancePlace q < s.instancePlace p := by
  obtain ⟨⟨i, j, source, target, hs, -⟩, legal⟩ := (mem_matchingPairs_iff ids).1 h
  have apart := (check_eq_ok_iff.1 legal).1
  have different : s.instancePlace p ≠ s.instancePlace q := fun same =>
    apart (instancePlace_inj hs same)
  omega

theorem pairwise_matchingPairs : s.matchingPairs.Pairwise s.PairBefore := by
  have named : s.namedPorts.Pairwise fun a b => s.PortBefore a.port b.port := by
    rw [namedPorts, List.pairwise_map]
    exact pairwise_ports ids
  rw [matchingPairs, List.pairwise_flatMap]
  constructor
  · intro a _
    rw [List.pairwise_map]
    refine (named.filter _).imp fun before => .inr ⟨rfl, before⟩
  · refine named.imp fun {a a'} before x hx y hy => ?_
    obtain ⟨b, -, rfl⟩ := List.mem_map.1 hx
    obtain ⟨b', -, rfl⟩ := List.mem_map.1 hy
    exact .inl before

/-- A pair met from the instance that stands later was met before from the other. -/
theorem swap_mem_before {before after : List (PortRef × PortRef)} {p q : PortRef}
    (split : s.matchingPairs = before ++ (p, q) :: after)
    (later : s.instancePlace q < s.instancePlace p) : (q, p) ∈ before := by
  have met : (q, p) ∈ s.matchingPairs := swap_mem_matchingPairs ids (by simp [split])
  have sorted := pairwise_matchingPairs ids
  have first : s.PairBefore (q, p) (p, q) := .inl (.inl later)
  rw [split] at met sorted
  rcases List.mem_append.1 met with early | late
  · exact early
  · rcases List.mem_cons.1 late with same | late
    · obtain ⟨rfl, -⟩ := Prod.mk.inj same
      omega
    · have second := (List.pairwise_cons.1 (List.pairwise_append.1 sorted).2.1).1 _ late
      exact absurd first second.asymm

theorem notMem_before {before after : List (PortRef × PortRef)} {pair : PortRef × PortRef}
    (split : s.matchingPairs = before ++ pair :: after) : pair ∉ before := by
  intro early
  have sorted := pairwise_matchingPairs ids
  rw [split] at sorted
  have self := (List.pairwise_append.1 sorted).2.2 pair early pair List.mem_cons_self
  exact self.asymm self

end Ids

/-- A pair that is wired where it is met. -/
def isNew (s : Schematic) (pair : PortRef × PortRef) : Bool :=
  s.instancePlace pair.1 < s.instancePlace pair.2 && (s.wireBetween? pair.1 pair.2).isNone

theorem isNew_iff {p q : PortRef} :
    s.isNew (p, q) = true ↔ s.instancePlace p < s.instancePlace q ∧ ¬ s.Joined p q := by
  rw [isNew, Bool.and_eq_true, decide_eq_true_eq, Option.isNone_iff_eq_none,
    ← Option.not_isSome_iff_eq_none, isSome_wireBetween?]

def withWires (s : Schematic) (added : List Wire) : Schematic :=
  { s with wires := s.wires ++ added }

variable {src : IdSource}

theorem withWires_nil (s : Schematic) : s.withWires [] = s := by
  rw [withWires, List.append_nil]

/-- The wires that a step adds are counted, also where instances share ids. -/
theorem Sweep.step_withWires (sweep : Sweep src) (pair : PortRef × PortRef) :
    ∃ added : List Wire, (sweep.step pair).schematic = sweep.schematic.withWires added ∧
      (sweep.step pair).added = sweep.added + added.length := by
  rw [Sweep.step]
  split
  · exact ⟨[], (withWires_nil _).symm, rfl⟩
  split
  · rename_i next id st pushed
    simp only [pushWire] at pushed
    split at pushed
    · cases pushed
    · cases pushed
    · obtain ⟨rfl, -⟩ := Prod.mk.inj (Except.ok.inj (Prod.mk.inj pushed).1)
      exact ⟨[_], rfl, rfl⟩
  · exact ⟨[], (withWires_nil _).symm, rfl⟩

theorem foldl_step_withWires (pairs : List (PortRef × PortRef)) (sweep : Sweep src) :
    ∃ added : List Wire,
      (pairs.foldl Sweep.step sweep).schematic = sweep.schematic.withWires added ∧
      (pairs.foldl Sweep.step sweep).added = sweep.added + added.length := by
  induction pairs generalizing sweep with
  | nil => exact ⟨[], (withWires_nil _).symm, rfl⟩
  | cons pair rest ih =>
    obtain ⟨first, here, counted⟩ := sweep.step_withWires pair
    obtain ⟨more, later, total⟩ := ih (sweep.step pair)
    refine ⟨first ++ more, ?_, ?_⟩
    · rw [List.foldl_cons, later, here, withWires, withWires, withWires, List.append_assoc]
    · rw [List.foldl_cons, total, counted, List.length_append, Nat.add_assoc]

theorem autoConnect_added_eq_zero_iff (s : Schematic) (st : src.State) :
    (s.autoConnect src st).1.2 = 0 ↔ (s.autoConnect src st).1.1 = s := by
  obtain ⟨added, made, counted⟩ := foldl_step_withWires s.matchingPairs (⟨s, 0, st⟩ : Sweep src)
  have total : (s.autoConnect src st).1.2 = 0 + added.length := counted
  have result : (s.autoConnect src st).1.1 = s.withWires added := made
  rw [total, result, Nat.zero_add, List.length_eq_zero_iff]
  constructor
  · rintro rfl
    exact withWires_nil s
  · intro same
    have wires : s.wires ++ added = s.wires := congrArg Schematic.wires same
    exact List.append_right_eq_self.1 wires

/-- After some pairs a sweep has added a wire for each of them that was new, and nothing else. -/
structure SweptOver (s : Schematic) (pairs : List (PortRef × PortRef)) (added : List Wire)
    (sweep : Sweep src) : Prop where
  schematic : sweep.schematic = s.withWires added
  count : sweep.added = added.length
  pairs : added.map Wire.portPair = pairs.filter s.isNew
  fits : ∀ w ∈ added, s.WireFits w

theorem sweptOver_nil (s : Schematic) (st : src.State) :
    s.SweptOver [] [] (⟨s, 0, st⟩ : Sweep src) :=
  ⟨(withWires_nil s).symm, rfl, rfl, nofun⟩

theorem joined_withWires_iff {added : List Wire} {p q : PortRef} :
    (s.withWires added).Joined p q ↔
      s.Joined p q ∨ (p, q) ∈ added.map Wire.portPair ∨ (q, p) ∈ added.map Wire.portPair := by
  have joins : ∀ w : Wire, w.joins p q = true ↔ w.portPair = (p, q) ∨ w.portPair = (q, p) := by
    intro w
    simp [Wire.joins, Wire.portPair]
  simp only [Joined, withWires, List.mem_append, or_and_right, exists_or, List.mem_map, joins,
    and_or_left]
  exact or_or_or_comm

theorem SweptOver.check_of_met (ids : (s.instances.map (·.id)).Nodup)
    {before after : List (PortRef × PortRef)} {pair : PortRef × PortRef} {added : List Wire}
    {sweep : Sweep src} (split : s.matchingPairs = before ++ pair :: after)
    (h : s.SweptOver before added sweep) :
    sweep.schematic.check pair.1 pair.2 = .ok () := by
  have legal : s.check pair.1 pair.2 = .ok () :=
    ((mem_matchingPairs_iff ids).1 (by simp [split])).2
  rw [h.schematic, ← legal]
  exact check_congr rfl _ _

/-- The pair is new just when the sweep finds it without a wire. -/
theorem SweptOver.isNew_iff (ids : (s.instances.map (·.id)).Nodup)
    {before after : List (PortRef × PortRef)} {p q : PortRef} {added : List Wire}
    {sweep : Sweep src} (split : s.matchingPairs = before ++ (p, q) :: after)
    (h : s.SweptOver before added sweep) :
    s.isNew (p, q) = true ↔ ¬ sweep.schematic.Joined p q := by
  have wired : ∀ {x}, x ∈ added.map Wire.portPair ↔ x ∈ before ∧ s.isNew x = true := by
    intro x
    rw [h.pairs, List.mem_filter]
  rw [h.schematic, joined_withWires_iff, wired, wired, Schematic.isNew_iff]
  constructor
  · rintro ⟨order, unjoined⟩ (joined | ⟨early, -⟩ | ⟨-, new⟩)
    · exact unjoined joined
    · exact notMem_before ids split early
    · have := (Schematic.isNew_iff.1 new).1
      omega
  · intro unjoined
    rw [not_or, not_or] at unjoined
    obtain ⟨old, -, swapped⟩ := unjoined
    refine ⟨?_, old⟩
    have met : (p, q) ∈ s.matchingPairs := by simp [split]
    rcases places_of_mem_matchingPairs ids met with order | later
    · exact order
    · have early := swap_mem_before ids split later
      have new : s.isNew (q, p) = true :=
        Schematic.isNew_iff.2 ⟨later, fun joined => old (joined_symm joined)⟩
      exact absurd ⟨early, new⟩ swapped

theorem SweptOver.step (ids : (s.instances.map (·.id)).Nodup)
    {before after : List (PortRef × PortRef)} {pair : PortRef × PortRef} {added : List Wire}
    {sweep : Sweep src} (split : s.matchingPairs = before ++ pair :: after)
    (h : s.SweptOver before added sweep) :
    ∃ more, s.SweptOver (before ++ [pair]) more (sweep.step pair) := by
  obtain ⟨p, q⟩ := pair
  have isNew := h.isNew_iff ids split
  by_cases joined : sweep.schematic.Joined p q
  · have old : ¬ s.isNew (p, q) = true := by
      rw [isNew, not_not]
      exact joined
    refine ⟨added, ?_⟩
    rw [Sweep.step_of_joined (isSome_wireBetween?.2 joined)]
    refine ⟨h.schematic, h.count, ?_, h.fits⟩
    rw [List.filter_append, List.filter_cons_of_neg old, List.filter_nil, List.append_nil, h.pairs]
  · have new : s.isNew (p, q) = true := isNew.2 joined
    have legal : sweep.schematic.check (p, q).1 (p, q).2 = .ok () := h.check_of_met ids split
    have apart : (sweep.schematic.wireBetween? (p, q).1 (p, q).2).isSome = false := by
      rw [← Bool.not_eq_true, isSome_wireBetween?]
      exact joined
    obtain ⟨w, start, finish, -, fits, stepped, counted⟩ := Sweep.step_of_check apart legal
    refine ⟨added ++ [w], ?_, ?_, ?_, ?_⟩
    · rw [stepped, h.schematic, withWire, withWires, withWires, List.append_assoc]
    · rw [counted, h.count, List.length_append, List.length_singleton]
    · rw [List.map_append, h.pairs, List.filter_append, List.filter_cons_of_pos new, List.filter_nil,
        List.map_singleton, Wire.portPair, start, finish]
    · intro v hv
      rcases List.mem_append.1 hv with hv | hv
      · exact h.fits v hv
      · rw [List.mem_singleton.1 hv]
        rw [h.schematic] at fits
        exact fits.of_ports fun _ _ _ found => found

theorem SweptOver.run (ids : (s.instances.map (·.id)).Nodup)
    {before pairs : List (PortRef × PortRef)} {added : List Wire} {sweep : Sweep src}
    (split : ∃ after, s.matchingPairs = before ++ pairs ++ after)
    (h : s.SweptOver before added sweep) :
    ∃ more, s.SweptOver (before ++ pairs) more (pairs.foldl Sweep.step sweep) := by
  induction pairs generalizing before added sweep with
  | nil =>
    rw [List.append_nil]
    exact ⟨added, h⟩
  | cons pair rest ih =>
    obtain ⟨after, split⟩ := split
    have here : s.matchingPairs = before ++ pair :: (rest ++ after) := by
      rw [split, List.append_assoc, List.cons_append]
    obtain ⟨more, next⟩ := h.step ids here
    have later : ∃ after, s.matchingPairs = (before ++ [pair]) ++ rest ++ after :=
      ⟨after, by rw [split]; simp⟩
    have ran := ih later next
    rw [List.append_assoc, List.singleton_append] at ran
    exact ran

theorem matchingPairs_congr {t : Schematic} (same : t.instances = s.instances) :
    t.matchingPairs = s.matchingPairs := by
  have legal : t.isLegal = s.isLegal := by
    funext p q
    rw [isLegal, isLegal, check_congr same]
  rw [matchingPairs, matchingPairs, namedPorts, namedPorts, ports, ports, same, legal]

/-- Where all pairs are joined a sweep does nothing. -/
theorem foldl_step_of_joined {pairs : List (PortRef × PortRef)} {sweep : Sweep src}
    (joined : ∀ pair ∈ pairs, sweep.schematic.Joined pair.1 pair.2) :
    pairs.foldl Sweep.step sweep = sweep := by
  induction pairs with
  | nil => rfl
  | cons pair rest ih =>
    obtain ⟨here, later⟩ := List.forall_mem_cons.1 joined
    rw [List.foldl_cons, Sweep.step_of_joined (isSome_wireBetween?.2 here), ih later]

/-- After a sweep all pairs that agree are joined. -/
theorem SweptOver.joined (ids : (s.instances.map (·.id)).Nodup) {added : List Wire}
    {sweep : Sweep src} (h : s.SweptOver s.matchingPairs added sweep)
    {pair : PortRef × PortRef} (met : pair ∈ s.matchingPairs) :
    (s.withWires added).Joined pair.1 pair.2 := by
  obtain ⟨p, q⟩ := pair
  rw [joined_withWires_iff]
  by_cases old : s.Joined p q
  · exact .inl old
  · have wired : ∀ {x}, x ∈ s.matchingPairs → s.isNew x = true →
        x ∈ added.map Wire.portPair := by
      intro x listed new
      rw [h.pairs, List.mem_filter]
      exact ⟨listed, new⟩
    rcases places_of_mem_matchingPairs ids met with order | later
    · exact .inr (.inl (wired met (Schematic.isNew_iff.2 ⟨order, old⟩)))
    · have unjoined : ¬ s.Joined q p := fun joined => old (joined_symm joined)
      exact .inr (.inr (wired (swap_mem_matchingPairs ids met)
        (Schematic.isNew_iff.2 ⟨later, unjoined⟩)))

/-- Wiring by name adds a wire for each pair that lacks one, forwards and in the order of the
ports, and nothing else; every wire that it tries to add is added. Wiring by name again finds
nothing to do. -/
theorem autoConnect_adds_missing (ids : (s.instances.map (·.id)).Nodup) (src : IdSource)
    (st : src.State) : ∃ added : List Wire,
      (s.autoConnect src st).1 = ({ s with wires := s.wires ++ added }, added.length) ∧
      (∀ p q, (p, q) ∈ added.map Wire.portPair ↔ s.LacksWire p q) ∧
      (added.map Wire.portPair).Pairwise s.PairBefore ∧
      (∀ w ∈ added, s.WireFits w) ∧
      (∀ before pair after, s.matchingPairs = before ++ pair :: after →
        let sweep := before.foldl Sweep.step ⟨s, 0, st⟩
        ∃ next, (sweep.schematic.pushWire src pair.1 pair.2 sweep.state).1 = .ok next) ∧
      ∀ (again : IdSource) (st' : again.State),
        ((s.withWires added).autoConnect again st').1 = (s.withWires added, 0) := by
  have ran : ∀ pairs, (∃ after, s.matchingPairs = pairs ++ after) →
      ∃ added, s.SweptOver pairs added (pairs.foldl Sweep.step (⟨s, 0, st⟩ : Sweep src)) :=
    fun pairs split => (sweptOver_nil s st).run ids split
  obtain ⟨added, swept⟩ := ran s.matchingPairs ⟨[], (List.append_nil _).symm⟩
  refine ⟨added, ?_, ?_, ?_, swept.fits, ?_, ?_⟩
  · rw [autoConnect, ← swept.count, ← withWires, ← swept.schematic]
  · intro p q
    rw [swept.pairs, List.mem_filter, mem_matchingPairs_iff ids, isNew_iff]
    constructor
    · rintro ⟨⟨alike, legal⟩, order, unjoined⟩
      exact ⟨order, alike, legal, unjoined⟩
    · intro h
      exact ⟨⟨h.alike, h.legal⟩, h.order, h.unjoined⟩
  · rw [swept.pairs]
    exact (pairwise_matchingPairs ids).filter _
  · intro before pair after split sweep
    obtain ⟨early, sweptBefore⟩ := ran before ⟨_, split⟩
    obtain ⟨w, -, -, -, -, pushed⟩ :=
      pushWire_of_check sweep.state (sweptBefore.check_of_met ids split)
    exact ⟨_, pushed⟩
  · intro again st'
    have same : (s.withWires added).matchingPairs = s.matchingPairs := matchingPairs_congr rfl
    rw [autoConnect, same, foldl_step_of_joined]
    exact fun pair met => swept.joined ids met

/-- A block with one port, eight lines wide. -/
def oneBus (name portName : String) (direction : Direction) : Symbol :=
  ⟨name, "1.0", .zero, [⟨portName, direction, 8, .origin, [], []⟩], .blank, []⟩

/-- Two blocks that were placed and not wired; their ports agree in all but the letters' case. -/
def unwiredBlocks : Schematic :=
  (empty.withInstance ⟨"inst_1", "SOURCE", "SOURCE_1", .origin, .component,
    oneBus "SOURCE" "Data[7..0]" .output, none⟩).withInstance
    ⟨"inst_2", "SINK", "SINK_1", .origin, .component, oneBus "SINK" "DATA" .input, none⟩

/-- Wiring by name joins the two blocks. -/
theorem autoConnect_unwiredBlocks : ∃ added : List Wire,
    (unwiredBlocks.autoConnect (.numbered "") (0 : Nat)).1 =
      ({ unwiredBlocks with wires := unwiredBlocks.wires ++ added }, added.length) ∧
    (⟨"inst_1", 0⟩, ⟨"inst_2", 0⟩) ∈ added.map Wire.portPair := by
  have ids : (unwiredBlocks.instances.map (·.id)).Nodup := by decide
  have lacks : unwiredBlocks.LacksWire ⟨"inst_1", 0⟩ ⟨"inst_2", 0⟩ := by
    refine ⟨by decide, ⟨_, _, _, _, rfl, rfl, by decide, rfl⟩, by decide, ?_⟩
    rintro ⟨w, hw, -⟩
    cases hw
  obtain ⟨added, wired, pairs, -⟩ :=
    autoConnect_adds_missing ids (.numbered "") (0 : Nat)
  exact ⟨added, wired, (pairs _ _).2 lacks⟩

end Schematic

end BlockSchematic
