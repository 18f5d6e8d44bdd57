import BlockSchematic.Proofs.WiringByName
import Mathlib.Data.List.TFAE

/-!
# Ports that may be wired, asked in four ways

Connecting, reconnecting, connecting from the other side and looking through the candidates all
come down to the rules. Once these accept two ports a wire between them is drawn, and it ends where
the candidate is said to be.
-/

namespace BlockSchematic

theorem isOk_iff_exists {ε α : Type} {x : Except ε α} : x.isOk = true ↔ ∃ a, x = .ok a := by
  cases x <;> simp [Except.isOk, Except.toBool]

namespace Schematic

variable {s : Schematic} {src : IdSource} {p q : PortRef}

/-- Without the wires on a port. -/
def cleared (s : Schematic) (p : PortRef) : Schematic :=
  { s with wires := s.wires.filter (!·.touches p) }

/-- What two ports that the rules accept are joined by. -/
structure DrawnBetween (s : Schematic) (p q : PortRef) (w : Wire) : Prop where
  start : w.start.port = p
  finish : w.finish.port = q
  fresh : w.id ∉ s.ids
  fits : s.WireFits w

theorem exists_pushWire (st : src.State) (legal : s.check p q = .ok ()) :
    ∃ w, s.DrawnBetween p q w ∧ (s.pushWire src p q st).1 = .ok (s.withWire w, w.id) := by
  obtain ⟨w, start, finish, fresh, fits, pushed⟩ := pushWire_of_check st legal
  exact ⟨w, ⟨start, finish, fresh, fits⟩, pushed⟩

theorem exists_connect (st : src.State) (legal : s.check p q = .ok ()) :
    ∃ w, s.DrawnBetween p q w ∧ (s.connect src p q st).1 = .ok (s.withWire w, w.id) := by
  rw [connect, checkEdit_eq_ok_iff.2 legal]
  exact exists_pushWire st legal

/-- The rules do not look at wires, so they accept the two ports when wires are gone too. -/
theorem exists_reconnect (st : src.State) (legal : s.check p q = .ok ()) :
    ∃ w, (s.cleared p).DrawnBetween p q w ∧
      (s.reconnect src p q st).1 = .ok ((s.cleared p).withWire w, w.id) := by
  have legalCleared : (s.cleared p).check p q = .ok () := (check_congr rfl p q).trans legal
  rw [reconnect, checkEdit_eq_ok_iff.2 legal]
  exact exists_pushWire st legalCleared

theorem checkEdit_of_refused {reason : Rejection} (refused : s.check p q = .error reason) :
    s.checkEdit p q = .error (.illegalConnection p q reason) := by
  rw [checkEdit, refused]

theorem connect_of_refused {reason : Rejection} (st : src.State)
    (refused : s.check p q = .error reason) :
    s.connect src p q st = (.error (.illegalConnection p q reason), st) := by
  rw [connect, checkEdit_of_refused refused]

theorem reconnect_of_refused {reason : Rejection} (st : src.State)
    (refused : s.check p q = .error reason) :
    s.reconnect src p q st = (.error (.illegalConnection p q reason), st) := by
  rw [reconnect, checkEdit_of_refused refused]

theorem isOk_connect_iff (st : src.State) :
    (s.connect src p q st).1.isOk = true ↔ s.check p q = .ok () := by
  cases rules : s.check p q with
  | ok u =>
    obtain ⟨w, -, connected⟩ := exists_connect st rules
    exact iff_of_true (isOk_iff_exists.2 ⟨_, connected⟩) rfl
  | error reason =>
    rw [connect_of_refused st rules]
    exact iff_of_false nofun nofun

theorem isOk_reconnect_iff (st : src.State) :
    (s.reconnect src p q st).1.isOk = true ↔ s.check p q = .ok () := by
  cases rules : s.check p q with
  | ok u =>
    obtain ⟨w, -, reconnected⟩ := exists_reconnect st rules
    exact iff_of_true (isOk_iff_exists.2 ⟨_, reconnected⟩) rfl
  | error reason =>
    rw [reconnect_of_refused st rules]
    exact iff_of_false nofun nofun

theorem map_port_candidates :
    (s.candidates p).map Candidate.port = (s.ports.map (·.1)).filter (s.isLegal p) := by
  rw [candidates, List.map_map, List.filter_map]
  rfl

section Ids

variable (ids : (s.instances.map (·.id)).Nodup)
include ids

theorem mem_map_port_candidates_iff :
    q ∈ (s.candidates p).map Candidate.port ↔ s.check p q = .ok () := by
  rw [map_port_candidates, List.mem_filter, isLegal_iff, and_iff_right_iff_imp]
  intro legal
  obtain ⟨-, -, j, -, target, -, found, -⟩ := check_eq_ok_iff.1 legal
  exact List.mem_map.2 ⟨(q, j, target), (mem_ports_iff ids).2 found, rfl⟩

theorem pairwise_map_port_candidates :
    ((s.candidates p).map Candidate.port).Pairwise s.PortBefore := by
  rw [map_port_candidates]
  exact (List.pairwise_map.2 (pairwise_ports ids)).filter _

theorem nodup_map_port_candidates : ((s.candidates p).map Candidate.port).Nodup := by
  rw [List.Nodup]
  refine (pairwise_map_port_candidates ids).imp fun {a b} before => ?_
  rintro rfl
  exact PortBefore.irrefl a before

/-- A candidate is said to be where its port is. -/
theorem position_of_mem_candidates {c : Candidate} (listed : c ∈ s.candidates p) :
    ∃ i port, s.port? c.port = some (i, port) ∧ c.position = i.position.offset port.location := by
  obtain ⟨⟨q, i, port⟩, kept, rfl⟩ := List.mem_map.1 listed
  exact ⟨i, port, (mem_ports_iff ids).1 (List.mem_of_mem_filter kept), rfl⟩

/-- A wire drawn to a candidate ends where the candidate is said to be. -/
theorem finish_of_mem_candidates {c : Candidate} (listed : c ∈ s.candidates p) {w : Wire}
    (drawn : s.DrawnBetween p c.port w) : w.finish = ⟨c.port, c.position⟩ := by
  obtain ⟨i, port, found, position⟩ := position_of_mem_candidates ids listed
  obtain ⟨j, target, ended, -, place⟩ := drawn.fits.finish
  rw [drawn.finish, found, Option.some.injEq, Prod.mk.injEq] at ended
  obtain ⟨rfl, rfl⟩ := ended
  rw [← drawn.finish, position, ← place]

/-- Two ports can be connected, in either direction, reconnected and chosen as a candidate all in
the same cases. The candidates stand in the order of the ports, each once and where the wire to it
ends. What the rules refuse is refused for their reason, and nothing else is. -/
theorem connections_decided_alike (src : IdSource) (st : src.State) (p q : PortRef) :
    [(s.connect src p q st).1.isOk = true, (s.reconnect src p q st).1.isOk = true,
      q ∈ (s.candidates p).map Candidate.port, (s.connect src q p st).1.isOk = true].TFAE ∧
    ((s.candidates p).map Candidate.port).Pairwise s.PortBefore ∧
    ((s.candidates p).map Candidate.port).Nodup ∧
    (∀ c ∈ s.candidates p, ∃ w, s.DrawnBetween p c.port w ∧ w.finish = ⟨c.port, c.position⟩ ∧
      (s.connect src p c.port st).1 = .ok (s.withWire w, w.id)) ∧
    (s.check p q = .ok () →
      (∃ w, s.DrawnBetween p q w ∧ (s.connect src p q st).1 = .ok (s.withWire w, w.id)) ∧
      ∃ w, (s.cleared p).DrawnBetween p q w ∧
        (s.reconnect src p q st).1 = .ok ((s.cleared p).withWire w, w.id)) ∧
    ∀ reason, s.check p q = .error reason →
      s.connect src p q st = (.error (.illegalConnection p q reason), st) ∧
      s.reconnect src p q st = (.error (.illegalConnection p q reason), st) := by
  refine ⟨?_, pairwise_map_port_candidates ids, nodup_map_port_candidates ids, ?_, ?_, ?_⟩
  · refine List.tfae_of_forall (s.check p q = .ok ()) _ ?_
    simp only [List.forall_mem_cons]
    exact ⟨isOk_connect_iff st, isOk_reconnect_iff st, mem_map_port_candidates_iff ids,
      (isOk_connect_iff st).trans ⟨check_symm, check_symm⟩, nofun⟩
  · intro c listed
    have legal : s.check p c.port = .ok () :=
      (mem_map_port_candidates_iff ids).1 (List.mem_map_of_mem listed)
    obtain ⟨w, drawn, connected⟩ := exists_connect st legal
    exact ⟨w, drawn, finish_of_mem_candidates ids listed drawn, connected⟩
  · exact fun legal => ⟨exists_connect st legal, exists_reconnect st legal⟩
  · exact fun reason refused => ⟨connect_of_refused st refused, reconnect_of_refused st refused⟩

end Ids

/-- The bus of one block is the only candidate for the bus of the other, and they can be connected
from both sides. -/
theorem unwiredBlocks_decided_alike :
    (unwiredBlocks.connect (.numbered "") ⟨"inst_1", 0⟩ ⟨"inst_2", 0⟩ (0 : Nat)).1.isOk = true ∧
    (unwiredBlocks.connect (.numbered "") ⟨"inst_2", 0⟩ ⟨"inst_1", 0⟩ (0 : Nat)).1.isOk = true ∧
    (unwiredBlocks.connect (.numbered "") ⟨"inst_1", 0⟩ ⟨"inst_1", 0⟩ (0 : Nat)).1.isOk = false := by
  have ids : (unwiredBlocks.instances.map (·.id)).Nodup := by decide
  obtain ⟨alike, -⟩ :=
    connections_decided_alike ids (.numbered "") (0 : Nat) ⟨"inst_1", 0⟩ ⟨"inst_2", 0⟩
  obtain ⟨-, -, -, -, -, refused⟩ :=
    connections_decided_alike ids (.numbered "") (0 : Nat) ⟨"inst_1", 0⟩ ⟨"inst_1", 0⟩
  have listed : (⟨"inst_2", 0⟩ : PortRef) ∈
      (unwiredBlocks.candidates ⟨"inst_1", 0⟩).map Candidate.port := by decide
  refine ⟨(alike.out 2 0).1 listed, (alike.out 2 3).1 listed, ?_⟩
  rw [(refused .selfConnection rfl).1]
  rfl

end Schematic

end BlockSchematic
