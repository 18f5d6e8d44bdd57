import BlockSchematic.Proofs.Edits
import BlockSchematic.Proofs.Timeline

/-!
# When a layout counts

A layout that was asked for along with an edit counts until something else is committed or a step
back or forth is made. Until then layouts may have been applied already, but they changed nothing
that a layout request tells of. A snapshot that comes back by undo and redo is of a new generation,
so an old layout does not count for it.
-/

namespace BlockSchematic

open Editor (Action Answer)

/-- Two instances that stand elsewhere are the same again to a layout engine. -/
theorem Instance.Moved.layoutNode_eq {i j : Instance} (h : i.Moved j) :
    i.layoutNode = j.layoutNode := by
  rw [h]
  rfl

/-- The two wires differ at most in how they are drawn. -/
def Wire.Redrawn (w v : Wire) : Prop :=
  v = { w with
    route := v.route
    start := { w.start with position := v.start.position }
    finish := { w.finish with position := v.finish.position } }

theorem Wire.Redrawn.layoutEdge_eq {w v : Wire} (h : w.Redrawn v) :
    w.layoutEdge = v.layoutEdge := by
  rw [h]
  rfl

theorem Wire.Redrawn.trans {u v w : Wire} (h : u.Redrawn v) (h' : v.Redrawn w) :
    u.Redrawn w := by
  rw [h', h]
  rfl

theorem forall₂_trans {α : Type} {R : α → α → Prop}
    (trans : ∀ {a b c : α}, R a b → R b c → R a c) {as bs cs : List α}
    (h : List.Forall₂ R as bs) (k : List.Forall₂ R bs cs) : List.Forall₂ R as cs := by
  induction h generalizing cs with
  | nil => exact k
  | cons here _ ih =>
    cases k with
    | cons next rest => exact .cons (trans here next) (ih rest)

namespace Schematic

/-- The two schematics differ at most in where instances stand and how wires are drawn. -/
structure Redrawn (s t : Schematic) : Prop where
  instances : List.Forall₂ Instance.Moved s.instances t.instances
  wires : List.Forall₂ Wire.Redrawn s.wires t.wires
  counters : s.counters = t.counters

theorem Redrawn.refl (s : Schematic) : s.Redrawn s where
  instances := List.forall₂_same.2 fun _ _ => rfl
  wires := List.forall₂_same.2 fun _ _ => rfl
  counters := rfl

theorem Redrawn.trans {s t u : Schematic} (h : s.Redrawn t) (k : t.Redrawn u) : s.Redrawn u where
  instances := forall₂_trans .trans h.instances k.instances
  wires := forall₂_trans .trans h.wires k.wires
  counters := h.counters.trans k.counters

theorem redrawn_withLayout (s : Schematic) (response : LayoutResponse) :
    s.Redrawn (s.withLayout response) where
  instances := forall₂_map_self fun _ _ => rfl
  wires := by
    simp only [withLayout, refreshWires, List.map_map]
    exact forall₂_map_self fun _ _ => rfl
  counters := rfl

/-- A request does not tell where instances stand or how wires are drawn. -/
theorem Redrawn.layoutRequest_eq {s t : Schematic} (h : s.Redrawn t) :
    s.layoutRequest = t.layoutRequest := by
  have nodes := map_eq_of_forall₂ h.instances Instance.Moved.layoutNode_eq
  have edges := map_eq_of_forall₂ h.wires Wire.Redrawn.layoutEdge_eq
  rw [layoutRequest, layoutRequest, nodes, edges]

end Schematic

open Schematic

namespace Timeline

/-- A layout that is asked for tells of the new snapshot, at the new generation. -/
theorem Step.pending_eq {t u : Timeline} {answer : Answer} (h : t.Step answer u)
    {p : PendingLayout} (issued : answer.pending? = some p) :
    p = ⟨u.generation, u.current.layoutRequest⟩ := by
  cases h with
  | commit id next => exact (Option.some.inj issued).symm
  | wire added next some => exact (Option.some.inj issued).symm
  | move next => cases issued
  | back before => cases issued
  | forth after => cases issued
  | layOut response => cases issued
  | idle quiet => rw [Answer.pending?_of_isIdle quiet] at issued; cases issued

/-- A step either begins a new generation or only redraws the current snapshot. -/
theorem Step.generation_eq {t u : Timeline} {answer : Answer} (h : t.Step answer u) :
    u.generation = t.generation + (if answer.advances then 1 else 0) := by
  cases h with
  | commit id next => rfl
  | wire added next some => rfl
  | move next => rfl
  | back before => rfl
  | forth after => rfl
  | layOut response => rfl
  | idle quiet => rw [Answer.advances_of_isIdle quiet]; rfl

theorem Step.redrawn {t u : Timeline} {answer : Answer} (h : t.Step answer u)
    (stays : answer.advances = false) : t.current.Redrawn u.current := by
  cases h with
  | commit id next => cases stays
  | wire added next some => cases stays
  | move next => cases stays
  | back before => cases stays
  | forth after => cases stays
  | layOut response => exact redrawn_withLayout _ response
  | idle _ => exact .refl _

end Timeline

namespace Editor

variable {src : IdSource}

/-- Every answer that advances counts one generation, and no other does. -/
theorem generation_run (e : Editor src) (actions : List Action) :
    (e.run actions).2.generation =
      e.generation + (e.run actions).1.countP Answer.advances := by
  induction actions generalizing e with
  | nil => rfl
  | cons a rest ih =>
    have here : (e.act a).2.generation = e.generation + _ := (e.step_timeline a).generation_eq
    have later := ih (e.act a).2
    simp only [run, List.countP_cons]
    omega

/-- While nothing advances, a run only redraws the current snapshot. -/
theorem redrawn_run (e : Editor src) (actions : List Action)
    (stays : ∀ answer ∈ (e.run actions).1, answer.advances = false) :
    e.current.Redrawn (e.run actions).2.current := by
  induction actions generalizing e with
  | nil => exact .refl _
  | cons a rest ih =>
    have first := stays (e.act a).1 List.mem_cons_self
    have here : e.current.Redrawn (e.act a).2.current := (e.step_timeline a).redrawn first
    have later := ih (e.act a).2 fun answer h => stays answer (List.mem_cons_of_mem _ h)
    exact here.trans later

theorem completeLayout_ok_iff (e : Editor src) (generation : Nat) (response : LayoutResponse) :
    (e.completeLayout generation (.ok response)).1 = .ok true ↔ generation = e.generation := by
  by_cases same : generation = e.generation
  · simp [completeLayout, same]
  · simp [completeLayout, same]

theorem completeLayout_of_ne {e : Editor src} {generation : Nat} (late : generation ≠ e.generation)
    (result : Except LayoutError LayoutResponse) :
    e.completeLayout generation result = (.ok false, e) := by
  simp [completeLayout, late]

end Editor

/-- Let an action issue a pending layout, and let any actions follow. The layout is applied if
and only if none of them advanced; then the request still fits the current snapshot, which is the
one that the request was made from, at most redrawn. A layout of an older generation is dropped,
whatever its result, and a failure at the current generation is handed back; both change
nothing. -/
theorem pending_layout_counts_iff {src : IdSource} {e : Editor src} {a : Action}
    {p : PendingLayout} (issued : (e.act a).1.pending? = some p) (since : List Action) :
    let made := (e.act a).2
    let answers := (made.run since).1
    let now := (made.run since).2
    (∀ response, (now.completeLayout p.generation (.ok response)).1 = .ok true ↔
      ∀ answer ∈ answers, answer.advances = false) ∧
    (∀ response, (now.completeLayout p.generation (.ok response)).1 = .ok true →
      (now.completeLayout p.generation (.ok response)).2 =
        now.replaceCurrent (now.current.withLayout response) ∧
      now.current.layoutRequest = p.request ∧ made.current.layoutRequest = p.request ∧
      made.current.Redrawn now.current) ∧
    ((∃ answer ∈ answers, answer.advances = true) → p.generation < now.generation) ∧
    (∀ generation < now.generation, ∀ result,
      now.completeLayout generation result = (.ok false, now)) ∧
    ∀ why, now.completeLayout now.generation (.error why) = (.error why, now) := by
  intro made answers now
  have request : p = ⟨made.generation, made.current.layoutRequest⟩ :=
    (e.step_timeline a).pending_eq issued
  have generations : now.generation = made.generation + answers.countP Answer.advances :=
    made.generation_run since
  have pendingGeneration : p.generation = made.generation := by rw [request]
  have current_iff : p.generation = now.generation ↔
      ∀ answer ∈ answers, answer.advances = false := by
    have none : answers.countP Answer.advances = 0 ↔
        ∀ answer ∈ answers, answer.advances = false := by
      simp only [List.countP_eq_zero, Bool.not_eq_true]
    rw [← none]
    omega
  refine ⟨fun response => ?_, fun response applied => ?_, ?_, ?_, ?_⟩
  · rw [now.completeLayout_ok_iff, current_iff]
  · have same := (now.completeLayout_ok_iff _ response).1 applied
    have redrawn : made.current.Redrawn now.current :=
      made.redrawn_run since (current_iff.1 same)
    have asked : made.current.layoutRequest = p.request := by rw [request]
    refine ⟨?_, redrawn.layoutRequest_eq.symm.trans asked, asked, redrawn⟩
    simp [Editor.completeLayout, same]
  · rintro ⟨answer, present, advances⟩
    have some : 0 < answers.countP Answer.advances := List.countP_pos_iff.2 ⟨answer, present, advances⟩
    omega
  · intro generation older result
    exact Editor.completeLayout_of_ne (Nat.ne_of_lt older) result
  · intro why
    simp [Editor.completeLayout]

def oneBlock : Schematic := Schematic.empty.withInstance
  ⟨"inst_1", Symbol.multiplexer.name, "2x8mux_1", .origin, .component, .multiplexer, none⟩

def shifted : LayoutResponse := ⟨KeyMap.empty.insert "inst_1" ⟨40.0, 0.0⟩, .empty⟩

/-- After undo and redo the snapshot is the one the layout was asked for, and yet the layout does
not count; without them it counts, also a second time. -/
theorem layout_late_after_undo_and_redo :
    let made := ((Editor.start .empty (0 : Nat) : Editor (IdSource.numbered "")).act
      (.commit oneBlock)).2
    let back := (made.run [.undo, .redo]).2
    let laidOut := (made.run [.completeLayout 1 (.ok shifted)]).2
    (back.current = oneBlock ∧ (back.completeLayout 1 (.ok shifted)).1 ≠ .ok true) ∧
      (laidOut.completeLayout 1 (.ok shifted)).1 = .ok true := by
  intro made back laidOut
  have issued : ((Editor.start .empty (0 : Nat) : Editor (IdSource.numbered "")).act
      (.commit oneBlock)).1.pending? = some ⟨1, oneBlock.layoutRequest⟩ := rfl
  obtain ⟨late, -⟩ := pending_layout_counts_iff issued [.undo, .redo]
  obtain ⟨timely, -⟩ := pending_layout_counts_iff issued [.completeLayout 1 (.ok shifted)]
  refine ⟨⟨rfl, fun applied => ?_⟩, (timely shifted).2 ?_⟩
  · have quiet := (late shifted).1 applied (.stepped true) List.mem_cons_self
    cases quiet
  · intro answer only
    obtain rfl := List.mem_singleton.1 only
    rfl

end BlockSchematic
