import BlockSchematic.Proofs.EditorRuns

/-!
# An editor is a timeline

A timeline is the current snapshot between those before it and those after it, both the nearest
first. The list with a cursor that an editor keeps is a timeline in another form: every run of the
editor is a run of the timeline, with the same answers.
-/

namespace BlockSchematic

open Editor (Action Answer)

structure Timeline where
  past : List Schematic
  current : Schematic
  future : List Schematic
  generation : Nat

namespace Timeline

def start (s : Schematic) : Timeline := ⟨[], s, [], 0⟩

/-- Goes on to a new snapshot; what came after the old one is lost. -/
def push (t : Timeline) (next : Schematic) : Timeline :=
  ⟨t.current :: t.past, next, [], t.generation + 1⟩

def back? (t : Timeline) : Option Timeline :=
  match t.past with
  | [] => none
  | s :: past => some ⟨past, s, t.current :: t.future, t.generation + 1⟩

def forth? (t : Timeline) : Option Timeline :=
  match t.future with
  | [] => none
  | s :: future => some ⟨t.current :: t.past, s, future, t.generation + 1⟩

/-- The layout that goes with a new snapshot. -/
def pendingFor (t : Timeline) (next : Schematic) : PendingLayout :=
  ⟨t.generation + 1, next.layoutRequest⟩

def commit (t : Timeline) (id : Option String) (next : Schematic) : Answer × Timeline :=
  (.committed id (t.pendingFor next), t.push next)

def commitResult (t : Timeline) : Except EditError Schematic → Answer × Timeline
  | .error why => (.refused why, t)
  | .ok next => t.commit none next

def commitDrawn (t : Timeline) : Except EditError (Schematic × String) → Answer × Timeline
  | .error why => (.refused why, t)
  | .ok (next, id) => t.commit (some id) next

def commitMove (t : Timeline) : Except EditError Schematic → Answer × Timeline
  | .error why => (.refused why, t)
  | .ok next => (.moved, t.push next)

def commitSweep (t : Timeline) (sweep : Schematic × Nat) : Answer × Timeline :=
  if sweep.2 = 0 then (.nothingToWire, t)
  else (.wired sweep.2 (t.pendingFor sweep.1), t.push sweep.1)

def stepTo (t : Timeline) : Option Timeline → Answer × Timeline
  | none => (.stepped false, t)
  | some next => (.stepped true, next)

def layOut (t : Timeline) (generation : Nat) (result : Except LayoutError LayoutResponse) :
    Answer × Timeline :=
  if generation = t.generation then
    match result with
    | .error why => (.failed why, t)
    | .ok response => (.laidOut true, { t with current := t.current.withLayout response })
  else (.laidOut false, t)

variable (src : IdSource)

/-- An action on a timeline. What an edit makes of the current snapshot is the schematic's
affair; the ids that it draws come from a source that runs along. -/
def act (t : Timeline) (st : src.State) : Action → (Answer × Timeline) × src.State
  | .commit next => (t.commit none next, st)
  | .addInstance symbol position =>
    let (made, st) := t.current.addInstance src symbol position st
    (t.commitDrawn (.ok made), st)
  | .addGlue name code ports position =>
    let (made, st) := t.current.addGlue src name code ports position st
    (t.commitDrawn (.ok made), st)
  | .removeInstance id => (t.commitResult (t.current.removeInstance id), st)
  | .moveInstance id position => (t.commitMove (t.current.moveInstance id position), st)
  | .connect p q => (t.current.connect src p q st).map t.commitDrawn id
  | .reconnect p q => (t.current.reconnect src p q st).map t.commitDrawn id
  | .removeWire id => (t.commitResult (t.current.removeWire id), st)
  | .exportToPin p pin => (t.current.exportToPin src p pin st).map t.commitDrawn id
  | .autoConnect => (t.current.autoConnect src st).map t.commitSweep id
  | .undo => (t.stepTo t.back?, st)
  | .redo => (t.stepTo t.forth?, st)
  | .completeLayout generation result => (t.layOut generation result, st)
  | .runLayout engine pending => (t.layOut pending.generation (engine pending.request), st)

def run (t : Timeline) (st : src.State) : List Action → (List Answer × Timeline) × src.State
  | [] => (([], t), st)
  | a :: rest =>
    let ((answer, t), st) := t.act src st a
    let ((answers, t), st) := run t st rest
    ((answer :: answers, t), st)

end Timeline

namespace Editor

variable {src : IdSource}

def timeline (e : Editor src) : Timeline where
  past := (e.history.take e.cursor).reverse
  current := e.current
  future := e.history.drop (e.cursor + 1)
  generation := e.generation

/-- A timeline is all there is to a history with a cursor. -/
theorem history_eq (e : Editor src) :
    e.history = e.timeline.past.reverse ++ e.current :: e.timeline.future := by
  have split : e.history.drop e.cursor = e.current :: e.history.drop (e.cursor + 1) :=
    List.drop_eq_getElem_cons e.cursor_lt
  rw [timeline, List.reverse_reverse, ← split, List.take_append_drop]

theorem length_past (e : Editor src) : e.timeline.past.length = e.cursor := by
  have := e.cursor_lt
  simp only [timeline, List.length_reverse, List.length_take]
  omega

theorem length_future (e : Editor src) :
    e.timeline.future.length = e.history.length - (e.cursor + 1) := List.length_drop

theorem canUndo_iff (e : Editor src) : e.canUndo = true ↔ e.timeline.past ≠ [] := by
  have := e.length_past
  rw [canUndo, decide_eq_true_iff, ← List.length_pos_iff]
  omega

theorem canRedo_iff (e : Editor src) : e.canRedo = true ↔ e.timeline.future ≠ [] := by
  have := e.length_future
  rw [canRedo, decide_eq_true_iff, ← List.length_pos_iff]
  omega

theorem take_succ_cursor (e : Editor src) :
    e.history.take (e.cursor + 1) = e.history.take e.cursor ++ [e.current] :=
  List.take_succ_eq_append_getElem e.cursor_lt

theorem timeline_push (e : Editor src) (next : Schematic) :
    (e.push next).timeline = e.timeline.push next := by
  have bound := e.cursor_lt
  have length : (e.history.take (e.cursor + 1)).length = e.cursor + 1 := by
    rw [List.length_take]
    omega
  have past : (e.push next).history.take (e.cursor + 1) =
      e.history.take e.cursor ++ [e.current] := by
    rw [← e.take_succ_cursor]
    exact List.take_left' length
  have current : (e.push next).current = next := by
    simp [Editor.current, push, length]
  have future : (e.push next).history.drop (e.cursor + 2) = [] := by
    apply List.drop_eq_nil_of_le
    simp only [push, List.length_append, length, List.length_singleton]
    omega
  rw [timeline, current]
  simp only [Timeline.push, timeline, Timeline.mk.injEq, true_and]
  refine ⟨?_, future, rfl⟩
  rw [show (e.push next).cursor = e.cursor + 1 from rfl, past, List.reverse_append]
  rfl

theorem timeline_replaceCurrent (e : Editor src) (s : Schematic) :
    (e.replaceCurrent s).timeline = { e.timeline with current := s } := by
  have current : (e.replaceCurrent s).current = s := List.getElem_set_self _
  have past : (e.replaceCurrent s).history.take e.cursor = e.history.take e.cursor :=
    List.take_set_of_le (Nat.le_refl _)
  have future : (e.replaceCurrent s).history.drop (e.cursor + 1) = e.history.drop (e.cursor + 1) :=
    List.drop_set_of_lt (Nat.lt_succ_self _)
  rw [timeline, current]
  simp only [timeline, Timeline.mk.injEq, true_and]
  exact ⟨congrArg List.reverse past, future, rfl⟩

/-- What is seen of an editor after an answer. -/
def view (after : Answer × Editor src) : (Answer × Timeline) × src.State :=
  ((after.1, after.2.timeline), after.2.idState)

theorem view_commit (e : Editor src) (made : Option String) (next : Schematic) :
    view ((e.commit next).map (.committed made) id) = (e.timeline.commit made next, e.idState) := by
  have pushed := e.timeline_push next
  have current : (e.push next).current = next := congrArg Timeline.current pushed
  simp only [view, commit, Prod.map, pending, current, id, pushed]
  rfl

theorem view_commitResult (e : Editor src) (result : Except EditError Schematic) :
    view ((e.commitResult result).map .ofResult id) =
      (e.timeline.commitResult result, e.idState) := by
  cases result with
  | error why => rfl
  | ok next => exact e.view_commit none next

theorem view_commitDrawn (e : Editor src)
    (result : Except EditError (Schematic × String) × src.State) :
    view ((e.commitDrawn result).map .ofDrawn id) = result.map e.timeline.commitDrawn id := by
  obtain ⟨result, st⟩ := result
  cases result with
  | error why => rfl
  | ok made => exact (e.withIds st).view_commit (some made.2) made.1

theorem view_moveInstance (e : Editor src) (i : String) (position : Position) :
    view ((e.moveInstance i position).map .ofMove id) =
      (e.timeline.commitMove (e.current.moveInstance i position), e.idState) := by
  rw [moveInstance]
  cases e.current.moveInstance i position with
  | error why => rfl
  | ok next =>
    simp only [view, Prod.map, Timeline.commitMove, id, timeline_push]
    rfl

theorem view_autoConnect (e : Editor src) :
    view (e.autoConnect.map .ofSweep id) =
      (e.current.autoConnect src e.idState).map e.timeline.commitSweep id := by
  rw [autoConnect]
  obtain ⟨⟨next, added⟩, st⟩ := e.current.autoConnect src e.idState
  by_cases none : added = 0
  · simp only [none, if_true, Prod.map, Timeline.commitSweep]
    rfl
  · have pushed := (e.withIds st).timeline_push next
    have current : ((e.withIds st).push next).current = next := congrArg Timeline.current pushed
    simp only [none, if_false, Prod.map, Timeline.commitSweep, view, commit, pending, current,
      id, pushed]
    rfl

/-- Undo takes a step back where there is a past, and otherwise does nothing. -/
theorem view_undo (e : Editor src) :
    view (e.undo.map .stepped id) = (e.timeline.stepTo e.timeline.back?, e.idState) := by
  obtain ⟨history, cursor, generation, st, bound⟩ := e
  cases cursor with
  | zero => rfl
  | succ k =>
    have past : (history.take (k + 1)).reverse = history[k] :: (history.take k).reverse := by
      rw [List.take_succ_eq_append_getElem (by omega), List.reverse_append]
      rfl
    have future : history.drop (k + 1) = history[k + 1] :: history.drop (k + 1 + 1) :=
      List.drop_eq_getElem_cons bound
    have back : (timeline ⟨history, k + 1, generation, st, bound⟩ : Timeline).back? =
        some ⟨(history.take k).reverse, history[k], history.drop (k + 1), generation + 1⟩ := by
      rw [timeline, Timeline.back?, past, future]
      rfl
    rw [back]
    rfl

/-- Redo takes a step forth where there is a future, and otherwise does nothing. -/
theorem view_redo (e : Editor src) :
    view (e.redo.map .stepped id) = (e.timeline.stepTo e.timeline.forth?, e.idState) := by
  by_cases room : e.cursor + 1 < e.history.length
  · have past : (e.history.take (e.cursor + 1)).reverse =
        e.current :: (e.history.take e.cursor).reverse := by
      rw [e.take_succ_cursor, List.reverse_append]
      rfl
    have forth : e.timeline.forth? = some ⟨(e.history.take (e.cursor + 1)).reverse,
        e.history[e.cursor + 1], e.history.drop (e.cursor + 1 + 1), e.generation + 1⟩ := by
      rw [timeline, Timeline.forth?, past, List.drop_eq_getElem_cons room]
    rw [redo, dif_pos room, forth]
    rfl
  · have future : e.timeline.future = [] := List.drop_eq_nil_of_le (by omega)
    rw [redo, dif_neg room, Timeline.forth?, future]
    rfl

theorem view_completeLayout (e : Editor src) (generation : Nat)
    (result : Except LayoutError LayoutResponse) :
    view ((e.completeLayout generation result).map .ofLayout id) =
      (e.timeline.layOut generation result, e.idState) := by
  have generations : e.timeline.generation = e.generation := rfl
  by_cases same : generation = e.generation
  · cases result with
    | error why => simp [view, completeLayout, Timeline.layOut, generations, same, Answer.ofLayout]
    | ok response =>
      simp only [view, completeLayout, Timeline.layOut, generations, same, ne_eq,
        not_true_eq_false, if_false, if_true, Prod.map, id, timeline_replaceCurrent]
      rfl
  · simp [view, completeLayout, Timeline.layOut, generations, same, Answer.ofLayout]

/-- One action on the editor is one action on its timeline. -/
theorem view_act (e : Editor src) (a : Action) :
    view (e.act a) = e.timeline.act src e.idState a := by
  cases a with
  | commit next => exact e.view_commit none next
  | addInstance symbol position =>
    exact e.view_commitDrawn ((e.current.addInstance src symbol position e.idState).map .ok id)
  | addGlue name code ports position =>
    exact e.view_commitDrawn ((e.current.addGlue src name code ports position e.idState).map .ok id)
  | removeInstance id => exact e.view_commitResult _
  | moveInstance id position => exact e.view_moveInstance id position
  | connect p q => exact e.view_commitDrawn _
  | reconnect p q => exact e.view_commitDrawn _
  | removeWire id => exact e.view_commitResult _
  | exportToPin p pin => exact e.view_commitDrawn _
  | autoConnect => exact e.view_autoConnect
  | undo => exact e.view_undo
  | redo => exact e.view_redo
  | completeLayout generation result => exact e.view_completeLayout generation result
  | runLayout engine pending => exact e.view_completeLayout _ _

/-- A run of the editor is a run of its timeline. -/
theorem run_timeline (e : Editor src) (actions : List Action) :
    e.timeline.run src e.idState actions =
      (((e.run actions).1, (e.run actions).2.timeline), (e.run actions).2.idState) := by
  induction actions generalizing e with
  | nil => rfl
  | cons a rest ih =>
    have here := e.view_act a
    have later := ih (e.act a).2
    simp only [view] at here
    simp only [Timeline.run, run, ← here, later]

end Editor

namespace Timeline

/-- What an action may do to a timeline, by the answer that it gives. -/
inductive Step (t : Timeline) : Answer → Timeline → Prop where
  | commit (id : Option String) (next : Schematic) :
      Step t (.committed id (t.pendingFor next)) (t.push next)
  | wire (added : Nat) (next : Schematic) (some : added ≠ 0) :
      Step t (.wired added (t.pendingFor next)) (t.push next)
  | move (next : Schematic) : Step t .moved (t.push next)
  | back {s : Schematic} {past : List Schematic} (before : t.past = s :: past) :
      Step t (.stepped true) ⟨past, s, t.current :: t.future, t.generation + 1⟩
  | forth {s : Schematic} {future : List Schematic} (after : t.future = s :: future) :
      Step t (.stepped true) ⟨t.current :: t.past, s, future, t.generation + 1⟩
  | layOut (response : LayoutResponse) :
      Step t (.laidOut true) { t with current := t.current.withLayout response }
  | idle {answer : Answer} (idle : answer.isIdle = true) : Step t answer t

theorem step_commitResult (t : Timeline) (result : Except EditError Schematic) :
    t.Step (t.commitResult result).1 (t.commitResult result).2 := by
  cases result with
  | error why => exact .idle rfl
  | ok next => exact .commit none next

theorem step_commitDrawn (t : Timeline) (result : Except EditError (Schematic × String)) :
    t.Step (t.commitDrawn result).1 (t.commitDrawn result).2 := by
  cases result with
  | error why => exact .idle rfl
  | ok made => exact .commit (some made.2) made.1

theorem step_commitMove (t : Timeline) (result : Except EditError Schematic) :
    t.Step (t.commitMove result).1 (t.commitMove result).2 := by
  cases result with
  | error why => exact .idle rfl
  | ok next => exact .move next

theorem step_commitSweep (t : Timeline) (sweep : Schematic × Nat) :
    t.Step (t.commitSweep sweep).1 (t.commitSweep sweep).2 := by
  rw [commitSweep]
  by_cases none : sweep.2 = 0
  · rw [if_pos none]
    exact .idle rfl
  · rw [if_neg none]
    exact .wire sweep.2 sweep.1 none

theorem step_back (t : Timeline) : t.Step (t.stepTo t.back?).1 (t.stepTo t.back?).2 := by
  rw [back?]
  cases before : t.past with
  | nil => exact .idle rfl
  | cons s past => exact .back before

theorem step_forth (t : Timeline) : t.Step (t.stepTo t.forth?).1 (t.stepTo t.forth?).2 := by
  rw [forth?]
  cases after : t.future with
  | nil => exact .idle rfl
  | cons s future => exact .forth after

theorem step_layOut (t : Timeline) (generation : Nat)
    (result : Except LayoutError LayoutResponse) :
    t.Step (t.layOut generation result).1 (t.layOut generation result).2 := by
  by_cases same : generation = t.generation
  · cases result with
    | error why =>
      have failed : t.layOut generation (.error why) = (.failed why, t) := if_pos same
      rw [failed]
      exact .idle rfl
    | ok response =>
      have laidOut : t.layOut generation (.ok response) =
          (.laidOut true, { t with current := t.current.withLayout response }) := if_pos same
      rw [laidOut]
      exact .layOut response
  · have late : t.layOut generation result = (.laidOut false, t) := if_neg same
    rw [late]
    exact .idle rfl

theorem step_act (src : IdSource) (t : Timeline) (st : src.State) (a : Action) :
    t.Step (t.act src st a).1.1 (t.act src st a).1.2 := by
  cases a with
  | commit next => exact .commit none next
  | addInstance symbol position => exact t.step_commitDrawn _
  | addGlue name code ports position => exact t.step_commitDrawn _
  | removeInstance id => exact t.step_commitResult _
  | moveInstance id position => exact t.step_commitMove _
  | connect p q => exact t.step_commitDrawn _
  | reconnect p q => exact t.step_commitDrawn _
  | removeWire id => exact t.step_commitResult _
  | exportToPin p pin => exact t.step_commitDrawn _
  | autoConnect => exact t.step_commitSweep _
  | undo => exact t.step_back
  | redo => exact t.step_forth
  | completeLayout generation result => exact t.step_layOut generation result
  | runLayout engine pending => exact t.step_layOut _ _

/-- What commits goes on to a new snapshot, and all else that can be said of it is what that is. -/
theorem Step.eq_push {t u : Timeline} {answer : Answer} (h : t.Step answer u)
    (commits : answer.commits = true) : u = t.push u.current := by
  cases h with
  | commit id next => rfl
  | wire added next some => rfl
  | move next => rfl
  | back before => cases commits
  | forth after => cases commits
  | layOut response => cases commits
  | idle idle => exact absurd commits (by simp [Answer.commits_of_isIdle idle])

theorem Step.eq_of_isIdle {t u : Timeline} {answer : Answer} (h : t.Step answer u)
    (quiet : answer.isIdle = true) : u = t := by
  cases h with
  | commit id next => cases quiet
  | wire added next some => cases quiet
  | move next => cases quiet
  | back before => cases quiet
  | forth after => cases quiet
  | layOut response => cases quiet
  | idle _ => rfl

end Timeline

namespace Editor

variable {src : IdSource}

theorem step_timeline (e : Editor src) (a : Action) :
    e.timeline.Step (e.act a).1 (e.act a).2.timeline := by
  have step := e.timeline.step_act src e.idState a
  rw [← e.view_act a] at step
  exact step

/-- A step back that the timeline has is one that the editor makes. -/
theorem undo_of_past {e : Editor src} {s : Schematic} {past : List Schematic}
    (before : e.timeline.past = s :: past) :
    ∃ back, e.undo = (true, back) ∧
      back.timeline = ⟨past, s, e.current :: e.timeline.future, e.generation + 1⟩ := by
  have seen := e.view_undo
  rw [Timeline.back?, before] at seen
  simp only [view, Prod.map, Timeline.stepTo, Prod.mk.injEq, Answer.stepped.injEq] at seen
  obtain ⟨⟨done, back⟩, -⟩ := seen
  exact ⟨e.undo.2, Prod.ext done rfl, back⟩

theorem redo_of_future {e : Editor src} {s : Schematic} {future : List Schematic}
    (after : e.timeline.future = s :: future) :
    ∃ forth, e.redo = (true, forth) ∧
      forth.timeline = ⟨e.current :: e.timeline.past, s, future, e.generation + 1⟩ := by
  have seen := e.view_redo
  rw [Timeline.forth?, after] at seen
  simp only [view, Prod.map, Timeline.stepTo, Prod.mk.injEq, Answer.stepped.injEq] at seen
  obtain ⟨⟨done, forth⟩, -⟩ := seen
  exact ⟨e.redo.2, Prod.ext done rfl, forth⟩

/-- Undo right after a commit gives back the snapshot from before it, and redo the new one. -/
theorem undo_redo_of_commits (e : Editor src) {a : Action}
    (commits : (e.act a).1.commits = true) :
    ∃ back again, (e.act a).2.undo = (true, back) ∧ back.redo = (true, again) ∧
      back.timeline = ⟨e.timeline.past, e.current, [(e.act a).2.current], e.generation + 2⟩ ∧
      again.timeline = { (e.act a).2.timeline with generation := e.generation + 3 } := by
  have pushed := (e.step_timeline a).eq_push commits
  have generation : (e.act a).2.generation = e.generation + 1 :=
    congrArg Timeline.generation pushed
  have past : (e.act a).2.timeline.past = e.current :: e.timeline.past :=
    congrArg Timeline.past pushed
  have future : (e.act a).2.timeline.future = [] := congrArg Timeline.future pushed
  obtain ⟨back, undone, backLine⟩ := undo_of_past past
  rw [future, generation] at backLine
  have ahead : back.timeline.future = [(e.act a).2.current] := congrArg Timeline.future backLine
  obtain ⟨again, redone, againLine⟩ := redo_of_future ahead
  refine ⟨back, again, undone, redone, backLine, ?_⟩
  have backCurrent : back.current = e.current := congrArg Timeline.current backLine
  have backGeneration : back.generation = e.generation + 2 :=
    congrArg Timeline.generation backLine
  rw [againLine, backCurrent, backGeneration, congrArg Timeline.past backLine, pushed]
  rfl

end Editor

/-- After any run the history with its cursor is the timeline of the same run, with the same
answers. The cursor stands at the current snapshot, and an editor can go back or forth just where
there is a past or a future. What comes next does to the timeline what its answer says, and
nothing if it came to nothing; and what was committed can be undone and redone. -/
theorem editor_refines_timeline {src : IdSource} (s : Schematic) (st : src.State)
    (actions : List Action) :
    let answers := ((Editor.start s st).run actions).1
    let e := ((Editor.start s st).run actions).2
    (Timeline.start s).run src st actions = ((answers, e.timeline), e.idState) ∧
    e.history = e.timeline.past.reverse ++ e.current :: e.timeline.future ∧
    e.cursor = e.timeline.past.length ∧
    e.history[e.cursor]? = some e.current ∧
    (e.canUndo = true ↔ e.timeline.past ≠ []) ∧
    (e.canRedo = true ↔ e.timeline.future ≠ []) ∧
    ∀ a, e.timeline.Step (e.act a).1 (e.act a).2.timeline ∧
      ((e.act a).1.isIdle = true → (e.act a).2.timeline = e.timeline) ∧
      ((e.act a).1.commits = true →
        ∃ back again, (e.act a).2.undo = (true, back) ∧ back.redo = (true, again) ∧
          back.timeline = ⟨e.timeline.past, e.current, [(e.act a).2.current], e.generation + 2⟩ ∧
          again.timeline = { (e.act a).2.timeline with generation := e.generation + 3 }) := by
  intro answers e
  refine ⟨(Editor.start s st).run_timeline actions, e.history_eq, e.length_past.symm, ?_,
    e.canUndo_iff, e.canRedo_iff, ?_⟩
  · exact List.getElem?_eq_getElem e.cursor_lt
  · intro a
    exact ⟨e.step_timeline a, (e.step_timeline a).eq_of_isIdle, e.undo_redo_of_commits⟩

end BlockSchematic
