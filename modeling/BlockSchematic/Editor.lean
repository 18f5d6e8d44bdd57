import BlockSchematic.Layout.Request
import BlockSchematic.Schematic.AutoConnect

/-!
# Editing with history

An editor keeps the snapshots of a schematic and a cursor to the current one. Each change of the
current snapshot by an edit, by undo or by redo begins a new generation. A layout that was asked
for counts only as long as its generation lasts; it replaces the current snapshot in place.
-/

namespace BlockSchematic

/-- A request for the snapshot that was committed at a generation. -/
structure PendingLayout where
  generation : Nat
  request : LayoutRequest
  deriving Repr, BEq, Inhabited

structure Editor (src : IdSource) where
  history : List Schematic
  cursor : Nat
  generation : Nat
  idState : src.State
  cursor_lt : cursor < history.length

namespace Editor

variable {src : IdSource}

def start (s : Schematic) (st : src.State) : Editor src := ⟨[s], 0, 0, st, by simp⟩

def current (e : Editor src) : Schematic := e.history.get ⟨e.cursor, e.cursor_lt⟩

def canUndo (e : Editor src) : Bool := 0 < e.cursor

def canRedo (e : Editor src) : Bool := e.cursor + 1 < e.history.length

def undo (e : Editor src) : Bool × Editor src :=
  if 0 < e.cursor then
    (true, { e with
      cursor := e.cursor - 1
      generation := e.generation + 1
      cursor_lt := Nat.lt_of_le_of_lt (Nat.sub_le _ _) e.cursor_lt })
  else (false, e)

def redo (e : Editor src) : Bool × Editor src :=
  if h : e.cursor + 1 < e.history.length then
    (true, { e with cursor := e.cursor + 1, generation := e.generation + 1, cursor_lt := h })
  else (false, e)

/-- Drops the snapshots after the cursor and goes on to a new one. -/
def push (e : Editor src) (next : Schematic) : Editor src :=
  { e with
    history := e.history.take (e.cursor + 1) ++ [next]
    cursor := e.cursor + 1
    generation := e.generation + 1
    cursor_lt := by
      have := e.cursor_lt
      simp only [List.length_append, List.length_take, List.length_singleton]
      omega }

/-- The layout asked for at the current generation. -/
def pending (e : Editor src) : PendingLayout := ⟨e.generation, e.current.layoutRequest⟩

def commit (e : Editor src) (next : Schematic) : PendingLayout × Editor src :=
  let e := e.push next
  (e.pending, e)

def withIds (e : Editor src) (st : src.State) : Editor src := { e with idState := st }

def addInstance (e : Editor src) (symbol : Symbol) (position : Position) :
    (String × PendingLayout) × Editor src :=
  let ((next, id), st) := e.current.addInstance src symbol position e.idState
  let (pending, e) := (e.withIds st).commit next
  ((id, pending), e)

def addGlue (e : Editor src) (name code : String) (ports : List PortSpec) (position : Position) :
    (String × PendingLayout) × Editor src :=
  let ((next, id), st) := e.current.addGlue src name code ports position e.idState
  let (pending, e) := (e.withIds st).commit next
  ((id, pending), e)

/-- Commits the schematic of an edit that draws no ids, if it was not refused. -/
def commitResult (e : Editor src) (result : Except EditError Schematic) :
    Except EditError PendingLayout × Editor src :=
  match result with
  | .error why => (.error why, e)
  | .ok next =>
    let (pending, e) := e.commit next
    (.ok pending, e)

/-- Commits the schematic of an edit that draws ids. The ids drawn count in any case. -/
def commitDrawn (e : Editor src) (result : Except EditError (Schematic × String) × src.State) :
    Except EditError (String × PendingLayout) × Editor src :=
  let e := e.withIds result.2
  match result.1 with
  | .error why => (.error why, e)
  | .ok (next, id) =>
    let (pending, e) := e.commit next
    (.ok (id, pending), e)

def removeInstance (e : Editor src) (id : String) : Except EditError PendingLayout × Editor src :=
  e.commitResult (e.current.removeInstance id)

def removeWire (e : Editor src) (id : String) : Except EditError PendingLayout × Editor src :=
  e.commitResult (e.current.removeWire id)

/-- A move is kept in the history but asks for no layout. -/
def moveInstance (e : Editor src) (id : String) (position : Position) :
    Except EditError Unit × Editor src :=
  match e.current.moveInstance id position with
  | .error why => (.error why, e)
  | .ok next => (.ok (), e.push next)

def connect (e : Editor src) (p q : PortRef) :
    Except EditError (String × PendingLayout) × Editor src :=
  e.commitDrawn (e.current.connect src p q e.idState)

def reconnect (e : Editor src) (p q : PortRef) :
    Except EditError (String × PendingLayout) × Editor src :=
  e.commitDrawn (e.current.reconnect src p q e.idState)

def exportToPin (e : Editor src) (p : PortRef) (pin : Symbol) :
    Except EditError (String × PendingLayout) × Editor src :=
  e.commitDrawn (e.current.exportToPin src p pin e.idState)

/-- Commits nothing if no wire was added. -/
def autoConnect (e : Editor src) : (Nat × Option PendingLayout) × Editor src :=
  let ((next, added), st) := e.current.autoConnect src e.idState
  let e := e.withIds st
  if added = 0 then ((0, none), e)
  else
    let (pending, e) := e.commit next
    ((added, some pending), e)

def replaceCurrent (e : Editor src) (s : Schematic) : Editor src :=
  { e with
    history := e.history.set e.cursor s
    cursor_lt := by rw [List.length_set]; exact e.cursor_lt }

/-- Takes the outcome of a layout. One of another generation is dropped, whatever it is. -/
def completeLayout (e : Editor src) (generation : Nat)
    (result : Except LayoutError LayoutResponse) : Except LayoutError Bool × Editor src :=
  if generation ≠ e.generation then (.ok false, e)
  else
    match result with
    | .error why => (.error why, e)
    | .ok response => (.ok true, e.replaceCurrent (e.current.withLayout response))

def runLayout (e : Editor src) (engine : LayoutRequest → Except LayoutError LayoutResponse)
    (pending : PendingLayout) : Except LayoutError Bool × Editor src :=
  e.completeLayout pending.generation (engine pending.request)

end Editor

end BlockSchematic
