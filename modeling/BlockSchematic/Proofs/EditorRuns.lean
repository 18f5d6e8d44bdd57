import BlockSchematic.Editor

/-!
# Runs of an editor

An action is one thing that can be asked of an editor, and an answer is what the editor gives back
for it. Layouts are actions of their own: they come when they come, for any generation, as often
as they like, and whatever was asked in between.
-/

namespace BlockSchematic

namespace Editor

inductive Action where
  | commit (next : Schematic)
  | addInstance (symbol : Symbol) (position : Position)
  | addGlue (name code : String) (ports : List PortSpec) (position : Position)
  | removeInstance (id : String)
  | moveInstance (id : String) (position : Position)
  | connect (p q : PortRef)
  | reconnect (p q : PortRef)
  | removeWire (id : String)
  | exportToPin (p : PortRef) (pin : Symbol)
  | autoConnect
  | undo
  | redo
  | completeLayout (generation : Nat) (result : Except LayoutError LayoutResponse)
  | runLayout (engine : LayoutRequest → Except LayoutError LayoutResponse)
      (pending : PendingLayout)

inductive Answer where
  /-- An edit was committed; the id is that of the thing it made. -/
  | committed (id : Option String) (pending : PendingLayout)
  | wired (added : Nat) (pending : PendingLayout)
  | nothingToWire
  | moved
  | refused (why : EditError)
  | stepped (done : Bool)
  | laidOut (applied : Bool)
  | failed (why : LayoutError)

namespace Answer

/-- The layout that was asked for along with the answer. -/
def pending? : Answer → Option PendingLayout
  | .committed _ pending => some pending
  | .wired _ pending => some pending
  | _ => none

/-- An edit or a move was committed. -/
def commits : Answer → Bool
  | .committed _ _ => true
  | .wired _ _ => true
  | .moved => true
  | _ => false

/-- An edit or a move was committed, or a step back or forth was made. -/
def advances : Answer → Bool
  | .stepped done => done
  | answer => answer.commits

/-- Nothing came of it: an edit that was refused or had nothing to add, a step where there is
none, a layout that failed or came too late. -/
def isIdle : Answer → Bool
  | .nothingToWire => true
  | .refused _ => true
  | .stepped done => !done
  | .laidOut applied => !applied
  | .failed _ => true
  | _ => false

theorem advances_of_isIdle {answer : Answer} (idle : answer.isIdle = true) :
    answer.advances = false := by
  cases answer <;> simp_all [isIdle, advances, commits]

theorem commits_of_isIdle {answer : Answer} (idle : answer.isIdle = true) :
    answer.commits = false := by
  cases answer <;> simp_all [isIdle, commits]

theorem pending?_of_isIdle {answer : Answer} (idle : answer.isIdle = true) :
    answer.pending? = none := by
  cases answer <;> simp_all [isIdle, pending?]

def ofResult : Except EditError PendingLayout → Answer
  | .error why => .refused why
  | .ok pending => .committed none pending

def ofDrawn : Except EditError (String × PendingLayout) → Answer
  | .error why => .refused why
  | .ok (id, pending) => .committed (some id) pending

def ofMove : Except EditError Unit → Answer
  | .error why => .refused why
  | .ok () => .moved

def ofSweep : Nat × Option PendingLayout → Answer
  | (_, none) => .nothingToWire
  | (added, some pending) => .wired added pending

def ofLayout : Except LayoutError Bool → Answer
  | .error why => .failed why
  | .ok applied => .laidOut applied

end Answer

variable {src : IdSource}

def act (e : Editor src) : Action → Answer × Editor src
  | .commit next => (e.commit next).map (.committed none) id
  | .addInstance symbol position =>
    (e.addInstance symbol position).map (fun (made, pending) => .committed (some made) pending) id
  | .addGlue name code ports position =>
    (e.addGlue name code ports position).map
      (fun (made, pending) => .committed (some made) pending) id
  | .removeInstance i => (e.removeInstance i).map .ofResult id
  | .moveInstance i position => (e.moveInstance i position).map .ofMove id
  | .connect p q => (e.connect p q).map .ofDrawn id
  | .reconnect p q => (e.reconnect p q).map .ofDrawn id
  | .removeWire w => (e.removeWire w).map .ofResult id
  | .exportToPin p pin => (e.exportToPin p pin).map .ofDrawn id
  | .autoConnect => e.autoConnect.map .ofSweep id
  | .undo => e.undo.map .stepped id
  | .redo => e.redo.map .stepped id
  | .completeLayout generation result => (e.completeLayout generation result).map .ofLayout id
  | .runLayout engine pending => (e.runLayout engine pending).map .ofLayout id

/-- The answers to actions carried out one after the other, and the editor after the last. -/
def run (e : Editor src) : List Action → List Answer × Editor src
  | [] => ([], e)
  | a :: rest =>
    let (answer, e) := e.act a
    let (answers, e) := e.run rest
    (answer :: answers, e)

end Editor

end BlockSchematic
