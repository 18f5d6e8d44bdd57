import BlockSchematic.Command.Basic
import BlockSchematic.Document.Write
import BlockSchematic.Editor
import BlockSchematic.Files
import BlockSchematic.Symbol.Library

/-!
# Running commands

A command works on the files of a directory and draws ids from a source. It reads, prints and
writes step by step, and a step that fails ends it.
-/

namespace BlockSchematic

/-- Why a command failed. -/
inductive CommandError where
  | unreadableDocument (path : String) (fault : FileFault)
  | malformedDocument (path : String) (fault : Json.Fault)
  | unwritable (path : String) (fault : FileFault)
  | unreadableSymbol (path : String) (fault : FileFault)
  | malformedSymbol (path : String) (error : SourceError)
  | unreadableCode (path : String) (fault : FileFault)
  | unknownSymbol (name : String) (available : List String)
  | unknownItem (name : String)
  | unknownPort (name : String)
  | naming (error : NameError)
  | edit (error : EditError)
  | layout (error : LayoutError)
  deriving DecidableEq, Repr

/-- The message of an error, and after it those of its causes. -/
def CommandError.chain : CommandError → List String
  | .unreadableDocument path fault => ["Failed to read schematic " ++ path, "io: " ++ fault.name]
  | .malformedDocument path fault =>
    ["Failed to parse schematic " ++ path, "json: " ++ fault.category]
  | .unwritable path fault => ["Failed to write " ++ path, "io: " ++ fault.name]
  | .unreadableSymbol path fault => ["Failed to read symbol file " ++ path, "io: " ++ fault.name]
  | .malformedSymbol path error => ["Failed to load symbol from " ++ path, error.message]
  | .unreadableCode path fault => ["Failed to read glue code " ++ path, "io: " ++ fault.name]
  | .unknownSymbol name available =>
    [s!"Unknown symbol '{name}'. Available: " ++ ", ".intercalate available]
  | .unknownItem name => [s!"No instance or wire named '{name}'"]
  | .unknownPort name => ["No port " ++ name]
  | .naming error => [error.message]
  | .edit error => [error.message]
  | .layout error => [error.message]

def mapError {α ε δ : Type} (f : ε → δ) : Except ε α → Except δ α
  | .ok a => .ok a
  | .error e => .error (f e)

/-! ## Symbols and documents in files -/

/-- The type of a source is the extension of its path in small letters. -/
def sourceType (path : String) : String := (Path.extension path).map Char.toLower

/-- A symbol that has no name of its own is named after its file. -/
def nameAfter (path : String) (s : Symbol) : Symbol :=
  if s.name = untitled then { s with name := (Path.stem? path).getD s.name } else s

def Files.readSymbol (files : Files) (path : String) : Except CommandError Symbol := do
  let text ← mapError (.unreadableSymbol path) (files.read path)
  let s ← mapError (.malformedSymbol path) (Symbol.ofSource text (sourceType path))
  return nameAfter path s

namespace Library

/-- Adds the symbol of a file, and gives it back. -/
def load (l : Library) (files : Files) (path : String) :
    Except CommandError (Symbol × Library) := do
  let s ← files.readSymbol path
  return (s, l.add s)

def loadAll (l : Library) (files : Files) (paths : List String) : Except CommandError Library :=
  paths.foldlM (fun l path => (l.load files path).map (·.2)) l

/-- A symbol of the library, or else one in a file. -/
def resolve (l : Library) (files : Files) (name : String) : Except CommandError Symbol :=
  match l.get? name with
  | some s => .ok s
  | none =>
    if files.isFile name then files.readSymbol name
    else .error (.unknownSymbol name l.names)

end Library

def Files.readDocument (files : Files) (path : String) : Except CommandError Schematic := do
  let text ← mapError (.unreadableDocument path) (files.read path)
  mapError (.malformedDocument path) (Document.read text)

/-- Where no document is there yet the schematic is empty. -/
def Files.openDocument (files : Files) (path : String) : Except CommandError Schematic :=
  if files.contains path then files.readDocument path else .ok .empty

def Files.writeText (files : Files) (path text : String) : Except CommandError Files :=
  mapError (.unwritable path) (files.write path text)

/-! ## Sessions -/

/-- What a command changes: what it has printed so far, and the files. -/
structure World where
  out : String
  log : String
  files : Files

/-- A stretch of a command. What it did before it failed stays done. -/
abbrev Session (α : Type) := ExceptT CommandError (StateM World) α

namespace Session

variable {α : Type}

def orFail (x : Except CommandError α) : Session α :=
  match x with
  | .ok a => pure a
  | .error e => throw e

/-- Asks the files as they are by now. -/
def reading (f : Files → Except CommandError α) : Session α := do orFail (f (← get).files)

def print (text : String) : Session Unit := modify fun w => { w with out := w.out ++ text }

def report (text : String) : Session Unit := modify fun w => { w with log := w.log ++ text }

def save (path text : String) : Session Unit := do
  let files ← reading (·.writeText path text)
  modify fun w => { w with files }

def saveDocument (path : String) (s : Schematic) : Session Unit := save path (Document.write s)

end Session

/-- What a command that failed left behind, and why it failed. -/
structure Failure extends World where
  error : CommandError

abbrev Outcome := Except Failure World

/-- How a session ends that finds these files and nothing printed. -/
def Session.outcome (session : Session Unit) (files : Files) : Outcome :=
  match session.run.run ⟨"", "", files⟩ with
  | (.ok (), world) => .ok world
  | (.error error, world) => .error { world with error }

def success (message : String) : String := "✓ " ++ message ++ "\n"

def warning (message : String) : String := "! " ++ message ++ "\n"

def refusal (message : String) : String := "✗ " ++ message ++ "\n"

/-! ## Listings -/

def padLeft (width : Nat) (s : String) : String :=
  String.ofList (List.replicate (width - s.length) ' ') ++ s

def padRight (width : Nat) (s : String) : String :=
  s ++ String.ofList (List.replicate (width - s.length) ' ')

def pointText (p : Point) : String := Text.intText p.x.toInt ++ "," ++ Text.intText p.y.toInt

def portLine (index : Nat) (p : Port) : String :=
  let plural := if p.width = 1 then " " else "s"
  s!"  {padLeft 2 (Text.natText index)}  {padRight 16 p.label} " ++
    s!"{padRight 6 p.direction.keyword} {padLeft 3 (Text.natText p.width.toNat)} bit{plural}" ++
    s!"  @ {pointText p.location}"

def symbolLines (s : Symbol) : List String :=
  let size := Text.intText s.width.toInt ++ "x" ++ Text.intText s.height.toInt
  let corner := pointText ⟨s.bounds.x1, s.bounds.y1⟩
  s!"{s.name} ({size} at {corner})" ::
    if s.ports.isEmpty then ["  no ports"] else s.ports.mapIdx portLine

def candidateLine (c : Candidate) : String := s!"{c.label}  @ {c.position.text}"

def plural (n : Nat) : String := if n = 1 then "" else "s"

/-! ## Commands -/

/-- The name of an instance that was just placed. -/
def Schematic.nameOf (s : Schematic) (id : String) : String :=
  ((s.instance? id).map (·.name)).getD id

/-- Outputs leave the schematic, everything else is driven from outside. -/
def pinSymbol (choice : PinChoice) (direction : Direction) : Symbol :=
  match choice with
  | .input => .pinInput
  | .output => .pinOutput
  | .byDirection => if direction = .output then .pinOutput else .pinInput

namespace Command

open Session

variable (src : IdSource)

def runInspect (name : String) (libs : List String) (asJson : Bool) : Session Unit := do
  let library ← reading fun files => Library.builtin.loadAll files libs
  let s ← reading fun files => library.resolve files name
  if asJson then print (s.toJson.pretty ++ "\n")
  else print (Vhdl.unlines (symbolLines s))

/-- Prints a text, or writes it to a file and says so. -/
def deliver (output : Option String) (what text : String) : Session Unit :=
  match output with
  | none => print text
  | some path => do
    save path text
    report (success (what ++ " to " ++ path))

def runDescribe (name : String) (output : Option String) : Session Unit := do
  let s ← reading fun files => Library.builtin.resolve files name
  deliver output s!"Wrote symbol '{s.name}'" s.description

def runPlace (path name : String) (position : Position) (libs : List String) (st : src.State) :
    Session Unit := do
  let library ← reading fun files => Library.builtin.loadAll files libs
  let symbol ← reading fun files => library.resolve files name
  let s ← reading (·.openDocument path)
  let ((next, id), _) := s.addInstance src symbol position st
  saveDocument path next
  print (success s!"Placed {next.nameOf id}")

def runGlue (path name code : String) (ports : List PortSpec) (position : Position)
    (st : src.State) : Session Unit := do
  let text ← reading fun files => mapError (.unreadableCode code) (files.read code)
  let s ← reading (·.openDocument path)
  let ((next, id), _) := s.addGlue src name text ports position st
  saveDocument path next
  print (success s!"Placed glue {next.nameOf id} with {ports.length} ports")

def runMove (path name : String) (position : Position) : Session Unit := do
  let s ← reading (·.readDocument path)
  let id ← orFail (mapError .naming (s.instanceIdOf name))
  let next ← orFail (mapError .edit (s.moveInstance id position))
  saveDocument path next
  print (success s!"Moved {name} to {position.text}")

/-- Removes a wire, or else an instance. -/
def removed (s : Schematic) (item : String) : Except CommandError Schematic :=
  if (s.wire? item).isSome then mapError .edit (s.removeWire item)
  else
    match s.instanceIdOf item with
    | .error _ => .error (.unknownItem item)
    | .ok id => mapError .edit (s.removeInstance id)

def runRemove (path item : String) : Session Unit := do
  let s ← reading (·.readDocument path)
  let next ← orFail (removed s item)
  saveDocument path next
  print (success s!"Removed {item}")

def runConnect (path source target : String) (replace : Bool) (st : src.State) :
    Session Unit := do
  let s ← reading (·.readDocument path)
  let p ← orFail (mapError .naming (s.resolvePort source))
  let q ← orFail (mapError .naming (s.resolvePort target))
  match (if replace then s.reconnect src p q st else s.connect src p q st).1 with
  | .error e =>
    report (refusal s!"Cannot connect {source} to {target}")
    throw (.edit e)
  | .ok (next, wire) =>
    saveDocument path next
    let width := ((next.wire? wire).map (·.width)).getD 1
    print (success (s!"Connected {next.portLabel p} -> {next.portLabel q} " ++
      s!"({width.toNat} bit{plural width.toNat})"))

def runCandidates (path port : String) : Session Unit := do
  let s ← reading (·.readDocument path)
  let p ← orFail (mapError .naming (s.resolvePort port))
  let candidates := s.candidates p
  if candidates.isEmpty then print (warning s!"No compatible ports for {port}")
  else print (Vhdl.unlines (candidates.map candidateLine))

/-- Where instances share an id, the port that a name stands for need not be there. -/
def runPin (path port : String) (choice : PinChoice) (st : src.State) : Session Unit := do
  let s ← reading (·.readDocument path)
  let p ← orFail (mapError .naming (s.resolvePort port))
  match s.port? p with
  | none => throw (.unknownPort port)
  | some (_, exported) =>
    let (next, id) ←
      orFail (mapError .edit (s.exportToPin src p (pinSymbol choice exported.direction) st).1)
    saveDocument path next
    print (success s!"Exported {port} as {next.nameOf id}")

def runAutoConnect (path : String) (st : src.State) : Session Unit := do
  let s ← reading (·.readDocument path)
  let ((next, added), _) := s.autoConnect src st
  if added = 0 then print (warning "No new connections")
  else
    saveDocument path next
    print (success s!"Added {added} wire{plural added}")

def runLayout (path : String) (spacing : Layered.Spacing) (st : src.State) : Session Unit := do
  let s ← reading (·.readDocument path)
  let editor : Editor src := .start s st
  match editor.runLayout (Layered.layout spacing) editor.pending with
  | (.error e, _) =>
    report (refusal "Layout failed, schematic left unchanged")
    throw (.layout e)
  | (.ok _, editor) =>
    let next := editor.current
    saveDocument path next
    print (success s!"Laid out {next.instances.length} instances and {next.wires.length} wires")

def runExport (path top : String) (output : Option String) : Session Unit := do
  let s ← reading (·.readDocument path)
  deliver output ("Wrote " ++ top) (Vhdl.ofSchematic s top)

def session (st : src.State) : Command → Session Unit
  | .inspect symbol libs asJson => runInspect symbol libs asJson
  | .describe symbol output => runDescribe symbol output
  | .place path symbol position libs => runPlace src path symbol position libs st
  | .glue path name code ports position => runGlue src path name code ports position st
  | .move path name position => runMove path name position
  | .remove path item => runRemove path item
  | .connect path source target replace => runConnect src path source target replace st
  | .candidates path port => runCandidates path port
  | .pin path port choice => runPin src path port choice st
  | .autoConnect path => runAutoConnect src path st
  | .layout path spacing => runLayout src path spacing st
  | .exportVhdl path top output => runExport path top output

def run (files : Files) (st : src.State) (command : Command) : Outcome :=
  (command.session src st).outcome files

end Command

end BlockSchematic
