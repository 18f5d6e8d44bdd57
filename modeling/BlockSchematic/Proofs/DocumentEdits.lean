import BlockSchematic.Proofs.FileWrites
import BlockSchematic.Proofs.Sessions
import BlockSchematic.Proofs.WiringByName

/-!
# Documents edited by commands

A command that edits a document either leaves every file as it was, or puts the text of the edited
schematic in the place of the document and changes no other file. It fails only where there is no
edited schematic or where that cannot be written.
-/

namespace BlockSchematic

namespace Command

open Session

/-- The document that a command edits, if it edits one. -/
def edited? : Command → Option String
  | .place document .. => some document
  | .glue document .. => some document
  | .move document .. => some document
  | .remove document .. => some document
  | .connect document .. => some document
  | .pin document .. => some document
  | .autoConnect document => some document
  | .layout document .. => some document
  | .inspect .. | .describe .. | .candidates .. | .exportVhdl .. => none

/-- Whether a command begins a new document where there is none. -/
def begins : Command → Bool
  | .place .. | .glue .. => true
  | _ => false

/-- The schematic that a command edits. -/
def opened (files : Files) (path : String) (command : Command) : Option Schematic :=
  if command.begins && !files.contains path then some .empty
  else do
    let text ← (files.read path).toOption
    (Document.read text).toOption

/-- The edit that a command asks for. Names stand for what they name in the schematic. -/
def asked (files : Files) (s : Schematic) : Command → Option Edit
  | .place _ name position libs => do
    let library ← (Library.builtin.loadAll files libs).toOption
    let symbol ← (library.resolve files name).toOption
    return .addInstance symbol position
  | .glue _ name code ports position => do
    let text ← (files.read code).toOption
    return .addGlue name text ports position
  | .move _ name position => do
    let i ← s.find? name
    return .moveInstance i.id position
  | .remove _ item =>
    if (s.wire? item).isSome then some (.removeWire item)
    else (s.find? item).map fun i => .removeInstance i.id
  | .connect _ source target replace => do
    let p ← (s.resolvePort source).toOption
    let q ← (s.resolvePort target).toOption
    return if replace then .reconnect p q else .connect p q
  | .pin _ name choice => do
    let p ← (s.resolvePort name).toOption
    let (_, port) ← s.port? p
    return .exportToPin p (pinSymbol choice port.direction)
  | .autoConnect _ => some .autoConnect
  | .layout _ spacing => do
    let response ← (Layered.layout spacing s.layoutRequest).toOption
    return .withLayout response
  | .inspect .. | .describe .. | .candidates .. | .exportVhdl .. => none

/-- The schematic that the edit makes, if it is not refused. -/
def made (src : IdSource) (files : Files) (st : src.State) (s : Schematic) (command : Command) :
    Option Schematic := do
  let e ← command.asked files s
  (e.apply src s st).1.toOption

/-- What is left of the files when `t` was made of `s`. Wiring by name that adds nothing writes
nothing. -/
structure Saved (command : Command) (files : Files) (path : String) (s t : Schematic)
    (after : Files) : Prop where
  idle : command = .autoConnect path → t = s → after = files
  written : (command = .autoConnect path → t ≠ s) → files.Replaced path (Document.write t) after

variable (src : IdSource) (files : Files) (st : src.State) (path : String) (command : Command)

/-- The edit was made, and the document was written with what came of it. -/
def Succeeds (after : Files) : Prop :=
  ∃ s t, command.opened files path = some s ∧ command.made src files st s = some t ∧
    command.Saved files path s t after

/-- Nothing has changed, and there was nothing to write or it could not be written. -/
def Fails (error : CommandError) (after : Files) : Prop :=
  after = files ∧ ∀ s t, command.opened files path = some s →
    command.made src files st s = some t →
    ∃ fault, error = .unwritable path fault ∧
      files.write path (Document.write t) = .error fault

/-- The session ends as the command has to end. -/
abbrev DoneBy (session : Session Unit) : Prop :=
  session.Ends files (fun _ => command.Succeeds src files st path) (command.Fails src files st path)

variable {src files st path command}

theorem made_of_asked {s : Schematic} {e : Edit} (isAsked : command.asked files s = some e) :
    command.made src files st s = (e.apply src s st).1.toOption := by
  rw [made, isAsked]
  rfl

theorem fails_of_opened (closed : command.opened files path = none) (error : CommandError) :
    command.Fails src files st path error files :=
  ⟨rfl, fun s t isOpen _ => by rw [closed] at isOpen; cases isOpen⟩

theorem fails_of_isOpen {s : Schematic} (isOpen : command.opened files path = some s)
    {error : CommandError} (unwritten : ∀ t, command.made src files st s = some t →
      ∃ fault, error = .unwritable path fault ∧
        files.write path (Document.write t) = .error fault) :
    command.Fails src files st path error files := by
  refine ⟨rfl, fun s' t isOpen' isMade => ?_⟩
  obtain rfl : s = s' := Option.some.inj (isOpen.symm.trans isOpen')
  exact unwritten t isMade

theorem fails_of_made {s : Schematic} (isOpen : command.opened files path = some s)
    (refused : command.made src files st s = none) (error : CommandError) :
    command.Fails src files st path error files :=
  fails_of_isOpen isOpen fun t isMade => by rw [refused] at isMade; cases isMade

theorem fails_of_asked (unclear : ∀ s, command.asked files s = none) (error : CommandError) :
    command.Fails src files st path error files := by
  cases isOpen : command.opened files path with
  | none => exact fails_of_opened isOpen error
  | some s => exact fails_of_made isOpen (by rw [made, unclear]; rfl) error

theorem done_saveDocument {s t : Schematic} (isOpen : command.opened files path = some s)
    (isMade : command.made src files st s = some t)
    (changed : command = .autoConnect path → t ≠ s) (message : String) :
    command.DoneBy src files st path (saveDocument path t >>= fun _ => print message) := by
  have saves : command.DoneBy src files st path (saveDocument path t) := by
    refine .save (fun after written => ?_) fun fault refused => ?_
    · refine ⟨s, t, isOpen, isMade, fun sweeps same => absurd same (changed sweeps), fun _ => ?_⟩
      exact Files.replaced_of_write written
    -- A command asks for one edit of one schematic, so what was refused is all it could write.
    · refine fails_of_isOpen isOpen fun t' isMade' => ⟨fault, rfl, ?_⟩
      obtain rfl : t = t' := Option.some.inj (isMade.symm.trans isMade')
      exact refused
  exact saves.bind fun _ after succeeds => .print succeeds

theorem toOption_readDocument (files : Files) (path : String) :
    (files.readDocument path).toOption =
      (files.read path).toOption.bind fun text => (Document.read text).toOption := by
  rw [Files.readDocument]
  cases files.read path with
  | error fault => rfl
  | ok text => exact toOption_mapError _ _

theorem done_openDocument {next : Schematic → Session Unit} (begins : command.begins = true)
    (edits : ∀ s, command.opened files path = some s →
      command.DoneBy src files st path (next s)) :
    command.DoneBy src files st path (reading (·.openDocument path) >>= next) := by
  have reads : command.opened files path = (files.openDocument path).toOption := by
    rw [opened, Files.openDocument, begins, Bool.true_and]
    cases files.contains path with
    | false => rfl
    | true => exact (toOption_readDocument files path).symm
  exact .reading_bind (fun s found => edits s (reads.trans found)) fun e unread =>
    fails_of_opened (reads.trans unread) e

theorem done_readDocument {next : Schematic → Session Unit} (begins : command.begins = false)
    (edits : ∀ s, command.opened files path = some s →
      command.DoneBy src files st path (next s)) :
    command.DoneBy src files st path (reading (·.readDocument path) >>= next) := by
  have reads : command.opened files path = (files.readDocument path).toOption := by
    rw [opened, begins]
    exact (toOption_readDocument files path).symm
  exact .reading_bind (fun s found => edits s (reads.trans found)) fun e unread =>
    fails_of_opened (reads.trans unread) e

/-! ## The commands -/

theorem place_done (name : String) (position : Position) (libs : List String) :
    (Command.place path name position libs).DoneBy src files st path
      (runPlace src path name position libs st) := by
  refine .reading_bind (fun library loaded => ?_) fun e unloaded => ?_
  · refine .reading_bind (fun symbol resolved => ?_) fun e unresolved => ?_
    · refine done_openDocument rfl fun s isOpen => done_saveDocument isOpen ?_ nofun _
      exact made_of_asked (e := .addInstance symbol position) (by simp [asked, loaded, resolved])
    · exact fails_of_asked (fun s => by simp [asked, loaded, unresolved]) e
  · exact fails_of_asked (fun s => by simp [asked, unloaded]) e

theorem glue_done (name code : String) (ports : List PortSpec) (position : Position) :
    (Command.glue path name code ports position).DoneBy src files st path
      (runGlue src path name code ports position st) := by
  refine .reading_bind (fun text read => ?_) fun e unread => ?_
  · rw [toOption_mapError] at read
    refine done_openDocument rfl fun s isOpen => done_saveDocument isOpen ?_ nofun _
    exact made_of_asked (e := .addGlue name text ports position) (by simp [asked, read])
  · rw [toOption_mapError] at unread
    exact fails_of_asked (fun s => by simp [asked, unread]) e

theorem toOption_instanceIdOf (s : Schematic) (name : String) :
    (s.instanceIdOf name).toOption = (s.find? name).map (·.id) := by
  rw [Schematic.instanceIdOf]
  cases s.find? name <;> rfl

theorem move_done (name : String) (position : Position) :
    (Command.move path name position).DoneBy src files st path
      (runMove path name position) := by
  refine done_readDocument rfl fun s isOpen => ?_
  refine .mapError_bind (fun id named => ?_) fun e unnamed => ?_
  · rw [toOption_instanceIdOf, Option.map_eq_some_iff] at named
    obtain ⟨i, found, rfl⟩ := named
    have makes : (Command.move path name position).made src files st s =
        (s.moveInstance i.id position).toOption :=
      made_of_asked (e := .moveInstance i.id position) (by simp [asked, found])
    refine .mapError_bind (fun t moved => ?_) fun e refused => ?_
    · exact done_saveDocument isOpen (makes.trans moved) nofun _
    · exact fails_of_made isOpen (makes.trans refused) e
  · rw [toOption_instanceIdOf, Option.map_eq_none_iff] at unnamed
    exact fails_of_made isOpen (by simp [made, asked, unnamed]) e

theorem toOption_removed (item : String) (s : Schematic) :
    (removed s item).toOption = (Command.remove path item).made src files st s := by
  rw [made, asked, removed]
  split
  · exact toOption_mapError _ _
  · rw [Schematic.instanceIdOf]
    cases s.find? item with
    | none => rfl
    | some i => exact toOption_mapError _ _

theorem remove_done (item : String) :
    (Command.remove path item).DoneBy src files st path
      (runRemove path item) := by
  refine done_readDocument rfl fun s isOpen => ?_
  refine .orFail_bind (fun t isMade => ?_) fun e refused => ?_
  · exact done_saveDocument isOpen ((toOption_removed item s).symm.trans isMade) nofun _
  · exact fails_of_made isOpen ((toOption_removed item s).symm.trans refused) e

theorem connect_done (source target : String) (replace : Bool) :
    (Command.connect path source target replace).DoneBy src files st path
      (runConnect src path source target replace st) := by
  refine done_readDocument rfl fun s isOpen => ?_
  refine .mapError_bind (fun p first => ?_) fun e unnamed => ?_
  · refine .mapError_bind (fun q second => ?_) fun e unnamed => ?_
    -- Either way to connect has one result, so its two outcomes are split for both at once.
    · have makes : (Command.connect path source target replace).made src files st s =
          ((if replace then s.reconnect src p q st else s.connect src p q st).1.map
            (·.1)).toOption := by
        rw [made_of_asked (e := if replace then .reconnect p q else .connect p q)
          (by simp [asked, first, second])]
        cases replace <;> rfl
      cases connected : (if replace then s.reconnect src p q st else s.connect src p q st).1 with
      | error why =>
        rw [connected] at makes
        exact .report_throw _ (fails_of_made isOpen makes _)
      | ok wired =>
        rw [connected] at makes
        exact done_saveDocument isOpen makes nofun _
    · exact fails_of_made isOpen (by simp [made, asked, first, unnamed]) e
  · exact fails_of_made isOpen (by simp [made, asked, unnamed]) e

theorem pin_done (name : String) (choice : PinChoice) :
    (Command.pin path name choice).DoneBy src files st path
      (runPin src path name choice st) := by
  refine done_readDocument rfl fun s isOpen => ?_
  refine .mapError_bind (fun p named => ?_) fun e unnamed => ?_
  · cases found : s.port? p with
    | none => exact .throw (fails_of_made isOpen (by simp [made, asked, named, found]) _)
    | some there =>
      obtain ⟨i, port⟩ := there
      have makes : (Command.pin path name choice).made src files st s =
          ((s.exportToPin src p (pinSymbol choice port.direction) st).1.map (·.1)).toOption :=
        made_of_asked (e := .exportToPin p (pinSymbol choice port.direction))
          (by simp [asked, named, found])
      rw [toOption_map] at makes
      refine .mapError_bind (fun pinned exported => ?_) fun e refused => ?_
      · rw [exported] at makes
        exact done_saveDocument isOpen makes nofun _
      · rw [refused] at makes
        exact fails_of_made isOpen makes e
  · exact fails_of_made isOpen (by simp [made, asked, unnamed]) e

theorem autoConnect_done :
    (Command.autoConnect path).DoneBy src files st path
      (runAutoConnect src path st) := by
  refine done_readDocument rfl fun s isOpen => ?_
  have isMade : (Command.autoConnect path).made src files st s =
      some (s.autoConnect src st).1.1 := rfl
  -- The session asks how many wires were added, the rule whether the schematic has changed.
  have counts := Schematic.autoConnect_added_eq_zero_iff s st
  show Session.Ends (if (s.autoConnect src st).1.2 = 0 then _ else _) _ _ _
  split
  · rename_i nothing
    have same := counts.1 nothing
    exact .print ⟨s, _, isOpen, isMade, fun _ _ => rfl, fun changed => absurd same (changed rfl)⟩
  · rename_i something
    exact done_saveDocument isOpen isMade (fun _ same => something (counts.2 same)) _

/-- A new editor has nothing that a layout could come too late for. -/
theorem runLayout_start (s : Schematic) (st : src.State)
    (engine : LayoutRequest → Except LayoutError LayoutResponse) :
    (Editor.start s st).runLayout engine (Editor.start s st).pending =
      match engine s.layoutRequest with
      | .error why => (.error why, .start s st)
      | .ok response => (.ok true, .start (s.withLayout response) st) := by
  have completes : (Editor.start s st).runLayout engine (Editor.start s st).pending =
      (Editor.start s st).completeLayout 0 (engine s.layoutRequest) := rfl
  rw [completes]
  cases engine s.layoutRequest <;> rfl

theorem layout_done (spacing : Layered.Spacing) :
    (Command.layout path spacing).DoneBy src files st path
      (runLayout src path spacing st) := by
  refine done_readDocument rfl fun s isOpen => ?_
  simp only [runLayout_start]
  cases arranged : Layered.layout spacing s.layoutRequest with
  | error why =>
    have unclear : (Command.layout path spacing).asked files s = none := by
      rw [asked, arranged]
      rfl
    exact .report_throw _ (fails_of_made isOpen (by rw [made, unclear]; rfl) _)
  | ok response =>
    have isAsked : (Command.layout path spacing).asked files s = some (.withLayout response) := by
      rw [asked, arranged]
      rfl
    exact done_saveDocument isOpen (made_of_asked isAsked) nofun _

def emptyDirectory : Files := ⟨.empty, []⟩

end Command

end BlockSchematic
