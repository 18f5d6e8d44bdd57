import BlockSchematic.Command.Run

/-!
# The program

Reads the files that the arguments name, runs the command on them, writes the file it changed and
prints what it says.
-/

namespace BlockSchematic.Program

/-- The paths an argument list may mean: its words, what stands behind an equals sign, and what
is joined to a short option. -/
def mentionedPaths (args : List String) : List String :=
  args.flatMap fun word =>
    [word, ((Arguments.Progress.splitJoined word.toList).2).getD "",
      String.ofList (word.toList.drop 2)]

/-- The places that a path passes, its own last. -/
def placesFrom (here : List String) : List String → List (List String)
  | [] => []
  | name :: rest => Path.step here name :: placesFrom (Path.step here name) rest

def placesOn (path : String) : List (List String) := placesFrom (Path.start path) (Path.steps path)

def contentOf (bytes : ByteArray) : Content :=
  match String.fromUTF8? bytes with
  | some text => .text text
  | none => .binary bytes.toList

/-- Takes in what lies at a path whose directories are taken in already. -/
def notePlace (files : Files) (names : List String) : IO Files := do
  let path := Path.ofNames names
  let parent := Path.ofNames names.dropLast
  if (files.contents.get? parent).isSome then return files
  match ← (IO.FS.readBinFile path).toBaseIO with
  | .ok bytes => return { files with contents := files.contents.insert path (contentOf bytes) }
  | .error (.inappropriateType ..) => return { files with directories := path :: files.directories }
  | .error _ => return files

def gatherFiles (args : List String) : IO Files :=
  ((mentionedPaths args).flatMap placesOn).foldlM notePlace ⟨.empty, []⟩

/-- Writes what differs from before. -/
def storeFiles (before after : Files) : IO Unit :=
  after.contents.toList.forM fun (path, content) =>
    match content with
    | .text text =>
      if before.contents.get? path = some content then pure () else IO.FS.writeFile path text
    | .binary _ => pure ()

def hexText (digits n : Nat) : String :=
  let chars := Nat.toDigits 16 n
  String.ofList (List.replicate (digits - chars.length) '0' ++ chars)

/-- Ids have the form of random UUIDs: the label is all but the last group, which counts up from a
random start. -/
def randomLabel : IO (String × Nat) := do
  let a ← IO.rand 0 0xFFFFFFFF
  let b ← IO.rand 0 0xFFFF
  let c ← IO.rand 0 0xFFF
  let d ← IO.rand 0 0xFFF
  let start ← IO.rand 100000000000 200000000000
  return (s!"{hexText 8 a}-{hexText 4 b}-4{hexText 3 c}-8{hexText 3 d}-", start)

/-- The text of an error with its causes. -/
def errorText : List String → String
  | [] => "Error"
  | [message] => "Error: " ++ message
  | message :: causes =>
    "Error: " ++ message ++ "\n\nCaused by:" ++ String.join (causes.map ("\n    " ++ ·))

/-- Makes the files and the printed texts what a command left behind. -/
def leave (before : Files) (after : World) : IO Unit := do
  storeFiles before after.files
  (← IO.getStdout).putStr after.out
  (← IO.getStderr).putStr after.log

def runCommand (command : Command) (files : Files) : IO UInt32 := do
  let (label, start) ← randomLabel
  match command.run (.numbered label) files start with
  | .ok world => do
    leave files world
    return 0
  | .error failure => do
    leave files failure.toWorld
    (← IO.getStderr).putStr (errorText failure.error.chain ++ "\n")
    return 1

/-- Runs the command that an argument list asks for; the result is the exit status. -/
def runArguments (args : List String) : IO UInt32 := do
  match Command.parse args with
  | .error e => do
    let detail := match e.detail? with
      | some text => ": " ++ text
      | none => ""
    (← IO.getStderr).putStr (e.kind ++ detail ++ "\n")
    return 2
  | .ok command => runCommand command (← gatherFiles args)

end BlockSchematic.Program

def main (args : List String) : IO UInt32 := BlockSchematic.Program.runArguments args
