import BlockSchematic.KeyMap
import BlockSchematic.Text.Pieces

/-!
# Files under a directory

Files go by their paths from the directory, with a slash between names; a path that begins with a
slash starts at the root instead. A directory is there if a file lies in it or if it is known
otherwise; the directory itself, those above it and the root always are. Every step of a path,
a dot too, starts in a directory. Contents that are no text can be kept but not read.
-/

namespace BlockSchematic

inductive FileFault where
  | notFound
  | isDirectory
  | notDirectory
  | invalidData
  /-- The path holds a NUL. -/
  | invalidInput
  /-- The path or a name on it is too long. -/
  | invalidFilename
  deriving DecidableEq, Repr

def FileFault.name : FileFault → String
  | .notFound => "NotFound"
  | .isDirectory => "IsADirectory"
  | .notDirectory => "NotADirectory"
  | .invalidData => "InvalidData"
  | .invalidInput => "InvalidInput"
  | .invalidFilename => "InvalidFilename"

inductive Content where
  | text (s : String)
  | binary (bytes : List UInt8)
  deriving DecidableEq, Repr, Inhabited

structure Files where
  contents : KeyMap Content
  /-- Directories that are there whether or not a file lies in them. -/
  directories : List String

namespace Path

/-- The most bytes of a name. -/
def nameLimit : Nat := 255

/-- The most bytes of a path. -/
def lengthLimit : Nat := 4095

/-- What stands between the slashes of a path. -/
def steps (path : String) : List String :=
  ((Text.splitOn '/' path.toList).map String.ofList).filter (· ≠ "")

/-- The steps of a path but for dots, which lead nowhere. -/
def names (path : String) : List String := (steps path).filter (· ≠ ".")

def isAbsolute (path : String) : Bool := path.toList.head? == some '/'

/-- The root has an empty name. -/
def start (path : String) : List String := if isAbsolute path then [""] else []

/-- Where a step leads. Nothing lies above the root. -/
def step (here : List String) (name : String) : List String :=
  if name = "." then here
  else if name = ".." then
    match here.getLast? with
    | none => [".."]
    | some "" => here
    | some ".." => here ++ [".."]
    | some _ => here.dropLast
  else here ++ [name]

def ofNames (names : List String) : String := "/".intercalate names

/-- The path ends in a slash, so it can only be a directory. -/
def endsInSlash (path : String) : Bool := path.toList.getLast? == some '/'

/-- The last name, if it is no step up. -/
def fileName? (path : String) : Option String := (names path).getLast?.filter (· ≠ "..")

/-- The two sides of the last dot of a name. A dot in front belongs to the name. -/
def splitExtension? (name : String) : Option (String × String) :=
  match Text.splitLast? '.' name.toList with
  | some (stem, extension) =>
    if stem.isEmpty then none else some (String.ofList stem, String.ofList extension)
  | none => none

def extension (path : String) : String :=
  (((fileName? path).bind splitExtension?).map (·.2)).getD ""

def stem? (path : String) : Option String :=
  (fileName? path).map fun name => ((splitExtension? name).map (·.1)).getD name

end Path

namespace Files

inductive Entry where
  | file (content : Content)
  | directory
  | missing

/-- The directory itself, a directory above it or the root. -/
def isAround (names : List String) : Bool :=
  match names.getLast? with
  | none | some "" | some ".." => true
  | some _ => false

def entry (files : Files) (names : List String) : Entry :=
  let path := Path.ofNames names
  if isAround names then .directory
  else
    match files.contents.get? path with
    | some content => .file content
    | none =>
      if files.directories.contains path ||
          files.contents.toList.any fun e => (path ++ "/").isPrefixOf e.1 then .directory
      else .missing

/-- Takes one step, unless its name is too long. -/
def takeStep (here : List String) (name : String) : Except FileFault (List String) :=
  if Path.nameLimit < name.utf8ByteSize then .error .invalidFilename
  else .ok (Path.step here name)

/-- Follows steps that all lead to directories. -/
def enter (files : Files) : List String → List String → Except FileFault (List String)
  | here, [] => .ok here
  | here, name :: rest => do
    let next ← takeStep here name
    match files.entry next with
    | .directory => enter files next rest
    | .file _ => .error .notDirectory
    | .missing => .error .notFound

/-- The directory from which a path takes its last step. -/
def enterParent (files : Files) (path : String) : Except FileFault (List String) :=
  if path.toList.contains '\x00' then .error .invalidInput
  else if path = "" then .error .notFound
  else if Path.lengthLimit < path.utf8ByteSize then .error .invalidFilename
  else files.enter (Path.start path) (Path.steps path).dropLast

/-- The names that lead to a path. -/
def locate (files : Files) (path : String) : Except FileFault (List String) := do
  let parent ← files.enterParent path
  match (Path.steps path).getLast? with
  | none => .ok parent
  | some name => takeStep parent name

/-- The content of the file that a path leads to, or none if it leads to a directory. -/
def find (files : Files) (path : String) : Except FileFault (Option Content) := do
  match files.entry (← files.locate path) with
  | .missing => .error .notFound
  | .directory => .ok none
  | .file content =>
    if Path.endsInSlash path then .error .notDirectory else .ok (some content)

def put (files : Files) (names : List String) (text : String) : Files :=
  { files with contents := files.contents.insert (Path.ofNames names) (.text text) }

def contains (files : Files) (path : String) : Bool :=
  match files.find path with
  | .ok _ => true
  | .error _ => false

def isFile (files : Files) (path : String) : Bool :=
  match files.find path with
  | .ok (some _) => true
  | _ => false

def read (files : Files) (path : String) : Except FileFault String := do
  match ← files.find path with
  | some (.text s) => .ok s
  | some (.binary _) => .error .invalidData
  | none => .error .isDirectory

/-- Puts a text in the place of a file, or makes one in a directory that is there. A path that ends
in a slash is refused before its last name is looked at. -/
def write (files : Files) (path text : String) : Except FileFault Files := do
  let _ ← files.enterParent path
  if Path.endsInSlash path then .error .isDirectory
  else
    let names ← files.locate path
    match files.entry names with
    | .directory => .error .isDirectory
    | _ => .ok (files.put names text)

end Files

end BlockSchematic
