import BlockSchematic.Command.Arguments
import BlockSchematic.Layout.Layered
import BlockSchematic.Vhdl.Export

/-!
# Commands

What can be asked for on the command line, and how it is written. Some commands have a short name
besides their own.
-/

namespace BlockSchematic

/-- Which pin a port is exported to. -/
inductive PinChoice where
  | input
  | output
  | byDirection
  deriving DecidableEq, Repr

inductive Command where
  | inspect (symbol : String) (libs : List String) (asJson : Bool)
  | describe (symbol : String) (output : Option String)
  | place (document symbol : String) (position : Position) (libs : List String)
  | glue (document name code : String) (ports : List PortSpec) (position : Position)
  | move (document name : String) (position : Position)
  | remove (document item : String)
  | connect (document source target : String) (replace : Bool)
  | candidates (document port : String)
  | pin (document port : String) (choice : PinChoice)
  | autoConnect (document : String)
  | layout (document : String) (spacing : Layered.Spacing)
  | exportVhdl (document top : String) (output : Option String)

namespace Command

open Arguments

/-- A way to write a command. -/
structure Form where
  name : String
  shortName : Option String
  grammar : Grammar
  make : Found → Command

def documentPlace : Argument := .place "SCHEMATIC" .path

def libOption : Argument := ⟨"lib", some .path, none, true, false⟩

def inspectForm : Form where
  name := "inspect"
  shortName := some "i"
  grammar := ⟨[.place "SYMBOL" .text], [libOption, .flag "json"], []⟩
  make f := .inspect (f.text "SYMBOL") (f.texts "lib") (f.has "json")

def describeForm : Form where
  name := "symbol"
  shortName := none
  grammar := ⟨[.place "SYMBOL" .text], [outputOption], []⟩
  make f := .describe (f.text "SYMBOL") (f.text? "output")

def placeForm : Form where
  name := "place"
  shortName := some "p"
  grammar := ⟨[documentPlace, .place "SYMBOL" .text], [.option "at" .position, libOption], []⟩
  make f := .place (f.text "SCHEMATIC") (f.text "SYMBOL") (f.position "at") (f.texts "lib")

def glueForm : Form where
  name := "glue"
  shortName := none
  grammar := ⟨[documentPlace, .place "NAME" .text],
    [⟨"code", some .path, none, false, true⟩, ⟨"port", some .port, none, true, true⟩,
      .option "at" .position], []⟩
  make f := .glue (f.text "SCHEMATIC") (f.text "NAME") (f.text "code") (f.ports "port")
    (f.position "at")

def moveForm : Form where
  name := "move"
  shortName := none
  grammar := ⟨[documentPlace, .place "INSTANCE" .text, .place "X,Y" .position], [], []⟩
  make f := .move (f.text "SCHEMATIC") (f.text "INSTANCE") (f.position "X,Y")

def removeForm : Form where
  name := "remove"
  shortName := some "rm"
  grammar := ⟨[documentPlace, .place "ITEM" .text], [], []⟩
  make f := .remove (f.text "SCHEMATIC") (f.text "ITEM")

def connectForm : Form where
  name := "connect"
  shortName := some "c"
  grammar := ⟨[documentPlace, .place "FROM" .text, .place "TO" .text], [.flag "replace"], []⟩
  make f := .connect (f.text "SCHEMATIC") (f.text "FROM") (f.text "TO") (f.has "replace")

def candidatesForm : Form where
  name := "candidates"
  shortName := none
  grammar := ⟨[documentPlace, .place "PORT" .text], [], []⟩
  make f := .candidates (f.text "SCHEMATIC") (f.text "PORT")

def pinForm : Form where
  name := "pin"
  shortName := none
  grammar := ⟨[documentPlace, .place "PORT" .text], [.flag "input", .flag "output"],
    [("input", "output")]⟩
  make f := .pin (f.text "SCHEMATIC") (f.text "PORT")
    (if f.has "output" then .output else if f.has "input" then .input else .byDirection)

def autoConnectForm : Form where
  name := "autoconnect"
  shortName := none
  grammar := ⟨[documentPlace], [], []⟩
  make f := .autoConnect (f.text "SCHEMATIC")

def layoutForm : Form where
  name := "layout"
  shortName := some "l"
  grammar := ⟨[documentPlace],
    [.option "node-spacing" .number, .option "layer-spacing" .number], []⟩
  make f := .layout (f.text "SCHEMATIC")
    ⟨f.number "node-spacing" Layered.Spacing.standard.node,
      f.number "layer-spacing" Layered.Spacing.standard.layer⟩

def exportForm : Form where
  name := "export"
  shortName := some "e"
  grammar := ⟨[documentPlace], [.option "top" .text, outputOption], []⟩
  make f := .exportVhdl (f.text "SCHEMATIC") ((f.text? "top").getD Vhdl.defaultTop)
    (f.text? "output")

def forms : List Form :=
  [inspectForm, describeForm, placeForm, glueForm, moveForm, removeForm, connectForm,
    candidatesForm, pinForm, autoConnectForm, layoutForm, exportForm]

def Form.isNamed (f : Form) (word : String) : Bool := f.name == word || f.shortName == some word

def formNamed? (word : String) : Option Form := forms.find? (·.isNamed word)

def helpWord : String := "help"

def isCommandWord (word : String) : Bool := word == helpWord || (formNamed? word).isSome

/-- The word help shows help on what it is followed by, if that is a command. -/
def readHelp : List String → UsageError
  | [] => .help
  | [word] => if isCommandWord word then .help else .invalidSubcommand
  | _ :: _ :: _ => .invalidSubcommand

/-- What is wrong with an argument list that does not begin with a command. -/
def faultWithoutCommand : List String → UsageError
  | [] => .helpOnMissing
  | word :: rest =>
    match word.toList with
    | ['-', '-'] =>
      match rest with
      | [] => .helpOnMissing
      | next :: _ => if isCommandWord next then .unknownArgument else .invalidSubcommand
    | '-' :: '-' :: long =>
      let (name, joined) := Progress.splitJoined long
      if name = "help" then if joined.isSome then .tooManyValues else .help
      else .unknownArgument
    | '-' :: c :: _ => if c = 'h' then .help else .unknownArgument
    | _ => .invalidSubcommand

/-- The command an argument list asks for. -/
def parse (args : List String) : Except UsageError Command :=
  match args with
  | [] => .error (faultWithoutCommand [])
  | word :: rest =>
    if word = helpWord then .error (readHelp rest)
    else
      match formNamed? word with
      | none => .error (faultWithoutCommand args)
      | some form => (Arguments.read form.grammar rest).map form.make

end Command

end BlockSchematic
