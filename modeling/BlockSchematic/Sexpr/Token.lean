import BlockSchematic.Sexpr.Basic
import BlockSchematic.Text.Blank
import BlockSchematic.Text.Pieces

/-!
# Tokens

A text is cut into parentheses, quoted spans and atoms. Blanks and comments, from `//` to the end
of the line, separate tokens and are dropped. An atom is a longest run without blanks, parentheses,
quotes and comment starts. Each token keeps the byte offset at which it starts.
-/

namespace BlockSchematic.Sexpr

inductive Token where
  | opening
  | closing
  | atom (text : String)
  | quoted (text : String)
  /-- A quote that is never closed; nothing follows it. -/
  | dangling
  deriving DecidableEq, Repr

structure Lexeme where
  start : Nat
  token : Token
  deriving DecidableEq, Repr

def isDelimiter (c : Char) : Bool :=
  Text.isBlank c || c == '(' || c == ')' || c == '"'

/-- The run of atom characters at the start of a text, and the rest. -/
def spanAtom : List Char → List Char × List Char
  | [] => ([], [])
  | c :: rest =>
    if isDelimiter c || (c == '/' && rest.head? == some '/') then ([], c :: rest)
    else
      let (run, after) := spanAtom rest
      (c :: run, after)

/-- The line at the start of a text with its line break, and the rest. -/
def spanLine : List Char → List Char × List Char
  | [] => ([], [])
  | c :: rest =>
    if c = '\n' then ([c], rest)
    else
      let (line, after) := spanLine rest
      (c :: line, after)

/-- The span up to a closing quote, and the text after that quote. -/
def spanQuoted? (cs : List Char) : Option (List Char × List Char) := Text.splitFirst? '"' cs

theorem length_spanAtom_le (cs : List Char) : (spanAtom cs).2.length ≤ cs.length := by
  induction cs with
  | nil => simp [spanAtom]
  | cons c rest ih =>
    rw [spanAtom]
    split
    · simp
    · simp only [List.length_cons]; omega

theorem length_spanLine_le (cs : List Char) : (spanLine cs).2.length ≤ cs.length := by
  induction cs with
  | nil => simp [spanLine]
  | cons c rest ih =>
    rw [spanLine]
    split
    · simp
    · simp only [List.length_cons]; omega

theorem length_spanQuoted?_lt {cs span after : List Char}
    (h : spanQuoted? cs = some (span, after)) : after.length < cs.length := by
  have := congrArg List.length (Text.eq_of_splitFirst?_eq_some h)
  simp only [List.length_append, List.length_cons] at this
  omega

/-- The tokens of a text that starts at byte `start`. -/
def scan (start : Nat) : List Char → List Lexeme
  | [] => []
  | c :: rest =>
    let next := start + c.utf8Size
    if Text.isBlank c then scan next rest
    else if c = '(' then ⟨start, .opening⟩ :: scan next rest
    else if c = ')' then ⟨start, .closing⟩ :: scan next rest
    else if c = '"' then
      match h : spanQuoted? rest with
      | none => [⟨start, .dangling⟩]
      | some (span, after) =>
        have := length_spanQuoted?_lt h
        ⟨start, .quoted (String.ofList span)⟩ :: scan (next + Text.utf8Size span + 1) after
    else if c = '/' && rest.head? = some '/' then
      have := length_spanLine_le rest
      scan (next + Text.utf8Size (spanLine rest).1) (spanLine rest).2
    else
      have := length_spanAtom_le rest
      let run := (spanAtom rest).1
      ⟨start, .atom (String.ofList (c :: run))⟩ ::
        scan (next + Text.utf8Size run) (spanAtom rest).2
  termination_by cs => cs.length

def lexemes (text : String) : List Lexeme := scan 0 text.toList

mutual

/-- The tokens of a tree, read from left to right. -/
def tokens : Sexpr → List Token
  | .atom s => [.atom s]
  | .quoted s => [.quoted s]
  | .list items => .opening :: (forestTokens items ++ [.closing])

def forestTokens : List Sexpr → List Token
  | [] => []
  | e :: rest => tokens e ++ forestTokens rest

end

end BlockSchematic.Sexpr
