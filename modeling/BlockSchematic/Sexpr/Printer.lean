import BlockSchematic.Sexpr.Basic

/-!
# Printing symbolic expressions

Short forms stand on one line. In any other list the head stays on the line of the parenthesis and
each further item has a line of its own, one tab deeper. A quote inside a quoted atom cannot be
written and becomes an apostrophe.
-/

namespace BlockSchematic.Sexpr

/-- Forms that stand on one line whatever they hold. -/
def inlineHeads : List String :=
  ["pt", "rect", "font_size", "line_width", "version", "input", "output", "bidir"]

/-- Forms that stand on one line if the lists in them do. -/
def leafHeads : List String := ["text", "line", "font", "header"]

def bareHead? : List Sexpr → Option String
  | .atom s :: _ => some s
  | _ => none

def shortAtoms (items : List Sexpr) : Bool := items.length ≤ 2 && items.all isAtom

mutual

/-- The items stand on one line as a list. -/
def isInline : List Sexpr → Bool
  | [] => true
  | first :: rest =>
    match bareHead? (first :: rest) with
    | none => shortAtoms (first :: rest)
    | some head =>
      inlineHeads.contains head ||
        if leafHeads.contains head then allInline (first :: rest) else shortAtoms (first :: rest)

def allInline : List Sexpr → Bool
  | [] => true
  | .list items :: rest => isInline items && allInline rest
  | _ :: rest => allInline rest

end

def withoutQuotes (cs : List Char) : List Char := cs.map fun c => if c = '"' then '\x27' else c

def quotedChars (s : String) : List Char := '"' :: (withoutQuotes s.toList ++ ['"'])

mutual

/-- A tree without indentation in front of it. -/
def bodyChars (level : Nat) : Sexpr → List Char
  | .atom s => s.toList
  | .quoted s => quotedChars s
  | .list items =>
    match items with
    | [] => ['(', ')']
    | first :: rest =>
      '(' :: (bodyChars 0 first ++
        (if isInline (first :: rest) then inlineRest rest else brokenRest level rest) ++ [')'])

def inlineRest : List Sexpr → List Char
  | [] => []
  | e :: rest => ' ' :: (bodyChars 0 e ++ inlineRest rest)

def brokenRest (level : Nat) : List Sexpr → List Char
  | [] => []
  | e :: rest =>
    '\n' :: (List.replicate (level + 1) '\t' ++ bodyChars (level + 1) e ++ brokenRest level rest)

end

def formatChars (level : Nat) (e : Sexpr) : List Char :=
  List.replicate level '\t' ++ bodyChars level e

def format (e : Sexpr) (level : Nat) : String := String.ofList (formatChars level e)

end BlockSchematic.Sexpr
