/-!
# Symbolic expressions

A value is a bare atom, a quoted atom or a list. A form is a list headed by an atom; which kind of
atom makes no difference to the head.
-/

namespace BlockSchematic

inductive Sexpr where
  | atom (text : String)
  | quoted (text : String)
  | list (items : List Sexpr)
  deriving Repr, Inhabited

namespace Sexpr

mutual

def decEq : (a b : Sexpr) → Decidable (a = b)
  | .atom s, .atom t =>
    if h : s = t then isTrue (h ▸ rfl) else isFalse fun e => h (by injection e)
  | .quoted s, .quoted t =>
    if h : s = t then isTrue (h ▸ rfl) else isFalse fun e => h (by injection e)
  | .list xs, .list ys =>
    match decEqList xs ys with
    | isTrue h => isTrue (h ▸ rfl)
    | isFalse h => isFalse fun e => h (by injection e)
  | .atom _, .quoted _ => isFalse nofun
  | .atom _, .list _ => isFalse nofun
  | .quoted _, .atom _ => isFalse nofun
  | .quoted _, .list _ => isFalse nofun
  | .list _, .atom _ => isFalse nofun
  | .list _, .quoted _ => isFalse nofun

def decEqList : (xs ys : List Sexpr) → Decidable (xs = ys)
  | [], [] => isTrue rfl
  | [], _ :: _ => isFalse nofun
  | _ :: _, [] => isFalse nofun
  | x :: xs, y :: ys =>
    match decEq x y, decEqList xs ys with
    | isTrue h, isTrue k => isTrue (h ▸ k ▸ rfl)
    | isFalse h, _ => isFalse fun e => h (by injection e)
    | _, isFalse k => isFalse fun e => k (by injection e)

end

instance : DecidableEq Sexpr := decEq

def form (head : String) (rest : List Sexpr) : Sexpr := .list (.atom head :: rest)

def text? : Sexpr → Option String
  | .atom s => some s
  | .quoted s => some s
  | .list _ => none

def items? : Sexpr → Option (List Sexpr)
  | .list items => some items
  | _ => none

def isAtom (e : Sexpr) : Bool := e.text?.isSome

def isList (e : Sexpr) : Bool := e.items?.isSome

/-- The atom a list begins with. -/
def head? : Sexpr → Option String
  | .list (first :: _) => first.text?
  | _ => none

def isForm (e : Sexpr) (name : String) : Bool := e.head? == some name

/-- The children of a list after its first. -/
def children : Sexpr → List Sexpr
  | .list items => items.drop 1
  | _ => []

def findForm? (e : Sexpr) (name : String) : Option Sexpr := e.children.find? (·.isForm name)

@[simp] theorem head?_form (head : String) (rest : List Sexpr) :
    (form head rest).head? = some head := rfl

@[simp] theorem children_form (head : String) (rest : List Sexpr) :
    (form head rest).children = rest := rfl

end Sexpr

end BlockSchematic
