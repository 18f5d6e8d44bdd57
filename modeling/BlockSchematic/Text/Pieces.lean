import BlockSchematic.Text.Blank

/-!
# Pieces of a text

Cutting a text at separators: at each of them, which gives one piece more than there are
separators, or only at the first or the last.
-/

namespace BlockSchematic.Text

def splitOn (sep : Char) : List Char → List (List Char)
  | [] => [[]]
  | c :: rest =>
    match splitOn sep rest with
    | [] => [[c]]
    | piece :: pieces => if c = sep then [] :: piece :: pieces else (c :: piece) :: pieces

def dropCarriageReturn (line : List Char) : List Char :=
  if line.getLast? = some '\r' then line.dropLast else line

/-- The lines among pieces cut at line feeds. Nothing after the last line feed is no line. -/
def linePieces : List (List Char) → List (List Char)
  | [] => []
  | [last] => if last.isEmpty then [] else [last]
  | line :: rest => dropCarriageReturn line :: linePieces rest

/-- Lines end with a line feed, alone or after a carriage return. -/
def lines (cs : List Char) : List (List Char) := linePieces (splitOn '\n' cs)

/-- The text up to the first place where `stop` begins, or all of it. -/
def upTo (stop : List Char) : List Char → List Char
  | [] => []
  | c :: rest => if stop.isPrefixOf (c :: rest) then [] else c :: upTo stop rest

def beforeChar (stop : Char) (cs : List Char) : List Char := cs.takeWhile (· ≠ stop)

/-- The two sides of the first `sep`. -/
def splitFirst? (sep : Char) : List Char → Option (List Char × List Char)
  | [] => none
  | c :: rest =>
    if c = sep then some ([], rest)
    else (splitFirst? sep rest).map fun (before, after) => (c :: before, after)

/-- The two sides of the last `sep`. -/
def splitLast? (sep : Char) : List Char → Option (List Char × List Char)
  | [] => none
  | c :: rest =>
    match splitLast? sep rest with
    | some (before, after) => some (c :: before, after)
    | none => if c = sep then some ([], rest) else none

def join (sep : List Char) (pieces : List (List Char)) : List Char :=
  List.intercalate sep pieces

def utf8Size : List Char → Nat
  | [] => 0
  | c :: rest => c.utf8Size + utf8Size rest

theorem splitOn_ne_nil (sep : Char) (cs : List Char) : splitOn sep cs ≠ [] := by
  cases cs with
  | nil => simp [splitOn]
  | cons c rest =>
    rw [splitOn]
    split
    · simp
    · split <;> simp

theorem eq_of_splitFirst?_eq_some {sep : Char} {cs before after : List Char}
    (h : splitFirst? sep cs = some (before, after)) : cs = before ++ sep :: after := by
  induction cs generalizing before with
  | nil => simp [splitFirst?] at h
  | cons c rest ih =>
    rw [splitFirst?] at h
    split at h
    · rename_i hc
      simp only [Option.some.injEq, Prod.mk.injEq] at h
      obtain ⟨rfl, rfl⟩ := h
      simp [hc]
    · obtain ⟨⟨b, a⟩, hr, hb⟩ := Option.map_eq_some_iff.1 h
      simp only [Prod.mk.injEq] at hb
      obtain ⟨rfl, rfl⟩ := hb
      simp [ih hr]

theorem eq_of_splitLast?_eq_some {sep : Char} {cs before after : List Char}
    (h : splitLast? sep cs = some (before, after)) : cs = before ++ sep :: after := by
  induction cs generalizing before with
  | nil => simp [splitLast?] at h
  | cons c rest ih =>
    rw [splitLast?] at h
    split at h
    · rename_i b a hr
      simp only [Option.some.injEq, Prod.mk.injEq] at h
      obtain ⟨rfl, rfl⟩ := h
      simp [ih hr]
    · split at h
      · rename_i hc
        simp only [Option.some.injEq, Prod.mk.injEq] at h
        obtain ⟨rfl, rfl⟩ := h
        simp [hc]
      · simp at h

end BlockSchematic.Text
