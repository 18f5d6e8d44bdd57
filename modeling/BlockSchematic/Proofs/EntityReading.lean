import BlockSchematic.Entity.Reader
import BlockSchematic.Proofs.NumberText
import BlockSchematic.Proofs.Pieces
import BlockSchematic.Vhdl.Identifier
import Mathlib.Data.List.Forall2
import Mathlib.Data.List.TakeDrop

/-!
# What the entity reader makes of a declaration

The reader drops comments, puts the lines in a row and looks for the head and the port clause
there. On a declaration that is written out plainly it finds the name and a port for each
statement, whatever text comes after.
-/

namespace BlockSchematic

namespace Text

theorem toNat_of_isIdentifierChar {c : Char} (h : Vhdl.isIdentifierChar c = true) :
    48 ≤ c.toNat ∧ c.toNat ≤ 122 := by
  have bounds : ∀ low high : Char, low.val ≤ c.val ∧ c.val ≤ high.val →
      low.toNat ≤ c.toNat ∧ c.toNat ≤ high.toNat := fun _ _ between =>
    ⟨UInt32.le_iff_toNat_le.1 between.1, UInt32.le_iff_toNat_le.1 between.2⟩
  have numbers : 'A'.toNat = 65 ∧ 'Z'.toNat = 90 ∧ 'a'.toNat = 97 ∧ 'z'.toNat = 122 := by decide
  rcases Bool.or_eq_true_iff.1 h with alphanumeric | underscore
  · rcases Bool.or_eq_true_iff.1 alphanumeric with letter | digit
    · rcases Bool.or_eq_true_iff.1 letter with upper | lower
      · have := bounds 'A' 'Z' (of_decide_eq_true upper)
        omega
      · obtain ⟨least, most⟩ := Bool.and_eq_true_iff.1 lower
        have := bounds 'a' 'z' ⟨of_decide_eq_true least, of_decide_eq_true most⟩
        omega
    · have := toNat_of_isDigit digit
      omega
  · rw [beq_iff_eq.1 underscore]
    decide

theorem isWord_of_isIdentifierChar {c : Char} (h : Vhdl.isIdentifierChar c = true) :
    isWord c = true := by
  have bounds := toNat_of_isIdentifierChar h
  exact isWord_of_isAsciiWord (by omega) h

theorem isBlank_of_isIdentifierChar {c : Char} (h : Vhdl.isIdentifierChar c = true) :
    isBlank c = false := by
  have bounds := toNat_of_isIdentifierChar h
  simp only [isBlank, Bool.or_eq_false_iff, Bool.and_eq_false_iff, decide_eq_false_iff_not,
    beq_eq_false_iff_ne]
  omega

theorem isDecimalDigit_of_isDigit {c : Char} (h : c.isDigit = true) : isDecimalDigit c = true := by
  have bounds := toNat_of_isDigit h
  rw [isDecimalDigit, List.any_eq_true]
  refine ⟨0x30, List.mem_cons_self, ?_⟩
  rw [Bool.and_eq_true, decide_eq_true_eq, decide_eq_true_eq]
  omega

end Text

namespace Entity

open Text

/-- A name that is written as an identifier. -/
structure PlainName (cs : List Char) : Prop where
  ne_nil : cs ≠ []
  chars : ∀ c ∈ cs, Vhdl.isIdentifierChar c = true

instance (cs : List Char) : Decidable (PlainName cs) :=
  decidable_of_iff (cs ≠ [] ∧ cs.all Vhdl.isIdentifierChar = true) <| by
    rw [List.all_eq_true]
    exact ⟨fun h => ⟨h.1, h.2⟩, fun h => ⟨h.ne_nil, h.chars⟩⟩

variable {name : List Char}

theorem PlainName.notMem (h : PlainName name) {c : Char}
    (other : Vhdl.isIdentifierChar c = false) : c ∉ name := by
  intro member
  rw [h.chars c member] at other
  cases other

theorem PlainName.solid (h : PlainName name) : Solid name := by
  have solid : ∀ c ∈ name, isBlank c = false := fun c hc => isBlank_of_isIdentifierChar (h.chars c hc)
  exact ⟨⟨name.head h.ne_nil, List.head?_eq_some_head h.ne_nil, solid _ (List.head_mem h.ne_nil)⟩,
    ⟨name.getLast h.ne_nil, List.getLast?_eq_some_getLast h.ne_nil,
      solid _ (List.getLast_mem h.ne_nil)⟩⟩

theorem afterKeyword?_cons_of_ne {k c : Char} (h : foldLetter c ≠ k) (keyword cs : List Char) :
    afterKeyword? (k :: keyword) (c :: cs) = none :=
  if_neg h

/-- A keyword is read where it stands, in any letter case. -/
theorem afterKeyword?_append {keyword cs : List Char} (h : cs.map foldLetter = keyword)
    (rest : List Char) : afterKeyword? keyword (cs ++ rest) = some rest := by
  induction cs generalizing keyword with
  | nil =>
    obtain rfl := h
    rfl
  | cons c more ih =>
    obtain rfl := h
    rw [List.cons_append, List.map_cons, afterKeyword?, if_pos rfl, ih rfl]

theorem afterRun?_append {p : Char → Bool} {run : List Char} (ne_nil : run ≠ [])
    (all : ∀ c ∈ run, p c = true) {c : Char} (stops : p c = false) (rest : List Char) :
    afterRun? p (run ++ c :: rest) = some (run, c :: rest) := by
  rw [afterRun?, List.span_eq_takeWhile_dropWhile, List.takeWhile_append_of_pos all,
    List.dropWhile_append_of_pos all, List.takeWhile_cons_of_neg (by simp [stops]),
    List.dropWhile_cons_of_neg (by simp [stops]), List.append_nil]
  exact if_neg (by simp [ne_nil])

/-- No word of the text begins with the letter. The flag tells whether a word character stands
right before the text. -/
def beginsNoWord (letter : Char) : Bool → List Char → Bool
  | _, [] => true
  | afterWordChar, c :: rest =>
    (afterWordChar || foldLetter c != letter) && beginsNoWord letter (isWord c) rest

/-- The search passes over a text in which no word begins like what is searched for. -/
theorem findAtWord?_append {α : Type} {read : List Char → Option α} {letter : Char}
    (begins : ∀ c rest, foldLetter c ≠ letter → read (c :: rest) = none)
    (space : foldLetter ' ' ≠ letter) {afterWordChar : Bool} {before : List Char}
    (free : beginsNoWord letter afterWordChar before = true) (rest : List Char) :
    findAtWord? read afterWordChar (before ++ ' ' :: rest) = findAtWord? read false rest := by
  induction before generalizing afterWordChar with
  | nil =>
    have blank : isWord ' ' = false := by decide
    rw [List.nil_append, findAtWord?, begins ' ' rest space, ite_self, Option.none_or, blank]
  | cons c more ih =>
    rw [beginsNoWord, Bool.and_eq_true, Bool.or_eq_true, bne_iff_ne] at free
    obtain ⟨here, later⟩ := free
    rw [List.cons_append, findAtWord?, ih later]
    rcases here with inside | other
    · rw [if_pos inside, Option.none_or]
    · rw [begins _ _ other, ite_self, Option.none_or]

theorem findAtWord?_of_read {α : Type} {read : List Char → Option α} {c : Char} {cs : List Char}
    {a : α} (found : read (c :: cs) = some a) : findAtWord? read false (c :: cs) = some a := by
  rw [findAtWord?, found]
  rfl

theorem findAtWord?_of_append {α : Type} {read : List Char → Option α} {cs rest : List Char}
    {a : α} (ne_nil : cs ≠ []) (found : read (cs ++ rest) = some a) :
    findAtWord? read false (cs ++ rest) = some a := by
  obtain ⟨c, more, rfl⟩ := List.exists_cons_of_ne_nil ne_nil
  exact findAtWord?_of_read found

theorem head?_cons_of_ne {c : Char} (h : foldLetter c ≠ 'e') (cs : List Char) :
    head? (c :: cs) = none := by
  have keyword : "entity".toList = 'e' :: "ntity".toList := by decide
  rw [head?, keyword, afterKeyword?_cons_of_ne h]
  rfl

theorem portOpening?_cons_of_ne {c : Char} (h : foldLetter c ≠ 'p') (cs : List Char) :
    portOpening? (c :: cs) = none := by
  have keyword : "port".toList = 'p' :: "ort".toList := by decide
  rw [portOpening?, keyword, afterKeyword?_cons_of_ne h]
  rfl

/-- The head is read where it stands; what follows may be anything that does not prolong `is`. -/
theorem head?_of_declaration (h : PlainName name) {rest : List Char}
    (ends : startsWithWord rest = false) :
    head? ("entity".toList ++ ' ' :: (name ++ ' ' :: ("is".toList ++ rest))) =
      some (name, rest) := by
  have keyword : "entity".toList.map foldLetter = "entity".toList := by decide
  have is : "is".toList.map foldLetter = "is".toList := by decide
  have words : ∀ c ∈ name, isWord c = true := fun c hc => isWord_of_isIdentifierChar (h.chars c hc)
  have beforeName : ∀ more, afterBlanks? (' ' :: (name ++ more)) = some (name ++ more) := by
    intro more
    have trimmed := (trimStart_space (name ++ more)).trans (h.solid.trimStart_eq more)
    exact congrArg some trimmed
  have beforeIs : afterBlanks? (' ' :: ("is".toList ++ rest)) = some ("is".toList ++ rest) := rfl
  have wordIs : afterWord? "is" ("is".toList ++ rest) = some rest := by
    rw [afterWord?, afterKeyword?_append is, Option.filter_some, ends]
    rfl
  simp only [head?, afterKeyword?_append keyword, beforeName,
    afterRun?_append h.ne_nil words (c := ' ') (by decide), beforeIs, wordIs, bind,
    Option.bind_some, pure]

theorem portOpening?_append (rest : List Char) :
    portOpening? ("port".toList ++ ' ' :: '(' :: rest) = some rest := by
  have keyword : "port".toList.map foldLetter = "port".toList := by decide
  rw [portOpening?, afterKeyword?_append keyword]
  rfl

/-- The parentheses of the text are closed in it. -/
def Settled (cs : List Char) : Prop :=
  ∀ depth rest, balanced? depth (cs ++ rest) = (balanced? depth rest).map (cs ++ ·)

theorem settled_nil : Settled [] := fun depth rest => by simp

theorem settled_append {cs ds : List Char} (hc : Settled cs) (hd : Settled ds) :
    Settled (cs ++ ds) := by
  intro depth rest
  rw [List.append_assoc, hc, hd, Option.map_map]
  congr 1
  funext clause
  exact (List.append_assoc cs ds clause).symm

theorem settled_of_notMem {cs : List Char} (opening : '(' ∉ cs) (closing : ')' ∉ cs) :
    Settled cs := by
  induction cs with
  | nil => exact settled_nil
  | cons c more ih =>
    rw [List.mem_cons, not_or] at opening closing
    intro depth rest
    rw [List.cons_append, balanced?, ih opening.2 closing.2, Option.map_map]
    · rfl
    · exact fun same => opening.1 same.symm
    · exact fun _ same => closing.1 same.symm
    · exact fun _ _ same => closing.1 same.symm

theorem settled_parenthesized {cs : List Char} (h : Settled cs) :
    Settled ('(' :: (cs ++ [')'])) := by
  intro depth rest
  rw [List.cons_append, List.append_assoc, balanced?, h, List.singleton_append, balanced?,
    Option.map_map, Option.map_map]
  congr 1
  funext clause
  simp

theorem settled_flatMap {α : Type} {f : α → List Char} {xs : List α}
    (h : ∀ x ∈ xs, Settled (f x)) : Settled (xs.flatMap f) := by
  induction xs with
  | nil => exact settled_nil
  | cons x rest ih =>
    obtain ⟨here, later⟩ := List.forall_mem_cons.1 h
    rw [List.flatMap_cons]
    exact settled_append here (ih later)

theorem Settled.balanced? {clause : List Char} (h : Settled clause) (rest : List Char) :
    balanced? 0 (clause ++ ')' :: rest) = some clause := by
  rw [h, Entity.balanced?, Option.map_some, List.append_nil]

/-- A source whose first head is followed by a port clause declares an entity with that name and
the ports of that clause, whatever comes after. -/
theorem read?_of_declaration {source : String} {before clause after : List Char}
    (free : beginsNoWord 'e' false before = true) (plain : PlainName name)
    (settled : Settled clause)
    (cleaned : withoutComments source.toList = before ++ ' ' :: ("entity".toList ++ ' ' ::
      (name ++ ' ' :: ("is".toList ++ ' ' :: ("port".toList ++ ' ' :: '(' ::
        (clause ++ ')' :: after)))))) :
    read? source = some ⟨String.ofList name, clausePorts clause⟩ := by
  have ends : startsWithWord (' ' :: ("port".toList ++ ' ' :: '(' :: (clause ++ ')' :: after))) =
      false := rfl
  have head := head?_of_declaration plain ends
  have opening := portOpening?_append (clause ++ ')' :: after)
  have found : findAtWord? head? false (withoutComments source.toList) =
      some (name, ' ' :: ("port".toList ++ ' ' :: '(' :: (clause ++ ')' :: after))) := by
    rw [cleaned, findAtWord?_append (fun c rest h => head?_cons_of_ne h rest) (by decide) free]
    exact findAtWord?_of_read head
  have clauseFound : findAtWord? portOpening? false
      (' ' :: ("port".toList ++ ' ' :: '(' :: (clause ++ ')' :: after))) =
        some (clause ++ ')' :: after) := by
    have nothing : beginsNoWord 'p' false [] = true := rfl
    have skipped := findAtWord?_append (fun c rest h => portOpening?_cons_of_ne h rest) (by decide)
      nothing ("port".toList ++ ' ' :: '(' :: (clause ++ ')' :: after))
    rw [List.nil_append] at skipped
    rw [skipped]
    exact findAtWord?_of_read opening
  simp only [read?, found, clauseFound, settled.balanced?, bind, Option.bind_some, pure,
    Option.getD_some]

/-- The mode of a port stands between the colon and the type. -/
theorem modeAndType?_append (mode : PortMode) {type : List Char} (h : Solid type) :
    modeAndType? (' ' :: (mode.keyword.toList ++ ' ' :: type)) = some (mode, type) := by
  have trimmed : trimStart (' ' :: type) = type := by
    have whole := h.trimStart_eq []
    rw [List.append_nil] at whole
    rw [trimStart_space, whole]
  have read : modeAndType? (' ' :: (mode.keyword.toList ++ ' ' :: type)) =
      some (mode, trimStart (' ' :: type)) := by
    cases mode <;> rfl
  rw [read, trimmed]

theorem firstRange?_append {before : List Char} (h : '(' ∉ before) (rest : List Char) :
    firstRange? (before ++ rest) = firstRange? rest := by
  induction before with
  | nil => rfl
  | cons c more ih =>
    rw [List.mem_cons, not_or] at h
    have none : range? (c :: (more ++ rest)) = none := by
      rw [range?]
      exact fun cs same => h.1 (List.cons.inj same).1.symm
    rw [List.cons_append, firstRange?, none, ih h.2, Option.none_or]

theorem plainName_natChars (n : Nat) : PlainName (natChars n) := by
  refine ⟨natChars_ne_nil n, fun c hc => ?_⟩
  have digit : c.isDigit = true := List.all_eq_true.1 (all_isDigit_natChars n) c hc
  rw [Vhdl.isIdentifierChar, Char.isAlphanum, digit, Bool.or_true, Bool.true_or]

theorem range?_downto (n : Nat) :
    range? ('(' :: (natChars n ++ " downto 0)".toList)) = some (natChars n, ['0']) := by
  have tail : " downto 0)".toList = ' ' :: "downto 0)".toList := by decide
  have digits : ∀ c ∈ natChars n, isDecimalDigit c = true := fun c hc =>
    isDecimalDigit_of_isDigit (List.all_eq_true.1 (all_isDigit_natChars n) c hc)
  rw [tail, range?, (plainName_natChars n).solid.trimStart_eq,
    afterRun?_append (natChars_ne_nil n) digits (by decide)]
  rfl

/-- A range down to zero has one line more than its upper bound says. -/
theorem typeWidth_downto {before : List Char} (h : '(' ∉ before) {n : Nat}
    (small : n < WordBound.signed64) :
    typeWidth (before ++ '(' :: (natChars n ++ " downto 0)".toList)) = wordWidth (n + 1) := by
  have zero : readIntBelow? WordBound.signed64 ['0'] = some 0 := by decide
  have upper : readIntBelow? WordBound.signed64 (natChars n) = some (n : Int) :=
    readIntBelow?_natChars small
  have first : firstRange? ('(' :: (natChars n ++ " downto 0)".toList)) =
      some (natChars n, ['0']) := by
    rw [firstRange?, range?_downto, Option.some_or]
  simp only [typeWidth, firstRange?_append h, first, upper, zero, bind, Option.bind_some, pure,
    Option.getD_some, rangeWidth, Int.sub_zero, Int.natAbs_natCast]

/-- A statement with one name declares one port. -/
theorem statementPorts_of_name (h : PlainName name) (mode : PortMode) {type : List Char}
    (solid : Solid type) (noColon : ':' ∉ type) :
    statementPorts (name ++ ' ' :: ':' :: ' ' :: (mode.keyword.toList ++ ' ' :: type)) =
      [PortSpec.make (String.ofList name) mode (typeWidth type)] := by
  have nothing : ∀ c ∈ ([] : List Char), isBlank c = true := fun _ hc => nomatch hc
  have names : ':' ∉ name ++ [' '] := by
    rw [List.mem_append, not_or]
    exact ⟨h.notMem (by decide), by decide⟩
  have split : splitFirst? ':' (name ++ ' ' :: ':' :: ' ' :: (mode.keyword.toList ++ ' ' :: type)) =
      some (name ++ [' '], ' ' :: (mode.keyword.toList ++ ' ' :: type)) := by
    have whole := splitFirst?_append_cons names (' ' :: (mode.keyword.toList ++ ' ' :: type))
    rw [List.append_assoc] at whole
    exact whole
  have single : splitOn ',' (name ++ [' ']) = [name ++ [' ']] := by
    refine splitOn_of_notMem ?_
    rw [List.mem_append, not_or]
    exact ⟨h.notMem (by decide), by decide⟩
  have trimmed : trimChars (name ++ [' ']) = name := h.solid.trimChars_eq nothing isBlank_of_mem_space
  have filled : name.isEmpty = false := List.isEmpty_eq_false_iff.2 h.ne_nil
  simp only [statementPorts, split, modeAndType?_append mode solid, upTo_eq_self _ noColon, single,
    List.map_cons, List.map_nil, trimmed]
  rw [List.filter_cons_of_pos (by rw [filled]; rfl), List.filter_nil, List.map_singleton]

/-- What the reader takes from a line. -/
def content (line : List Char) : List Char := trimChars (upTo ['-', '-'] line)

/-- A text that the reader takes from its line as it stands. -/
structure Kept (cs : List Char) : Prop where
  solid : Solid cs
  oneLine : '\n' ∉ cs
  noComment : '-' ∉ cs

instance (cs : List Char) : Decidable (Kept cs) :=
  decidable_of_iff (Solid cs ∧ '\n' ∉ cs ∧ '-' ∉ cs)
    ⟨fun h => ⟨h.1, h.2.1, h.2.2⟩, fun h => ⟨h.solid, h.oneLine, h.noComment⟩⟩

theorem Kept.append {cs ds between : List Char} (hc : Kept cs) (hd : Kept ds)
    (harmless : ∀ c ∈ ['\n', '-'], c ∉ between) : Kept (cs ++ between ++ ds) := by
  have absent : ∀ c ∈ ['\n', '-'], c ∉ cs → c ∉ ds → c ∉ cs ++ between ++ ds := by
    intro c known first last
    rw [List.mem_append, List.mem_append, not_or, not_or]
    exact ⟨⟨first, harmless c known⟩, last⟩
  exact ⟨hc.solid.append hd.solid between, absent _ (by decide) hc.oneLine hd.oneLine,
    absent _ (by decide) hc.noComment hd.noComment⟩

theorem kept_of_plainName (h : PlainName name) : Kept name :=
  ⟨h.solid, h.notMem (by decide), h.notMem (by decide)⟩

theorem Kept.content_append {cs margin : List Char} (h : Kept cs) (spaces : ∀ c ∈ margin, c = ' ') :
    content (margin ++ cs) = cs := by
  have blank : ∀ c ∈ margin, isBlank c = true := by
    intro c hc
    rw [spaces c hc]
    decide
  have noComment : '-' ∉ margin ++ cs := by
    rw [List.mem_append, not_or]
    exact ⟨fun hc => absurd (spaces _ hc) (by decide), h.noComment⟩
  have trimmed := h.solid.trimChars_eq blank (fun _ hc => absurd hc List.not_mem_nil)
  rw [List.append_nil] at trimmed
  rw [content, upTo_eq_self _ noComment, trimmed]

/-- The line is a text that the reader keeps, behind a margin of spaces. -/
def Shows (line cs : List Char) : Prop :=
  Kept cs ∧ ∃ margin, (∀ c ∈ margin, c = ' ') ∧ line = margin ++ cs

theorem Kept.shows {cs : List Char} (h : Kept cs) : Shows cs cs :=
  ⟨h, [], fun _ hc => absurd hc List.not_mem_nil, rfl⟩

theorem Shows.content {line cs : List Char} (h : Shows line cs) : content line = cs := by
  obtain ⟨kept, margin, spaces, rfl⟩ := h
  exact kept.content_append spaces

theorem Shows.oneLine {line cs : List Char} (h : Shows line cs) : '\n' ∉ line := by
  obtain ⟨kept, margin, spaces, rfl⟩ := h
  rw [List.mem_append, not_or]
  exact ⟨fun hc => absurd (spaces _ hc) (by decide), kept.oneLine⟩

theorem filter_content_of_shows {lines texts : List (List Char)}
    (h : List.Forall₂ Shows lines texts) :
    (lines.map content).filter (!·.isEmpty) = texts ∧ ∀ line ∈ lines, '\n' ∉ line := by
  induction h with
  | nil => exact ⟨rfl, fun _ hl => absurd hl List.not_mem_nil⟩
  | @cons line cs lines texts here _ ih =>
    have filled : (!cs.isEmpty) = true := by
      rw [List.isEmpty_eq_false_iff.2 here.1.solid.ne_nil]
      rfl
    refine ⟨?_, List.forall_mem_cons.2 ⟨here.oneLine, ih.2⟩⟩
    rw [List.map_cons, here.content, List.filter_cons, if_pos filled, ih.1]

/-- Lines at the start of a source are the start of what the reader looks at. -/
theorem withoutComments_append {known : List (List Char)} (oneLine : ∀ line ∈ known, '\n' ∉ line)
    {piece : List Char} {pieces : List (List Char)}
    (shown : (known.map content).filter (!·.isEmpty) = piece :: pieces) (rest : List Char) :
    ∃ tail, withoutComments (known.flatMap (· ++ ['\n']) ++ rest) =
      piece ++ pieces.flatMap (' ' :: ·) ++ tail := by
  have whole : withoutComments (known.flatMap (· ++ ['\n']) ++ rest) = join [' ']
      (((splitOn '\n' (known.flatMap (· ++ ['\n']) ++ rest)).map content).filter (!·.isEmpty)) :=
    rfl
  rw [whole, splitOn_flatMap oneLine, List.map_append, List.filter_append, shown,
    List.cons_append, join_cons, List.flatMap_append, ← List.append_assoc]
  exact ⟨_, rfl⟩

end Entity

end BlockSchematic
