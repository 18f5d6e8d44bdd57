import BlockSchematic.Proofs.EntitySpelling

/-!
# The grammar of entity declarations

A declaration names the entity and lists port statements; a statement has names, a mode, a type,
and perhaps a range and a default. However a declaration is spelled, the reader takes from it the
name and a port for each name of each statement, in their order.
-/

namespace BlockSchematic

namespace Text

/-- No blank is a digit of any script. -/
theorem isDecimalDigit_of_isBlank {c : Char} (h : isBlank c = true) : isDecimalDigit c = false := by
  have noDigit : ∀ n ∈ blankCodes,
      (digitZeros.any fun first => first ≤ n && n < first + 10) = false := by decide +kernel
  exact noDigit _ (toNat_mem_blankCodes h)

end Text

namespace Entity

open Text

/-! ## Declarations -/

namespace Lexeme

def comma : Lexeme := .mark ',' (by decide)

def colon : Lexeme := .mark ':' (by decide)

def semicolon : Lexeme := .mark ';' (by decide)

def opening : Lexeme := .mark '(' (by decide)

def closing : Lexeme := .mark ')' (by decide)

def ofMode (mode : PortMode) : Lexeme :=
  .keyword mode.keyword.toList (by cases mode <;> decide)

end Lexeme

structure Name where
  chars : List Char
  plain : PlainName chars

def Name.lexeme (n : Name) : Lexeme := .word n.chars n.plain

/-- A number as it is written, perhaps with zeros in front. -/
structure Numeral where
  digits : List Char
  ne_nil : digits ≠ []
  decimal : ∀ c ∈ digits, c.isDigit = true
  small : digitsValue digits < WordBound.signed64

namespace Numeral

def value (n : Numeral) : Nat := digitsValue n.digits

theorem plainName (n : Numeral) : PlainName n.digits :=
  ⟨n.ne_nil, fun c hc => by
    rw [Vhdl.isIdentifierChar, Char.isAlphanum, n.decimal c hc, Bool.or_true, Bool.true_or]⟩

def lexeme (n : Numeral) : Lexeme := .word n.digits n.plainName

end Numeral

/-- The range of a vector. -/
structure Bounds where
  left : Numeral
  descending : Bool
  right : Numeral

namespace Bounds

def direction (b : Bounds) : List Char := if b.descending then "downto".toList else "to".toList

def directionLexeme (b : Bounds) : Lexeme :=
  .keyword b.direction (by
    rw [direction]
    split <;> decide)

def lexemes (b : Bounds) : List Lexeme :=
  [.opening, b.left.lexeme, b.directionLexeme, b.right.lexeme, .closing]

/-- How many lines the range has. -/
def lines (b : Bounds) : Nat := ((b.left.value : Int) - b.right.value).natAbs + 1

end Bounds

/-- Every parenthesis is closed. -/
inductive Closed : List Lexeme → Prop where
  | nil : Closed []
  | other {l : Lexeme} {ls : List Lexeme} (noOpening : l.holds '(' = false)
      (noClosing : l.holds ')' = false) (more : Closed ls) : Closed (l :: ls)
  | group {inner ls : List Lexeme} (within : Closed inner) (more : Closed ls) :
      Closed (.opening :: (inner ++ .closing :: ls))

/-- A port statement. Its default may hold any words and marks with closed parentheses. -/
structure PortStatement where
  names : List Name
  named : names ≠ []
  mode : PortMode
  type : Name
  bounds : Option Bounds
  initial : Option (List Lexeme)
  closed : ∀ ls ∈ initial, Closed ls
  noSemicolon : ∀ ls ∈ initial, ∀ l ∈ ls, l.holds ';' = false

/-- The parts in their order, with a lexeme between them. -/
def separated (mark : Lexeme) : List (List Lexeme) → List Lexeme
  | [] => []
  | [part] => part
  | part :: next :: more => part ++ mark :: separated mark (next :: more)

namespace PortStatement

def nameLexemes (s : PortStatement) : List Lexeme :=
  separated .comma (s.names.map fun n => [n.lexeme])

def typeLexemes (s : PortStatement) : List Lexeme :=
  s.type.lexeme :: (s.bounds.map Bounds.lexemes).getD []

def initialLexemes (s : PortStatement) : List Lexeme :=
  (s.initial.map fun ls => .becomes :: ls).getD []

def lexemes (s : PortStatement) : List Lexeme :=
  s.nameLexemes ++ .colon :: .ofMode s.mode :: (s.typeLexemes ++ s.initialLexemes)

/-- One line without a range, or with one that has more lines than a word can count. -/
def width (s : PortStatement) : UInt32 :=
  match s.bounds with
  | none => 1
  | some b => if b.lines < WordBound.unsigned32 then UInt32.ofNat b.lines else 1

def ports (s : PortStatement) : List PortSpec :=
  s.names.map fun n => ⟨String.ofList n.chars, s.mode, s.width⟩

end PortStatement

/-- `entity NAME is port ( STATEMENTS ) ; end NAME ;` -/
def declaration (name : Name) (statements : List PortStatement) : List Lexeme :=
  .keyword "entity".toList (by decide) :: name.lexeme :: .keyword "is".toList (by decide) ::
    .keyword "port".toList (by decide) :: .opening ::
      (separated .semicolon (statements.map PortStatement.lexemes) ++ .closing :: .semicolon ::
        [.keyword "end".toList (by decide), name.lexeme, .semicolon])

/-! ## Keywords -/

theorem foldLetter_eq_of_toLower {c k : Char} (h : c.toLower = k) (letter : k.isLower = true) :
    foldLetter c = k := by
  obtain rfl := h
  have small : c.toNat < 0x80 := by
    have bounds := toNat_of_isIdentifierChar (isIdentifierChar_of_toLower letter)
    omega
  have plain : c ≠ 'ſ' := by
    rintro rfl
    exact absurd small (by decide)
  rw [foldLetter, if_neg plain, if_neg (by omega)]

theorem map_foldLetter_of_spells {letters cs : List Char}
    {lower : letters ≠ [] ∧ letters.all Char.isLower = true}
    (h : (Lexeme.keyword letters lower).Spells cs) : cs.map foldLetter = letters := by
  have spelled : cs.map Char.toLower = letters := h
  rw [← spelled]
  refine List.map_congr_left fun c hc => ?_
  have letter : c.toLower ∈ letters := spelled ▸ List.mem_map_of_mem hc
  exact foldLetter_eq_of_toLower rfl (List.all_eq_true.1 lower.2 _ letter)

theorem isWord_of_foldLetter {c : Char} (h : isWord (foldLetter c) = true) : isWord c = true := by
  rw [foldLetter] at h
  split at h
  · rename_i same
    rw [same]
    decide +kernel
  · split at h
    · rename_i kelvin
      have listed : inRanges wideWordRanges 0x212A = true := by decide +kernel
      rw [isWord, kelvin, if_neg (by decide), listed]
    · rcases isUpper_or_toLower_eq c with upper | same
      · exact isWord_of_isIdentifierChar (isIdentifierChar_of_letter (.inl upper))
      · rwa [same] at h

/-- A whole word is read as a keyword if and only if it is that keyword. -/
theorem filter_afterKeyword?_append {letters cs : List Char} (words : ∀ c ∈ cs, isWord c = true)
    (wordLetters : ∀ k ∈ letters, isWord k = true) {rest : List Char}
    (ends : startsWithWord rest = false) :
    (afterKeyword? letters (cs ++ rest)).filter (fun rest => !startsWithWord rest) =
      if cs.map foldLetter = letters then some rest else none := by
  induction letters generalizing cs with
  | nil =>
    rw [afterKeyword?, Option.filter_some]
    cases cs with
    | nil =>
      rw [List.nil_append, ends]
      rfl
    | cons c more =>
      have starts : startsWithWord (c :: more ++ rest) = true := words c List.mem_cons_self
      rw [starts]
      rfl
  | cons k letters ih =>
    obtain ⟨letter, others⟩ := List.forall_mem_cons.1 wordLetters
    cases cs with
    | nil =>
      cases rest with
      | nil => rfl
      | cons d rest =>
        have other : foldLetter d ≠ k := by
          rintro rfl
          have starts : startsWithWord (d :: rest) = true := isWord_of_foldLetter letter
          rw [starts] at ends
          cases ends
        rw [List.nil_append, afterKeyword?_cons_of_ne other]
        rfl
    | cons c more =>
      rw [List.cons_append, afterKeyword?, List.map_cons]
      by_cases same : foldLetter c = k
      · rw [if_pos same, ih (List.forall_mem_cons.1 words).2 others, same]
        simp only [List.cons.injEq, true_and]
      · rw [if_neg same, if_neg fun all => same (List.cons.inj all).1]
        rfl

/-! ## The parts of a statement -/

variable {text : List Char} {ls : List Lexeme}

theorem Bounds.afterDirection (b : Bounds) {cs : List Char} (h : b.directionLexeme.Spells cs)
    (rest : List Char) : (afterKeyword? "downto".toList (cs ++ rest)).or
      (afterKeyword? "to".toList (cs ++ rest)) = some rest := by
  have folded := map_foldLetter_of_spells h
  rw [direction] at folded
  split at folded
  · rw [afterKeyword?_append folded, Option.some_or]
  · have other : afterKeyword? "downto".toList (cs ++ rest) = none := by
      have short : "to".toList = 't' :: ['o'] := by decide
      have long : "downto".toList = 'd' :: "ownto".toList := by decide
      rw [short] at folded
      obtain ⟨c, more, rfl, first, -⟩ := List.map_eq_cons_iff.1 folded
      rw [long, List.cons_append, afterKeyword?_cons_of_ne]
      rw [first]
      decide
    rw [other, afterKeyword?_append folded, Option.none_or]

/-- The bounds of a range are read as they are written. -/
theorem range?_of_spelled (b : Bounds)
    (h : Spelled Blanks [b.left.lexeme, b.directionLexeme, b.right.lexeme, .closing] text) :
    range? ('(' :: text) = some (b.left.digits, b.right.digits) := by
  have decimal : ∀ (n : Numeral), ∀ c ∈ n.digits, isDecimalDigit c = true := fun n c hc =>
    isDecimalDigit_of_isDigit (n.decimal c hc)
  obtain ⟨_, afterLeft, startLeft, rfl, endLeft, more⟩ := h.exists_trimStart
  have endLeft := endLeft rfl
  obtain ⟨c, others, rfl, blank⟩ := more.exists_blank rfl endLeft
  have left := afterRun?_append b.left.ne_nil (decimal b.left) (isDecimalDigit_of_isBlank blank)
    others
  obtain ⟨word, afterWord, startWord, spells, endWord, more⟩ :=
    more.exists_afterBlanks? rfl endLeft
  have direction := b.afterDirection spells afterWord
  obtain ⟨_, afterRight, startRight, rfl, endRight, more⟩ :=
    more.exists_afterBlanks? rfl endWord
  obtain ⟨gap, after, rfl, blanks, -⟩ := more.exists_mark
  have right : afterRun? isDecimalDigit (b.right.digits ++ (gap ++ ')' :: after)) =
      some (b.right.digits, gap ++ ')' :: after) := by
    cases gap with
    | nil => exact afterRun?_append b.right.ne_nil (decimal b.right) (by decide) after
    | cons c more =>
      exact afterRun?_append b.right.ne_nil (decimal b.right)
        (isDecimalDigit_of_isBlank (blanks c List.mem_cons_self)) _
  have closing : trimStart (gap ++ ')' :: after) = ')' :: after := by
    rw [trimStart_append blanks]
    exact trimStart_cons_of_not_isBlank (by decide)
  simp only [range?, startLeft, left, startWord, direction, startRight, right, closing, bind,
    Option.bind_some]

theorem Numeral.readIntBelow? (n : Numeral) :
    readIntBelow? WordBound.signed64 n.digits = some (n.value : Int) :=
  readIntBelow?_of_digits n.ne_nil n.decimal n.small

theorem PortStatement.holds_typeLexemes (s : PortStatement) {sign : Char} (h : sign ∉ ['(', ')']) :
    ∀ l ∈ s.typeLexemes, l.holds sign = false := by
  rw [List.mem_cons, List.mem_singleton, not_or] at h
  have opening : Lexeme.opening.holds sign = false := beq_eq_false_iff_ne.2 (Ne.symm h.1)
  have closing : Lexeme.closing.holds sign = false := beq_eq_false_iff_ne.2 (Ne.symm h.2)
  rw [typeLexemes]
  refine List.forall_mem_cons.2 ⟨rfl, ?_⟩
  cases s.bounds with
  | none => exact List.forall_mem_nil _
  | some b =>
    simp only [Option.map_some, Option.getD_some, Bounds.lexemes, List.forall_mem_cons]
    exact ⟨opening, rfl, rfl, rfl, closing, List.forall_mem_nil _⟩

theorem typeWidth_of_spelled (s : PortStatement) (h : Spelled Blanks s.typeLexemes text) :
    typeWidth text = s.width := by
  have first : s.type.lexeme.holds '(' = false := rfl
  rw [PortStatement.typeLexemes] at h
  rw [PortStatement.width]
  cases bounds : s.bounds with
  | none =>
    rw [bounds] at h
    have noOpening : '(' ∉ text :=
      h.notMem (by decide) (by decide) (List.forall_mem_singleton.2 first)
    have none : firstRange? text = none := by
      have whole := firstRange?_append noOpening []
      rwa [List.append_nil] at whole
    simp [typeWidth, none]
  | some b =>
    rw [bounds] at h
    have split : Spelled Blanks ([s.type.lexeme] ++ .opening ::
        [b.left.lexeme, b.directionLexeme, b.right.lexeme, .closing]) text := h
    obtain ⟨before, after, rfl, front, inside⟩ := split.exists_append_mark
    have noOpening : '(' ∉ before :=
      front.notMem (by decide) (by decide) (List.forall_mem_singleton.2 first)
    have range : firstRange? ('(' :: after) = some (b.left.digits, b.right.digits) := by
      rw [firstRange?, range?_of_spelled b inside, Option.some_or]
    have counted : rangeWidth b.left.value b.right.value = wordWidth b.lines := rfl
    simp only [typeWidth, firstRange?_append noOpening, range, b.left.readIntBelow?,
      b.right.readIntBelow?, bind, Option.bind_some, pure, Option.getD_some, counted, wordWidth]

/-- The text up to the default is that of the type. -/
theorem spelled_upTo (s : PortStatement)
    (h : Spelled Blanks (s.typeLexemes ++ s.initialLexemes) text) :
    Spelled Blanks s.typeLexemes (upTo [':', '='] text) := by
  have noColon : ∀ l ∈ s.typeLexemes, l.holds ':' = false :=
    s.holds_typeLexemes (by decide)
  rw [PortStatement.initialLexemes] at h
  cases initial : s.initial with
  | none =>
    rw [initial, Option.map_none, Option.getD_none, List.append_nil] at h
    rwa [upTo_eq_self _ (h.notMem (by decide) (by decide) noColon)]
  | some lexemes =>
    rw [initial] at h
    obtain ⟨before, cs, after, rfl, front, spells, -⟩ := h.exists_append
    obtain rfl := spells
    have cut : upTo [':', '='] ([':', '='] ++ after) = [] := rfl
    rwa [upTo_append_of_notMem _ (front.notMem (by decide) (by decide) noColon), cut,
      List.append_nil]

/-- The mode is read as a whole word, whatever its letter case. -/
theorem exists_modeAndType? {mode : PortMode} {l : Lexeme}
    (h : Spelled Blanks (.ofMode mode :: l :: ls) text) : ∃ rest,
    modeAndType? text = some (mode, rest) ∧ Spelled Blanks (l :: ls) rest := by
  obtain ⟨cs, rest, split, spells, ends, more⟩ := h.exists_trimStart
  refine ⟨trimStart rest, ?_, more.trimStart⟩
  have folded := map_foldLetter_of_spells spells
  have words : ∀ c ∈ cs, isWord c = true := fun c hc =>
    isWord_of_isIdentifierChar ((spells.plainName rfl).chars c hc)
  have plain : ∀ other : PortMode, PlainName other.keyword.toList := by
    intro other
    cases other <;> decide
  have keywords : ∀ other : PortMode, ∀ k ∈ other.keyword.toList, isWord k = true :=
    fun other k hk => isWord_of_isIdentifierChar ((plain other).chars k hk)
  have read : ∀ other : PortMode, afterWord? other.keyword (cs ++ rest) =
      if mode.keyword.toList = other.keyword.toList then some rest else none := by
    intro other
    rw [afterWord?, filter_afterKeyword?_append words (keywords other) (ends rfl), folded]
  rw [modeAndType?, split]
  simp only [read]
  cases mode <;> rfl

/-! ## Parts with a mark between them -/

theorem mem_separated {mark l : Lexeme} {parts : List (List Lexeme)}
    (h : l ∈ separated mark parts) : l = mark ∨ ∃ part ∈ parts, l ∈ part := by
  induction parts with
  | nil => cases h
  | cons part more ih =>
    cases more with
    | nil => exact .inr ⟨part, List.mem_cons_self, h⟩
    | cons next more =>
      rw [separated, List.mem_append, List.mem_cons] at h
      rcases h with here | rfl | later
      · exact .inr ⟨part, List.mem_cons_self, here⟩
      · exact .inl rfl
      · rcases ih later with rfl | ⟨other, listed, member⟩
        · exact .inl rfl
        · exact .inr ⟨other, List.mem_cons_of_mem _ listed, member⟩

/-- Cutting at the marks gives the parts. -/
theorem Spelled.splitOn {sign : Char} {visible : isBlank sign = false ∧ sign ≠ '-'}
    (noLetter : Vhdl.isIdentifierChar sign = false) {parts : List (List Lexeme)}
    (ne_nil : parts ≠ []) (lacks : ∀ part ∈ parts, ∀ l ∈ part, l.holds sign = false)
    (h : Spelled Blanks (separated (.mark sign visible) parts) text) :
    List.Forall₂ (Spelled Blanks) parts (splitOn sign text) := by
  induction parts generalizing text with
  | nil => exact absurd rfl ne_nil
  | cons part more ih =>
    obtain ⟨here, later⟩ := List.forall_mem_cons.1 lacks
    cases more with
    | nil =>
      rw [splitOn_of_notMem (h.notMem noLetter visible.1 here)]
      exact .cons h .nil
    | cons next more =>
      obtain ⟨before, after, rfl, front, back⟩ := h.exists_append_mark
      rw [splitOn_append (front.notMem noLetter visible.1 here)]
      exact .cons front (ih (List.cons_ne_nil _ _) later back)

theorem trimmed_names {names : List Name} {pieces : List (List Char)}
    (h : List.Forall₂ (Spelled Blanks) (names.map fun n => [n.lexeme]) pieces) :
    (pieces.map trimChars).filter (!·.isEmpty) = names.map Name.chars := by
  rw [List.forall₂_map_left_iff] at h
  induction h with
  | nil => rfl
  | @cons n piece names pieces here _ ih =>
    have alone : trimChars piece = n.chars := by
      cases here with
      | lexeme gap cs between spells _ more =>
        cases more with
        | done after =>
          obtain rfl := spells
          exact n.plain.solid.trimChars_eq between after
    have filled := (kept_of_plainName n.plain).filled
    rw [List.map_cons, List.filter_cons, alone, if_pos filled, ih, List.map_cons]

theorem PortStatement.width_ne_zero (s : PortStatement) : s.width ≠ 0 := by
  rw [width]
  cases s.bounds with
  | none => decide
  | some b =>
    dsimp only
    split
    · rename_i fits
      intro zero
      have back := congrArg UInt32.toNat zero
      rw [UInt32.toNat_ofNat_of_lt' fits, Bounds.lines] at back
      cases back
    · decide

theorem PortStatement.holds_nameLexemes (s : PortStatement) {sign : Char} (h : sign ≠ ',') :
    ∀ l ∈ s.nameLexemes, l.holds sign = false := by
  intro l member
  rcases mem_separated member with rfl | ⟨part, hpart, member⟩
  · exact beq_eq_false_iff_ne.2 (Ne.symm h)
  · obtain ⟨n, -, rfl⟩ := List.mem_map.1 hpart
    rw [List.mem_singleton.1 member]
    rfl

theorem statementPorts_of_spelled (s : PortStatement) (h : Spelled Blanks s.lexemes text) :
    statementPorts text = s.ports := by
  obtain ⟨before, after, rfl, front, back⟩ := h.exists_append_mark
  have listed : ∀ l ∈ s.nameLexemes, l.holds ':' = false := s.holds_nameLexemes (by decide)
  have names :=
    front.splitOn (by decide) (by simpa using s.named) (by simp [Name.lexeme, Lexeme.holds])
  obtain ⟨rest, mode, type⟩ := exists_modeAndType? back
  have width := typeWidth_of_spelled s (spelled_upTo s type)
  have split := splitFirst?_append_cons (front.notMem (by decide) (by decide) listed) after
  simp only [statementPorts, split, mode, width, trimmed_names names, List.map_map]
  refine List.map_congr_left fun n _ => ?_
  rw [Function.comp_apply, PortSpec.make, if_neg s.width_ne_zero]

/-! ## The port clause -/

theorem Closed.append {ms : List Lexeme} (h : Closed ls) (h' : Closed ms) : Closed (ls ++ ms) := by
  induction h with
  | nil => exact h'
  | other noOpening noClosing _ ih => exact .other noOpening noClosing ih
  | @group inner ls within _ _ ih =>
    have whole : Closed (.opening :: (inner ++ .closing :: (ls ++ ms))) := .group within ih
    simpa only [List.cons_append, List.append_assoc] using whole

theorem Blanks.settled {gap : List Char} (blank : Blanks gap) : Settled gap := by
  refine settled_of_notMem (fun member => ?_) (fun member => ?_)
  · exact absurd (blank _ member) (by decide)
  · exact absurd (blank _ member) (by decide)

/-- Lexemes whose parentheses are closed are spelled by texts whose parentheses are closed. -/
theorem Closed.settled (h : Closed ls) (spelled : Spelled Blanks ls text) : Settled text := by
  induction h generalizing text with
  | nil =>
    cases spelled with
    | done between => exact between.settled
  | other noOpening noClosing _ ih =>
    cases spelled with
    | lexeme gap cs between spells _ more =>
      have plain := settled_of_notMem (spells.notMem (by decide) noOpening)
        (spells.notMem (by decide) noClosing)
      exact settled_append between.settled (settled_append plain (ih more))
  | group _ _ within later =>
    obtain ⟨gap, after, rfl, blank, more⟩ := spelled.exists_mark
    obtain ⟨before, rest, rfl, inside, outside⟩ := more.exists_append_mark
    have whole := settled_append blank.settled
      (settled_append (settled_parenthesized (within inside)) (later outside))
    simpa only [List.cons_append, List.append_assoc, List.nil_append] using whole

theorem closed_separated {mark : Lexeme} (noOpening : mark.holds '(' = false)
    (noClosing : mark.holds ')' = false) {parts : List (List Lexeme)}
    (h : ∀ part ∈ parts, Closed part) : Closed (separated mark parts) := by
  induction parts with
  | nil => exact .nil
  | cons part more ih =>
    obtain ⟨here, later⟩ := List.forall_mem_cons.1 h
    cases more with
    | nil => exact here
    | cons next more => exact here.append (.other noOpening noClosing (ih later))

namespace PortStatement

theorem closed_typeLexemes (s : PortStatement) : Closed s.typeLexemes := by
  refine .other rfl rfl ?_
  cases s.bounds with
  | none => exact .nil
  | some b =>
    have words : Closed [b.left.lexeme, b.directionLexeme, b.right.lexeme] :=
      .other rfl rfl (.other rfl rfl (.other rfl rfl .nil))
    exact .group words .nil

theorem closed_initialLexemes (s : PortStatement) : Closed s.initialLexemes := by
  rw [initialLexemes]
  cases initial : s.initial with
  | none => exact .nil
  | some ls => exact .other rfl rfl (s.closed ls initial)

theorem closed_lexemes (s : PortStatement) : Closed s.lexemes := by
  have names : Closed s.nameLexemes := by
    refine closed_separated rfl rfl fun part hpart => ?_
    obtain ⟨n, -, rfl⟩ := List.mem_map.1 hpart
    exact .other rfl rfl .nil
  exact names.append
    (.other rfl rfl (.other rfl rfl (s.closed_typeLexemes.append s.closed_initialLexemes)))

theorem holds_semicolon (s : PortStatement) : ∀ l ∈ s.lexemes, l.holds ';' = false := by
  intro l member
  rw [lexemes, List.mem_append, List.mem_cons, List.mem_cons, List.mem_append] at member
  rcases member with name | rfl | rfl | type | initial
  · exact s.holds_nameLexemes (by decide) l name
  · rfl
  · rfl
  · exact s.holds_typeLexemes (by decide) l type
  · rw [initialLexemes] at initial
    cases value : s.initial with
    | none =>
      rw [value] at initial
      cases initial
    | some ls =>
      rw [value] at initial
      rcases List.mem_cons.1 initial with rfl | later
      · rfl
      · exact s.noSemicolon ls value l later

end PortStatement

theorem clausePorts_of_spelled {statements : List PortStatement} (ne_nil : statements ≠ [])
    (h : Spelled Blanks (separated .semicolon (statements.map PortStatement.lexemes)) text) :
    clausePorts text = statements.flatMap PortStatement.ports := by
  have lacks : ∀ part ∈ statements.map PortStatement.lexemes, ∀ l ∈ part,
      l.holds ';' = false := by
    intro part hpart
    obtain ⟨s, -, rfl⟩ := List.mem_map.1 hpart
    exact s.holds_semicolon
  have pieces := h.splitOn (by decide) (by simpa using ne_nil) lacks
  rw [clausePorts]
  generalize Text.splitOn ';' text = texts at pieces
  rw [List.forall₂_map_left_iff] at pieces
  clear h lacks ne_nil
  induction pieces with
  | nil => rfl
  | @cons s piece statements texts here _ ih =>
    obtain ⟨l, ls, some⟩ : ∃ l ls, s.lexemes = l :: ls :=
      List.exists_cons_of_ne_nil (List.append_ne_nil_of_right_ne_nil _ (List.cons_ne_nil _ _))
    rw [some] at here
    have trimmed := here.trimChars
    have filled : (!(trimChars piece).isEmpty) = true := by
      rw [List.isEmpty_eq_false_iff.2 trimmed.ne_nil]
      rfl
    rw [← some] at trimmed
    rw [List.map_cons, List.filter_cons, if_pos filled, List.flatMap_cons, List.flatMap_cons,
      statementPorts_of_spelled s trimmed, ih]

/-! ## The declaration -/

/-- Behind the first keyword the head is read up to the last. -/
theorem exists_head? {cs shown : List Char} {lower} (entity :
      (Lexeme.keyword "entity".toList lower).Spells cs) {name : Name} {lower'}
    (h : Spelled Blanks (name.lexeme :: .keyword "is".toList lower' :: ls) shown)
    (ends : startsWithWord shown = false) : ∃ rest,
    head? (cs ++ shown) = some (name.chars, rest) ∧ Spelled Blanks ls rest := by
  obtain ⟨_, afterName, startName, rfl, endName, more⟩ := h.exists_afterBlanks? rfl ends
  obtain ⟨c, others, rfl, blank⟩ := more.exists_blank rfl endName
  have words : ∀ c ∈ name.chars, isWord c = true := fun c hc =>
    isWord_of_isIdentifierChar (name.plain.chars c hc)
  have run := afterRun?_append name.plain.ne_nil words (isWord_of_isBlank blank) others
  obtain ⟨is, rest, startIs, spells, endIs, last⟩ := more.exists_afterBlanks? rfl endName
  have wordIs : afterWord? "is" (is ++ rest) = some rest := by
    rw [afterWord?, afterKeyword?_append (map_foldLetter_of_spells spells),
      Option.filter_some, endIs]
    rfl
  refine ⟨rest, ?_, last⟩
  simp only [head?, afterKeyword?_append (map_foldLetter_of_spells entity), startName, run,
    startIs, wordIs, bind, Option.bind_some, pure]

theorem exists_portOpening? {lower} (h : Spelled Blanks
      (.keyword "port".toList lower :: .opening :: ls) text) : ∃ rest,
    findAtWord? portOpening? false text = some rest ∧ Spelled Blanks ls rest := by
  cases h with
  | @lexeme gap cs after _ _ between spells _ more =>
    obtain ⟨blanks, rest, rfl, blank, inside⟩ := more.exists_mark
    have opening : trimStart (blanks ++ '(' :: rest) = '(' :: rest := by
      rw [trimStart_append blank]
      exact trimStart_cons_of_not_isBlank (by decide)
    have read : portOpening? (cs ++ (blanks ++ '(' :: rest)) = some rest := by
      simp only [portOpening?, afterKeyword?_append (map_foldLetter_of_spells spells), opening,
        bind, Option.bind_some]
    refine ⟨rest, ?_, inside⟩
    rw [findAtWord?_append_blanks between]
    exact findAtWord?_of_append spells.kept.solid.ne_nil read

/-- The reader reads the whole grammar. However a declaration is spelled, with keywords in any
letter case, blanks and comments between all lexemes and nothing where no two words meet, it gives
the name and, statement by statement, a port for each name with its mode and width. -/
theorem declaration_read (name : Name) {statements : List PortStatement}
    (ne_nil : statements ≠ []) {text : List Char}
    (h : Spelled Gap (declaration name statements) text) :
    read? (String.ofList text) =
      some ⟨String.ofList name.chars, statements.flatMap PortStatement.ports⟩ := by
  cases h with
  | @lexeme gap cs rest _ _ between entity apart more =>
    obtain ⟨shown, cleaned, starts, spelled⟩ := more.exists_withoutComments entity.kept
    obtain ⟨body, head, bodySpelled⟩ := exists_head? entity spelled (starts (apart rfl))
    obtain ⟨opening, port, openingSpelled⟩ := exists_portOpening? bodySpelled
    obtain ⟨clause, after, rfl, clauseSpelled, -⟩ := openingSpelled.exists_append_mark
    have closed : Closed (separated .semicolon (statements.map PortStatement.lexemes)) := by
      refine closed_separated rfl rfl fun part hpart => ?_
      obtain ⟨s, -, rfl⟩ := List.mem_map.1 hpart
      exact s.closed_lexemes
    have found : findAtWord? head? false (withoutComments (gap ++ (cs ++ rest))) =
        some (name.chars, body) := by
      rw [between.withoutComments_append, cleaned]
      exact findAtWord?_of_append entity.kept.solid.ne_nil head
    simp only [read?, String.toList_ofList, found, port, (closed.settled clauseSpelled).balanced?,
      clausePorts_of_spelled ne_nil clauseSpelled, bind, Option.bind_some, pure,
      Option.getD_some]

/-- `A, b : in bits(7 downto 0) := (x)` -/
def busStatement : PortStatement where
  names := [⟨"A".toList, by decide⟩, ⟨"b".toList, by decide⟩]
  named := List.cons_ne_nil _ _
  mode := .input
  type := ⟨"bits".toList, by decide⟩
  bounds := some ⟨⟨"7".toList, by decide, List.all_eq_true.1 (by decide), by decide +kernel⟩, true,
    ⟨"0".toList, by decide, List.all_eq_true.1 (by decide), by decide +kernel⟩⟩
  initial := some [.opening, .word "x".toList (by decide), .closing]
  closed := by
    rintro ls ⟨⟩
    exact .group (.other rfl rfl .nil) .nil
  noSemicolon := by
    rintro ls ⟨⟩
    simp [Lexeme.opening, Lexeme.closing, Lexeme.holds]

def adder : Name := ⟨"add".toList, by decide⟩

def adderText : String :=
  "-- Adder\nENTITY add is\tport(A,b:IN bits(7 DownTo 0)--high first\n:=(x));end add;"

def adderLayout : List (String × String) :=
  [("-- Adder\n", "ENTITY"), (" ", "add"), (" ", "is"), ("\t", "port"), ("", "("), ("", "A"),
    ("", ","), ("", "b"), ("", ":"), ("", "IN"), (" ", "bits"), ("", "("), ("", "7"),
    (" ", "DownTo"), (" ", "0"), ("", ")"), ("--high first\n", ":="), ("", "("), ("", "x"),
    ("", ")"), ("", ")"), ("", ";"), ("", "end"), (" ", "add"), ("", ";")]

/-- A comment stands before the head and another within a statement, and keywords are in mixed
letter case. -/
theorem adder_read : Spelled Gap (declaration adder [busStatement]) adderText.toList ∧
    read? adderText = some ⟨"add", [⟨"A", .input, 8⟩, ⟨"b", .input, 8⟩]⟩ := by
  have laid : adderText.toList = laidOut adderLayout := by decide
  have spelled : Spelled Gap (declaration adder [busStatement]) adderText.toList := by
    rw [laid]
    exact spelled_of_layoutFits (by decide)
  have read := declaration_read adder (List.cons_ne_nil _ _) spelled
  have name : String.ofList adder.chars = "add" := String.ofList_toList
  have ports : [busStatement].flatMap PortStatement.ports =
      [⟨"A", .input, 8⟩, ⟨"b", .input, 8⟩] := by decide
  rw [String.ofList_toList, ports, name] at read
  exact ⟨spelled, read⟩

end Entity

end BlockSchematic
