import BlockSchematic.Vhdl.Substitution

/-!
# Tokens of a code fragment

A fragment of VHDL is a sequence of tokens: comments, literals, identifiers, apostrophes and marks.
An apostrophe is a token where it belongs to an attribute or to a qualified expression. A sequence
is readable if its tokens are well formed and none runs on into the next, and it is clear if
substitution, which sees characters alone, finds the same literals in it.
-/

namespace BlockSchematic.Vhdl

/-- Characters of a kind, with single underscores between them at most. -/
def grouped (kind : Char → Bool) : List Char → Bool
  | [] => false
  | [c] => kind c
  | c :: '_' :: rest => kind c && grouped kind rest
  | c :: d :: rest => kind c && grouped kind (d :: rest)

structure Exponent where
  letter : Char
  sign : Option Char
  digits : List Char

def Exponent.spelling (e : Exponent) : List Char := e.letter :: (e.sign.toList ++ e.digits)

def Exponent.wellFormed (e : Exponent) : Bool :=
  ['e', 'E'].contains e.letter && e.sign.all ['+', '-'].contains && grouped Char.isDigit e.digits

/-- A numeric literal, with a base in front of a number sign or without one. -/
structure Numeral where
  base : Option (List Char)
  whole : List Char
  fraction : Option (List Char)
  exponent : Option Exponent

def Numeral.value (n : Numeral) : List Char := n.whole ++ n.fraction.elim [] ('.' :: ·)

def Numeral.mantissa (n : Numeral) : List Char :=
  n.base.elim n.value fun base => base ++ '#' :: (n.value ++ ['#'])

def Numeral.spelling (n : Numeral) : List Char :=
  n.mantissa ++ n.exponent.elim [] Exponent.spelling

def Numeral.wellFormed (n : Numeral) : Bool :=
  let kind := if n.base.isSome then Char.isAlphanum else Char.isDigit
  n.base.all (grouped Char.isDigit) && grouped kind n.whole && n.fraction.all (grouped kind) &&
    n.exponent.all Exponent.wellFormed

/-- Blanks and delimiters but the apostrophe are marks. A delimiter of two characters is two
marks. -/
inductive Token where
  | comment (body : List Char)
  | string (content : List Char)
  | character (c : Char)
  | bitString (length : Option Numeral) (base body : List Char)
  | number (n : Numeral)
  | identifier (word : List Char)
  | apostrophe
  | mark (c : Char)

/-- A quote in a string is written twice. -/
def doubled (content : List Char) : List Char :=
  content.flatMap fun c => if c = '"' then ['"', '"'] else [c]

def quoted (body : List Char) : List Char := '"' :: (body ++ ['"'])

def Token.spelling : Token → List Char
  | .comment body => '-' :: '-' :: body
  | .string content => quoted (doubled content)
  | .character c => ['\x27', c, '\x27']
  | .bitString length base body => length.elim [] Numeral.spelling ++ base ++ quoted body
  | .number n => n.spelling
  | .identifier word => word
  | .apostrophe => ['\x27']
  | .mark c => [c]

def spelling (tokens : List Token) : List Char := tokens.flatMap Token.spelling

/-- An identifier that has a replacement is replaced, and all else is copied. -/
def Token.replaced (replacement? : String → Option String) : Token → List Char
  | .identifier word => ((replacement? (String.ofList word)).map String.toList).getD word
  | t => t.spelling

def marks : List Char := " \t\n\r\x0b\x0c&()*+,-./:;<=>?@[]`|!".toList

def bitStringBases : List (List Char) :=
  ["b", "o", "x", "ub", "uo", "ux", "sb", "so", "sx", "d"].map String.toList

def isBase (word : List Char) : Bool := bitStringBases.contains (word.map Char.toLower)

def Token.wellFormed : Token → Bool
  | .comment body => !body.contains '\n'
  | .string _ => true
  | .character _ => true
  | .bitString length base body =>
    length.all Numeral.wellFormed && base.all Char.isAlpha && isBase base && !body.contains '"'
  | .number n => n.wellFormed
  | .identifier word => word.head?.any Char.isAlpha && grouped Char.isAlphanum word
  | .apostrophe => true
  | .mark c => marks.contains c

/-- In front of the rest of a text the token ends where its spelling does. -/
def Token.endsBefore (rest : List Char) : Token → Bool
  | .comment _ => rest.head?.all (· = '\n')
  | .number _ => rest.head?.all fun c => !isWordChar c && c != '#'
  | .identifier word => rest.head?.all (!isWordChar ·) && !(isBase word && rest.head? = some '"')
  | .mark c => !(c = '-' && rest.head? = some '-')
  | _ => true

/-- Behind such a token an apostrophe does not open a literal. -/
def Token.endsName : Token → Bool
  | .identifier _ => true
  | .mark c => c = ')'
  | _ => false

def Token.isCharacter : Token → Bool
  | .character _ => true
  | _ => false

/-- The tokens are well formed, each ends where its spelling does, and no literal opens where the
apostrophe belongs to the name in front of it. -/
def readable : List Token → Bool
  | [] => true
  | t :: tokens =>
    t.wellFormed && t.endsBefore (spelling tokens) &&
      !(t.endsName && tokens.head?.any Token.isCharacter) && readable tokens

/-- What follows does not mislead substitution about the token. -/
def Token.clearBefore (rest : List Char) : Token → Bool
  | .apostrophe => rest[1]? != some '\x27'
  | .number _ => rest.head? != some '.'
  | .bitString none base _ => isBitStringLetter base
  | _ => true

/-- The character is copied when its literal is not seen. -/
def standsAlone (replacement? : String → Option String) (c : Char) : Bool :=
  (!isWordStart c || (replacement? (String.ofList [c])).isNone) && c != '"' && c != '\x27'

/-- Substitution is not misled by the tokens in front of a text. A literal behind an apostrophe and
a mark is not seen as one, which does no harm if its character stands alone. -/
def clear (replacement? : String → Option String) (rest : List Char) : List Token → Bool
  | [] => true
  | .apostrophe :: .mark _ :: .character c :: tokens =>
    standsAlone replacement? c && (spelling tokens ++ rest)[1]? != some '\x27' &&
      clear replacement? rest tokens
  | t :: tokens => t.clearBefore (spelling tokens ++ rest) && clear replacement? rest tokens

section Characters

variable {c : Char} {cs : List Char}

theorem isWordStart_of_isAlpha (h : c.isAlpha = true) : isWordStart c = true := by
  simp [isWordStart, h]

theorem isWordChar_of_isAlphanum (h : c.isAlphanum = true) : isWordChar c = true := by
  simp [isWordChar, h]

theorem isWordChar_of_isAlpha (h : c.isAlpha = true) : isWordChar c = true := by
  simp [isWordChar, Char.isAlphanum, h]

theorem isNumberChar_of_isWordChar (h : isWordChar c = true) :
    isNumberChar c = true := by
  rw [isWordChar] at h
  simp [isNumberChar, h]

theorem isBase_of_isBitStringLetter {word : List Char} (h : isBitStringLetter word = true) :
    isBase word = true := by
  have within : [['b'], ['o'], ['x']].all bitStringBases.contains = true := by decide
  exact List.all_eq_true.1 within _ (List.contains_iff_mem.1 h)

theorem exists_cons_of_grouped {kind : Char → Bool} (h : grouped kind cs = true) :
    ∃ c rest, cs = c :: rest ∧ kind c = true ∧ ∀ d ∈ rest, kind d = true ∨ d = '_' := by
  fun_induction grouped kind cs with
  | case1 => cases h
  | case2 c => exact ⟨c, [], rfl, h, nofun⟩
  | case3 c rest ih =>
    obtain ⟨first, others⟩ := Bool.and_eq_true_iff.1 h
    obtain ⟨d, more, rfl, hd, hmore⟩ := ih others
    have tail : ∀ e ∈ d :: more, kind e = true ∨ e = '_' :=
      List.forall_mem_cons.2 ⟨.inl hd, hmore⟩
    exact ⟨c, _, rfl, first, List.forall_mem_cons.2 ⟨.inr rfl, tail⟩⟩
  | case4 c d rest _ ih =>
    obtain ⟨first, others⟩ := Bool.and_eq_true_iff.1 h
    obtain ⟨d', more, same, hd, hmore⟩ := ih others
    obtain ⟨rfl, rfl⟩ := List.cons.inj same
    exact ⟨c, _, rfl, first, List.forall_mem_cons.2 ⟨.inl hd, hmore⟩⟩

/-- A digit and characters that go on in a number. -/
def BeginsNumber (cs : List Char) : Prop :=
  ∃ c rest, cs = c :: rest ∧ c.isDigit = true ∧ ∀ d ∈ rest, isNumberChar d = true

theorem BeginsNumber.all (h : BeginsNumber cs) : ∀ d ∈ cs, isNumberChar d = true := by
  obtain ⟨c, rest, rfl, digit, number⟩ := h
  have first : isNumberChar c = true := by simp [isNumberChar, Char.isAlphanum, digit]
  exact List.forall_mem_cons.2 ⟨first, number⟩

theorem BeginsNumber.append (h : BeginsNumber cs) {more : List Char}
    (all : ∀ d ∈ more, isNumberChar d = true) : BeginsNumber (cs ++ more) := by
  obtain ⟨c, rest, rfl, digit, number⟩ := h
  exact ⟨c, rest ++ more, rfl, digit, List.forall_mem_append.2 ⟨number, all⟩⟩

theorem isNumberChar_of_mem_grouped {kind : Char → Bool} (h : grouped kind cs = true)
    (within : ∀ c, kind c = true → c.isAlphanum = true) (mem : c ∈ cs) :
    isNumberChar c = true := by
  obtain ⟨first, rest, rfl, hfirst, others⟩ := exists_cons_of_grouped h
  have alphanum : ∀ d, kind d = true → isNumberChar d = true := by
    intro d hd
    simp [isNumberChar, within d hd]
  rcases List.mem_cons.1 mem with rfl | later
  · exact alphanum _ hfirst
  · rcases others c later with hc | rfl
    · exact alphanum c hc
    · decide

theorem isAlphanum_of_isDigit (h : c.isDigit = true) : c.isAlphanum = true := by
  simp [Char.isAlphanum, h]

theorem beginsNumber_of_grouped (h : grouped Char.isDigit cs = true) : BeginsNumber cs := by
  have number := fun d => isNumberChar_of_mem_grouped (c := d) h fun _ => isAlphanum_of_isDigit
  obtain ⟨c, rest, rfl, digit, -⟩ := exists_cons_of_grouped h
  exact ⟨c, rest, rfl, digit, fun d later => number d (List.mem_cons_of_mem _ later)⟩

theorem isNumberChar_of_mem_fraction {kind : Char → Bool} {fraction : Option (List Char)}
    (h : fraction.all (grouped kind) = true) (within : ∀ c, kind c = true → c.isAlphanum = true)
    (mem : c ∈ fraction.elim [] ('.' :: ·)) : isNumberChar c = true := by
  cases fraction with
  | none => cases mem
  | some digits =>
    rcases List.mem_cons.1 mem with rfl | digit
    · decide
    · exact isNumberChar_of_mem_grouped h within digit

theorem beginsNumber_mantissa {n : Numeral} (h : n.wellFormed = true) :
    BeginsNumber n.mantissa := by
  obtain ⟨base, whole, fraction, exponent⟩ := n
  simp only [Numeral.wellFormed, Bool.and_eq_true] at h
  obtain ⟨⟨⟨hbase, hwhole⟩, hfraction⟩, -⟩ := h
  cases base with
  | none =>
    exact (beginsNumber_of_grouped hwhole).append fun d =>
      isNumberChar_of_mem_fraction hfraction fun _ => isAlphanum_of_isDigit
  | some digits =>
    have value : ∀ d ∈ whole ++ fraction.elim [] ('.' :: ·), isNumberChar d = true :=
      List.forall_mem_append.2
        ⟨fun _ => isNumberChar_of_mem_grouped hwhole fun _ alphanum => alphanum,
          fun _ => isNumberChar_of_mem_fraction hfraction fun _ alphanum => alphanum⟩
    have sign : isNumberChar '#' = true := by decide
    apply (beginsNumber_of_grouped hbase).append
    exact List.forall_mem_cons.2
      ⟨sign, List.forall_mem_append.2 ⟨value, List.forall_mem_singleton.2 sign⟩⟩

end Characters

theorem spelling_cons (t : Token) (tokens : List Token) :
    spelling (t :: tokens) = t.spelling ++ spelling tokens :=
  rfl

theorem spelling_append (before after : List Token) :
    spelling (before ++ after) = spelling before ++ spelling after :=
  List.flatMap_append

theorem readable_cons {t : Token} {tokens : List Token} (h : readable (t :: tokens) = true) :
    t.wellFormed = true ∧ t.endsBefore (spelling tokens) = true ∧ readable tokens = true := by
  simp only [readable, Bool.and_eq_true] at h
  exact ⟨h.1.1.1, h.1.1.2, h.2⟩

end BlockSchematic.Vhdl
