import BlockSchematic.Proofs.CodeTokens
import Mathlib.Data.List.TakeWhile

/-!
# Substitution among tokens

Substitution takes an apostrophe for the opening of a literal whenever another apostrophe stands
two characters on. In `t'('Z')` this is the mark between a type and its operand, and the letter of
the literal is replaced as an identifier. Where the tokens do not mislead it in such a way, it
reads them as they are and replaces identifiers only.
-/

namespace BlockSchematic.Vhdl

section TakeWhile

variable {α : Type} {p : α → Bool} {cs rest : List α}

theorem takeWhile_append_of_stop (all : ∀ c ∈ cs, p c = true)
    (stop : rest.head?.all (!p ·) = true) : (cs ++ rest).takeWhile p = cs := by
  rw [List.takeWhile_append_of_pos all]
  cases rest with
  | nil => simp
  | cons c rest =>
    have other : p c = false := by simpa using stop
    simp [other]

theorem dropWhile_append_of_stop (all : ∀ c ∈ cs, p c = true)
    (stop : rest.head?.all (!p ·) = true) : (cs ++ rest).dropWhile p = rest := by
  rw [List.dropWhile_append_of_pos all]
  cases rest with
  | nil => rfl
  | cons c rest =>
    have other : p c = false := by simpa using stop
    simp [other]

end TakeWhile

theorem isDigit_eq_false_of_isWordStart {c : Char} (h : isWordStart c = true) :
    c.isDigit = false := by
  rcases Bool.or_eq_true_iff.1 h with letter | underscore
  · apply Bool.eq_false_iff.2
    intro digit
    have most : c.toNat ≤ 57 :=
      UInt32.le_iff_toNat_le.1 (of_decide_eq_true (Bool.and_eq_true_iff.1 digit).2)
    rcases Bool.or_eq_true_iff.1 letter with upper | lower
    · have least : 65 ≤ c.toNat := UInt32.le_iff_toNat_le.1 (of_decide_eq_true upper).1
      omega
    · have least : 97 ≤ c.toNat :=
        UInt32.le_iff_toNat_le.1 (of_decide_eq_true (Bool.and_eq_true_iff.1 lower).1)
      omega
  · rw [eq_of_beq underscore]
    decide

section PieceAt

variable {c : Char} {cs rest : List Char}

theorem pieceAt_comment : pieceAt '-' ('-' :: rest) =
    (false, (('-' :: rest).takeWhile (· ≠ '\n')).length) := by
  simp [pieceAt]

theorem pieceAt_quote : pieceAt '"' rest = (false, (stringBody rest).length) := by
  simp [pieceAt]

theorem pieceAt_literal : pieceAt '\x27' (c :: '\x27' :: rest) = (false, 2) := by
  simp [pieceAt]

theorem pieceAt_apostrophe (alone : rest[1]? ≠ some '\x27') :
    pieceAt '\x27' rest = (false, 0) := by
  have plain : Char.isDigit '\x27' = false ∧ isWordStart '\x27' = false := by decide
  simp [pieceAt, alone, plain]

theorem pieceAt_digit (digit : c.isDigit = true) :
    pieceAt c rest = (false, (rest.takeWhile isNumberChar).length) := by
  have other : c ≠ '-' ∧ c ≠ '"' ∧ c ≠ '\x27' := by
    refine ⟨?_, ?_, ?_⟩ <;>
    · rintro rfl
      exact absurd digit (by decide)
  simp [pieceAt, other, digit]

theorem pieceAt_word (start : isWordStart c = true) : pieceAt c rest =
    (!((rest.dropWhile isWordChar).head? = some '"' &&
      isBitStringLetter (c :: rest.takeWhile isWordChar)), (rest.takeWhile isWordChar).length) := by
  have other : c ≠ '-' ∧ c ≠ '"' ∧ c ≠ '\x27' := by
    refine ⟨?_, ?_, ?_⟩ <;>
    · rintro rfl
      exact absurd start (by decide)
  simp [pieceAt, other, isDigit_eq_false_of_isWordStart start, start]

/-- The character begins no word, number or literal. -/
def isPlain (c : Char) : Bool := !isWordStart c && !c.isDigit && c != '"' && c != '\x27'

/-- A plain character is a piece, unless it begins a comment. -/
theorem pieceAt_plain (plain : isPlain c = true) (dash : c = '-' → rest.head? ≠ some '-') :
    pieceAt c rest = (false, 0) := by
  simp only [isPlain, Bool.and_eq_true, Bool.not_eq_true', bne_iff_ne] at plain
  obtain ⟨⟨⟨word, digit⟩, quote⟩, apostrophe⟩ := plain
  have noComment : ¬ (c = '-' ∧ rest.head? = some '-') := fun ⟨first, second⟩ => dash first second
  simp [pieceAt, word, digit, quote, apostrophe, noComment]

theorem forall_ne_of_notMem {d : Char} (h : d ∉ cs) : ∀ c ∈ cs, decide (c ≠ d) = true :=
  fun _ inside => decide_eq_true fun same => h (same ▸ inside)

theorem pieceAt_comment_append (line : '\n' ∉ cs) (stop : rest.head?.all (· = '\n') = true) :
    pieceAt '-' ('-' :: cs ++ rest) = (false, ('-' :: cs).length) := by
  have all : ∀ c ∈ '-' :: cs, decide (c ≠ '\n') = true :=
    List.forall_mem_cons.2 ⟨by decide, forall_ne_of_notMem line⟩
  have stop : rest.head?.all (fun c => !decide (c ≠ '\n')) = true := by
    simpa using stop
  rw [List.cons_append, pieceAt_comment, ← List.cons_append, takeWhile_append_of_stop all stop]

theorem pieceAt_quoted_append (inside : '"' ∉ cs) :
    pieceAt '"' (cs ++ ['"'] ++ rest) = (false, (cs ++ ['"']).length) := by
  have all := forall_ne_of_notMem inside
  have whole : stringBody (cs ++ '"' :: rest) = cs ++ ['"'] := by
    rw [stringBody, takeWhile_append_of_stop all rfl, dropWhile_append_of_stop all rfl]
    rfl
  rw [pieceAt_quote, List.append_assoc, List.singleton_append, whole]

theorem pieceAt_digit_append (digit : c.isDigit = true) (all : ∀ d ∈ cs, isNumberChar d = true)
    (stop : rest.head?.all (!isNumberChar ·) = true) :
    pieceAt c (cs ++ rest) = (false, cs.length) := by
  rw [pieceAt_digit digit, takeWhile_append_of_stop all stop]

theorem pieceAt_word_append (start : isWordStart c = true) (all : ∀ d ∈ cs, isWordChar d = true)
    (stop : rest.head?.all (!isWordChar ·) = true) : pieceAt c (cs ++ rest) =
      (!(rest.head? = some '"' && isBitStringLetter (c :: cs)), cs.length) := by
  rw [pieceAt_word start, takeWhile_append_of_stop all stop, dropWhile_append_of_stop all stop]

end PieceAt

section Substituted

variable {f : String → Option String} {c d : Char} {cs rest : List Char}

/-- The characters of a text after substitution. -/
def substituted (f : String → Option String) (cs : List Char) : List Char :=
  (pieces cs).flatMap (·.replaced f)

theorem substituted_cons : substituted f (c :: rest) =
    (if (pieceAt c rest).1 then Piece.word (c :: rest.take (pieceAt c rest).2)
      else .verbatim (c :: rest.take (pieceAt c rest).2)).replaced f ++
        substituted f (rest.drop (pieceAt c rest).2) := by
  rw [substituted, pieces]
  rfl

theorem substituted_verbatim (h : pieceAt c (cs ++ rest) = (false, cs.length)) :
    substituted f (c :: (cs ++ rest)) = c :: cs ++ substituted f rest := by
  rw [substituted_cons, h]
  simp [Piece.replaced]

theorem substituted_word (h : pieceAt c (cs ++ rest) = (true, cs.length)) :
    substituted f (c :: (cs ++ rest)) =
      (Piece.word (c :: cs)).replaced f ++ substituted f rest := by
  rw [substituted_cons, h]
  simp

/-- A character that is a piece by itself is copied. -/
theorem substituted_single (h : pieceAt c rest = (false, 0)) :
    substituted f (c :: rest) = c :: substituted f rest := by
  have piece : pieceAt c ([] ++ rest) = (false, ([] : List Char).length) := h
  exact substituted_verbatim piece

theorem substituted_comment (body : '\n' ∉ cs) (stop : rest.head?.all (· = '\n') = true) :
    substituted f ('-' :: '-' :: (cs ++ rest)) =
      '-' :: '-' :: cs ++ substituted f rest :=
  substituted_verbatim (pieceAt_comment_append body stop)

theorem substituted_quoted (body : '"' ∉ cs) :
    substituted f (quoted cs ++ rest) =
      quoted cs ++ substituted f rest :=
  substituted_verbatim (pieceAt_quoted_append body)

/-- A doubled quote closes a string and opens the next, so nothing of it is replaced. -/
theorem substituted_doubled (content : List Char) (before : '"' ∉ cs) :
    substituted f (quoted (cs ++ doubled content) ++ rest) =
      quoted (cs ++ doubled content) ++ substituted f rest := by
  induction content generalizing cs with
  | nil =>
    rw [doubled, List.flatMap_nil, List.append_nil]
    exact substituted_quoted before
  | cons c content ih =>
    by_cases quote : c = '"'
    · have split : quoted (cs ++ doubled (c :: content)) = quoted cs ++ quoted (doubled content) := by
        simp [quoted, doubled, quote]
      have tail : substituted f (quoted ([] ++ doubled content) ++ rest) =
          quoted ([] ++ doubled content) ++ substituted f rest :=
        ih List.not_mem_nil
      rw [List.nil_append] at tail
      rw [split, List.append_assoc, substituted_quoted before, tail, List.append_assoc]
    · have same : cs ++ doubled (c :: content) = cs ++ [c] ++ doubled content := by
        simp [doubled, quote]
      have before' : '"' ∉ cs ++ [c] := by
        simp [before, Ne.symm quote]
      rw [same]
      exact ih before'

theorem substituted_literal : substituted f ('\x27' :: c :: '\x27' :: rest) =
    '\x27' :: c :: '\x27' :: substituted f rest := by
  have piece : pieceAt '\x27' ([c, '\x27'] ++ rest) = (false, [c, '\x27'].length) :=
    pieceAt_literal
  exact substituted_verbatim piece

theorem substituted_digits (digit : c.isDigit = true) (all : ∀ d ∈ cs, isNumberChar d = true)
    (stop : rest.head?.all (!isNumberChar ·) = true) :
    substituted f (c :: (cs ++ rest)) = c :: cs ++ substituted f rest :=
  substituted_verbatim (pieceAt_digit_append digit all stop)

theorem BeginsNumber.substituted_append (h : BeginsNumber cs)
    (stop : rest.head?.all (!isNumberChar ·) = true) :
    substituted f (cs ++ rest) = cs ++ substituted f rest := by
  obtain ⟨c, more, rfl, digit, number⟩ := h
  exact substituted_digits digit number stop

/-- A sign is a piece by itself, and the digits behind it are a number of their own. -/
theorem substituted_scaled {front : List Char} {e : Exponent} (h : e.wellFormed = true)
    (begins : BeginsNumber front) (tail : ∀ d ∈ cs, isNumberChar d = true)
    (stop : rest.head?.all (!isNumberChar ·) = true) :
    substituted f (front ++ e.spelling ++ cs ++ rest) =
      front ++ e.spelling ++ cs ++ substituted f rest := by
  obtain ⟨letter, sign, power⟩ := e
  simp only [Exponent.wellFormed, Bool.and_eq_true] at h
  obtain ⟨⟨hletter, hsign⟩, hpower⟩ := h
  have scale : isNumberChar letter = true := by
    have known : ['e', 'E'].all isNumberChar = true := by decide
    exact List.all_eq_true.1 known letter (List.contains_iff_mem.1 hletter)
  have digits := (beginsNumber_of_grouped hpower).append tail
  cases sign with
  | none =>
    have all : ∀ d ∈ letter :: (power ++ cs), isNumberChar d = true :=
      List.forall_mem_cons.2 ⟨scale, digits.all⟩
    have copied := (begins.append all).substituted_append (f := f) stop
    simpa only [Exponent.spelling, Option.toList_none, List.nil_append, List.append_assoc,
      List.cons_append] using copied
  | some s =>
    have signs : ['+', '-'].all (fun d => isPlain d && !isNumberChar d) = true := by decide
    obtain ⟨plain, stops⟩ := Bool.and_eq_true_iff.1
      (List.all_eq_true.1 signs s (List.contains_iff_mem.1 hsign))
    have noDash : (power ++ cs ++ rest).head? ≠ some '-' := by
      obtain ⟨c, more, whole, digit, -⟩ := digits
      rw [whole]
      rintro same
      obtain rfl := Option.some.inj same
      exact absurd digit (by decide)
    have stop' : (s :: (power ++ cs ++ rest)).head?.all (!isNumberChar ·) = true := by
      simpa using stops
    have first := (begins.append (List.forall_mem_singleton.2 scale)).substituted_append
      (f := f) stop'
    have second := substituted_single (f := f)
      (pieceAt_plain plain fun _ => noDash)
    have third := digits.substituted_append (f := f) stop
    rw [second, third] at first
    simpa only [Exponent.spelling, Option.toList_some, List.append_assoc, List.cons_append,
      List.nil_append] using first

/-- A number is copied, together with characters behind it that go on in it. -/
theorem substituted_numeral {n : Numeral} (h : n.wellFormed = true)
    (tail : ∀ d ∈ cs, isNumberChar d = true) (stop : rest.head?.all (!isNumberChar ·) = true) :
    substituted f (n.spelling ++ cs ++ rest) =
      n.spelling ++ cs ++ substituted f rest := by
  have mantissa := beginsNumber_mantissa h
  rw [Numeral.spelling]
  cases scaled : n.exponent with
  | none =>
    rw [Option.elim_none, List.append_nil]
    exact (mantissa.append tail).substituted_append stop
  | some e =>
    simp only [Numeral.wellFormed, Bool.and_eq_true, scaled] at h
    exact substituted_scaled h.2 mantissa tail stop

theorem substituted_identifier (start : isWordStart c = true) (all : ∀ d ∈ cs, isWordChar d = true)
    (stop : rest.head?.all (!isWordChar ·) = true)
    (noBase : ¬ (isBase (c :: cs) = true ∧ rest.head? = some '"')) :
    substituted f (c :: (cs ++ rest)) =
      (Token.identifier (c :: cs)).replaced f ++ substituted f rest := by
  have word : (rest.head? = some '"' && isBitStringLetter (c :: cs)) = false := by
    apply Bool.eq_false_iff.2
    intro both
    obtain ⟨quote, base⟩ := Bool.and_eq_true_iff.1 both
    exact noBase ⟨isBase_of_isBitStringLetter base, of_decide_eq_true quote⟩
  apply substituted_word
  rw [pieceAt_word_append start all stop, word]
  rfl

/-- A letter in front of a quote is copied with the bit string that begins there. -/
theorem substituted_base {base body : List Char} (letters : base.all Char.isAlpha = true)
    (known : isBitStringLetter base = true) (noQuote : '"' ∉ body) :
    substituted f (base ++ quoted body ++ rest) =
      base ++ quoted body ++ substituted f rest := by
  cases base with
  | nil => exact absurd known (by decide)
  | cons c cs =>
    obtain ⟨letter, others⟩ := List.forall_mem_cons.1 (List.all_eq_true.1 letters)
    have all : ∀ d ∈ cs, isWordChar d = true := fun d hd => isWordChar_of_isAlpha (others d hd)
    have stop : (quoted body ++ rest).head?.all (!isWordChar ·) = true := rfl
    have piece : pieceAt c (cs ++ (quoted body ++ rest)) = (false, cs.length) := by
      rw [pieceAt_word_append (isWordStart_of_isAlpha letter) all stop, known]
      rfl
    rw [List.append_assoc, List.cons_append, substituted_verbatim piece, substituted_quoted noQuote,
      List.cons_append, List.append_assoc, List.cons_append]

theorem substituted_mark (known : c ∈ marks) (dash : c = '-' → rest.head? ≠ some '-') :
    substituted f (c :: rest) = c :: substituted f rest := by
  have plain : marks.all isPlain = true := by decide
  exact substituted_single (pieceAt_plain (List.all_eq_true.1 plain c known) dash)

/-- One token is read as what it is. -/
theorem substituted_token {t : Token} (wellFormed : t.wellFormed = true)
    (ends : t.endsBefore rest = true) (clear : t.clearBefore rest = true) :
    substituted f (t.spelling ++ rest) = t.replaced f ++ substituted f rest := by
  cases t with
  | comment body =>
    have noFeed : '\n' ∉ body := by simpa [Token.wellFormed] using wellFormed
    exact substituted_comment noFeed ends
  | string content => exact substituted_doubled content List.not_mem_nil
  | character c => exact substituted_literal
  | bitString length base body =>
    simp only [Token.wellFormed, Bool.and_eq_true] at wellFormed
    obtain ⟨⟨⟨hlength, letters⟩, -⟩, noQuote⟩ := wellFormed
    have noQuote : '"' ∉ body := by simpa using noQuote
    cases length with
    | none => exact substituted_base letters clear noQuote
    | some n =>
      have tail : ∀ d ∈ base, isNumberChar d = true := fun d hd =>
        isNumberChar_of_isWordChar (isWordChar_of_isAlpha (List.all_eq_true.1 letters d hd))
      have stop : (quoted body ++ rest).head?.all (!isNumberChar ·) = true := rfl
      have copied := substituted_numeral (f := f) hlength tail stop
      rw [substituted_quoted noQuote] at copied
      simpa only [Token.spelling, Token.replaced, Option.elim_some, List.append_assoc] using copied
  | number n =>
    have stop : rest.head?.all (!isNumberChar ·) = true := by
      cases rest with
      | nil => rfl
      | cons d rest =>
        have outside : isWordChar d = false ∧ d ≠ '#' := by simpa [Token.endsBefore] using ends
        have noPoint : d ≠ '.' := by simpa [Token.clearBefore] using clear
        have char : isNumberChar d = false := by
          rw [isWordChar] at outside
          simp [isNumberChar, outside, noPoint]
        simp [char]
    have copied := substituted_numeral (f := f) wellFormed (List.forall_mem_nil _) stop
    rw [List.append_nil] at copied
    exact copied
  | identifier word =>
    simp only [Token.wellFormed, Bool.and_eq_true] at wellFormed
    obtain ⟨head, chars⟩ := wellFormed
    obtain ⟨c, cs, rfl, alphanum, others⟩ := exists_cons_of_grouped chars
    have all : ∀ d ∈ cs, isWordChar d = true := by
      intro d listed
      rcases others d listed with plain | rfl
      · exact isWordChar_of_isAlphanum plain
      · decide
    obtain ⟨stop, noBase⟩ := Bool.and_eq_true_iff.1 ends
    have noBase : ¬ (isBase (c :: cs) = true ∧ rest.head? = some '"') := by
      simpa [imp_iff_not_or] using noBase
    exact substituted_identifier (isWordStart_of_isAlpha head) all stop noBase
  | apostrophe =>
    have alone : rest[1]? ≠ some '\x27' := by simpa [Token.clearBefore] using clear
    exact substituted_single (pieceAt_apostrophe alone)
  | mark c =>
    have dash : c = '-' → rest.head? ≠ some '-' := by
      simpa [Token.endsBefore, imp_iff_not_or] using ends
    exact substituted_mark (List.contains_iff_mem.1 wellFormed) dash

/-- A letter in front of an apostrophe is an identifier. -/
theorem substituted_letter (start : isWordStart c = true) :
    substituted f (c :: '\x27' :: rest) =
      (Token.identifier [c]).replaced f ++ substituted f ('\x27' :: rest) := by
  have stop : ('\x27' :: rest).head?.all (!isWordChar ·) = true := rfl
  have noBase : ¬ (isBase [c] = true ∧ ('\x27' :: rest).head? = some '"') := by simp
  exact substituted_identifier start (List.forall_mem_nil _) stop noBase

/-- A literal that is not seen leaves its character among the code, and its closing apostrophe
behind it. -/
theorem substituted_unseen {m : Char} (alone : standsAlone f c = true)
    (closed : rest[1]? ≠ some '\x27') :
    substituted f ('\x27' :: m :: '\x27' :: c :: '\x27' :: rest) =
      '\x27' :: m :: '\x27' :: c :: '\x27' :: substituted f rest := by
  simp only [standsAlone, Bool.and_eq_true] at alone
  obtain ⟨⟨word, quote⟩, apostrophe⟩ := alone
  have character : substituted f (c :: '\x27' :: rest) = c :: substituted f ('\x27' :: rest) := by
    by_cases start : isWordStart c = true
    · have kept : f (String.ofList [c]) = none := by simpa [start] using word
      rw [substituted_letter start, Token.replaced, kept]
      rfl
    · by_cases digit : c.isDigit = true
      · have stop : ('\x27' :: rest).head?.all (!isNumberChar ·) = true := rfl
        exact substituted_digits digit (List.forall_mem_nil _) stop
      · have dash : c = '-' → ('\x27' :: rest).head? ≠ some '-' := by simp
        have plain : isPlain c = true := by simp [isPlain, start, digit, quote, apostrophe]
        exact substituted_single (pieceAt_plain plain dash)
  rw [substituted_literal, character, substituted_single (pieceAt_apostrophe closed)]

/-- Tokens that do not mislead substitution are copied or replaced one by one. -/
theorem substituted_tokens {before after : List Token} (h : readable (before ++ after) = true)
    (hc : clear f (spelling after) before = true) :
    substituted f (spelling (before ++ after)) =
      before.flatMap (·.replaced f) ++ substituted f (spelling after) := by
  fun_induction clear f (spelling after) before with
  | case1 => rfl
  | case2 m c tokens ih =>
    simp only [Bool.and_eq_true] at hc
    obtain ⟨⟨alone, closed⟩, hc⟩ := hc
    have closed : (spelling (tokens ++ after))[1]? ≠ some '\x27' := by
      rw [spelling_append]
      simpa using closed
    obtain ⟨-, -, h⟩ := readable_cons h
    obtain ⟨-, -, h⟩ := readable_cons h
    obtain ⟨-, -, h⟩ := readable_cons h
    have unseen := substituted_unseen (f := f) (m := m) alone closed
    rw [ih h hc] at unseen
    exact unseen
  | case3 t tokens _ ih =>
    obtain ⟨clearHere, hc⟩ := Bool.and_eq_true_iff.1 hc
    rw [List.cons_append] at h ⊢
    obtain ⟨wellFormed, ends, h⟩ := readable_cons h
    have clearHere : t.clearBefore (spelling (tokens ++ after)) = true := by
      rw [spelling_append]
      exact clearHere
    rw [spelling_cons, substituted_token wellFormed ends clearHere, ih h hc, List.flatMap_cons,
      List.append_assoc]

/-- An apostrophe begins a piece that is copied. -/
theorem head?_substituted_apostrophe :
    (substituted f ('\x27' :: rest)).head? = some '\x27' := by
  by_cases second : rest[1]? = some '\x27'
  · match rest, second with
    | d :: e :: more, second =>
      obtain rfl : e = '\x27' := Option.some.inj second
      rw [substituted_literal]
      rfl
  · rw [substituted_single (pieceAt_apostrophe second)]
    rfl

/-- A replacement that begins with another character shows that the letter was taken for an
identifier. -/
theorem substituted_unseen_letter_ne {m : Char} {name : String} (start : isWordStart c = true)
    (replaced : f (String.ofList [c]) = some name) (other : name.toList.head? ≠ some c)
    (spelled : List Char) :
    substituted f ('\x27' :: m :: '\x27' :: c :: '\x27' :: rest) ≠
      '\x27' :: m :: '\x27' :: c :: spelled := by
  intro same
  have word : (Token.identifier [c]).replaced f = name.toList := by
    rw [Token.replaced, replaced]
    rfl
  rw [substituted_literal, substituted_letter start, word] at same
  simp only [List.cons.injEq, true_and] at same
  have heads := congrArg List.head? same
  rw [List.head?_append, head?_substituted_apostrophe, List.head?_cons] at heads
  cases first : name.toList.head? with
  | none =>
    rw [first, Option.none_or] at heads
    obtain rfl := Option.some.inj heads
    exact absurd start (by decide)
  | some d =>
    rw [first, Option.some_or] at heads
    exact other (first.trans heads)

theorem substitute_eq (code : List Char) :
    substitute f (String.ofList code) = String.ofList (substituted f code) := by
  rw [substitute, String.toList_ofList]
  rfl

theorem substitute_ne_of_unseen_letter {before after : List Token} {m : Char} {name : String}
    (h : readable (before ++ .apostrophe :: .mark m :: .character c :: after) = true)
    (hc : clear f (spelling (.apostrophe :: .mark m :: .character c :: after)) before = true)
    (start : isWordStart c = true) (replaced : f (String.ofList [c]) = some name)
    (other : name.toList.head? ≠ some c) :
    substitute f
        (String.ofList (spelling (before ++ .apostrophe :: .mark m :: .character c :: after))) ≠
      String.ofList ((before ++ .apostrophe :: .mark m :: .character c :: after).flatMap
        (·.replaced f)) := by
  intro same
  rw [substitute_eq, String.ofList_inj, substituted_tokens h hc, List.flatMap_append,
    List.append_cancel_left_eq] at same
  exact substituted_unseen_letter_ne start replaced other _ same

end Substituted

/-- Where the tokens of a fragment do not mislead substitution, it replaces the identifiers that
have a replacement and copies all else. The letter of a literal behind an apostrophe and a mark is
replaced as if it were an identifier. -/
theorem substitution_reads_tokens {tokens : List Token} (h : readable tokens = true)
    (f : String → Option String) :
    (clear f [] tokens = true → substitute f (String.ofList (spelling tokens)) =
      String.ofList (tokens.flatMap (·.replaced f))) ∧
    ∀ before m c after name,
      tokens = before ++ .apostrophe :: .mark m :: .character c :: after →
      clear f (spelling (.apostrophe :: .mark m :: .character c :: after)) before = true →
      isWordStart c = true → f (String.ofList [c]) = some name → name.toList.head? ≠ some c →
      substitute f (String.ofList (spelling tokens)) ≠
        String.ofList (tokens.flatMap (·.replaced f)) := by
  constructor
  · intro hc
    have whole : readable (tokens ++ []) = true := by
      rw [List.append_nil]
      exact h
    have copied := substituted_tokens (f := f) whole hc
    rw [List.append_nil] at copied
    rw [substitute_eq, copied]
    simp [spelling, substituted, pieces]
  · rintro before m c after name rfl hc start replaced other
    exact substitute_ne_of_unseen_letter h hc start replaced other

def named (word : String) : Token := .identifier word.toList

def assignment : List Token := [named "y", .mark '<', .mark '=', named "t"]

/-- A literal that is qualified by its type. -/
def qualified (c : Char) : List Token :=
  assignment ++ .apostrophe :: .mark '(' :: .character c :: [.mark ')', .mark ';']

/-- A fragment with a token of each kind that substitution reads as they are. -/
def plainFragment : List Token :=
  qualified '1' ++
    [.mark '\n', named "x", .mark '(', named "a", .apostrophe, named "length", .mark ')', .mark ' ',
      .bitString none ['x'] ['0', 'a'], .string ['a', '"'], .character 'a',
      .number ⟨some ['1', '6'], ['F', 'F'], none, some ⟨'e', some '-', ['3']⟩⟩, .mark ' ',
      .comment [' ', 'a']]

def renamed (word : String) : Option String :=
  [("a", "net_0"), ("y", "net_1"), ("Z", "net_2")].lookup word

theorem readable_qualified : readable (qualified 'Z') = true := by decide

theorem clear_assignment : clear renamed (spelling
    (.apostrophe :: .mark '(' :: .character 'Z' :: [.mark ')', .mark ';'])) assignment = true := by
  decide

/-- The plain fragment is read as it is, and the letter in `t'('Z')` is replaced. -/
theorem plain_fragment_read :
    substitute renamed (String.ofList (spelling plainFragment)) =
        String.ofList (plainFragment.flatMap (·.replaced renamed)) ∧
      substitute renamed (String.ofList (spelling (qualified 'Z'))) ≠
        String.ofList ((qualified 'Z').flatMap (·.replaced renamed)) := by
  constructor
  · exact (substitution_reads_tokens (by decide) renamed).1 (by decide)
  · exact (substitution_reads_tokens readable_qualified renamed).2 assignment '(' 'Z'
      [.mark ')', .mark ';'] "net_2" rfl clear_assignment (by decide) (by decide) (by decide)

/-- Not every fragment is read token by token. -/
theorem qualified_letter_misread : ¬ ∀ {tokens : List Token}, readable tokens = true →
    ∀ f : String → Option String, substitute f (String.ofList (spelling tokens)) =
      String.ofList (tokens.flatMap (·.replaced f)) := by
  intro all
  have known : renamed (String.ofList ['Z']) = some "net_2" := by decide
  have misread := substitute_ne_of_unseen_letter readable_qualified clear_assignment (by decide)
    known (by decide)
  exact misread (all readable_qualified renamed)

end BlockSchematic.Vhdl
