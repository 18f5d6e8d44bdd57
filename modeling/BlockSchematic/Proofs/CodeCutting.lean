import BlockSchematic.Proofs.EntitySpelling
import BlockSchematic.Proofs.TokenSubstitution

/-!
# One cutting for every substitution

Any text, well formed or not, is a row of pieces: comments, quoted spans, character literals,
numbers, letters of bit strings, words and single characters. What stands behind a piece decides
where it ends, so there is only one such row. Substitution copies its pieces and replaces words.
-/

namespace BlockSchematic.Vhdl

/-- What can stand in front of the rest of a text. A comment runs up to the line break, and a quoted
span that is not closed to the end. Numbers and words go on as long as they can. -/
inductive Span (rest : List Char) : Piece → Prop where
  | comment {body : List Char} (line : '\n' ∉ body) (stop : rest.head?.all (· = '\n') = true) :
    Span rest (.verbatim ('-' :: '-' :: body))
  | quoted {body : List Char} (inside : '"' ∉ body) : Span rest (.verbatim (quoted body))
  | unclosed {body : List Char} (inside : '"' ∉ body) (stop : rest = []) :
    Span rest (.verbatim ('"' :: body))
  | literal (c : Char) : Span rest (.verbatim ['\x27', c, '\x27'])
  | number {c : Char} {more : List Char} (digit : c.isDigit = true)
    (all : ∀ d ∈ more, isNumberChar d = true) (stop : rest.head?.all (!isNumberChar ·) = true) :
    Span rest (.verbatim (c :: more))
  | base {c : Char} (letter : isBitStringLetter [c] = true) (quote : rest.head? = some '"') :
    Span rest (.verbatim [c])
  | word {c : Char} {more : List Char} (start : isWordStart c = true)
    (all : ∀ d ∈ more, isWordChar d = true) (stop : rest.head?.all (!isWordChar ·) = true)
    (noBase : ¬(isBitStringLetter (c :: more) = true ∧ rest.head? = some '"')) :
    Span rest (.word (c :: more))
  | mark {c : Char} (outside : isWordChar c = false) (quote : c ≠ '"')
    (dash : c = '-' → rest.head? ≠ some '-') (tick : c = '\x27' → rest[1]? ≠ some '\x27') :
    Span rest (.verbatim [c])

def spelled (ps : List Piece) : List Char := ps.flatMap Piece.chars

/-- Each piece is a span in front of those behind it. -/
def Cut : List Piece → Prop
  | [] => True
  | p :: ps => Span (spelled ps) p ∧ Cut ps

/-- A word between two texts that do not go on with it. -/
structure MaximalWord (before word after : List Char) : Prop where
  begins : word.head?.any isWordStart = true
  all : ∀ c ∈ word, isWordChar c = true
  left : before.getLast?.all (!isWordChar ·) = true
  right : after.head?.all (!isWordChar ·) = true

theorem spelled_cons (p : Piece) (ps : List Piece) : spelled (p :: ps) = p.chars ++ spelled ps :=
  rfl

theorem isWordChar_eq (c : Char) : isWordChar c = (isWordStart c || c.isDigit) := by
  simp only [isWordChar, isWordStart, Char.isAlphanum]
  cases c.isAlpha <;> cases c.isDigit <;> cases c == '_' <;> rfl

theorem isWordChar_of_isWordStart {c : Char} (h : isWordStart c = true) : isWordChar c = true := by
  rw [isWordChar_eq, h, Bool.true_or]

/-! ## Where a span ends -/

section PieceAt

variable {c : Char} {body rest : List Char}

theorem pieceAt_unclosed (inside : '"' ∉ body) : pieceAt '"' body = (false, body.length) := by
  have all := forall_ne_of_notMem inside
  have front : (body ++ []).takeWhile (fun c => decide (c ≠ '"')) = body :=
    takeWhile_append_of_stop all rfl
  have back : (body ++ []).dropWhile (fun c => decide (c ≠ '"')) = [] :=
    dropWhile_append_of_stop all rfl
  rw [List.append_nil] at front back
  rw [pieceAt_quote, stringBody, front, back, List.take_nil, List.append_nil]

theorem isWordStart_of_isBitStringLetter (letter : isBitStringLetter [c] = true) :
    isWordStart c = true := by
  have lower : c.toLower ∈ ['b', 'o', 'x'] := by simpa [isBitStringLetter] using letter
  refine isWordStart_of_isAlpha ?_
  rcases Entity.isUpper_or_toLower_eq c with upper | same
  · change (c.isUpper || c.isLower) = true
    rw [upper, Bool.true_or]
  · have letters : ∀ d ∈ ['b', 'o', 'x'], d.isAlpha = true := List.all_eq_true.1 rfl
    exact letters c (same ▸ lower)

theorem pieceAt_base (letter : isBitStringLetter [c] = true) (quote : rest.head? = some '"') :
    pieceAt c rest = (false, 0) := by
  have stop : rest.head?.all (!isWordChar ·) = true := by
    rw [quote]
    rfl
  have alone : ∀ d ∈ ([] : List Char), isWordChar d = true := List.forall_mem_nil _
  have piece := pieceAt_word_append (isWordStart_of_isBitStringLetter letter) alone stop
  rwa [List.nil_append, quote, letter] at piece

/-- A single character is a piece where it begins nothing longer. -/
theorem pieceAt_mark (outside : isWordChar c = false) (quote : c ≠ '"')
    (dash : c = '-' → rest.head? ≠ some '-') (tick : c = '\x27' → rest[1]? ≠ some '\x27') :
    pieceAt c rest = (false, 0) := by
  by_cases apostrophe : c = '\x27'
  · subst apostrophe
    exact pieceAt_apostrophe (tick rfl)
  · rw [isWordChar_eq, Bool.or_eq_false_iff] at outside
    refine pieceAt_plain ?_ dash
    simp [isPlain, outside, quote, apostrophe]

end PieceAt

def pieceOf (replaceable : Bool) (cs : List Char) : Piece :=
  if replaceable then .word cs else .verbatim cs

/-- The scan finds a span and its kind from its first character and what follows. -/
theorem Span.pieceAt_eq {rest : List Char} {p : Piece} (h : Span rest p) :
    ∃ c more replaceable, p = pieceOf replaceable (c :: more) ∧
      pieceAt c (more ++ rest) = (replaceable, more.length) := by
  cases h with
  | comment line stop => exact ⟨'-', _, false, rfl, pieceAt_comment_append line stop⟩
  | quoted inside => exact ⟨'"', _, false, rfl, pieceAt_quoted_append inside⟩
  | unclosed inside stop =>
    subst stop
    refine ⟨'"', _, false, rfl, ?_⟩
    rw [List.append_nil]
    exact pieceAt_unclosed inside
  | literal c => exact ⟨'\x27', [c, '\x27'], false, rfl, pieceAt_literal⟩
  | number digit all stop => exact ⟨_, _, false, rfl, pieceAt_digit_append digit all stop⟩
  | base letter quote => exact ⟨_, [], false, rfl, pieceAt_base letter quote⟩
  | @word c more start all stop noBase =>
    refine ⟨c, more, true, rfl, ?_⟩
    have code : (rest.head? = some '"' && isBitStringLetter (c :: more)) = false := by
      refine Bool.eq_false_iff.2 fun both => ?_
      obtain ⟨quote, letter⟩ := Bool.and_eq_true_iff.1 both
      exact noBase ⟨letter, of_decide_eq_true quote⟩
    rw [pieceAt_word_append start all stop, code]
    rfl
  | mark outside quote dash tick =>
    exact ⟨_, [], false, rfl, pieceAt_mark outside quote dash tick⟩

theorem chars_pieceOf (replaceable : Bool) (cs : List Char) :
    (pieceOf replaceable cs).chars = cs := by
  cases replaceable <;> rfl

theorem Span.chars_ne_nil {rest : List Char} {p : Piece} (h : Span rest p) : p.chars ≠ [] := by
  obtain ⟨c, more, replaceable, rfl, -⟩ := h.pieceAt_eq
  rw [chars_pieceOf]
  exact List.cons_ne_nil c more

theorem Span.pieces_append {rest : List Char} {p : Piece} (h : Span rest p) :
    pieces (p.chars ++ rest) = p :: pieces rest := by
  obtain ⟨c, more, replaceable, rfl, scan⟩ := h.pieceAt_eq
  rw [chars_pieceOf, List.cons_append, pieces]
  simp [scan, pieceOf]

/-- A row of spans is found again in its text. -/
theorem Cut.pieces_spelled {ps : List Piece} (h : Cut ps) : pieces (spelled ps) = ps := by
  induction ps with
  | nil => rw [spelled, List.flatMap_nil, pieces]
  | cons p ps ih =>
    obtain ⟨first, others⟩ := h
    rw [spelled_cons, first.pieces_append, ih others]

/-! ## Every text begins with a span -/

theorem exists_append_of_scan (p : Char → Bool) (cs : List Char) :
    ∃ front back, cs = front ++ back ∧ (∀ c ∈ front, p c = true) ∧
      back.head?.all (!p ·) = true := by
  refine ⟨cs.takeWhile p, cs.dropWhile p, List.takeWhile_append_dropWhile.symm,
    fun c hc => List.mem_takeWhile_imp hc, ?_⟩
  cases stop : (cs.dropWhile p).head? with
  | none => rfl
  | some c =>
    have first := List.head?_dropWhile_not p cs
    rw [stop] at first
    simp [first]

theorem notMem_of_forall_ne {d : Char} {cs : List Char} (all : ∀ c ∈ cs, decide (c ≠ d) = true) :
    d ∉ cs :=
  fun inside => of_decide_eq_true (all d inside) rfl

theorem exists_comment (rest : List Char) :
    ∃ front back p, '-' :: rest = front ++ back ∧ p.chars = '-' :: front ∧ Span back p := by
  obtain ⟨front, back, rfl, all, stop⟩ := exists_append_of_scan (fun c => decide (c ≠ '\n')) rest
  have stop : back.head?.all (· = '\n') = true := by simpa using stop
  exact ⟨'-' :: front, back, _, rfl, rfl, .comment (notMem_of_forall_ne all) stop⟩

theorem exists_quoted (rest : List Char) :
    ∃ front back p, rest = front ++ back ∧ p.chars = '"' :: front ∧ Span back p := by
  obtain ⟨front, back, rfl, all, stop⟩ := exists_append_of_scan (fun c => decide (c ≠ '"')) rest
  have inside := notMem_of_forall_ne all
  cases back with
  | nil => exact ⟨front, [], _, rfl, rfl, .unclosed inside rfl⟩
  | cons c back =>
    obtain rfl : c = '"' := by simpa using stop
    refine ⟨front ++ ['"'], back, .verbatim (quoted front), ?_, rfl, .quoted inside⟩
    rw [List.append_assoc, List.singleton_append]

theorem eq_nil_of_isBitStringLetter {c : Char} {more : List Char}
    (letter : isBitStringLetter (c :: more) = true) : more = [] := by
  have listed : (c :: more).map Char.toLower ∈ [['b'], ['o'], ['x']] :=
    List.contains_iff_mem.1 letter
  have single : ∀ word ∈ [['b'], ['o'], ['x']], word.length = 1 := by decide
  have length := single _ listed
  rw [List.length_map, List.length_cons] at length
  exact List.eq_nil_of_length_eq_zero (by omega)

theorem exists_word {c : Char} (start : isWordStart c = true) (rest : List Char) :
    ∃ front back p, rest = front ++ back ∧ p.chars = c :: front ∧ Span back p := by
  obtain ⟨front, back, rfl, all, stop⟩ := exists_append_of_scan isWordChar rest
  by_cases base : isBitStringLetter (c :: front) = true ∧ back.head? = some '"'
  · obtain ⟨letter, quote⟩ := base
    obtain rfl := eq_nil_of_isBitStringLetter letter
    exact ⟨[], back, _, rfl, rfl, .base letter quote⟩
  · exact ⟨front, back, _, rfl, rfl, .word start all stop base⟩

theorem exists_span (c : Char) (rest : List Char) :
    ∃ front back p, rest = front ++ back ∧ p.chars = c :: front ∧ Span back p := by
  by_cases start : isWordStart c = true
  · exact exists_word start rest
  by_cases digit : c.isDigit = true
  · obtain ⟨front, back, rfl, all, stop⟩ := exists_append_of_scan isNumberChar rest
    exact ⟨front, back, _, rfl, rfl, .number digit all stop⟩
  by_cases quote : c = '"'
  · subst quote
    exact exists_quoted rest
  by_cases comment : c = '-' ∧ rest.head? = some '-'
  · obtain ⟨rfl, dash⟩ := comment
    obtain ⟨more, rfl⟩ := List.head?_eq_some_iff.1 dash
    exact exists_comment more
  by_cases literal : c = '\x27' ∧ rest[1]? = some '\x27'
  · obtain ⟨rfl, tick⟩ := literal
    match rest, tick with
    | d :: e :: more, tick =>
      obtain rfl : e = '\x27' := Option.some.inj tick
      exact ⟨[d, '\x27'], more, _, rfl, rfl, .literal d⟩
  · have outside : isWordChar c = false := by simp [isWordChar_eq, start, digit]
    exact ⟨[], rest, _, rfl, rfl, .mark outside quote (fun dash second => comment ⟨dash, second⟩)
      fun tick second => literal ⟨tick, second⟩⟩

theorem exists_cut (cs : List Char) : ∃ ps, spelled ps = cs ∧ Cut ps := by
  -- On the length, since the text behind the first span may begin anywhere.
  induction h : cs.length using Nat.strongRecOn generalizing cs with
  | ind n ih =>
    cases cs with
    | nil => exact ⟨[], rfl, trivial⟩
    | cons c rest =>
      obtain ⟨front, back, p, rfl, chars, span⟩ := exists_span c rest
      have shorter : back.length < n := by
        rw [← h, List.length_cons, List.length_append]
        omega
      obtain ⟨ps, rfl, cut⟩ := ih _ shorter back rfl
      exact ⟨p :: ps, by rw [spelled_cons, chars, List.cons_append], span, cut⟩

/-- The pieces of a text are the only row of spans that spells it. -/
theorem spelled_and_cut_iff {cs : List Char} {ps : List Piece} :
    spelled ps = cs ∧ Cut ps ↔ ps = pieces cs := by
  constructor
  · rintro ⟨rfl, cut⟩
    exact cut.pieces_spelled.symm
  · rintro rfl
    obtain ⟨ps, rfl, cut⟩ := exists_cut cs
    rw [cut.pieces_spelled]
    exact ⟨rfl, cut⟩

theorem pieceAt_le_length (c : Char) (rest : List Char) : (pieceAt c rest).2 ≤ rest.length := by
  obtain ⟨front, back, p, rfl, chars, span⟩ := exists_span c rest
  obtain ⟨d, more, replaceable, rfl, scan⟩ := span.pieceAt_eq
  rw [chars_pieceOf] at chars
  obtain ⟨rfl, rfl⟩ := List.cons.inj chars
  rw [scan, List.length_append]
  exact Nat.le_add_right _ _

/-! ## Words are maximal -/

/-- No span ends with a character of a word in front of another one. -/
theorem Span.getLast?_all {rest : List Char} {p : Piece} {d : Char} (h : Span rest p)
    (first : rest.head? = some d) (char : isWordChar d = true) :
    p.chars.getLast?.all (!isWordChar ·) = true := by
  have behind {q : Char → Bool} (stop : rest.head?.all (!q ·) = true) : q d = false := by
    rw [first] at stop
    simpa using stop
  cases h with
  | comment line stop =>
    rw [first] at stop
    obtain rfl : d = '\n' := by simpa using stop
    exact absurd char (by decide)
  | quoted inside =>
    rw [Piece.chars, Vhdl.quoted, ← List.cons_append, List.getLast?_append]
    rfl
  | unclosed inside stop =>
    subst stop
    cases first
  | literal c => rfl
  | number digit all stop =>
    have outside := behind stop
    rw [isNumberChar_of_isWordChar char] at outside
    cases outside
  | base letter quote =>
    obtain rfl : d = '"' := Option.some.inj (first.symm.trans quote)
    exact absurd char (by decide)
  | word start all stop noBase =>
    have outside := behind stop
    rw [char] at outside
    cases outside
  | mark outside quote dash tick => simp [Piece.chars, outside]

theorem Cut.append_right {before after : List Piece} (h : Cut (before ++ after)) : Cut after := by
  induction before with
  | nil => exact h
  | cons p before ih => exact ih h.2

theorem Cut.maximalWord {before after : List Piece} {w : List Char}
    (h : Cut (before ++ .word w :: after)) : MaximalWord (spelled before) w (spelled after) := by
  obtain ⟨span, -⟩ := h.append_right
  cases span with
  | @word c more start all stop noBase =>
    have char := isWordChar_of_isWordStart start
    refine ⟨start, List.forall_mem_cons.2 ⟨char, all⟩, ?_, stop⟩
    rcases List.eq_nil_or_concat' before with rfl | ⟨front, p, rfl⟩
    · rfl
    · rw [List.append_assoc] at h
      obtain ⟨last, -⟩ := h.append_right
      have left := last.getLast?_all (d := c) rfl char
      have shown : spelled (front ++ [p]) = spelled front ++ p.chars := by simp [spelled]
      rw [List.getLast?_eq_some_getLast last.chars_ne_nil] at left
      rw [shown, List.getLast?_append, List.getLast?_eq_some_getLast last.chars_ne_nil]
      exact left

def exchanged (word : String) : Option String := [("a", "b"), ("b", "a")].lookup word

/-- Two names change places, and a string and a comment keep them. -/
example : substitute exchanged "a <= b & \"a\"; -- b" = "b <= a & \"a\"; -- b" := by cbv

end BlockSchematic.Vhdl
