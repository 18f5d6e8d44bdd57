import BlockSchematic.Sexpr.Token
import Mathlib.Data.List.Basic

/-!
# Cutting a text into tokens

Where a token starts has no say in what it is, so the tokens of a text are told apart from its
offsets. An atom runs up to a delimiter; it is cut out whole where nothing inside it ends it and
where what follows does.
-/

namespace BlockSchematic.Sexpr

/-- A text that can stand as an atom without quotes. -/
structure IsBare (cs : List Char) : Prop where
  ne_nil : cs ≠ []
  plain : ∀ c ∈ cs, Text.isBlank c = false ∧ c ≠ '(' ∧ c ≠ ')' ∧ c ≠ '"'
  noComment : ¬ ['/', '/'] <:+: cs

/-- What the text of an atom may be. -/
def Token.Spelled : Token → Prop
  | .atom s => IsBare s.toList
  | .quoted s => '"' ∉ s.toList
  | .opening => True
  | .closing => True
  | .dangling => True

/-- What follows an atom and ends it. -/
def EndsAtom (cs : List Char) : Prop := ∀ c ∈ cs.head?, isDelimiter c = true

theorem isDelimiter_eq_false_iff {c : Char} :
    isDelimiter c = false ↔ Text.isBlank c = false ∧ c ≠ '(' ∧ c ≠ ')' ∧ c ≠ '"' := by
  simp [isDelimiter, and_assoc]

/-- A text without delimiters and slashes. -/
def isWord (cs : List Char) : Bool := !cs.isEmpty && cs.all fun c => !isDelimiter c && c != '/'

theorem isBare_of_isWord {cs : List Char} (h : isWord cs = true) : IsBare cs := by
  rw [isWord, Bool.and_eq_true, Bool.not_eq_true', List.isEmpty_eq_false_iff,
    List.all_eq_true] at h
  obtain ⟨ne_nil, goesOn⟩ := h
  refine ⟨ne_nil, fun c hc => ?_, fun comment => ?_⟩
  · have plain : (!isDelimiter c && c != '/') = true := goesOn c hc
    rw [Bool.and_eq_true, Bool.not_eq_true'] at plain
    exact isDelimiter_eq_false_iff.1 plain.1
  · have slash : '/' ∈ cs := comment.subset List.mem_cons_self
    exact absurd (goesOn '/' slash) (by decide)

theorem spanAtom_append_eq (cs : List Char) : (spanAtom cs).1 ++ (spanAtom cs).2 = cs := by
  induction cs with
  | nil => rfl
  | cons c rest ih =>
    rw [spanAtom]
    split
    · rfl
    · exact congrArg (c :: ·) ih

/-- An atom that was cut out holds nothing that ends an atom. -/
theorem not_isDelimiter_of_mem_spanAtom {cs : List Char} {c : Char} (h : c ∈ (spanAtom cs).1) :
    isDelimiter c = false := by
  induction cs with
  | nil => cases h
  | cons d rest ih =>
    rw [spanAtom] at h
    split at h
    · cases h
    · rename_i goesOn
      rcases List.mem_cons.1 h with rfl | later
      · cases delimiter : isDelimiter c
        · rfl
        · exact absurd (by simp [delimiter]) goesOn
      · exact ih later

theorem noComment_spanAtom (cs : List Char) : ¬ ['/', '/'] <:+: (spanAtom cs).1 := by
  induction cs with
  | nil => simp [spanAtom]
  | cons c rest ih =>
    rw [spanAtom]
    split
    · simp
    · rename_i goesOn
      rw [List.infix_cons_iff, not_or]
      refine ⟨?_, ih⟩
      intro starts
      obtain ⟨rfl, next⟩ := List.cons_prefix_cons.1 starts
      have whole := spanAtom_append_eq rest
      obtain ⟨tail, htail⟩ := next
      rw [← htail] at whole
      exact goesOn (by rw [← whole]; simp)

theorem spanAtom_append {run rest : List Char} (plain : ∀ c ∈ run, isDelimiter c = false)
    (noComment : ¬ ['/', '/'] <:+: run) (ends : EndsAtom rest) :
    spanAtom (run ++ rest) = (run, rest) := by
  induction run with
  | nil =>
    cases rest with
    | nil => rfl
    | cons c rest =>
      have delimiter : isDelimiter c = true := ends c rfl
      rw [List.nil_append, spanAtom, delimiter]
      rfl
  | cons c run ih =>
    rw [List.infix_cons_iff, not_or] at noComment
    have here := plain c List.mem_cons_self
    have later := ih (fun d hd => plain d (List.mem_cons_of_mem _ hd)) noComment.2
    have goesOn : ¬ (c = '/' ∧ (run ++ rest).head? = some '/') := by
      rintro ⟨rfl, next⟩
      cases run with
      | nil =>
        have delimiter : isDelimiter '/' = true := ends '/' next
        exact absurd delimiter (by decide)
      | cons d run =>
        obtain rfl : d = '/' := Option.some.inj next
        exact noComment.1 ⟨run, rfl⟩
    rw [List.cons_append, spanAtom, if_neg (by simpa [here] using goesOn), later]

theorem spanQuoted?_append {span : List Char} (closed : '"' ∉ span) (rest : List Char) :
    spanQuoted? (span ++ '"' :: rest) = some (span, rest) := by
  induction span with
  | nil => rfl
  | cons c span ih =>
    rw [List.mem_cons, not_or] at closed
    have later := ih closed.2
    rw [spanQuoted?] at later ⊢
    rw [List.cons_append, Text.splitFirst?, if_neg (Ne.symm closed.1), later]
    rfl

theorem notMem_of_spanQuoted? {cs span after : List Char}
    (h : spanQuoted? cs = some (span, after)) : '"' ∉ span := by
  induction cs generalizing span after with
  | nil => cases h
  | cons c rest ih =>
    rw [spanQuoted?, Text.splitFirst?] at h
    split at h
    · obtain ⟨rfl, -⟩ := Prod.mk.inj (Option.some.inj h)
      exact List.not_mem_nil
    · rename_i other
      obtain ⟨⟨before, tail⟩, found, same⟩ := Option.map_eq_some_iff.1 h
      obtain ⟨rfl, -⟩ := Prod.mk.inj same
      rw [List.mem_cons, not_or]
      exact ⟨Ne.symm other, ih found⟩

theorem spanLine_append {line : List Char} (oneLine : '\n' ∉ line) (rest : List Char) :
    spanLine (line ++ '\n' :: rest) = (line ++ ['\n'], rest) := by
  induction line with
  | nil => rfl
  | cons c line ih =>
    rw [List.mem_cons, not_or] at oneLine
    rw [List.cons_append, spanLine, if_neg (Ne.symm oneLine.1), ih oneLine.2]
    rfl

section Scan

variable {start : Nat} {c : Char} {rest : List Char}

theorem scan_blank (blank : Text.isBlank c = true) :
    scan start (c :: rest) = scan (start + c.utf8Size) rest := by
  rw [scan, if_pos blank]

theorem scan_opening :
    scan start ('(' :: rest) = ⟨start, .opening⟩ :: scan (start + '('.utf8Size) rest := by
  rw [scan, if_neg (by decide), if_pos rfl]

theorem scan_closing :
    scan start (')' :: rest) = ⟨start, .closing⟩ :: scan (start + ')'.utf8Size) rest := by
  rw [scan, if_neg (by decide), if_neg (by decide), if_pos rfl]

theorem scan_dangling (unclosed : spanQuoted? rest = none) :
    scan start ('"' :: rest) = [⟨start, .dangling⟩] := by
  rw [scan, if_neg (by decide), if_neg (by decide), if_neg (by decide), if_pos rfl]
  split
  · rfl
  · rename_i closed
    rw [unclosed] at closed
    cases closed

theorem scan_quoted {span after : List Char} (closed : spanQuoted? rest = some (span, after)) :
    scan start ('"' :: rest) = ⟨start, .quoted (String.ofList span)⟩ ::
      scan (start + '"'.utf8Size + Text.utf8Size span + 1) after := by
  rw [scan, if_neg (by decide), if_neg (by decide), if_neg (by decide), if_pos rfl]
  split
  · rename_i unclosed
    rw [unclosed] at closed
    cases closed
  · rename_i other
    rw [closed] at other
    obtain ⟨rfl, rfl⟩ := Prod.mk.inj (Option.some.inj other)
    rfl

theorem scan_comment (slash : rest.head? = some '/') :
    scan start ('/' :: rest) =
      scan (start + '/'.utf8Size + Text.utf8Size (spanLine rest).1) (spanLine rest).2 := by
  rw [scan, if_neg (by decide), if_neg (by decide), if_neg (by decide), if_neg (by decide),
    if_pos (by simpa using slash)]

theorem scan_atom (plain : isDelimiter c = false)
    (noComment : ¬ (c = '/' ∧ rest.head? = some '/')) :
    scan start (c :: rest) = ⟨start, .atom (String.ofList (c :: (spanAtom rest).1))⟩ ::
      scan (start + c.utf8Size + Text.utf8Size (spanAtom rest).1) (spanAtom rest).2 := by
  obtain ⟨notBlank, notOpening, notClosing, notQuote⟩ := isDelimiter_eq_false_iff.1 plain
  rw [scan, if_neg (by simp [notBlank]), if_neg notOpening, if_neg notClosing, if_neg notQuote,
    if_neg (by simpa using noComment)]

end Scan

/-- What is true of the empty text and carries over each thing that a text can begin with is true
of every text. The cases are those that scanning tells apart. -/
@[elab_as_elim]
theorem text_induction {P : List Char → Prop} (nil : P [])
    (blank : ∀ c rest, Text.isBlank c = true → P rest → P (c :: rest))
    (opening : ∀ rest, P rest → P ('(' :: rest))
    (closing : ∀ rest, P rest → P (')' :: rest))
    (dangling : ∀ rest, spanQuoted? rest = none → P ('"' :: rest))
    (quoted : ∀ rest span after, spanQuoted? rest = some (span, after) → P after →
      P ('"' :: rest))
    (comment : ∀ rest, rest.head? = some '/' → P (spanLine rest).2 → P ('/' :: rest))
    (atom : ∀ c rest, isDelimiter c = false → ¬ (c = '/' ∧ rest.head? = some '/') →
      P (spanAtom rest).2 → P (c :: rest))
    (cs : List Char) : P cs := by
  induction length : cs.length using Nat.strongRecOn generalizing cs with
  | ind size ih =>
    subst length
    cases cs with
    | nil => exact nil
    | cons c rest =>
      have shorter : ∀ after : List Char, after.length ≤ rest.length → P after := fun after h =>
        ih _ (Nat.lt_succ_of_le h) after rfl
      by_cases isBlank : Text.isBlank c = true
      · exact blank c rest isBlank (shorter rest (Nat.le_refl _))
      by_cases isOpening : c = '('
      · exact isOpening ▸ opening rest (shorter rest (Nat.le_refl _))
      by_cases isClosing : c = ')'
      · exact isClosing ▸ closing rest (shorter rest (Nat.le_refl _))
      by_cases isQuote : c = '"'
      · subst isQuote
        cases found : spanQuoted? rest with
        | none => exact dangling rest found
        | some halves =>
          exact quoted rest _ _ found (shorter _ (Nat.le_of_lt (length_spanQuoted?_lt found)))
      by_cases isComment : c = '/' ∧ rest.head? = some '/'
      · obtain ⟨rfl, slash⟩ := isComment
        exact comment rest slash (shorter _ (length_spanLine_le rest))
      have plain : isDelimiter c = false :=
        isDelimiter_eq_false_iff.2 ⟨by simpa using isBlank, isOpening, isClosing, isQuote⟩
      exact atom c rest plain isComment (shorter _ (length_spanAtom_le rest))

/-- Where a text starts has no say in what its tokens are. -/
theorem map_token_scan (m n : Nat) (cs : List Char) :
    (scan m cs).map (·.token) = (scan n cs).map (·.token) := by
  induction cs using text_induction generalizing m n with
  | nil => simp only [scan]
  | blank c rest blank ih =>
    rw [scan_blank blank, scan_blank blank]
    exact ih _ _
  | opening rest ih =>
    rw [scan_opening, scan_opening]
    exact congrArg (List.cons _) (ih _ _)
  | closing rest ih =>
    rw [scan_closing, scan_closing]
    exact congrArg (List.cons _) (ih _ _)
  | dangling rest unclosed =>
    rw [scan_dangling unclosed, scan_dangling unclosed]
    rfl
  | quoted rest span after closed ih =>
    rw [scan_quoted closed, scan_quoted closed]
    exact congrArg (List.cons _) (ih _ _)
  | comment rest slash ih =>
    rw [scan_comment slash, scan_comment slash]
    exact ih _ _
  | atom c rest plain noComment ih =>
    rw [scan_atom plain noComment, scan_atom plain noComment]
    exact congrArg (List.cons _) (ih _ _)

/-- The tokens of a text without their places. -/
def tokenize (cs : List Char) : List Token := (scan 0 cs).map (·.token)

theorem map_token_lexemes (text : String) :
    (lexemes text).map (·.token) = tokenize text.toList := rfl

section Tokenize

variable {c : Char} {rest : List Char}

@[simp] theorem tokenize_nil : tokenize [] = [] := by
  simp [tokenize, scan]

theorem tokenize_blank (blank : Text.isBlank c = true) : tokenize (c :: rest) = tokenize rest := by
  rw [tokenize, scan_blank blank]
  exact map_token_scan _ _ _

@[simp] theorem tokenize_opening : tokenize ('(' :: rest) = .opening :: tokenize rest := by
  rw [tokenize, scan_opening]
  exact congrArg (List.cons _) (map_token_scan _ _ _)

@[simp] theorem tokenize_closing : tokenize (')' :: rest) = .closing :: tokenize rest := by
  rw [tokenize, scan_closing]
  exact congrArg (List.cons _) (map_token_scan _ _ _)

theorem tokenize_quoted {span : List Char} (closed : '"' ∉ span) :
    tokenize ('"' :: (span ++ '"' :: rest)) = .quoted (String.ofList span) :: tokenize rest := by
  rw [tokenize, scan_quoted (spanQuoted?_append closed rest)]
  exact congrArg (List.cons _) (map_token_scan _ _ _)

/-- A comment is dropped with the line that it is on. -/
theorem tokenize_comment {line : List Char} (oneLine : '\n' ∉ line) :
    tokenize ('/' :: '/' :: (line ++ '\n' :: rest)) = tokenize rest := by
  have cut : spanLine ('/' :: (line ++ '\n' :: rest)) = ('/' :: (line ++ ['\n']), rest) := by
    rw [spanLine, if_neg (by decide), spanLine_append oneLine]
  rw [tokenize, scan_comment rfl, cut]
  exact map_token_scan _ _ _

/-- A bare text is cut out whole where what follows ends it. -/
theorem tokenize_atom {run : List Char} (bare : IsBare run) (ends : EndsAtom rest) :
    tokenize (run ++ rest) = .atom (String.ofList run) :: tokenize rest := by
  cases run with
  | nil => exact absurd rfl bare.ne_nil
  | cons c run =>
    have plain : ∀ d ∈ c :: run, isDelimiter d = false := fun d hd =>
      isDelimiter_eq_false_iff.2 (bare.plain d hd)
    have whole := spanAtom_append plain bare.noComment ends
    rw [List.cons_append, spanAtom] at whole
    split at whole
    · cases whole
    · rename_i goesOn
      have noComment : ¬ (c = '/' ∧ (run ++ rest).head? = some '/') := by
        simpa [plain c List.mem_cons_self] using goesOn
      have later : spanAtom (run ++ rest) = (run, rest) := by
        obtain ⟨same, after⟩ := Prod.mk.inj whole
        exact Prod.ext (List.cons.inj same).2 after
      rw [List.cons_append, tokenize, scan_atom (plain c List.mem_cons_self) noComment, later]
      exact congrArg (List.cons _) (map_token_scan _ _ _)

end Tokenize

/-- Every token that is cut out of a text is spelled as a token of its kind is. -/
theorem spelled_of_mem_scan {start : Nat} {cs : List Char} {l : Lexeme} (h : l ∈ scan start cs) :
    l.token.Spelled := by
  induction cs using text_induction generalizing start with
  | nil => simp [scan] at h
  | blank c rest blank ih => exact ih (scan_blank blank ▸ h)
  | opening rest ih =>
    rw [scan_opening] at h
    rcases List.mem_cons.1 h with rfl | later
    · trivial
    · exact ih later
  | closing rest ih =>
    rw [scan_closing] at h
    rcases List.mem_cons.1 h with rfl | later
    · trivial
    · exact ih later
  | dangling rest unclosed =>
    rw [scan_dangling unclosed] at h
    obtain rfl := List.mem_singleton.1 h
    trivial
  | quoted rest span after closed ih =>
    rw [scan_quoted closed] at h
    rcases List.mem_cons.1 h with rfl | later
    · rw [Token.Spelled, String.toList_ofList]
      exact notMem_of_spanQuoted? closed
    · exact ih later
  | comment rest slash ih => exact ih (scan_comment slash ▸ h)
  | atom c rest plain noComment ih =>
    rw [scan_atom plain noComment] at h
    rcases List.mem_cons.1 h with rfl | later
    · have whole : (spanAtom (c :: rest)).1 = c :: (spanAtom rest).1 := by
        rw [spanAtom, if_neg (by simpa [plain] using noComment)]
      rw [Token.Spelled, String.toList_ofList, ← whole]
      refine ⟨by simp [whole], fun d hd => ?_, noComment_spanAtom _⟩
      exact isDelimiter_eq_false_iff.1 (not_isDelimiter_of_mem_spanAtom hd)
    · exact ih later

end BlockSchematic.Sexpr
