import BlockSchematic.Proofs.PortlessEntity

/-!
# Spellings of a declaration

A declaration is a row of words and marks. It may be spelled with blanks and comments before each of
them, where only two words that meet need something between them, and with its keywords in any
letter case. The reader drops the comments. What is left spells the same row with blanks alone.
-/

namespace BlockSchematic.Entity

open Text

/-- A word or a mark of a declaration. -/
inductive Lexeme where
  | keyword (letters : List Char) (lower : letters ≠ [] ∧ letters.all Char.isLower = true)
  | word (chars : List Char) (plain : PlainName chars)
  | mark (sign : Char) (visible : isBlank sign = false ∧ sign ≠ '-')
  | becomes

namespace Lexeme

def isWord : Lexeme → Bool
  | .keyword .. => true
  | .word .. => true
  | .mark .. => false
  | .becomes => false

/-- A keyword may be in any letter case, all else is spelled as it is. -/
def Spells : Lexeme → List Char → Prop
  | .keyword letters _, cs => cs.map Char.toLower = letters
  | .word chars _, cs => cs = chars
  | .mark sign _, cs => cs = [sign]
  | .becomes, cs => cs = [':', '=']

instance (l : Lexeme) (cs : List Char) : Decidable (l.Spells cs) :=
  match l with
  | .keyword letters _ => inferInstanceAs (Decidable (cs.map Char.toLower = letters))
  | .word chars _ => inferInstanceAs (Decidable (cs = chars))
  | .mark sign _ => inferInstanceAs (Decidable (cs = [sign]))
  | .becomes => inferInstanceAs (Decidable (cs = [':', '=']))

/-- The sign is one of a mark. -/
def holds (sign : Char) : Lexeme → Bool
  | .keyword .. => false
  | .word .. => false
  | .mark other _ => other == sign
  | .becomes => sign == ':' || sign == '='

end Lexeme

/-- Blanks, such as line breaks, and comments, each of which runs to a line break. -/
inductive Gap : List Char → Prop where
  | nil : Gap []
  | blank {c : Char} {rest : List Char} (isBlank : isBlank c = true) (more : Gap rest) :
      Gap (c :: rest)
  | comment {text rest : List Char} (line : '\n' ∉ text) (more : Gap rest) :
      Gap ('-' :: '-' :: (text ++ '\n' :: rest))

def Blanks (gap : List Char) : Prop := ∀ c ∈ gap, isBlank c = true

/-- The text spells the lexemes one after the other, each behind a gap. No word runs on into
another one. -/
inductive Spelled (G : List Char → Prop) : List Lexeme → List Char → Prop where
  | done {gap : List Char} (between : G gap) : Spelled G [] gap
  | lexeme (gap cs : List Char) {rest : List Char} {l : Lexeme} {ls : List Lexeme}
      (between : G gap) (spells : l.Spells cs)
      (apart : l.isWord = true → startsWithWord rest = false) (more : Spelled G ls rest) :
      Spelled G (l :: ls) (gap ++ (cs ++ rest))

/-! ## Single lexemes -/

theorem isIdentifierChar_of_letter {c : Char} (h : c.isUpper = true ∨ c.isLower = true) :
    Vhdl.isIdentifierChar c = true := by
  have letter : c.isAlpha = true := Bool.or_eq_true_iff.2 h
  rw [Vhdl.isIdentifierChar, Char.isAlphanum, letter]
  rfl

/-- Only capital letters have another character as their small letter. -/
theorem isUpper_or_toLower_eq (c : Char) : c.isUpper = true ∨ c.toLower = c := by
  by_cases capital : c.val ≥ 'A'.val ∧ c.val ≤ 'Z'.val
  · exact .inl (decide_eq_true capital)
  · exact .inr (dif_neg capital)

theorem isIdentifierChar_of_toLower {c : Char} (h : c.toLower.isLower = true) :
    Vhdl.isIdentifierChar c = true := by
  rcases isUpper_or_toLower_eq c with upper | same
  · exact isIdentifierChar_of_letter (.inl upper)
  · rw [same] at h
    exact isIdentifierChar_of_letter (.inr h)

variable {l : Lexeme} {cs : List Char}

theorem Lexeme.Spells.plainName (h : l.Spells cs) (word : l.isWord = true) : PlainName cs := by
  cases l with
  | keyword letters lower =>
    have spelled : cs.map Char.toLower = letters := h
    refine ⟨fun nothing => lower.1 (by rw [← spelled, nothing, List.map_nil]), fun c hc => ?_⟩
    have letter : c.toLower ∈ letters := spelled ▸ List.mem_map_of_mem hc
    exact isIdentifierChar_of_toLower (List.all_eq_true.1 lower.2 _ letter)
  | word chars plain =>
    have spelled : cs = chars := h
    rwa [spelled]
  | mark sign visible => cases word
  | becomes => cases word

theorem kept_singleton {c : Char} (visible : isBlank c = false ∧ c ≠ '-') : Kept [c] := by
  refine ⟨⟨⟨c, rfl, visible.1⟩, ⟨c, rfl, visible.1⟩⟩, ?_, ?_⟩
  · rw [List.mem_singleton]
    rintro rfl
    cases visible.1
  · rw [List.mem_singleton]
    exact Ne.symm visible.2

theorem Lexeme.Spells.kept (h : l.Spells cs) : Kept cs := by
  cases l with
  | keyword letters lower => exact kept_of_plainName (h.plainName rfl)
  | word chars plain => exact kept_of_plainName (h.plainName rfl)
  | mark sign visible =>
    obtain rfl := h
    exact kept_singleton visible
  | becomes =>
    obtain rfl := h
    decide

/-- A sign that is no letter stands only where a mark holds it. -/
theorem Lexeme.Spells.notMem (h : l.Spells cs) {c : Char}
    (sign : Vhdl.isIdentifierChar c = false) (lacks : l.holds c = false) : c ∉ cs := by
  cases l with
  | keyword letters lower => exact (h.plainName rfl).notMem sign
  | word chars plain => exact (h.plainName rfl).notMem sign
  | mark other visible =>
    obtain rfl := h
    rw [List.mem_singleton]
    exact Ne.symm (beq_eq_false_iff_ne.1 lacks)
  | becomes =>
    obtain rfl := h
    obtain ⟨colon, equal⟩ := Bool.or_eq_false_iff.1 lacks
    simp [beq_eq_false_iff_ne.1 colon, beq_eq_false_iff_ne.1 equal]

theorem startsWithWord_of_append {front rest : List Char}
    (h : startsWithWord (front ++ rest) = false) : startsWithWord front = false := by
  cases front with
  | nil => rfl
  | cons c more => exact h

theorem startsWithWord_append_of_ne_nil {front : List Char} (ne_nil : front ≠ [])
    (rest : List Char) : startsWithWord (front ++ rest) = startsWithWord front := by
  cases front with
  | nil => exact absurd rfl ne_nil
  | cons c more => rfl

theorem Blanks.startsWithWord_append {gap : List Char} (blank : Blanks gap) (ne_nil : gap ≠ [])
    (rest : List Char) : startsWithWord (gap ++ rest) = false :=
  Entity.startsWithWord_append blank fun _ => ne_nil

/-! ## Comments go, the lexemes stay -/

theorem withoutComments_eq (source : List Char) : withoutComments source =
    join [' '] (((splitOn '\n' source).map content).filter (!·.isEmpty)) := rfl

theorem Kept.content_eq (kept : Kept cs) : content cs = cs :=
  kept.content_append (List.forall_mem_nil _)

theorem Kept.filled (kept : Kept cs) : (!cs.isEmpty) = true := by
  rw [List.isEmpty_eq_false_iff.2 kept.solid.ne_nil]
  rfl

theorem Kept.withoutComments_eq (kept : Kept cs) : withoutComments cs = cs := by
  rw [Entity.withoutComments_eq, splitOn_of_notMem kept.oneLine, List.map_singleton,
    kept.content_eq, List.filter_cons, if_pos kept.filled, List.filter_nil, join_cons,
    List.flatMap_nil, List.append_nil]

theorem content_comment (text : List Char) : content ('-' :: '-' :: text) = [] := rfl

theorem Kept.content_append_comment (kept : Kept cs) (text : List Char) :
    content (cs ++ '-' :: '-' :: text) = cs := by
  have cut : upTo ['-', '-'] (cs ++ '-' :: '-' :: text) = cs ++ [] :=
    upTo_append_of_notMem ['-'] kept.noComment ('-' :: '-' :: text)
  rw [content, cut, List.append_nil]
  have whole := kept.solid.trimChars_eq (List.forall_mem_nil _) (List.forall_mem_nil _)
  rwa [List.nil_append, List.append_nil] at whole

/-- A line that shows nothing is dropped. -/
theorem withoutComments_of_content_eq_nil {line : List Char} (oneLine : '\n' ∉ line)
    (nothing : content line = []) (rest : List Char) :
    withoutComments (line ++ '\n' :: rest) = withoutComments rest := by
  rw [withoutComments_eq, splitOn_append oneLine, List.map_cons, nothing]
  rfl

/-- A line that shows a kept text stands in front of what the lines after it show. -/
theorem exists_withoutComments_of_content_eq {line : List Char} (oneLine : '\n' ∉ line)
    (kept : Kept cs) (shown : content line = cs) (rest : List Char) : ∃ gap, Blanks gap ∧
    (withoutComments rest ≠ [] → gap ≠ []) ∧
      withoutComments (line ++ '\n' :: rest) = cs ++ (gap ++ withoutComments rest) := by
  rw [withoutComments_eq (line ++ '\n' :: rest), splitOn_append oneLine, List.map_cons, shown,
    List.filter_cons, if_pos kept.filled, join_cons, withoutComments_eq rest]
  cases ((splitOn '\n' rest).map content).filter (!·.isEmpty) with
  | nil => exact ⟨[], List.forall_mem_nil _, fun some => absurd rfl some, rfl⟩
  | cons piece pieces =>
    refine ⟨[' '], isBlank_of_mem_space, fun _ => List.cons_ne_nil _ _, ?_⟩
    rw [join_cons, List.flatMap_cons]
    rfl

/-- The reader sees nothing of a gap at the start of a source. -/
theorem Gap.withoutComments_append {gap : List Char} (h : Gap gap) (rest : List Char) :
    withoutComments (gap ++ rest) = withoutComments rest := by
  induction h with
  | nil => rfl
  | @blank c more isBlank _ ih =>
    rw [← ih]
    by_cases newLine : c = '\n'
    · rw [newLine]
      exact withoutComments_of_content_eq_nil List.not_mem_nil rfl _
    · obtain ⟨piece, pieces, split⟩ := List.exists_cons_of_ne_nil (splitOn_ne_nil '\n' (more ++ rest))
      have oneLine : '\n' ∉ [c] := by
        rw [List.mem_singleton]
        exact Ne.symm newLine
      have noMark : '-' ∉ [c] := by
        rw [List.mem_singleton]
        rintro rfl
        cases isBlank
      have same : content ([c] ++ piece) = content piece := by
        rw [content, upTo_append_of_notMem ['-'] noMark, trimChars,
          trimStart_append (List.forall_mem_singleton.2 isBlank)]
        rfl
      have whole : c :: more ++ rest = [c] ++ (more ++ rest) := rfl
      rw [whole, withoutComments_eq, withoutComments_eq, splitOn_append_of_notMem oneLine split,
        split, List.map_cons, same, List.map_cons]
  | @comment text more line _ ih =>
    have oneLine : '\n' ∉ '-' :: '-' :: text := by
      simp [line]
    have dropped :=
      withoutComments_of_content_eq_nil oneLine (content_comment text) (more ++ rest)
    rw [← ih, ← dropped]
    simp only [List.cons_append, List.append_assoc]

/-- Behind a kept text a gap becomes blanks, and it does not vanish where something follows. -/
theorem Gap.exists_withoutComments_append {gap : List Char} (h : Gap gap) (ne_nil : gap ≠ [])
    (kept : Kept cs) (rest : List Char) : ∃ blanks, Blanks blanks ∧
    (withoutComments rest ≠ [] → blanks ≠ []) ∧
      withoutComments (cs ++ (gap ++ rest)) = cs ++ (blanks ++ withoutComments rest) := by
  cases h with
  | nil => exact absurd rfl ne_nil
  | @blank c more isBlank gap =>
    rw [← gap.withoutComments_append]
    by_cases newLine : c = '\n'
    · rw [newLine]
      exact exists_withoutComments_of_content_eq kept.oneLine kept kept.content_eq (more ++ rest)
    · exact Entity.exists_withoutComments_append isBlank newLine kept (more ++ rest)
  | @comment text more line gap =>
    rw [← gap.withoutComments_append]
    have oneLine : '\n' ∉ cs ++ '-' :: '-' :: text := by
      simp [kept.oneLine, line]
    have shown := exists_withoutComments_of_content_eq oneLine kept
      (kept.content_append_comment text) (more ++ rest)
    simpa only [List.cons_append, List.append_assoc] using shown

theorem kept_append {ds : List Char} (hc : Kept cs) (hd : Kept ds) : Kept (cs ++ ds) := by
  have whole := hc.append hd (fun _ _ => List.not_mem_nil)
  rwa [List.append_nil] at whole

/-- Behind a kept text the reader sees the lexemes of a spelling, with blanks between them. -/
theorem Spelled.exists_withoutComments {ls : List Lexeme} {rest : List Char}
    (h : Spelled Gap ls rest) {front : List Char} (kept : Kept front) : ∃ shown,
    withoutComments (front ++ rest) = front ++ shown ∧
      (startsWithWord rest = false → startsWithWord shown = false) ∧ Spelled Blanks ls shown := by
  induction h generalizing front with
  | @done gap between =>
    by_cases nothing : gap = []
    · refine ⟨[], ?_, fun _ => rfl, .done (List.forall_mem_nil _)⟩
      rw [nothing, List.append_nil, kept.withoutComments_eq]
    · obtain ⟨blanks, blank, -, shown⟩ :=
        between.exists_withoutComments_append nothing kept []
      have none : withoutComments [] = [] := rfl
      rw [none, List.append_nil, List.append_nil] at shown
      refine ⟨blanks, shown, fun _ => ?_, .done blank⟩
      have nothing : ([] : List Char) ≠ [] → blanks ≠ [] := fun some => absurd rfl some
      have ends := startsWithWord_append blank nothing
      rwa [List.append_nil] at ends
  | @lexeme gap cs rest l ls between spells apart _ ih =>
    have ne_nil : cs ≠ [] := spells.kept.solid.ne_nil
    by_cases nothing : gap = []
    · -- Lexemes that touch are read as one kept text.
      obtain ⟨shown, whole, starts, spelled⟩ := ih (kept_append kept spells.kept)
      refine ⟨[] ++ (cs ++ shown), ?_, fun h => ?_,
        .lexeme [] _ (List.forall_mem_nil _) spells (fun word => starts (apart word)) spelled⟩
      · rw [nothing, List.nil_append, List.nil_append, ← List.append_assoc, whole,
          List.append_assoc]
      · rw [nothing, List.nil_append, startsWithWord_append_of_ne_nil ne_nil] at h
        rwa [List.nil_append, startsWithWord_append_of_ne_nil ne_nil]
    · obtain ⟨shown, whole, starts, spelled⟩ := ih spells.kept
      obtain ⟨blanks, blank, some, all⟩ :=
        between.exists_withoutComments_append nothing kept (cs ++ rest)
      rw [whole] at all some
      have gapLeft := some (List.append_ne_nil_of_left_ne_nil ne_nil shown)
      exact ⟨blanks ++ (cs ++ shown), all, fun _ => blank.startsWithWord_append gapLeft _,
        .lexeme _ _ blank spells (fun word => starts (apart word)) spelled⟩

/-! ## Taking a spelling apart -/

namespace Spelled

variable {ls ms : List Lexeme} {text : List Char}

/-- What stands before a lexeme and what stands behind it are spellings. -/
theorem exists_append (h : Spelled Blanks (ls ++ l :: ms) text) : ∃ before cs after,
    text = before ++ (cs ++ after) ∧ Spelled Blanks ls before ∧ l.Spells cs ∧
      (l.isWord = true → startsWithWord after = false) ∧ Spelled Blanks ms after := by
  induction ls generalizing text with
  | nil =>
    cases h with
    | lexeme gap cs between spells apart more =>
      exact ⟨_, _, _, rfl, .done between, spells, apart, more⟩
  | cons first others ih =>
    cases h with
    | lexeme gap chars between spells apart more =>
      obtain ⟨before, cs, after, rfl, spelled, here, ends, later⟩ := ih more
      refine ⟨gap ++ (chars ++ before), cs, after, by simp only [List.append_assoc],
        .lexeme _ _ between spells (fun word => startsWithWord_of_append (apart word)) spelled, here,
        ends, later⟩

theorem exists_append_mark {sign : Char} {visible : isBlank sign = false ∧ sign ≠ '-'}
    (h : Spelled Blanks (ls ++ .mark sign visible :: ms) text) : ∃ before after,
    text = before ++ sign :: after ∧ Spelled Blanks ls before ∧ Spelled Blanks ms after := by
  obtain ⟨before, cs, after, rfl, front, spells, -, back⟩ := h.exists_append
  obtain rfl := spells
  exact ⟨before, after, rfl, front, back⟩

theorem exists_mark {sign : Char} {visible : isBlank sign = false ∧ sign ≠ '-'}
    (h : Spelled Blanks (.mark sign visible :: ls) text) : ∃ gap after,
    text = gap ++ sign :: after ∧ Blanks gap ∧ Spelled Blanks ls after := by
  cases h with
  | lexeme gap cs between spells apart more =>
    obtain rfl := spells
    exact ⟨_, _, rfl, between, more⟩

theorem notMem (h : Spelled Blanks ls text) {c : Char} (sign : Vhdl.isIdentifierChar c = false)
    (visible : isBlank c = false) (lacks : ∀ l ∈ ls, l.holds c = false) : c ∉ text := by
  have noBlank : ∀ {gap}, Blanks gap → c ∉ gap := by
    intro gap blank member
    rw [blank c member] at visible
    cases visible
  induction h with
  | done between => exact noBlank between
  | lexeme gap cs between spells _ _ ih =>
    obtain ⟨here, later⟩ := List.forall_mem_cons.1 lacks
    rw [List.mem_append, List.mem_append, not_or, not_or]
    exact ⟨noBlank between, spells.notMem sign here, ih later⟩

/-- Trimming the start comes to the first lexeme. -/
theorem exists_trimStart (h : Spelled Blanks (l :: ls) text) : ∃ cs rest,
    trimStart text = cs ++ rest ∧ l.Spells cs ∧
      (l.isWord = true → startsWithWord rest = false) ∧ Spelled Blanks ls rest := by
  cases h with
  | @lexeme gap cs rest _ _ between spells apart more =>
    exact ⟨cs, rest, by rw [trimStart_append between, spells.kept.solid.trimStart_eq], spells,
      apart, more⟩

theorem trimStart (h : Spelled Blanks (l :: ls) text) :
    Spelled Blanks (l :: ls) (trimStart text) := by
  obtain ⟨cs, rest, split, spells, apart, more⟩ := h.exists_trimStart
  have whole : Spelled Blanks (l :: ls) ([] ++ (cs ++ rest)) :=
    .lexeme [] _ (List.forall_mem_nil _) spells apart more
  rw [split]
  exact whole

/-- A word that is no part of the word before it stands behind a blank. -/
theorem exists_blank (h : Spelled Blanks (l :: ls) text) (word : l.isWord = true)
    (ends : startsWithWord text = false) : ∃ c more, text = c :: more ∧ isBlank c = true := by
  cases h with
  | @lexeme gap cs rest _ _ between spells _ _ =>
    cases gap with
    | nil =>
      obtain ⟨ne_nil, chars⟩ := spells.plainName word
      obtain ⟨c, others, rfl⟩ := List.exists_cons_of_ne_nil ne_nil
      have starts : isWord c = true := isWord_of_isIdentifierChar (chars c List.mem_cons_self)
      have first : startsWithWord ([] ++ (c :: others ++ rest)) = isWord c := rfl
      rw [first, starts] at ends
      cases ends
    | cons c more => exact ⟨c, _, rfl, between c List.mem_cons_self⟩

theorem exists_afterBlanks? (h : Spelled Blanks (l :: ls) text) (word : l.isWord = true)
    (ends : startsWithWord text = false) : ∃ cs rest,
    afterBlanks? text = some (cs ++ rest) ∧ l.Spells cs ∧
      startsWithWord rest = false ∧ Spelled Blanks ls rest := by
  obtain ⟨cs, rest, split, spells, apart, more⟩ := h.exists_trimStart
  obtain ⟨c, others, rfl, blank⟩ := h.exists_blank word ends
  refine ⟨cs, rest, ?_, spells, apart word, more⟩
  rw [Text.trimStart, List.dropWhile_cons_of_pos blank] at split
  rw [afterBlanks?, if_pos blank, Text.trimStart, split]

theorem ne_nil (h : Spelled Blanks (l :: ls) text) : text ≠ [] := by
  cases h with
  | lexeme gap cs between spells apart more =>
    refine List.append_ne_nil_of_right_ne_nil _ (List.append_ne_nil_of_left_ne_nil ?_ _)
    exact spells.kept.solid.ne_nil

/-- Blanks behind the last lexeme can be left out. -/
theorem exists_append_blanks (h : Spelled Blanks (l :: ls) text) : ∃ front after,
    text = front ++ after ∧ Blanks after ∧
      (∃ c, front.getLast? = some c ∧ isBlank c = false) ∧ Spelled Blanks (l :: ls) front := by
  induction ls generalizing l text with
  | nil =>
    cases h with
    | @lexeme gap cs rest _ _ between spells apart more =>
      cases more with
      | done after =>
        refine ⟨gap ++ (cs ++ []), rest, by simp, after, ?_,
          .lexeme _ _ between spells (fun _ => rfl) (.done (List.forall_mem_nil _))⟩
        obtain ⟨c, last, solid⟩ := spells.kept.solid.last
        exact ⟨c, by rw [List.append_nil, List.getLast?_append, last, Option.some_or], solid⟩
  | cons next others ih =>
    cases h with
    | @lexeme gap cs rest _ _ between spells apart more =>
      obtain ⟨front, after, rfl, blank, ⟨c, last, solid⟩, spelled⟩ := ih more
      refine ⟨gap ++ (cs ++ front), after, by simp only [List.append_assoc], blank,
        ⟨c, ?_, solid⟩, .lexeme _ _ between spells
          (fun word => startsWithWord_of_append (apart word)) spelled⟩
      rw [List.getLast?_append, List.getLast?_append, last, Option.some_or, Option.some_or]

theorem trimChars (h : Spelled Blanks (l :: ls) text) :
    Spelled Blanks (l :: ls) (trimChars text) := by
  obtain ⟨front, after, split, blank, last, spelled⟩ := h.trimStart.exists_append_blanks
  rwa [Text.trimChars, split, trimEnd_append last blank]

end Spelled

/-! ## Checking a layout -/

/-- Tells whether a text is a gap. The flag says that the text begins within a comment. -/
def isGap : Bool → List Char → Bool
  | within, [] => !within
  | true, c :: rest => isGap (c != '\n') rest
  | false, '-' :: '-' :: rest => isGap true rest
  | false, c :: rest => isBlank c && isGap false rest

/-- What begins within a comment goes on with a gap behind the end of the line. -/
theorem gap_of_isGap {within : Bool} (h : isGap within cs = true) :
    if within then ∃ text rest, '\n' ∉ text ∧ cs = text ++ '\n' :: rest ∧ Gap rest
    else Gap cs := by
  fun_induction isGap within cs with
  | case1 within =>
    cases within with
    | true => cases h
    | false => exact .nil
  | case2 c rest ih =>
    by_cases newLine : c = '\n'
    · subst newLine
      exact ⟨[], rest, List.not_mem_nil, rfl, ih h⟩
    · have inside : (c != '\n') = true := bne_iff_ne.2 newLine
      rw [inside] at ih h
      obtain ⟨text, more, line, rfl, gap⟩ := ih h
      refine ⟨c :: text, more, ?_, rfl, gap⟩
      rw [List.mem_cons, not_or]
      exact ⟨Ne.symm newLine, line⟩
  | case3 rest ih =>
    obtain ⟨text, more, line, rfl, gap⟩ := ih h
    exact .comment line gap
  | case4 c rest _ ih =>
    obtain ⟨blank, more⟩ := Bool.and_eq_true_iff.1 h
    exact .blank blank (ih more)

/-- A gap and a lexeme behind it, and so on. -/
def laidOut : List (String × String) → List Char
  | [] => []
  | (gap, cs) :: more => gap.toList ++ (cs.toList ++ laidOut more)

def layoutFits : List Lexeme → List (String × String) → Bool
  | [], [] => true
  | l :: ls, (gap, cs) :: more =>
    isGap false gap.toList && decide (l.Spells cs.toList) &&
      !(l.isWord && startsWithWord (laidOut more)) && layoutFits ls more
  | _, _ => false

theorem spelled_of_layoutFits {ls : List Lexeme} {layout : List (String × String)}
    (h : layoutFits ls layout = true) : Spelled Gap ls (laidOut layout) := by
  fun_induction layoutFits ls layout with
  | case1 => exact .done .nil
  | case2 l ls gap cs more ih =>
    simp only [Bool.and_eq_true, decide_eq_true_eq, Bool.not_eq_true', Bool.and_eq_false_iff]
      at h
    obtain ⟨⟨⟨between, spells⟩, apart⟩, later⟩ := h
    refine .lexeme _ _ (gap_of_isGap between) spells (fun word => ?_) (ih later)
    exact apart.resolve_left (by rw [word]; decide)
  | case3 => cases h

end BlockSchematic.Entity
