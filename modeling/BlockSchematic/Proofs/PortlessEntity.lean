import BlockSchematic.Proofs.EntityReading

/-!
# An entity without a port clause

The search for the port clause runs through all that follows the head. The end of the entity does
not stop it, so an entity without ports of its own is given those of the first port clause after
it, be it that of a component or of another entity.
-/

namespace BlockSchematic

namespace Text

/-- The code points of the blanks. -/
def blankCodes : List Nat :=
  [9, 10, 11, 12, 13, 0x20, 0x85, 0xA0, 0x1680, 0x2000, 0x2001, 0x2002, 0x2003, 0x2004, 0x2005,
    0x2006, 0x2007, 0x2008, 0x2009, 0x200A, 0x2028, 0x2029, 0x202F, 0x205F, 0x3000]

theorem toNat_mem_blankCodes {c : Char} (h : isBlank c = true) : c.toNat ∈ blankCodes := by
  simp only [isBlank, Bool.or_eq_true, Bool.and_eq_true, decide_eq_true_eq, beq_iff_eq] at h
  simp only [blankCodes, List.mem_cons, List.not_mem_nil, or_false]
  omega

theorem isWord_of_isBlank {c : Char} (h : isBlank c = true) : isWord c = false := by
  rw [isWord]
  split
  · rw [Bool.eq_false_iff]
    intro word
    rw [isBlank_of_isIdentifierChar (c := c) word] at h
    cases h
  · have noWord : ∀ n ∈ blankCodes, inRanges wideWordRanges n = false := by decide +kernel
    exact noWord _ (toNat_mem_blankCodes h)

end Text

namespace Entity

open Text

variable {name head : List Char}

section AfterBlank

variable {space : Char} (blankSpace : isBlank space = true)

include blankSpace

/-- What a line shows after a kept text and a blank is shown behind it. -/
theorem exists_content_append (kept : Kept head) (piece : List Char) : ∃ gap,
    (∀ c ∈ gap, isBlank c = true) ∧ (content piece ≠ [] → gap ≠ []) ∧
      content (head ++ space :: piece) = head ++ (gap ++ content piece) := by
  have plain : '-' ∉ head ++ [space] := by
    rw [List.mem_append, not_or, List.mem_singleton]
    refine ⟨kept.noComment, ?_⟩
    rintro rfl
    cases blankSpace
  have cut : content (head ++ space :: piece) =
      trimChars (head ++ space :: upTo ['-', '-'] piece) := by
    have whole := upTo_append_of_notMem ['-'] plain piece
    rw [List.append_assoc, List.append_assoc] at whole
    exact congrArg trimChars whole
  rw [cut, content]
  generalize upTo ['-', '-'] piece = shown
  obtain ⟨before, after, blank, blankAfter, split⟩ := exists_append_trimChars shown
  have noMargin : ∀ c ∈ [], isBlank c = true := List.forall_mem_nil _
  have spaced : ∀ c ∈ space :: before, isBlank c = true :=
    List.forall_mem_cons.2 ⟨blankSpace, blank⟩
  by_cases nothing : trimChars shown = []
  · have blanks : ∀ c ∈ space :: shown, isBlank c = true := by
      rw [split, nothing, List.nil_append, ← List.cons_append]
      exact List.forall_mem_append.2 ⟨spaced, blankAfter⟩
    have trimmed := kept.solid.trimChars_eq noMargin blanks
    refine ⟨[], noMargin, fun some => absurd nothing some, ?_⟩
    rw [nothing, List.append_nil, List.append_nil]
    exact trimmed
  · have solid := kept.solid.append (solid_trimChars nothing) (space :: before)
    have trimmed := solid.trimChars_eq noMargin blankAfter
    have whole : head ++ space :: shown =
        [] ++ (head ++ space :: before ++ trimChars shown ++ after) := by
      rw [List.nil_append, List.append_assoc, List.append_assoc, List.cons_append, ← split]
    refine ⟨space :: before, spaced, fun _ => List.cons_ne_nil _ _, ?_⟩
    rw [whole, trimmed, List.append_assoc]

/-- A kept text at the start of a source stands in front of what the rest of the source shows. -/
theorem exists_withoutComments_append (sameLine : space ≠ '\n') (kept : Kept head)
    (rest : List Char) : ∃ gap,
    (∀ c ∈ gap, isBlank c = true) ∧ (withoutComments rest ≠ [] → gap ≠ []) ∧
      withoutComments (head ++ space :: rest) = head ++ (gap ++ withoutComments rest) := by
  have shown : ∀ source, withoutComments source =
      join [' '] (((splitOn '\n' source).map content).filter (!·.isEmpty)) := fun _ => rfl
  obtain ⟨piece, pieces, split⟩ := List.exists_cons_of_ne_nil (splitOn_ne_nil '\n' rest)
  obtain ⟨gap, blank, apart, first⟩ := exists_content_append blankSpace kept piece
  have oneLine : '\n' ∉ head ++ [space] := by
    rw [List.mem_append, not_or, List.mem_singleton]
    exact ⟨kept.oneLine, Ne.symm sameLine⟩
  have lines : splitOn '\n' (head ++ space :: rest) = (head ++ space :: piece) :: pieces := by
    have whole := splitOn_append_of_notMem oneLine split
    rwa [List.append_assoc, List.append_assoc] at whole
  have filled : (!(head ++ (gap ++ content piece)).isEmpty) = true := by
    rw [List.isEmpty_eq_false_iff.2 (List.append_ne_nil_of_left_ne_nil kept.solid.ne_nil _)]
    rfl
  have whole : withoutComments (head ++ space :: rest) = head ++ (gap ++ content piece) ++
      ((pieces.map content).filter (!·.isEmpty)).flatMap (' ' :: ·) := by
    rw [shown, lines, List.map_cons, first, List.filter_cons, if_pos filled, join_cons]
  by_cases nothing : content piece = []
  · have later : withoutComments rest = join [' '] ((pieces.map content).filter (!·.isEmpty)) := by
      rw [shown, split, List.map_cons, nothing]
      rfl
    rw [whole, later, nothing]
    cases (pieces.map content).filter (!·.isEmpty) with
    | nil => exact ⟨gap, blank, fun some => absurd rfl some, by simp [join]⟩
    | cons next more =>
      refine ⟨gap ++ [' '], ?_, fun _ => by simp, by simp [join_cons]⟩
      exact List.forall_mem_append.2 ⟨blank, isBlank_of_mem_space⟩
  · have shows : (!(content piece).isEmpty) = true := by
      rw [List.isEmpty_eq_false_iff.2 nothing]
      rfl
    have later : withoutComments rest = content piece ++
        ((pieces.map content).filter (!·.isEmpty)).flatMap (' ' :: ·) := by
      rw [shown, split, List.map_cons, List.filter_cons, if_pos shows, join_cons]
    refine ⟨gap, blank, fun _ => apart nothing, ?_⟩
    rw [whole, later]
    simp only [List.append_assoc]

end AfterBlank

/-! ## The search for a port clause -/

theorem exists_of_afterKeyword?_eq_some {keyword cs rest : List Char}
    (h : afterKeyword? keyword cs = some rest) :
    ∃ word, word.map foldLetter = keyword ∧ cs = word ++ rest := by
  induction keyword generalizing cs with
  | nil => exact ⟨[], rfl, Option.some.inj h⟩
  | cons k more ih =>
    cases cs with
    | nil => cases h
    | cons c cs =>
      rw [afterKeyword?] at h
      split at h
      · rename_i same
        obtain ⟨word, folded, rfl⟩ := ih h
        exact ⟨c :: word, by rw [List.map_cons, same, folded], rfl⟩
      · cases h

/-- A port clause opens with the keyword, blanks and the parenthesis. -/
theorem exists_of_portOpening?_eq_some {cs rest : List Char} (h : portOpening? cs = some rest) :
    ∃ word gap, word.map foldLetter = "port".toList ∧ (∀ c ∈ gap, isBlank c = true) ∧
      cs = word ++ gap ++ '(' :: rest := by
  obtain ⟨after, keyword, opening⟩ := Option.bind_eq_some_iff.1 h
  obtain ⟨word, folded, rfl⟩ := exists_of_afterKeyword?_eq_some keyword
  have parenthesis : trimStart after = '(' :: rest := by
    split at opening
    · rename_i same
      rw [same, Option.some.inj opening]
    · cases opening
  refine ⟨word, after.takeWhile isBlank, folded, fun c hc => List.mem_takeWhile_imp hc, ?_⟩
  rw [List.append_assoc, ← parenthesis]
  exact congrArg (word ++ ·) after.takeWhile_append_dropWhile.symm

/-- No port clause opens across a semicolon. -/
theorem portOpening?_append_semicolon {cs : List Char} (h : '(' ∉ cs) (rest : List Char) :
    portOpening? (cs ++ ';' :: rest) = none := by
  cases opened : portOpening? (cs ++ ';' :: rest) with
  | none => rfl
  | some after =>
    obtain ⟨word, gap, folded, blank, split⟩ := exists_of_portOpening?_eq_some opened
    have noSemicolon : ';' ∉ word ++ gap := by
      rw [List.mem_append, not_or]
      constructor
      · intro member
        have letter : foldLetter ';' ∈ "port".toList := folded ▸ List.mem_map_of_mem member
        exact absurd letter (by decide)
      · exact fun member => absurd (blank _ member) (by decide)
    rcases List.append_eq_append_iff.1 split with ⟨more, longer, tail⟩ | ⟨more, longer, tail⟩
    · cases more with
      | nil => cases tail
      | cons c more =>
        obtain ⟨rfl, -⟩ := List.cons.inj tail
        exact absurd (longer ▸ List.mem_append_right cs List.mem_cons_self) noSemicolon
    · cases more with
      | nil => cases tail
      | cons c more =>
        obtain ⟨rfl, -⟩ := List.cons.inj tail
        exact absurd (longer ▸ List.mem_append_right _ List.mem_cons_self) h

/-- The search passes over a statement without parentheses. -/
theorem findAtWord?_append_semicolon {cs : List Char} (h : '(' ∉ cs) (afterWordChar : Bool)
    (rest : List Char) :
    findAtWord? portOpening? afterWordChar (cs ++ ';' :: rest) =
      findAtWord? portOpening? false rest := by
  induction cs generalizing afterWordChar with
  | nil =>
    have mark : isWord ';' = false := by decide
    have closed : portOpening? ([] ++ ';' :: rest) = none :=
      portOpening?_append_semicolon List.not_mem_nil rest
    rw [List.nil_append] at closed ⊢
    rw [findAtWord?, closed, ite_self, Option.none_or, mark]
  | cons c more ih =>
    have closed := portOpening?_append_semicolon h rest
    rw [List.mem_cons, not_or] at h
    rw [List.cons_append] at closed ⊢
    rw [findAtWord?, closed, ite_self, Option.none_or, ih h.2]

theorem foldLetter_ne_of_isBlank {c : Char} (h : isBlank c = true) : foldLetter c ≠ 'p' := by
  have small : c.toLower = c := by
    refine dif_neg fun capital => ?_
    have bounds : 65 ≤ c.toNat ∧ c.toNat ≤ 90 :=
      ⟨UInt32.le_iff_toNat_le.1 capital.1, UInt32.le_iff_toNat_le.1 capital.2⟩
    simp only [isBlank, Bool.or_eq_true, Bool.and_eq_true, decide_eq_true_eq, beq_iff_eq] at h
    omega
  rw [foldLetter, small]
  split
  · decide
  · split
    · decide
    · rintro rfl
      cases h

theorem findAtWord?_append_blanks {gap : List Char} (blank : ∀ c ∈ gap, isBlank c = true)
    (rest : List Char) :
    findAtWord? portOpening? false (gap ++ rest) = findAtWord? portOpening? false rest := by
  induction gap with
  | nil => rfl
  | cons c more ih =>
    obtain ⟨here, later⟩ := List.forall_mem_cons.1 blank
    rw [List.cons_append, findAtWord?, portOpening?_cons_of_ne (foldLetter_ne_of_isBlank here),
      ite_self, Option.none_or, isWord_of_isBlank here, ih later]

/-- The text between the parentheses of the first port clause. -/
def portClause? (cs : List Char) : Option (List Char) :=
  (findAtWord? portOpening? false cs).bind (balanced? 0)

/-- The ports that are found in the text after a head. -/
def portsAfterHead (cs : List Char) : List PortSpec :=
  ((portClause? cs).map clausePorts).getD []

theorem read?_of_head (plain : PlainName name) {source : String} {body : List Char}
    (ends : startsWithWord body = false)
    (cleaned : withoutComments source.toList =
      "entity".toList ++ ' ' :: (name ++ ' ' :: ("is".toList ++ body))) :
    read? source = some ⟨String.ofList name, portsAfterHead body⟩ := by
  have found : findAtWord? head? false (withoutComments source.toList) = some (name, body) := by
    rw [cleaned]
    exact findAtWord?_of_read (head?_of_declaration plain ends)
  have clause : portClause? body =
      (findAtWord? portOpening? false body).bind (balanced? 0) := rfl
  simp only [read?, found, bind, Option.bind_some, pure, portsAfterHead, clause]
  cases findAtWord? portOpening? false body with
  | none => rfl
  | some opening =>
    rw [Option.bind_some, Option.bind_some]
    cases balanced? 0 opening <;> rfl

/-- The head of a declaration that goes on. -/
def openDeclaration (name : List Char) : List Char :=
  "entity".toList ++ ' ' :: (name ++ ' ' :: "is".toList)

/-- A whole declaration that declares no ports. -/
def portlessDeclaration (name : List Char) : List Char :=
  openDeclaration name ++ ' ' :: ("end".toList ++ ' ' :: (name ++ [';']))

-- Unfolding by the equations of these two would evaluate the literals.
theorem openDeclaration_eq (name : List Char) :
    openDeclaration name = "entity".toList ++ ' ' :: (name ++ ' ' :: "is".toList) := rfl

theorem portlessDeclaration_eq (name : List Char) : portlessDeclaration name =
    openDeclaration name ++ ' ' :: ("end".toList ++ ' ' :: (name ++ [';'])) := rfl

theorem kept_openDeclaration (plain : PlainName name) : Kept (openDeclaration name) := by
  have entity : Kept "entity".toList := by decide
  have is : Kept "is".toList := by decide
  have space : ∀ c ∈ ['\n', '-'], c ∉ [' '] := by simp
  rw [openDeclaration_eq]
  generalize "entity".toList = first at entity ⊢
  generalize "is".toList = last at is ⊢
  have whole := (entity.append (kept_of_plainName plain) space).append is space
  simpa only [List.append_assoc, List.cons_append, List.nil_append] using whole

theorem notMem_end (plain : PlainName name) {c : Char} (h : c ∈ ['\n', '-', '(']) :
    c ∉ ' ' :: ("end".toList ++ ' ' :: name) := by
  have others : Vhdl.isIdentifierChar c = false ∧ c ∉ ' ' :: ("end".toList ++ [' ']) := by
    simp only [List.mem_cons, List.not_mem_nil, or_false] at h
    rcases h with rfl | rfl | rfl <;> decide
  obtain ⟨noName, noWord⟩ := others
  intro member
  have split : c ∈ (' ' :: ("end".toList ++ [' '])) ++ name := by
    rwa [List.cons_append, List.append_assoc, List.singleton_append]
  rcases List.mem_append.1 split with word | named
  · exact noWord word
  · exact plain.notMem noName named

theorem kept_portlessDeclaration (plain : PlainName name) : Kept (portlessDeclaration name) := by
  have mark : Kept [';'] := by decide
  have between : ∀ c ∈ ['\n', '-'], c ∉ ' ' :: ("end".toList ++ ' ' :: name) := fun c hc =>
    notMem_end plain (List.mem_append_left ['('] hc)
  rw [portlessDeclaration_eq]
  generalize "end".toList = word at between ⊢
  have whole := (kept_openDeclaration plain).append mark between
  simpa only [List.append_assoc, List.cons_append, List.nil_append] using whole

theorem startsWithWord_append {gap : List Char} (blank : ∀ c ∈ gap, isBlank c = true)
    {rest : List Char} (apart : rest ≠ [] → gap ≠ []) : startsWithWord (gap ++ rest) = false := by
  cases gap with
  | nil =>
    have nothing : rest = [] := by
      by_contra some
      exact apart some rfl
    rw [nothing]
    rfl
  | cons c more => exact isWord_of_isBlank (blank c List.mem_cons_self)

theorem portsAfterHead_append_blanks {gap : List Char} (blank : ∀ c ∈ gap, isBlank c = true)
    (rest : List Char) : portsAfterHead (gap ++ rest) = portsAfterHead rest := by
  rw [portsAfterHead, portClause?, findAtWord?_append_blanks blank, ← portClause?, ← portsAfterHead]

theorem read?_openDeclaration (plain : PlainName name) (rest : List Char) :
    read? (String.ofList (openDeclaration name ++ ' ' :: rest)) =
      some ⟨String.ofList name, portsAfterHead (withoutComments rest)⟩ := by
  have space : isBlank ' ' = true := by decide
  obtain ⟨gap, blank, apart, cleaned⟩ :=
    exists_withoutComments_append space (by decide) (kept_openDeclaration plain) rest
  have ends := startsWithWord_append blank apart
  rw [read?_of_head plain ends, portsAfterHead_append_blanks blank]
  rw [String.toList_ofList, cleaned, openDeclaration_eq]
  simp only [List.append_assoc, List.cons_append]

theorem read?_portlessDeclaration (plain : PlainName name) (rest : List Char) :
    read? (String.ofList (portlessDeclaration name ++ ' ' :: rest)) =
      some ⟨String.ofList name, portsAfterHead (withoutComments rest)⟩ := by
  have space : isBlank ' ' = true := by decide
  obtain ⟨gap, blank, -, cleaned⟩ :=
    exists_withoutComments_append space (by decide) (kept_portlessDeclaration plain) rest
  have noParen : '(' ∉ ' ' :: ("end".toList ++ ' ' :: name) := notMem_end plain (by decide)
  have body : withoutComments (String.ofList (portlessDeclaration name ++ ' ' :: rest)).toList =
      "entity".toList ++ ' ' :: (name ++ ' ' :: ("is".toList ++
        (' ' :: ("end".toList ++ ' ' :: name) ++ ';' :: (gap ++ withoutComments rest)))) := by
    rw [String.toList_ofList, cleaned, portlessDeclaration_eq, openDeclaration_eq]
    simp only [List.append_assoc, List.cons_append, List.nil_append]
  rw [read?_of_head plain rfl body, portsAfterHead, portClause?,
    findAtWord?_append_semicolon noParen, ← portClause?, ← portsAfterHead,
    portsAfterHead_append_blanks blank]

/-- The end of an entity does not end the search for its ports: after a declaration without ports
the reader goes on as if the declaration were still open, and takes the ports of the first port
clause there is. Just when this one declares none, or there is none, the entity has no ports. -/
theorem ports_taken_after_end (plain : PlainName name) (rest : List Char) :
    read? (String.ofList (portlessDeclaration name ++ ' ' :: rest)) =
      some ⟨String.ofList name, portsAfterHead (withoutComments rest)⟩ ∧
    read? (String.ofList (portlessDeclaration name ++ ' ' :: rest)) =
      read? (String.ofList (openDeclaration name ++ ' ' :: rest)) ∧
    (read? (String.ofList (portlessDeclaration name ++ ' ' :: rest)) =
        some ⟨String.ofList name, []⟩ ↔
      ∀ clause, portClause? (withoutComments rest) = some clause → clausePorts clause = []) := by
  have read := read?_portlessDeclaration plain rest
  refine ⟨read, ?_, ?_⟩
  · rw [read, read?_openDeclaration plain rest]
  · rw [read, Option.some.injEq, Entity.mk.injEq, and_iff_right rfl, portsAfterHead]
    cases portClause? (withoutComments rest) <;> simp

/-- What follows the entity of a test bench: the circuit under test is declared as a component. -/
def benchBody : List Char :=
  "architecture sim of tb is -- port (X : in bit)\n".toList ++
    "component AND2 is PORT (A, B : in bit; Y : out bit_vector(7 downto 0)); end component;".toList

theorem portsAfterHead_benchBody : portsAfterHead (withoutComments benchBody) =
    [⟨"A", .input, 1⟩, ⟨"B", .input, 1⟩, ⟨"Y", .output, 8⟩] := by
  decide +kernel

/-- The test bench is given the ports of its component. -/
theorem bench_takes_component_ports :
    read? (String.ofList (portlessDeclaration "tb".toList ++ ' ' :: benchBody)) =
      some ⟨"tb", [⟨"A", .input, 1⟩, ⟨"B", .input, 1⟩, ⟨"Y", .output, 8⟩]⟩ := by
  rw [(ports_taken_after_end (by decide) benchBody).1, portsAfterHead_benchBody,
    String.ofList_toList]

/-- The ports of an entity need not be its own. -/
theorem portless_entity_with_ports : ¬ ∀ name, PlainName name → ∀ rest,
    read? (String.ofList (portlessDeclaration name ++ ' ' :: rest)) =
      some ⟨String.ofList name, []⟩ := by
  intro ownPorts
  have none := ownPorts "tb".toList (by decide) benchBody
  rw [read?_portlessDeclaration (by decide), portsAfterHead_benchBody] at none
  cases none

end Entity

end BlockSchematic
