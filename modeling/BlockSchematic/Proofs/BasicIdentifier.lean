import BlockSchematic.Proofs.Identifier
import Mathlib.Data.List.TakeWhile

/-!
# Sanitized names are basic identifiers

Sanitizing turns any text into a basic identifier and leaves every text alone that is one. Each of
its steps brings one condition about, and the steps after it keep that condition.
-/

namespace BlockSchematic.Vhdl

/-- A letter, then letters, digits and underscores, with no two underscores side by side and none
at the end. -/
structure BasicIdentifier (cs : List Char) : Prop extends Tidy cs where
  letter : ∃ c, cs.head? = some c ∧ isAsciiLetter c = true

theorem isIdentifierChar_of_mem_underscored {cs : List Char} {c : Char}
    (h : c ∈ underscored cs) : isIdentifierChar c = true := by
  obtain ⟨d, -, rfl⟩ := List.mem_map.1 h
  by_cases plain : isIdentifierChar d = true
  · rw [if_pos plain]
    exact plain
  · rw [if_neg plain]
    decide

theorem startedByLetter_cases (cs : List Char) :
    (∃ c rest, isAsciiLetter c = true ∧ cs = c :: rest ∧ startedByLetter cs = cs) ∨
      startedByLetter cs = 'v' :: '_' :: cs := by
  cases cs with
  | nil => exact .inr rfl
  | cons c rest =>
    by_cases letter : isAsciiLetter c = true
    · exact .inl ⟨c, rest, letter, rfl, if_pos letter⟩
    · exact .inr (if_neg letter)

theorem exists_startedByLetter_eq_cons (cs : List Char) :
    ∃ c rest, startedByLetter cs = c :: rest ∧ isAsciiLetter c = true := by
  rcases startedByLetter_cases cs with ⟨c, rest, letter, whole, same⟩ | prefixed
  · exact ⟨c, rest, same.trans whole, letter⟩
  · exact ⟨'v', _, prefixed, by decide⟩

theorem isIdentifierChar_of_mem_startedByLetter {cs : List Char}
    (h : ∀ c ∈ cs, isIdentifierChar c = true) {c : Char} (hc : c ∈ startedByLetter cs) :
    isIdentifierChar c = true := by
  rcases startedByLetter_cases cs with ⟨-, -, -, -, same⟩ | prefixed
  · rw [same] at hc
    exact h c hc
  · rw [prefixed, List.mem_cons, List.mem_cons] at hc
    rcases hc with rfl | rfl | hc
    · decide
    · decide
    · exact h c hc

theorem sublist_collapsed (cs : List Char) : (collapsed cs).Sublist cs := by
  induction cs with
  | nil => exact .slnil
  | cons c rest ih =>
    rw [collapsed]
    split
    · exact ih.cons c
    · exact ih.cons_cons c

/-- What is dropped for the underscore after it leaves an underscore in front. -/
theorem head?_collapsed (cs : List Char) : (collapsed cs).head? = cs.head? := by
  induction cs with
  | nil => rfl
  | cons c rest ih =>
    rw [collapsed]
    split
    · rename_i doubled
      obtain ⟨rfl, next⟩ : c = '_' ∧ rest.head? = some '_' := by simpa using doubled
      rw [ih, next, List.head?_cons]
    · rfl

theorem singleUnderscores_collapsed (cs : List Char) : SingleUnderscores (collapsed cs) := by
  induction cs with
  | nil => exact .nil
  | cons c rest ih =>
    rw [collapsed]
    split
    · exact ih
    · rename_i apart
      refine List.isChain_cons.2 ⟨fun d next both => apart ?_, ih⟩
      rw [Option.mem_def, head?_collapsed] at next
      simp [both.1, next, both.2]

theorem exists_withoutLastUnderscores_append (cs : List Char) :
    ∃ tail, withoutLastUnderscores cs ++ tail = cs := by
  refine ⟨(cs.reverse.takeWhile (· = '_')).reverse, ?_⟩
  rw [withoutLastUnderscores, ← List.reverse_append, List.takeWhile_append_dropWhile,
    List.reverse_reverse]

theorem SingleUnderscores.withoutLastUnderscores {cs : List Char} (h : SingleUnderscores cs) :
    SingleUnderscores (withoutLastUnderscores cs) := by
  obtain ⟨tail, whole⟩ := exists_withoutLastUnderscores_append cs
  rw [← whole] at h
  exact (List.isChain_append.1 h).1

/-- A name that does not begin with an underscore keeps its beginning and ends without one. -/
theorem edges_withoutLastUnderscores {c : Char} {cs : List Char} (first : cs.head? = some c)
    (other : c ≠ '_') : (withoutLastUnderscores cs).head? = some c ∧
      ∃ d, (withoutLastUnderscores cs).getLast? = some d ∧ d ≠ '_' := by
  have here : c ∈ cs := List.mem_of_mem_head? first
  have kept : cs.reverse.dropWhile (· = '_') ≠ [] := by
    rw [Ne, List.dropWhile_eq_nil_iff]
    intro all
    exact other (by simpa using all c (List.mem_reverse.2 here))
  obtain ⟨d, rest, split⟩ := List.exists_cons_of_ne_nil kept
  constructor
  · obtain ⟨tail, whole⟩ := exists_withoutLastUnderscores_append cs
    have filled : withoutLastUnderscores cs ≠ [] := mt List.reverse_eq_nil_iff.1 kept
    rw [← whole, List.head?_append, List.head?_eq_some_head filled, Option.some_or] at first
    rw [List.head?_eq_some_head filled, first]
  · have stops := List.head?_dropWhile_not (fun c => decide (c = '_')) cs.reverse
    rw [split] at stops
    refine ⟨d, ?_, by simpa using stops⟩
    rw [withoutLastUnderscores, List.getLast?_reverse, split, List.head?_cons]

/-- What begins with a letter and has identifier characters only becomes a basic identifier. -/
theorem basicIdentifier_of_started {cs : List Char} (chars : ∀ c ∈ cs, isIdentifierChar c = true)
    {c : Char} (first : cs.head? = some c) (letter : isAsciiLetter c = true) :
    BasicIdentifier (withoutLastUnderscores (collapsed cs)) := by
  have other : c ≠ '_' := by
    rintro rfl
    exact absurd letter (by decide)
  obtain ⟨front, ending⟩ := edges_withoutLastUnderscores ((head?_collapsed cs).trans first) other
  have single := (singleUnderscores_collapsed cs).withoutLastUnderscores
  refine ⟨⟨fun d hd => chars d ((sublist_collapsed cs).subset ?_), single, ending⟩, c, front, letter⟩
  obtain ⟨tail, whole⟩ := exists_withoutLastUnderscores_append (collapsed cs)
  rw [← whole]
  exact List.mem_append_left tail hd

theorem basicIdentifier_sanitizeChars (cs : List Char) : BasicIdentifier (sanitizeChars cs) := by
  obtain ⟨c, rest, started, letter⟩ :=
    exists_startedByLetter_eq_cons (underscored (withoutBrackets cs))
  refine basicIdentifier_of_started (c := c) (fun d hd => ?_) ?_ letter
  · exact isIdentifierChar_of_mem_startedByLetter (fun _ => isIdentifierChar_of_mem_underscored) hd
  · rw [started, List.head?_cons]

/-- No step of sanitizing finds anything to change in a basic identifier. -/
theorem BasicIdentifier.sanitizeChars_eq {cs : List Char} (h : BasicIdentifier cs) :
    sanitizeChars cs = cs := by
  obtain ⟨c, first, letter⟩ := h.letter
  have noBrackets : withoutBrackets cs = cs :=
    withoutBrackets_append (h.notMem (by decide)) (h.notMem (by decide)) []
  have plain : underscored cs = cs := h.underscored_append []
  have started : startedByLetter cs = cs := by
    cases cs with
    | nil => cases first
    | cons d rest =>
      obtain rfl : d = c := by simpa using first
      exact if_pos letter
  have ends : Vhdl.withoutLastUnderscores cs = cs := h.withoutLastUnderscores_append []
  rw [sanitizeChars, noBrackets, plain, started, h.single.collapsed_eq, ends]

/-- Sanitizing gives a basic identifier for every name, leaves a name alone exactly if it is one,
and so changes nothing when it is done twice. -/
theorem sanitizing_gives_basic_identifiers (name : String) :
    BasicIdentifier (sanitize name).toList ∧
    (sanitize name = name ↔ BasicIdentifier name.toList) ∧
    sanitize (sanitize name) = sanitize name := by
  have valid : ∀ name : String, BasicIdentifier (sanitize name).toList := by
    intro name
    rw [sanitize, String.toList_ofList]
    exact basicIdentifier_sanitizeChars name.toList
  have same : ∀ {name : String}, BasicIdentifier name.toList → sanitize name = name := by
    intro name h
    rw [sanitize, h.sanitizeChars_eq, String.ofList_toList]
  refine ⟨valid name, ⟨fun unchanged => ?_, same⟩, same (valid name)⟩
  rw [← unchanged]
  exact valid name

/-- Brackets the wrong way round are no bus suffix, and a name may leave nothing. -/
example : sanitize "a]b[c" = "a_b_c" ∧ sanitize "[x][y]" = "v" ∧ sanitize "é__9]" = "v_9" := by
  decide

end BlockSchematic.Vhdl
