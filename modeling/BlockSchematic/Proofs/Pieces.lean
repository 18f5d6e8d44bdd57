import BlockSchematic.Text.Pieces
import Mathlib.Data.List.TakeWhile

/-!
# Pieces that are known in advance

A text that was put together from pieces is cut at the same places again, as long as the pieces
themselves do not hold what it is cut at. Blanks around a piece that begins and ends with other
characters are trimmed off and nothing else is.
-/

namespace BlockSchematic

namespace Text

/-- A text that neither begins nor ends with a blank. -/
structure Solid (cs : List Char) : Prop where
  head : ∃ c, cs.head? = some c ∧ isBlank c = false
  last : ∃ c, cs.getLast? = some c ∧ isBlank c = false

instance (cs : List Char) : Decidable (Solid cs) :=
  decidable_of_iff (cs.head?.any (!isBlank ·) = true ∧ cs.getLast?.any (!isBlank ·) = true) <| by
    simp only [Option.any_eq_true, Bool.not_eq_true']
    exact ⟨fun h => ⟨h.1, h.2⟩, fun h => ⟨h.head, h.last⟩⟩

variable {cs : List Char}

theorem Solid.ne_nil (h : Solid cs) : cs ≠ [] := by
  rintro rfl
  obtain ⟨c, hc, -⟩ := h.head
  cases hc

theorem Solid.trimStart_eq (h : Solid cs) (rest : List Char) :
    trimStart (cs ++ rest) = cs ++ rest := by
  obtain ⟨c, hc, solid⟩ := h.head
  obtain ⟨more, rfl⟩ := List.head?_eq_some_iff.1 hc
  exact trimStart_cons_of_not_isBlank solid

theorem trimStart_append {blanks : List Char} (before : ∀ c ∈ blanks, isBlank c = true)
    (rest : List Char) : trimStart (blanks ++ rest) = trimStart rest :=
  List.dropWhile_append_of_pos before

theorem isBlank_of_mem_space : ∀ c ∈ [' '], isBlank c = true := List.all_eq_true.1 (by decide)

theorem trimStart_space (rest : List Char) : trimStart (' ' :: rest) = trimStart rest :=
  trimStart_append isBlank_of_mem_space rest

theorem trimEnd_append (last : ∃ c, cs.getLast? = some c ∧ isBlank c = false)
    {blanks : List Char} (after : ∀ c ∈ blanks, isBlank c = true) :
    trimEnd (cs ++ blanks) = cs := by
  obtain ⟨c, hc, solid⟩ := last
  obtain ⟨front, rfl⟩ := List.getLast?_eq_some_iff.1 hc
  have backwards : ∀ d ∈ blanks.reverse, isBlank d = true := fun d hd =>
    after d (List.mem_reverse.1 hd)
  rw [trimEnd, List.reverse_append, List.dropWhile_append_of_pos backwards, List.reverse_append]
  simp [solid]

theorem Solid.trimChars_eq (h : Solid cs) {before after : List Char}
    (hb : ∀ c ∈ before, isBlank c = true) (ha : ∀ c ∈ after, isBlank c = true) :
    trimChars (before ++ (cs ++ after)) = cs := by
  rw [trimChars, trimStart_append hb, h.trimStart_eq, trimEnd_append h.last ha]

theorem exists_head?_dropWhile (ne_nil : cs.dropWhile isBlank ≠ []) :
    ∃ c, (cs.dropWhile isBlank).head? = some c ∧ isBlank c = false := by
  obtain ⟨c, rest, split⟩ := List.exists_cons_of_ne_nil ne_nil
  have first := List.head?_dropWhile_not isBlank cs
  rw [split] at first ⊢
  exact ⟨c, rfl, first⟩

/-- Trimming the end takes off blanks. -/
theorem exists_trimStart_eq_append (cs : List Char) : ∃ after, (∀ c ∈ after, isBlank c = true) ∧
    trimStart cs = trimChars cs ++ after := by
  have back := congrArg List.reverse
    ((trimStart cs).reverse.takeWhile_append_dropWhile (p := isBlank)).symm
  rw [List.reverse_reverse, List.reverse_append] at back
  exact ⟨((trimStart cs).reverse.takeWhile isBlank).reverse,
    fun c hc => List.mem_takeWhile_imp (List.mem_reverse.1 hc), back⟩

theorem exists_append_trimChars (cs : List Char) : ∃ before after,
    (∀ c ∈ before, isBlank c = true) ∧ (∀ c ∈ after, isBlank c = true) ∧
      cs = before ++ (trimChars cs ++ after) := by
  obtain ⟨after, blank, split⟩ := exists_trimStart_eq_append cs
  refine ⟨cs.takeWhile isBlank, after, fun c hc => List.mem_takeWhile_imp hc, blank, ?_⟩
  rw [← split]
  exact cs.takeWhile_append_dropWhile.symm

/-- What trimming leaves has no blank at its edges. -/
theorem solid_trimChars (ne_nil : trimChars cs ≠ []) : Solid (trimChars cs) := by
  obtain ⟨after, -, split⟩ := exists_trimStart_eq_append cs
  constructor
  · have more : trimStart cs ≠ [] := by
      rw [split]
      exact List.append_ne_nil_of_left_ne_nil ne_nil _
    obtain ⟨c, first, solid⟩ := exists_head?_dropWhile more
    refine ⟨c, ?_, solid⟩
    change (trimStart cs).head? = some c at first
    rwa [split, List.head?_append, List.head?_eq_some_head ne_nil, Option.some_or,
      ← List.head?_eq_some_head ne_nil] at first
  · rw [trimChars, trimEnd] at ne_nil ⊢
    rw [List.getLast?_reverse]
    exact exists_head?_dropWhile (mt List.reverse_eq_nil_iff.2 ne_nil)

/-- Parts that touch make one text, and its edges are theirs. -/
theorem Solid.append {ds : List Char} (h : Solid cs) (hd : Solid ds) (between : List Char) :
    Solid (cs ++ between ++ ds) := by
  obtain ⟨c, hc, front⟩ := h.head
  obtain ⟨d, hd, back⟩ := hd.last
  refine ⟨⟨c, ?_, front⟩, ⟨d, ?_, back⟩⟩
  · rw [List.append_assoc, List.head?_append, hc, Option.some_or]
  · rw [List.getLast?_append, hd, Option.some_or]

/-- A text without separators belongs to the first piece of what follows. -/
theorem splitOn_append_of_notMem {sep : Char} (h : sep ∉ cs) {rest piece : List Char}
    {pieces : List (List Char)} (split : splitOn sep rest = piece :: pieces) :
    splitOn sep (cs ++ rest) = (cs ++ piece) :: pieces := by
  induction cs with
  | nil => exact split
  | cons c more ih =>
    rw [List.mem_cons, not_or] at h
    rw [List.cons_append, splitOn, ih h.2]
    exact if_neg (Ne.symm h.1)

theorem splitOn_of_notMem {sep : Char} (h : sep ∉ cs) : splitOn sep cs = [cs] := by
  have whole : splitOn sep (cs ++ []) = [cs ++ []] := splitOn_append_of_notMem h rfl
  rwa [List.append_nil] at whole

/-- What stands before a separator is the first piece. -/
theorem splitOn_append {sep : Char} (h : sep ∉ cs) (rest : List Char) :
    splitOn sep (cs ++ sep :: rest) = cs :: splitOn sep rest := by
  have here : splitOn sep (sep :: rest) = [] :: splitOn sep rest := by
    rw [splitOn]
    cases whole : splitOn sep rest with
    | nil => exact absurd whole (splitOn_ne_nil sep rest)
    | cons piece pieces => exact if_pos rfl
  have whole := splitOn_append_of_notMem h here
  rwa [List.append_nil] at whole

theorem splitOn_flatMap {sep : Char} {known : List (List Char)} (h : ∀ line ∈ known, sep ∉ line)
    (rest : List Char) :
    splitOn sep (known.flatMap (· ++ [sep]) ++ rest) = known ++ splitOn sep rest := by
  induction known with
  | nil => rfl
  | cons line more ih =>
    obtain ⟨here, later⟩ := List.forall_mem_cons.1 h
    rw [List.flatMap_cons, List.append_assoc, List.append_assoc, List.singleton_append,
      splitOn_append here, ih later, List.cons_append]

theorem splitFirst?_append_cons {sep : Char} (h : sep ∉ cs) (rest : List Char) :
    splitFirst? sep (cs ++ sep :: rest) = some (cs, rest) := by
  induction cs with
  | nil => rw [List.nil_append, splitFirst?, if_pos rfl]
  | cons c more ih =>
    rw [List.mem_cons, not_or] at h
    rw [List.cons_append, splitFirst?, if_neg (Ne.symm h.1), ih h.2, Option.map_some]

theorem upTo_append_of_notMem {first : Char} (more : List Char) (h : first ∉ cs)
    (rest : List Char) : upTo (first :: more) (cs ++ rest) = cs ++ upTo (first :: more) rest := by
  induction cs with
  | nil => rfl
  | cons c known ih =>
    rw [List.mem_cons, not_or] at h
    have other : (first :: more).isPrefixOf (c :: (known ++ rest)) = false := by
      rw [List.isPrefixOf_cons_cons, beq_false_of_ne h.1, Bool.false_and]
    rw [List.cons_append, upTo, other, ih h.2]
    rfl

theorem upTo_eq_self {first : Char} (more : List Char) (h : first ∉ cs) :
    upTo (first :: more) cs = cs := by
  have whole := upTo_append_of_notMem more h []
  rwa [List.append_nil, upTo, List.append_nil] at whole

theorem join_cons (piece : List Char) (pieces : List (List Char)) :
    join [' '] (piece :: pieces) = piece ++ pieces.flatMap (' ' :: ·) := by
  induction pieces generalizing piece with
  | nil => simp [join]
  | cons next rest ih =>
    have step : join [' '] (piece :: next :: rest) = piece ++ ' ' :: join [' '] (next :: rest) := by
      simp [join]
    rw [step, ih, List.flatMap_cons, List.cons_append]

end Text

end BlockSchematic
