import BlockSchematic.Text.Number
import BlockSchematic.Vhdl.Identifier
import Mathlib.Data.List.Chain

/-!
# What sanitizing keeps of a name

Sanitizing works on the front of a name and on its brackets. A tail of identifier characters with
single underscores between other characters passes through it as it stands.
-/

namespace BlockSchematic

open Text

namespace Vhdl

/-- The two identifiers differ in the case of letters at most. -/
def SameIdentifier (a b : String) : Prop :=
  a.toList.map Char.toLower = b.toList.map Char.toLower

instance (a b : String) : Decidable (SameIdentifier a b) :=
  inferInstanceAs (Decidable (_ = _))

theorem splitFirst?_append {sep : Char} {tail : List Char} (h : sep ∉ tail) (cs : List Char) :
    splitFirst? sep (cs ++ tail) =
      (splitFirst? sep cs).map fun (before, after) => (before, after ++ tail) := by
  induction cs with
  | nil =>
    induction tail with
    | nil => rfl
    | cons c rest ih =>
      rw [List.mem_cons, not_or] at h
      obtain ⟨hc, hrest⟩ := h
      have none := ih hrest
      simp only [List.nil_append, splitFirst?, Option.map_none] at none ⊢
      rw [if_neg (Ne.symm hc), none]
      rfl
  | cons c rest ih =>
    simp only [List.cons_append, splitFirst?, ih]
    split
    · rfl
    · cases splitFirst? sep rest <;> rfl

theorem splitLast?_append {sep : Char} {tail : List Char} (h : sep ∉ tail) (cs : List Char) :
    splitLast? sep (cs ++ tail) =
      (splitLast? sep cs).map fun (before, after) => (before, after ++ tail) := by
  induction cs with
  | nil =>
    induction tail with
    | nil => rfl
    | cons c rest ih =>
      rw [List.mem_cons, not_or] at h
      obtain ⟨hc, hrest⟩ := h
      have none := ih hrest
      simp only [List.nil_append, splitLast?, Option.map_none] at none ⊢
      rw [none, if_neg (Ne.symm hc)]
  | cons c rest ih =>
    simp only [List.cons_append, splitLast?, ih]
    cases splitLast? sep rest with
    | none =>
      by_cases hc : c = sep <;> simp [hc]
    | some halves => rfl

/-- Brackets are looked for in front of a tail that has none. -/
theorem withoutBrackets_append {tail : List Char} (opening : '[' ∉ tail) (closing : ']' ∉ tail)
    (cs : List Char) : withoutBrackets (cs ++ tail) = withoutBrackets cs ++ tail := by
  rw [withoutBrackets, withoutBrackets, splitFirst?_append opening]
  cases splitFirst? '[' cs with
  | none => rfl
  | some halves =>
    simp only [Option.map_some, splitLast?_append closing]
    cases splitLast? ']' halves.2 with
    | none => rfl
    | some inner => exact (List.append_assoc ..).symm

theorem startedByLetter_append {tail : List Char} (h : tail ≠ []) (cs : List Char) :
    ∃ front, startedByLetter (cs ++ tail) = front ++ tail := by
  have started : startedByLetter (cs ++ tail) = cs ++ tail ∨
      startedByLetter (cs ++ tail) = 'v' :: '_' :: (cs ++ tail) := by
    cases whole : cs ++ tail with
    | nil => exact absurd (List.append_eq_nil_iff.1 whole).2 h
    | cons c rest => rw [startedByLetter]; split <;> simp
  rcases started with same | prefixed
  · exact ⟨cs, same⟩
  · exact ⟨'v' :: '_' :: cs, prefixed⟩

/-- An underscore is dropped for the one after it, so the tail is collapsed by itself. -/
theorem collapsed_append (cs tail : List Char) :
    ∃ front, collapsed (cs ++ tail) = front ++ collapsed tail := by
  induction cs with
  | nil => exact ⟨[], rfl⟩
  | cons c rest ih =>
    obtain ⟨front, h⟩ := ih
    rw [List.cons_append, collapsed, h]
    split
    · exact ⟨front, rfl⟩
    · exact ⟨c :: front, rfl⟩

/-- No two underscores stand side by side. -/
def SingleUnderscores (cs : List Char) : Prop := cs.IsChain fun c d => ¬ (c = '_' ∧ d = '_')

instance (cs : List Char) : Decidable (SingleUnderscores cs) :=
  inferInstanceAs (Decidable (cs.IsChain _))

theorem singleUnderscores_cons {c : Char} {cs : List Char} (h : '_' ∉ cs) :
    SingleUnderscores (c :: cs) := by
  induction cs generalizing c with
  | nil => exact .singleton c
  | cons d rest ih =>
    rw [List.mem_cons, not_or] at h
    exact .cons_cons (fun both => h.1 both.2.symm) (ih h.2)

theorem SingleUnderscores.collapsed_eq {cs : List Char} (h : SingleUnderscores cs) :
    collapsed cs = cs := by
  induction h with
  | nil => rfl
  | singleton c => simp [collapsed]
  | cons_cons apart _ ih =>
    rw [collapsed, if_neg (by simpa using apart), ih]

/-- What sanitizing leaves alone at the end of a name. -/
structure Tidy (tail : List Char) : Prop where
  chars : ∀ c ∈ tail, isIdentifierChar c = true
  single : SingleUnderscores tail
  ending : ∃ c, tail.getLast? = some c ∧ c ≠ '_'

theorem Tidy.append {cs tail : List Char} (hcs : Tidy cs) (h : Tidy tail) : Tidy (cs ++ tail) := by
  obtain ⟨c, last, other⟩ := hcs.ending
  refine ⟨?_, ?_, ?_⟩
  · intro d hd
    rcases List.mem_append.1 hd with hd | hd
    · exact hcs.chars d hd
    · exact h.chars d hd
  · refine List.isChain_append.2 ⟨hcs.single, h.single, ?_⟩
    intro d hd e _ both
    rw [last] at hd
    exact other ((Option.some.inj hd).trans both.1)
  · obtain ⟨d, hd, hother⟩ := h.ending
    exact ⟨d, by rw [List.getLast?_append, hd, Option.some_or], hother⟩

theorem Tidy.ne_nil {tail : List Char} (h : Tidy tail) : tail ≠ [] := by
  rintro rfl
  obtain ⟨c, hc, -⟩ := h.ending
  cases hc

theorem Tidy.notMem {tail : List Char} (h : Tidy tail) {c : Char}
    (hc : isIdentifierChar c = false) : c ∉ tail := by
  intro member
  rw [h.chars c member] at hc
  cases hc

theorem Tidy.underscored_append {tail : List Char} (h : Tidy tail) (cs : List Char) :
    underscored (cs ++ tail) = underscored cs ++ tail := by
  have same : underscored tail = tail := by
    rw [underscored, List.map_congr_left (g := id) fun c hc => by rw [if_pos (h.chars c hc), id],
      List.map_id]
  rw [underscored, List.map_append]
  exact congrArg _ same

theorem Tidy.withoutLastUnderscores_append {tail : List Char} (h : Tidy tail)
    (front : List Char) : withoutLastUnderscores (front ++ tail) = front ++ tail := by
  obtain ⟨c, hc, other⟩ := h.ending
  obtain ⟨init, rfl⟩ := List.getLast?_eq_some_iff.1 hc
  simp [withoutLastUnderscores, other]

/-- A tidy tail is the tail of the sanitized name, whatever stands before it. -/
theorem Tidy.sanitizeChars_append {tail : List Char} (h : Tidy tail) (cs : List Char) :
    ∃ front, sanitizeChars (cs ++ tail) = front ++ tail := by
  obtain ⟨started, hstarted⟩ := startedByLetter_append h.ne_nil (underscored (withoutBrackets cs))
  obtain ⟨front, hfront⟩ := collapsed_append started tail
  refine ⟨front, ?_⟩
  rw [sanitizeChars, withoutBrackets_append (h.notMem (by decide)) (h.notMem (by decide)),
    h.underscored_append, hstarted, hfront, h.single.collapsed_eq,
    h.withoutLastUnderscores_append]

end Vhdl

end BlockSchematic
