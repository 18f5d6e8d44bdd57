import BlockSchematic.Proofs.Tokens

/-!
# What it means to cut a text

The rules say which text stands for which token and at which byte the token starts; nothing is said
of how a scanner finds it. By these rules each text can be cut in exactly one way.
-/

namespace BlockSchematic

theorem Text.utf8Size_append (cs ds : List Char) :
    utf8Size (cs ++ ds) = utf8Size cs + utf8Size ds := by
  induction cs with
  | nil => simp [utf8Size]
  | cons c cs ih =>
    rw [List.cons_append, utf8Size, utf8Size, ih]
    omega

namespace Sexpr

open Text

/-- No atom goes on into this text: it is over, or begins with a delimiter or a comment. -/
def Stops (cs : List Char) : Prop := EndsAtom cs ∨ ['/', '/'] <+: cs

/-- The run is as long as an atom can be where `rest` follows: the text stops after it, and at no
place inside it. -/
structure IsRun (run rest : List Char) : Prop where
  ne_nil : run ≠ []
  inside : ∀ tail, tail <:+ run → tail ≠ [] → ¬ Stops (tail ++ rest)
  stops : Stops rest

/-- The tokens of a text that starts at a byte. A comment goes on to the end of its line. -/
inductive Cut : Nat → List Char → List Lexeme → Prop where
  | done {n : Nat} : Cut n [] []
  | blank {n : Nat} {c : Char} {rest : List Char} {ls : List Lexeme}
      (blank : isBlank c = true) (later : Cut (n + c.utf8Size) rest ls) : Cut n (c :: rest) ls
  | comment {n : Nat} {line rest : List Char} {ls : List Lexeme} (oneLine : '\n' ∉ line)
      (ends : rest = [] ∨ ∃ after, rest = '\n' :: after)
      (later : Cut (n + utf8Size ('/' :: '/' :: line)) rest ls) :
      Cut n ('/' :: '/' :: (line ++ rest)) ls
  | opening {n : Nat} {rest : List Char} {ls : List Lexeme} (later : Cut (n + 1) rest ls) :
      Cut n ('(' :: rest) (⟨n, .opening⟩ :: ls)
  | closing {n : Nat} {rest : List Char} {ls : List Lexeme} (later : Cut (n + 1) rest ls) :
      Cut n (')' :: rest) (⟨n, .closing⟩ :: ls)
  | quoted {n : Nat} {span rest : List Char} {ls : List Lexeme} (closed : '"' ∉ span)
      (later : Cut (n + utf8Size ('"' :: (span ++ ['"']))) rest ls) :
      Cut n ('"' :: (span ++ '"' :: rest)) (⟨n, .quoted (String.ofList span)⟩ :: ls)
  | dangling {n : Nat} {rest : List Char} (unclosed : '"' ∉ rest) :
      Cut n ('"' :: rest) [⟨n, .dangling⟩]
  | atom {n : Nat} {run rest : List Char} {ls : List Lexeme} (isRun : IsRun run rest)
      (later : Cut (n + utf8Size run) rest ls) :
      Cut n (run ++ rest) (⟨n, .atom (String.ofList run)⟩ :: ls)

theorem stops_cons_iff {c : Char} {rest : List Char} :
    Stops (c :: rest) ↔ isDelimiter c = true ∨ c = '/' ∧ rest.head? = some '/' := by
  have comment : ['/', '/'] <+: c :: rest ↔ c = '/' ∧ rest.head? = some '/' := by
    constructor
    · intro starts
      obtain ⟨same, next⟩ := List.cons_prefix_cons.1 starts
      obtain ⟨more, rfl⟩ := next
      exact ⟨same.symm, rfl⟩
    · rintro ⟨rfl, next⟩
      obtain ⟨more, rfl⟩ := List.head?_eq_some_iff.1 next
      exact ⟨more, rfl⟩
  rw [Stops, comment]
  simp [EndsAtom]

theorem spanAtom_cons_of_stops {c : Char} {rest : List Char} (stops : Stops (c :: rest)) :
    spanAtom (c :: rest) = ([], c :: rest) := by
  rw [spanAtom, if_pos]
  simpa using stops_cons_iff.1 stops

theorem spanAtom_cons_of_not_stops {c : Char} {rest : List Char} (goesOn : ¬ Stops (c :: rest)) :
    spanAtom (c :: rest) = (c :: (spanAtom rest).1, (spanAtom rest).2) := by
  rw [spanAtom, if_neg]
  simpa using fun h => goesOn (stops_cons_iff.2 h)

theorem stops_spanAtom (cs : List Char) : Stops (spanAtom cs).2 := by
  induction cs with
  | nil => exact .inl nofun
  | cons c rest ih =>
    by_cases stops : Stops (c :: rest)
    · rw [spanAtom_cons_of_stops stops]
      exact stops
    · rw [spanAtom_cons_of_not_stops stops]
      exact ih

/-- Inside of what is cut out as an atom the text stops nowhere. -/
theorem not_stops_in_spanAtom {cs tail : List Char} (h : tail <:+ (spanAtom cs).1)
    (ne_nil : tail ≠ []) : ¬ Stops (tail ++ (spanAtom cs).2) := by
  induction cs with
  | nil =>
    have empty : tail = [] := List.suffix_nil.1 h
    exact absurd empty ne_nil
  | cons c rest ih =>
    by_cases stops : Stops (c :: rest)
    · rw [spanAtom_cons_of_stops stops] at h
      have empty : tail = [] := List.suffix_nil.1 h
      exact absurd empty ne_nil
    · rw [spanAtom_cons_of_not_stops stops] at h ⊢
      rcases List.suffix_cons_iff.1 h with rfl | shorter
      · rw [List.cons_append, spanAtom_append_eq]
        exact stops
      · exact ih shorter

theorem spanAtom_of_run {run rest : List Char}
    (inside : ∀ tail, tail <:+ run → tail ≠ [] → ¬ Stops (tail ++ rest)) (stops : Stops rest) :
    spanAtom (run ++ rest) = (run, rest) := by
  induction run with
  | nil =>
    cases rest with
    | nil => rfl
    | cons c rest => exact spanAtom_cons_of_stops stops
  | cons c run ih =>
    have goesOn : ¬ Stops (c :: (run ++ rest)) := inside (c :: run) List.suffix_rfl (by simp)
    have later : spanAtom (run ++ rest) = (run, rest) := by
      apply ih
      intro tail shorter
      exact inside tail (shorter.trans (List.suffix_cons c run))
    rw [List.cons_append, spanAtom_cons_of_not_stops goesOn, later]

theorem isRun_spanAtom {c : Char} {rest : List Char} (goesOn : ¬ Stops (c :: rest)) :
    IsRun (c :: (spanAtom rest).1) (spanAtom rest).2 := by
  have whole := spanAtom_cons_of_not_stops goesOn
  refine ⟨by simp, ?_, stops_spanAtom rest⟩
  intro tail shorter ne_nil
  have inside := @not_stops_in_spanAtom (c :: rest) tail
  rw [whole] at inside
  exact inside shorter ne_nil

theorem spanLine_eq_self {line : List Char} (oneLine : '\n' ∉ line) :
    spanLine line = (line, []) := by
  induction line with
  | nil => rfl
  | cons c line ih =>
    rw [List.mem_cons, not_or] at oneLine
    rw [spanLine, if_neg (Ne.symm oneLine.1), ih oneLine.2]

theorem exists_line (cs : List Char) : ∃ line rest, cs = line ++ rest ∧ '\n' ∉ line ∧
    (rest = [] ∨ ∃ after, rest = '\n' :: after) := by
  induction cs with
  | nil => exact ⟨[], [], rfl, List.not_mem_nil, .inl rfl⟩
  | cons c cs ih =>
    by_cases breaks : c = '\n'
    · exact ⟨[], c :: cs, rfl, List.not_mem_nil, .inr ⟨cs, by rw [breaks]⟩⟩
    · obtain ⟨line, rest, rfl, oneLine, ends⟩ := ih
      refine ⟨c :: line, rest, rfl, ?_, ends⟩
      rw [List.mem_cons, not_or]
      exact ⟨Ne.symm breaks, oneLine⟩

/-- A comment is passed over to the end of its line. -/
theorem scan_comment_line {n : Nat} {line rest : List Char} (oneLine : '\n' ∉ line)
    (ends : rest = [] ∨ ∃ after, rest = '\n' :: after) :
    scan n ('/' :: '/' :: (line ++ rest)) =
      scan (n + utf8Size ('/' :: '/' :: line)) rest := by
  have oneLine' : '\n' ∉ '/' :: line := by simpa using oneLine
  rw [scan_comment rfl, ← List.cons_append]
  rcases ends with rfl | ⟨after, rfl⟩
  · rw [List.append_nil, spanLine_eq_self oneLine', Nat.add_assoc]
    rfl
  · have size : n + '/'.utf8Size + utf8Size (('/' :: line) ++ ['\n']) =
        n + utf8Size ('/' :: '/' :: line) + '\n'.utf8Size := by
      rw [utf8Size_append, utf8Size, utf8Size, utf8Size, utf8Size, utf8Size]
      omega
    rw [spanLine_append oneLine', scan_blank (by decide), size]

theorem spanQuoted?_eq_none_iff {cs : List Char} : spanQuoted? cs = none ↔ '"' ∉ cs := by
  induction cs with
  | nil => simp [spanQuoted?, splitFirst?]
  | cons c rest ih =>
    rw [spanQuoted?] at ih ⊢
    rw [splitFirst?, List.mem_cons, not_or]
    by_cases quote : c = '"'
    · simp [quote]
    · rw [if_neg quote, Option.map_eq_none_iff, ih]
      exact ⟨fun h => ⟨Ne.symm quote, h⟩, And.right⟩

theorem size_quoted (n : Nat) (span : List Char) :
    n + '"'.utf8Size + utf8Size span + 1 = n + utf8Size ('"' :: (span ++ ['"'])) := by
  have closing : utf8Size ['"'] = 1 := rfl
  rw [utf8Size, utf8Size_append, closing]
  omega

/-- The scanner's tokens follow the rules. -/
theorem cut_scan (n : Nat) (cs : List Char) : Cut n cs (scan n cs) := by
  induction cs using text_induction generalizing n with
  | nil =>
    rw [scan]
    exact .done
  | blank c rest blank ih =>
    rw [scan_blank blank]
    exact .blank blank (ih _)
  | opening rest ih =>
    rw [scan_opening]
    exact .opening (ih _)
  | closing rest ih =>
    rw [scan_closing]
    exact .closing (ih _)
  | dangling rest unclosed =>
    rw [scan_dangling unclosed]
    exact .dangling (spanQuoted?_eq_none_iff.1 unclosed)
  | quoted rest span after closed ih =>
    have split : rest = span ++ '"' :: after := eq_of_splitFirst?_eq_some closed
    rw [scan_quoted closed, split, size_quoted]
    exact .quoted (notMem_of_spanQuoted? closed) (ih _)
  | comment rest slash ih =>
    obtain ⟨more, rfl⟩ := List.head?_eq_some_iff.1 slash
    obtain ⟨line, after, rfl, oneLine, ends⟩ := exists_line more
    rw [scan_comment_line oneLine ends]
    refine .comment oneLine ends ?_
    have oneLine' : '\n' ∉ '/' :: line := by simpa using oneLine
    rcases ends with rfl | ⟨later, rfl⟩
    · rw [scan]
      exact .done
    · rw [← List.cons_append, spanLine_append oneLine'] at ih
      rw [scan_blank (by decide)]
      exact .blank (by decide) (ih _)
  | atom c rest plain noComment ih =>
    have goesOn : ¬ Stops (c :: rest) := by
      rw [stops_cons_iff]
      simpa [plain] using noComment
    have whole : c :: rest = (c :: (spanAtom rest).1) ++ (spanAtom rest).2 :=
      congrArg (c :: ·) (spanAtom_append_eq rest).symm
    have cut : Cut n ((c :: (spanAtom rest).1) ++ (spanAtom rest).2) _ :=
      .atom (isRun_spanAtom goesOn) (ih _)
    rw [← whole, utf8Size, ← Nat.add_assoc] at cut
    rw [scan_atom plain noComment]
    exact cut

/-- The rules leave no choice. -/
theorem Cut.eq_scan {n : Nat} {cs : List Char} {ls : List Lexeme} (h : Cut n cs ls) :
    ls = scan n cs := by
  induction h with
  | done => rw [scan]
  | blank blank _ ih => rw [scan_blank blank, ih]
  | comment oneLine ends _ ih => rw [scan_comment_line oneLine ends, ih]
  | opening _ ih =>
    rw [scan_opening, ih]
    rfl
  | closing _ ih =>
    rw [scan_closing, ih]
    rfl
  | @quoted n span rest ls closed _ ih =>
    rw [scan_quoted (spanQuoted?_append closed rest), ih, size_quoted]
  | dangling unclosed => rw [scan_dangling (spanQuoted?_eq_none_iff.2 unclosed)]
  | @atom n run rest ls isRun _ ih =>
    cases run with
    | nil => exact absurd rfl isRun.ne_nil
    | cons c run =>
      have goesOn : ¬ Stops (c :: (run ++ rest)) :=
        isRun.inside (c :: run) List.suffix_rfl isRun.ne_nil
      have whole := spanAtom_of_run isRun.inside isRun.stops
      rw [List.cons_append, spanAtom_cons_of_not_stops goesOn] at whole
      obtain ⟨same, after⟩ := Prod.mk.inj whole
      have run_eq : (spanAtom (run ++ rest)).1 = run := (List.cons.inj same).2
      rw [stops_cons_iff, not_or, Bool.not_eq_true] at goesOn
      rw [List.cons_append, scan_atom goesOn.1 goesOn.2, run_eq, after, ih, Nat.add_assoc]
      rfl

theorem cut_iff {n : Nat} {cs : List Char} {ls : List Lexeme} : Cut n cs ls ↔ ls = scan n cs :=
  ⟨Cut.eq_scan, fun same => same ▸ cut_scan n cs⟩

end Sexpr

end BlockSchematic
