import BlockSchematic.Sexpr.Reader
import Mathlib.Data.Stream.Init

/-!
# Reading again and again

A reader can be asked for one tree after the other without end. After some trees it only reports
faults: it stands at the end of the text or in front of a parenthesis that closes nothing, and stays
there, or it meets one fault that uses up the text. Reading all trees at once stops at the first of
these faults.
-/

namespace BlockSchematic.Sexpr

/-- How the readings go on when no more trees come. -/
inductive Ending where
  /-- Nothing is left to be read. -/
  | finished
  /-- The reader stays in front of a closing parenthesis. -/
  | stopped (offset : Nat)
  | unclosed (offset : Nat)
  | unterminated (offset : Nat)
  deriving DecidableEq, Repr

def Ending.faults : Ending → Stream' ReadError
  | .finished => .const .unexpectedEnd
  | .stopped offset => .const (.unexpectedClose offset)
  | .unclosed offset => .cons (.unclosedList offset) (.const .unexpectedEnd)
  | .unterminated offset => .cons (.unterminatedString offset) (.const .unexpectedEnd)

/-- What is said of the whole text: its trees, if nothing but the end of the text stops the reader,
and the first fault otherwise. -/
def Ending.verdict (trees : List Sexpr) : Ending → Except ReadError (List Sexpr)
  | .finished => .ok trees
  | ending => .error ending.faults.head

def answers (trees : List Sexpr) (ending : Ending) : Stream' (Except ReadError Sexpr) :=
  trees.map .ok ++ₛ ending.faults.map .error

/-- However often the reader is asked, these are its results. -/
def Reader.Gives (r : Reader) (results : Stream' (Except ReadError Sexpr)) : Prop :=
  ∀ n, Reader.results n r = results.take n

section Gives

variable {r after : Reader} {result : Except ReadError Sexpr}
  {results : Stream' (Except ReadError Sexpr)}

theorem Reader.Gives.cons (here : r.next = (result, after)) (later : after.Gives results) :
    r.Gives (.cons result results) := by
  intro n
  cases n with
  | zero => rfl
  | succ n => rw [Reader.results, here, Stream'.take_succ_cons, later n]

/-- A reader that stays where it is gives one result for ever. -/
theorem Reader.Gives.const (stays : r.next = (result, r)) : r.Gives (.const result) := by
  intro n
  induction n with
  | zero => rfl
  | succ n ih =>
    rw [Stream'.const_eq, Stream'.take_succ_cons, Reader.results, stays, ih]

end Gives

/-- What a fault leaves to be read, from where the reading began: a closing parenthesis outside all
lists stays, any other fault uses up the text. -/
inductive Leaves : List OpenList → List Lexeme → ReadError → List Lexeme → Prop where
  | finished : Leaves [] [] .unexpectedEnd []
  | stopped (offset : Nat) (later : List Lexeme) :
      Leaves [] (⟨offset, .closing⟩ :: later) (.unexpectedClose offset)
        (⟨offset, .closing⟩ :: later)
  | unclosed (stack : List OpenList) (input : List Lexeme) (offset : Nat) :
      Leaves stack input (.unclosedList offset) []
  | unterminated (stack : List OpenList) (input : List Lexeme) (offset : Nat) :
      Leaves stack input (.unterminatedString offset) []

/-- Inside a list only a fault that uses up the text is met, and it does so wherever the reading
began. -/
theorem Leaves.of_inside {inner : OpenList} {outer stack : List OpenList}
    {input whole rest : List Lexeme} {fault : ReadError}
    (h : Leaves (inner :: outer) input fault rest) : Leaves stack whole fault rest := by
  cases h with
  | unclosed _ _ offset => exact .unclosed _ _ offset
  | unterminated _ _ offset => exact .unterminated _ _ offset

theorem leaves_of_readTree {stack : List OpenList} {input rest : List Lexeme} {fault : ReadError}
    (h : readTree stack input = (.error fault, rest)) : Leaves stack input fault rest := by
  -- Every further step of a reading is made inside a list.
  fun_induction readTree stack input with
  | case1 =>
    obtain ⟨⟨⟩, rfl⟩ := Prod.mk.inj h
    exact .finished
  | case2 inner outer =>
    obtain ⟨⟨⟩, rfl⟩ := Prod.mk.inj h
    exact .unclosed _ _ _
  | case3 stack start input ih => exact (ih h).of_inside
  | case4 start input =>
    obtain ⟨⟨⟩, rfl⟩ := Prod.mk.inj h
    exact .stopped _ _
  | case5 inner start input => cases h
  | case6 inner outer stack start input ih => exact (ih h).of_inside
  | case7 start s input => cases h
  | case8 inner stack start s input ih => exact (ih h).of_inside
  | case9 start s input => cases h
  | case10 inner stack start s input ih => exact (ih h).of_inside
  | case11 stack start input =>
    obtain ⟨⟨⟩, rfl⟩ := Prod.mk.inj h
    exact .unterminated _ _ _

theorem gives_at_end : Reader.Gives ⟨[]⟩ (.const (.error .unexpectedEnd)) := by
  refine .const ?_
  rw [Reader.next, readTree]

theorem Reader.Gives.once {r : Reader} {fault : ReadError} (usesUp : r.next = (.error fault, ⟨[]⟩)) :
    r.Gives ((Stream'.cons fault (.const .unexpectedEnd)).map .error) := by
  rw [Stream'.map_cons, Stream'.map_const]
  exact .cons usesUp gives_at_end

/-- A fault in the first reading decides all that follow. -/
theorem exists_ending {input rest : List Lexeme} {fault : ReadError} (some : input ≠ [])
    (h : readTree [] input = (.error fault, rest)) :
    ∃ ending : Ending, Reader.Gives ⟨input⟩ (answers [] ending) ∧
      ending ≠ .finished ∧ ending.faults.head = fault := by
  have read : Reader.next ⟨input⟩ = (.error fault, ⟨rest⟩) := by rw [Reader.next, h]
  cases leaves_of_readTree h with
  | finished => exact absurd rfl some
  | stopped offset later => exact ⟨.stopped offset, .const read, nofun, rfl⟩
  | unclosed _ _ offset => exact ⟨.unclosed offset, .once read, nofun, rfl⟩
  | unterminated _ _ offset => exact ⟨.unterminated offset, .once read, nofun, rfl⟩

theorem Ending.verdict_of_ne {trees : List Sexpr} {ending : Ending} (h : ending ≠ .finished) :
    ending.verdict trees = .error ending.faults.head := by
  cases ending with
  | finished => exact absurd rfl h
  | stopped => rfl
  | unclosed => rfl
  | unterminated => rfl

theorem Ending.map_verdict (e : Sexpr) (trees : List Sexpr) (ending : Ending) :
    (ending.verdict trees).map (e :: ·) = ending.verdict (e :: trees) := by
  cases ending <;> rfl

theorem readings_of_input (input : List Lexeme) : ∃ trees ending,
    Reader.Gives ⟨input⟩ (answers trees ending) ∧ readForest input = ending.verdict trees := by
  fun_induction readForest input with
  | case1 input nothing =>
    obtain rfl := List.isEmpty_iff.1 nothing
    exact ⟨[], .finished, gives_at_end, rfl⟩
  | case2 input something fault failed =>
    have some : input ≠ [] := by simpa using something
    obtain ⟨ending, gives, goesWrong, rfl⟩ := exists_ending some (Prod.ext failed rfl)
    exact ⟨[], ending, gives, (Ending.verdict_of_ne goesWrong).symm⟩
  | case3 input something e read shorter ih =>
    obtain ⟨trees, ending, gives, verdict⟩ := ih
    have first : Reader.next ⟨input⟩ = (.ok e, ⟨(readTree [] input).2⟩) := Prod.ext read rfl
    refine ⟨e :: trees, ending, gives.cons first, ?_⟩
    rw [verdict, Ending.map_verdict]

/-- The endless results of a reader are some trees and then one of the endings: the end of the text
for ever, one closing parenthesis for ever, or a single fault and then the end of the text for ever.
All trees at once are read exactly in the first case, and they are the trees of the results; in the
other cases the first fault among the results is reported. -/
theorem readings_come_to_one_ending (text : String) : ∃ trees ending,
    (Reader.ofText text).Gives (answers trees ending) ∧
    (∀ es, parseAll text = .ok es ↔ trees = es ∧ ending = .finished) ∧
    ∀ fault, parseAll text = .error fault ↔ ending ≠ .finished ∧ ending.faults.head = fault := by
  obtain ⟨trees, ending, gives, verdict⟩ := readings_of_input (lexemes text)
  refine ⟨trees, ending, gives, ?_⟩
  rw [parseAll, verdict]
  by_cases finished : ending = .finished
  · subst finished
    simp [Ending.verdict]
  · simp [Ending.verdict_of_ne finished, finished]

end BlockSchematic.Sexpr
