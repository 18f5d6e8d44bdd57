import BlockSchematic.Proofs.Tokens
import BlockSchematic.Sexpr.Reader

/-!
# Reading trees off their tokens

A tree is read from its own tokens and from no others: the tokens used up by a reading, put after
those of the lists that were open before, are the tokens of the tree.
-/

namespace BlockSchematic.Sexpr

theorem forestTokens_append (xs ys : List Sexpr) :
    forestTokens (xs ++ ys) = forestTokens xs ++ forestTokens ys := by
  induction xs with
  | nil => rfl
  | cons x xs ih => rw [List.cons_append, forestTokens, forestTokens, ih, List.append_assoc]

@[simp] theorem forestTokens_singleton (e : Sexpr) : forestTokens [e] = tokens e := by
  simp [forestTokens]

/-- The tokens read since the outermost open list began. -/
def stackTokens : List OpenList → List Token
  | [] => []
  | inner :: outer => stackTokens outer ++ .opening :: forestTokens inner.newest.reverse

theorem stackTokens_add (inner : OpenList) (outer : List OpenList) (e : Sexpr) :
    stackTokens (inner.add e :: outer) = stackTokens (inner :: outer) ++ tokens e := by
  simp [stackTokens, OpenList.add, forestTokens_append]

theorem stackTokens_close (inner : OpenList) (outer : List OpenList) :
    stackTokens outer ++ tokens inner.close = stackTokens (inner :: outer) ++ [.closing] := by
  simp [stackTokens, OpenList.close, tokens]

/-- A tree that was read is made of the tokens used up for it. -/
theorem tokens_of_readTree {stack : List OpenList} {input rest : List Lexeme} {e : Sexpr}
    (h : readTree stack input = (.ok e, rest)) :
    ∃ used, input = used ++ rest ∧ stackTokens stack ++ used.map (·.token) = tokens e := by
  fun_induction readTree stack input with
  | case1 => cases h
  | case2 => cases h
  | case3 stack start input ih =>
    obtain ⟨used, rfl, same⟩ := ih h
    refine ⟨⟨start, .opening⟩ :: used, rfl, ?_⟩
    rw [← same]
    simp [stackTokens, forestTokens]
  | case4 => cases h
  | case5 inner start input =>
    obtain ⟨closed, rfl⟩ := Prod.mk.inj h
    obtain rfl := Except.ok.inj closed
    refine ⟨[⟨start, .closing⟩], rfl, ?_⟩
    exact (stackTokens_close inner []).symm
  | case6 inner outer stack start input ih =>
    obtain ⟨used, rfl, same⟩ := ih h
    refine ⟨⟨start, .closing⟩ :: used, rfl, ?_⟩
    rw [← same, stackTokens_add, stackTokens_close]
    simp
  | case7 start s input =>
    obtain ⟨read, rfl⟩ := Prod.mk.inj h
    obtain rfl := Except.ok.inj read
    exact ⟨[⟨start, .atom s⟩], rfl, rfl⟩
  | case8 inner stack start s input ih =>
    obtain ⟨used, rfl, same⟩ := ih h
    refine ⟨⟨start, .atom s⟩ :: used, rfl, ?_⟩
    rw [← same, stackTokens_add]
    simp [tokens]
  | case9 start s input =>
    obtain ⟨read, rfl⟩ := Prod.mk.inj h
    obtain rfl := Except.ok.inj read
    exact ⟨[⟨start, .quoted s⟩], rfl, rfl⟩
  | case10 inner stack start s input ih =>
    obtain ⟨used, rfl, same⟩ := ih h
    refine ⟨⟨start, .quoted s⟩ :: used, rfl, ?_⟩
    rw [← same, stackTokens_add]
    simp [tokens]
  | case11 => cases h

/-- Goes on reading after a tree: the tree is the result, or an item of the innermost open list. -/
def readOn (e : Sexpr) : List OpenList → List Lexeme → Except ReadError Sexpr × List Lexeme
  | [], rest => (.ok e, rest)
  | inner :: outer, rest => readTree (inner.add e :: outer) rest

theorem readTree_opening (stack : List OpenList) (start : Nat) (rest : List Lexeme) :
    readTree stack (⟨start, .opening⟩ :: rest) = readTree (⟨start, []⟩ :: stack) rest := by
  rw [readTree]

theorem readTree_closing (inner : OpenList) (outer : List OpenList) (start : Nat)
    (rest : List Lexeme) :
    readTree (inner :: outer) (⟨start, .closing⟩ :: rest) = readOn inner.close outer rest := by
  cases outer with
  | nil => rw [readTree, readOn]
  | cons next outer => rw [readTree, readOn]

theorem readTree_atom (stack : List OpenList) (start : Nat) (s : String) (rest : List Lexeme) :
    readTree stack (⟨start, .atom s⟩ :: rest) = readOn (.atom s) stack rest := by
  cases stack with
  | nil => rw [readTree, readOn]
  | cons inner outer => rw [readTree, readOn]

theorem readTree_quoted (stack : List OpenList) (start : Nat) (s : String) (rest : List Lexeme) :
    readTree stack (⟨start, .quoted s⟩ :: rest) = readOn (.quoted s) stack rest := by
  cases stack with
  | nil => rw [readTree, readOn]
  | cons inner outer => rw [readTree, readOn]

mutual

/-- The tokens of a tree are read as that tree, in whatever lists they stand. -/
theorem readTree_of_tokens (e : Sexpr) (stack : List OpenList) {used : List Lexeme}
    (rest : List Lexeme) (spelled : used.map (·.token) = tokens e) :
    readTree stack (used ++ rest) = readOn e stack rest := by
  cases e with
  | atom s =>
    obtain ⟨⟨start, token⟩, rfl, same⟩ := List.map_eq_singleton_iff.1 spelled
    obtain rfl : token = .atom s := same
    exact readTree_atom stack start s rest
  | quoted s =>
    obtain ⟨⟨start, token⟩, rfl, same⟩ := List.map_eq_singleton_iff.1 spelled
    obtain rfl : token = .quoted s := same
    exact readTree_quoted stack start s rest
  | list items =>
    obtain ⟨⟨start, first⟩, inside, rfl, opens, spelledInside⟩ := List.map_eq_cons_iff.1 spelled
    obtain rfl : first = .opening := opens
    obtain ⟨used, last, rfl, spelledItems, spelledLast⟩ := List.map_eq_append_iff.1 spelledInside
    obtain ⟨⟨stop, token⟩, rfl, closes⟩ := List.map_eq_singleton_iff.1 spelledLast
    obtain rfl : token = .closing := closes
    have items_read := readTree_of_forestTokens items ⟨start, []⟩ stack
      (⟨stop, .closing⟩ :: rest) spelledItems
    rw [List.cons_append, readTree_opening, List.append_assoc, List.singleton_append, items_read,
      readTree_closing, OpenList.close]
    simp

theorem readTree_of_forestTokens (items : List Sexpr) (inner : OpenList) (outer : List OpenList)
    {used : List Lexeme} (rest : List Lexeme) (spelled : used.map (·.token) = forestTokens items) :
    readTree (inner :: outer) (used ++ rest) =
      readTree (⟨inner.start, items.reverse ++ inner.newest⟩ :: outer) rest := by
  cases items with
  | nil =>
    obtain rfl := List.map_eq_nil_iff.1 spelled
    rfl
  | cons e items =>
    obtain ⟨here, later, rfl, spelledHere, spelledLater⟩ := List.map_eq_append_iff.1 spelled
    have first := readTree_of_tokens e (inner :: outer) (later ++ rest) spelledHere
    have others := readTree_of_forestTokens items (inner.add e) outer rest spelledLater
    rw [List.append_assoc, first, readOn, others, OpenList.add]
    simp

end

theorem map_eq_ok_iff {ε α β : Type} {x : Except ε α} {f : α → β} {b : β} :
    x.map f = .ok b ↔ ∃ a, x = .ok a ∧ f a = b := by
  cases x <;> simp [Except.map]

/-- After a first tree the others are read from what is left. -/
theorem readForest_of_readTree {input rest : List Lexeme} {e : Sexpr}
    (h : readTree [] input = (.ok e, rest)) :
    readForest input = (readForest rest).map (e :: ·) := by
  have ne_nil : input ≠ [] := by
    rintro rfl
    rw [readTree] at h
    cases h
  rw [readForest, if_neg (by simpa using ne_nil)]
  split
  · rename_i failed
    rw [h] at failed
    cases failed
  · rename_i first read
    have same : e = first := by
      rw [h] at read
      exact Except.ok.inj read
    have left : (readTree [] input).2 = rest := by rw [h]
    simp only [left, same]

/-- A text that is cut into the tokens of some trees, and no more, is read as these trees. -/
theorem readForest_of_forestTokens (es : List Sexpr) {input : List Lexeme}
    (spelled : input.map (·.token) = forestTokens es) : readForest input = .ok es := by
  induction es generalizing input with
  | nil =>
    obtain rfl := List.map_eq_nil_iff.1 spelled
    rw [readForest]
    rfl
  | cons e es ih =>
    obtain ⟨here, later, rfl, spelledHere, spelledLater⟩ := List.map_eq_append_iff.1 spelled
    have read := readTree_of_tokens e [] later spelledHere
    rw [readForest_of_readTree read, ih spelledLater]
    rfl

/-- What a forest was read from is cut into its tokens. -/
theorem forestTokens_of_readForest {input : List Lexeme} {es : List Sexpr}
    (h : readForest input = .ok es) : input.map (·.token) = forestTokens es := by
  fun_induction readForest input generalizing es with
  | case1 input isEmpty =>
    obtain rfl := List.isEmpty_iff.1 isEmpty
    obtain rfl := Except.ok.inj h
    rfl
  | case2 input notEmpty why failed => cases h
  | case3 input notEmpty e read shorter ih =>
    obtain ⟨others, readOthers, rfl⟩ := map_eq_ok_iff.1 h
    obtain ⟨used, split, spelled⟩ := tokens_of_readTree (Prod.ext read rfl)
    rw [split, List.map_append, ih readOthers, forestTokens]
    exact congrArg (· ++ forestTokens others) spelled

end BlockSchematic.Sexpr
