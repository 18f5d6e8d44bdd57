import BlockSchematic.Proofs.TextCut
import BlockSchematic.Proofs.TreeReading

/-!
# Balanced texts

A text is read as trees exactly when its tokens are balanced. Otherwise the first fault is
reported: the first token with which the tokens stop being a beginning of balanced ones, or the
innermost list that is still open where the text ends.
-/

namespace BlockSchematic.Sexpr

/-- All quotes are closed, and no list is closed before it is opened. -/
structure Faultless (ts : List Token) : Prop where
  quotes : .dangling ∉ ts
  depth : ∀ before, before <+: ts → before.count .closing ≤ before.count .opening

/-- Each list that is opened is closed as well. -/
structure Balanced (ts : List Token) : Prop extends Faultless ts where
  totals : ts.count .closing = ts.count .opening

abbrev spelling (ls : List Lexeme) : List Token := ls.map (·.token)

/-- What is wrong with some tokens, read from left to right: a closing parenthesis outside all
lists, a quote that is not closed, or, where the text ends, a list that is not closed although all
lists opened after it are. -/
inductive FirstFault (ls : List Lexeme) : ReadError → Prop where
  | close {before after : List Lexeme} {start : Nat}
      (split : ls = before ++ ⟨start, .closing⟩ :: after)
      (outside : Balanced (spelling before)) : FirstFault ls (.unexpectedClose start)
  | quote {before after : List Lexeme} {start : Nat}
      (split : ls = before ++ ⟨start, .dangling⟩ :: after)
      (faultless : Faultless (spelling before)) : FirstFault ls (.unterminatedString start)
  | list {before after : List Lexeme} {start : Nat}
      (split : ls = before ++ ⟨start, .opening⟩ :: after)
      (faultless : Faultless (spelling before)) (closed : Balanced (spelling after)) :
      FirstFault ls (.unclosedList start)

theorem Faultless.of_append {ts us : List Token} (h : Faultless (ts ++ us)) : Faultless ts where
  quotes := fun quote => h.quotes (List.mem_append_left us quote)
  depth := fun before shorter => h.depth before (shorter.trans (List.prefix_append ts us))

theorem Faultless.le {ts : List Token} (h : Faultless ts) : ts.count .closing ≤ ts.count .opening :=
  h.depth ts List.prefix_rfl

theorem Faultless.append {ts us : List Token} (hts : Faultless ts) (hus : Faultless us) :
    Faultless (ts ++ us) where
  quotes := by
    rw [List.mem_append, not_or]
    exact ⟨hts.quotes, hus.quotes⟩
  depth := by
    intro before shorter
    rcases List.prefix_or_prefix_of_prefix shorter (List.prefix_append ts us) with
      inside | ⟨more, rfl⟩
    · exact hts.depth before inside
    · have first := hts.le
      have second := hus.depth more ((List.prefix_append_right_inj ts).1 shorter)
      rw [List.count_append, List.count_append]
      omega

theorem Balanced.append {ts us : List Token} (hts : Balanced ts) (hus : Balanced us) :
    Balanced (ts ++ us) where
  toFaultless := hts.toFaultless.append hus.toFaultless
  totals := by
    rw [List.count_append, List.count_append, hts.totals, hus.totals]

theorem balanced_nil : Balanced [] where
  quotes := List.not_mem_nil
  depth := by
    intro before shorter
    rw [List.prefix_nil.1 shorter]
    exact Nat.le_refl _
  totals := rfl

theorem faultless_singleton {t : Token} (quote : t ≠ .dangling) (closing : t ≠ .closing) :
    Faultless [t] where
  quotes := by simpa using Ne.symm quote
  depth := by
    intro before shorter
    have fewer := shorter.sublist.count_le .closing
    have none : [t].count .closing = 0 := List.count_eq_zero.2 (by simpa using Ne.symm closing)
    omega

/-- A closing parenthesis is no fault inside a list. -/
theorem Faultless.close {ts : List Token} (h : Faultless ts)
    (inside : ts.count .closing < ts.count .opening) : Faultless (ts ++ [.closing]) where
  quotes := by
    rw [List.mem_append, not_or]
    exact ⟨h.quotes, by simp⟩
  depth := by
    intro before shorter
    rcases List.prefix_concat_iff.1 shorter with rfl | shorter
    · simp
      omega
    · exact h.depth before shorter

theorem Balanced.enclosed {ts : List Token} (h : Balanced ts) :
    Balanced (.opening :: (ts ++ [.closing])) := by
  have totals := h.totals
  have opened : Faultless (.opening :: ts) := (faultless_singleton (by simp) (by simp)).append h.toFaultless
  refine ⟨opened.close ?_, ?_⟩
  · simp
    omega
  · simp
    omega

mutual

theorem balanced_tokens (e : Sexpr) : Balanced (tokens e) := by
  cases e with
  | atom s => exact ⟨faultless_singleton (by simp) (by simp), by simp [tokens]⟩
  | quoted s => exact ⟨faultless_singleton (by simp) (by simp), by simp [tokens]⟩
  | list items =>
    rw [tokens]
    exact (balanced_forestTokens items).enclosed

theorem balanced_forestTokens (items : List Sexpr) : Balanced (forestTokens items) := by
  cases items with
  | nil => exact balanced_nil
  | cons e items =>
    rw [forestTokens]
    exact (balanced_tokens e).append (balanced_forestTokens items)

end

/-- What was read while lists that start at the given places are open, innermost first: between
two of their parentheses, and after the last, everything is balanced. -/
inductive Standing : List Lexeme → List Nat → Prop where
  | outside {ls : List Lexeme} (balanced : Balanced (spelling ls)) : Standing ls []
  | inside {before after : List Lexeme} {start : Nat} {outer : List Nat}
      (standing : Standing before outer) (balanced : Balanced (spelling after)) :
      Standing (before ++ ⟨start, .opening⟩ :: after) (start :: outer)

theorem Standing.faultless {ls : List Lexeme} {starts : List Nat} (h : Standing ls starts) :
    Faultless (spelling ls) := by
  induction h with
  | outside balanced => exact balanced.toFaultless
  | inside _ balanced ih =>
    have opened : Faultless [.opening] := faultless_singleton (by simp) (by simp)
    rw [spelling, List.map_append]
    exact ih.append (opened.append balanced.toFaultless)

/-- Something balanced is read in the innermost list. -/
theorem Standing.append {ls more : List Lexeme} {starts : List Nat} (h : Standing ls starts)
    (balanced : Balanced (spelling more)) : Standing (ls ++ more) starts := by
  cases h with
  | outside first =>
    refine .outside ?_
    rw [spelling, List.map_append]
    exact first.append balanced
  | @inside before after start outer standing first =>
    rw [List.append_assoc, List.cons_append]
    refine .inside standing ?_
    rw [spelling, List.map_append]
    exact first.append balanced

theorem Standing.open {ls : List Lexeme} {starts : List Nat} (h : Standing ls starts)
    (start : Nat) : Standing (ls ++ [⟨start, .opening⟩]) (start :: starts) :=
  .inside h balanced_nil

theorem Standing.close {ls : List Lexeme} {start : Nat} {outer : List Nat}
    (h : Standing ls (start :: outer)) (stop : Nat) :
    Standing (ls ++ [⟨stop, .closing⟩]) outer := by
  cases h with
  | @inside before after start outer standing balanced =>
    rw [List.append_assoc, List.cons_append]
    apply standing.append
    rw [spelling, List.map_cons, List.map_append]
    exact balanced.enclosed

theorem map_eq_error_iff {ε α β : Type} {x : Except ε α} {f : α → β} {e : ε} :
    x.map f = .error e ↔ x = .error e := by
  cases x <;> simp [Except.map]

/-- A fault met while a tree is read is the first one of all that was read before and all that is
left. -/
theorem fault_of_readTree {before input rest : List Lexeme} {stack : List OpenList}
    {fault : ReadError} (standing : Standing before (stack.map (·.start)))
    (h : readTree stack input = (.error fault, rest)) :
    (stack = [] ∧ input = []) ∨ FirstFault (before ++ input) fault := by
  fun_induction readTree stack input generalizing before with
  | case1 => exact .inl ⟨rfl, rfl⟩
  | case2 inner outer =>
    obtain rfl := Except.error.inj (Prod.mk.inj h).1
    rw [List.append_nil]
    cases standing with
    | inside outside balanced => exact .inr (.list rfl outside.faultless balanced)
  | case3 stack start input ih =>
    have found := (ih (standing.open start) h).resolve_left (by simp)
    rw [List.append_assoc] at found
    exact .inr found
  | case4 start input =>
    obtain rfl := Except.error.inj (Prod.mk.inj h).1
    cases standing with
    | outside balanced => exact .inr (.close rfl balanced)
  | case5 inner start input => cases h
  | case6 inner outer stack start input ih =>
    have found := (ih (standing.close start) h).resolve_left (by simp)
    rw [List.append_assoc] at found
    exact .inr found
  | case7 start s input => cases h
  | case8 inner stack start s input ih =>
    have read : Standing (before ++ [⟨start, .atom s⟩]) _ :=
      standing.append (balanced_tokens (.atom s))
    have found := (ih read h).resolve_left (by simp)
    rw [List.append_assoc] at found
    exact .inr found
  | case9 start s input => cases h
  | case10 inner stack start s input ih =>
    have read : Standing (before ++ [⟨start, .quoted s⟩]) _ :=
      standing.append (balanced_tokens (.quoted s))
    have found := (ih read h).resolve_left (by simp)
    rw [List.append_assoc] at found
    exact .inr found
  | case11 stack start input =>
    obtain rfl := Except.error.inj (Prod.mk.inj h).1
    exact .inr (.quote rfl standing.faultless)

theorem fault_of_readForest {before input : List Lexeme} {fault : ReadError}
    (balanced : Balanced (spelling before)) (h : readForest input = .error fault) :
    FirstFault (before ++ input) fault := by
  fun_induction readForest input generalizing before with
  | case1 input isEmpty => cases h
  | case2 input notEmpty why failed =>
    obtain rfl := Except.error.inj h
    have stack : Standing before (([] : List OpenList).map (·.start)) := .outside balanced
    have found := fault_of_readTree stack (Prod.ext failed rfl)
    refine found.resolve_left ?_
    rintro ⟨-, rfl⟩
    exact notEmpty rfl
  | case3 input notEmpty e read shorter ih =>
    obtain ⟨used, split, spelled⟩ := tokens_of_readTree (Prod.ext read rfl)
    have first : Balanced (spelling (before ++ used)) := by
      rw [spelling, List.map_append]
      refine balanced.append ?_
      rw [show used.map (·.token) = tokens e from spelled]
      exact balanced_tokens e
    rw [split, ← List.append_assoc]
    exact ih first (map_eq_error_iff.1 h)

/-- Two places in a list are one, or either comes before the other. -/
theorem split_cases {α : Type} {before after before' after' : List α} {x x' : α}
    (h : before ++ x :: after = before' ++ x' :: after') :
    x = x' ∨ (∃ between, before' = before ++ x :: between ∧ after = between ++ x' :: after') ∨
      ∃ between, before = before' ++ x' :: between ∧ after' = between ++ x :: after := by
  rcases List.append_eq_append_iff.1 h with ⟨between, split, rest⟩ | ⟨between, split, rest⟩
  · cases between with
    | nil => exact .inl (List.cons.inj rest).1
    | cons y between =>
      obtain ⟨rfl, later⟩ := List.cons.inj rest
      exact .inr (.inl ⟨between, split, later⟩)
  · cases between with
    | nil => exact .inl (List.cons.inj rest).1.symm
    | cons y between =>
      obtain ⟨rfl, later⟩ := List.cons.inj rest
      exact .inr (.inr ⟨between, split, later⟩)

/-- The fault that a token is if it is one. -/
def Lexeme.fault (l : Lexeme) : ReadError :=
  match l.token with
  | .closing => .unexpectedClose l.start
  | .dangling => .unterminatedString l.start
  | _ => .unclosedList l.start

/-- The tokens before `x` are faultless, but not with `x` added to them. -/
def StopsAt (ls : List Lexeme) (x : Lexeme) : Prop :=
  ∃ before after, ls = before ++ x :: after ∧ Faultless (spelling before) ∧
    ¬ Faultless (spelling (before ++ [x]))

/-- The token `x` opens the last list that is not closed. -/
def EndsOpen (ls : List Lexeme) (x : Lexeme) : Prop :=
  Faultless (spelling ls) ∧ x.token = .opening ∧
    ∃ before after, ls = before ++ x :: after ∧ Balanced (spelling after)

theorem FirstFault.stopsAt_or_endsOpen {ls : List Lexeme} {fault : ReadError}
    (h : FirstFault ls fault) : ∃ x, fault = Lexeme.fault x ∧ (StopsAt ls x ∨ EndsOpen ls x) := by
  cases h with
  | @close before after start split outside =>
    refine ⟨⟨start, .closing⟩, rfl, .inl ⟨before, after, split, outside.toFaultless, ?_⟩⟩
    intro goesOn
    have more := goesOn.le
    have totals := outside.totals
    simp [spelling] at more totals
    omega
  | @quote before after start split faultless =>
    refine ⟨⟨start, .dangling⟩, rfl, .inl ⟨before, after, split, faultless, ?_⟩⟩
    intro goesOn
    exact goesOn.quotes (by simp [spelling])
  | @list before after start split faultless closed =>
    refine ⟨⟨start, .opening⟩, rfl, .inr ⟨?_, rfl, before, after, split, closed⟩⟩
    have opened : Faultless [.opening] := faultless_singleton (by simp) (by simp)
    rw [split, spelling, List.map_append]
    exact faultless.append (opened.append closed.toFaultless)

theorem Faultless.not_stopsAt {ls : List Lexeme} {x : Lexeme} (h : Faultless (spelling ls)) :
    ¬ StopsAt ls x := by
  rintro ⟨before, after, rfl, -, stops⟩
  have split : before ++ x :: after = (before ++ [x]) ++ after := by simp
  rw [split, spelling, List.map_append] at h
  exact stops h.of_append

/-- A list that is not closed leaves what comes before it and after it out of balance. -/
theorem Balanced.not_endsOpen {ls : List Lexeme} {x : Lexeme} (h : Balanced (spelling ls)) :
    ¬ EndsOpen ls x := by
  rintro ⟨faultless, opens, before, after, rfl, closed⟩
  rw [spelling, List.map_append, List.map_cons, opens] at h faultless
  have fewer := faultless.of_append.le
  have totals := h.totals
  have totalsAfter := closed.totals
  simp [spelling] at fewer totals totalsAfter
  omega

theorem Balanced.not_firstFault {ls : List Lexeme} {fault : ReadError}
    (balanced : Balanced (spelling ls)) : ¬ FirstFault ls fault := by
  intro h
  obtain ⟨x, -, stops | opens⟩ := h.stopsAt_or_endsOpen
  · exact balanced.toFaultless.not_stopsAt stops
  · exact balanced.not_endsOpen opens

theorem StopsAt.unique {ls : List Lexeme} {x x' : Lexeme} (h : StopsAt ls x)
    (h' : StopsAt ls x') : x = x' := by
  obtain ⟨before, after, rfl, faultless, stops⟩ := h
  obtain ⟨before', after', split, faultless', stops'⟩ := h'
  rcases split_cases split with same | ⟨between, rfl, -⟩ | ⟨between, rfl, -⟩
  · exact same
  · exact absurd ⟨before, between, rfl, faultless, stops⟩ faultless'.not_stopsAt
  · exact absurd ⟨before', between, rfl, faultless', stops'⟩ faultless.not_stopsAt

theorem EndsOpen.unique {ls : List Lexeme} {x x' : Lexeme} (h : EndsOpen ls x)
    (h' : EndsOpen ls x') : x = x' := by
  obtain ⟨faultless, opens, before, after, rfl, closed⟩ := h
  obtain ⟨faultless', opens', before', after', split, closed'⟩ := h'
  rcases split_cases split with same | ⟨between, rfl, rfl⟩ | ⟨between, rfl, rfl⟩
  · exact same
  · exact absurd ⟨closed.toFaultless, opens', between, after', rfl, closed'⟩ closed.not_endsOpen
  · exact absurd ⟨closed'.toFaultless, opens, between, after, rfl, closed⟩ closed'.not_endsOpen

theorem FirstFault.unique {ls : List Lexeme} {fault fault' : ReadError} (h : FirstFault ls fault)
    (h' : FirstFault ls fault') : fault = fault' := by
  obtain ⟨x, rfl, stops | opens⟩ := h.stopsAt_or_endsOpen
  · obtain ⟨x', rfl, stops' | opens'⟩ := h'.stopsAt_or_endsOpen
    · rw [stops.unique stops']
    · exact absurd stops opens'.1.not_stopsAt
  · obtain ⟨x', rfl, stops' | opens'⟩ := h'.stopsAt_or_endsOpen
    · exact absurd stops' opens.1.not_stopsAt
    · rw [opens.unique opens']

theorem readForest_eq_error_iff {ls : List Lexeme} {fault : ReadError} :
    readForest ls = .error fault ↔ FirstFault ls fault := by
  have start : Balanced (spelling []) := balanced_nil
  constructor
  · exact fault_of_readForest start
  · intro h
    cases result : readForest ls with
    | ok es =>
      have spelled : spelling ls = forestTokens es := forestTokens_of_readForest result
      have balanced : Balanced (spelling ls) := spelled ▸ balanced_forestTokens es
      exact absurd h balanced.not_firstFault
    | error other =>
      have found : FirstFault ls other := fault_of_readForest start result
      rw [found.unique h]

theorem readForest_eq_ok_iff {ls : List Lexeme} {es : List Sexpr} :
    readForest ls = .ok es ↔ forestTokens es = spelling ls :=
  ⟨fun read => (forestTokens_of_readForest read).symm,
    fun spelled => readForest_of_forestTokens es spelled.symm⟩

theorem balanced_iff_readForest {ls : List Lexeme} :
    Balanced (spelling ls) ↔ ∃ es, readForest ls = .ok es := by
  constructor
  · intro balanced
    cases result : readForest ls with
    | ok es => exact ⟨es, rfl⟩
    | error fault => exact absurd (readForest_eq_error_iff.1 result) balanced.not_firstFault
  · rintro ⟨es, read⟩
    rw [← readForest_eq_ok_iff.1 read]
    exact balanced_forestTokens es

end BlockSchematic.Sexpr
