import BlockSchematic.Proofs.TreeReading
import BlockSchematic.Sexpr.Printer

/-!
# Printed trees read back

A printed tree is cut into the tokens of the tree again, wherever it is broken into lines. Only the
quotes inside quoted atoms do not come back, since printing makes apostrophes of them. So the trees
that read back as they were are those whose bare atoms are bare texts and whose quoted atoms hold
no quote, and these are just the trees that reading can give.
-/

namespace BlockSchematic.Sexpr

/-- A tree whose atoms can all be written down. -/
inductive Readable : Sexpr → Prop where
  | atom {s : String} (bare : IsBare s.toList) : Readable (.atom s)
  | quoted {s : String} (closed : '"' ∉ s.toList) : Readable (.quoted s)
  | list {items : List Sexpr} (readable : ∀ e ∈ items, Readable e) : Readable (.list items)

mutual

theorem readable_iff (e : Sexpr) : e.Readable ↔ ∀ t ∈ tokens e, t.Spelled := by
  cases e with
  | atom s =>
    rw [tokens, List.forall_mem_singleton]
    exact ⟨fun | .atom bare => bare, .atom⟩
  | quoted s =>
    rw [tokens, List.forall_mem_singleton]
    exact ⟨fun | .quoted closed => closed, .quoted⟩
  | list items =>
    have inside := allReadable_iff items
    rw [tokens, List.forall_mem_cons, List.forall_mem_append, List.forall_mem_singleton]
    constructor
    · rintro (_ | _ | readable)
      exact ⟨trivial, inside.1 readable, trivial⟩
    · rintro ⟨-, spelled, -⟩
      exact .list (inside.2 spelled)

theorem allReadable_iff (items : List Sexpr) :
    (∀ e ∈ items, e.Readable) ↔ ∀ t ∈ forestTokens items, t.Spelled := by
  cases items with
  | nil => simp [forestTokens]
  | cons e items =>
    rw [List.forall_mem_cons, forestTokens, List.forall_mem_append, readable_iff e,
      allReadable_iff items]

end

def withoutQuotesText (s : String) : String := String.ofList (withoutQuotes s.toList)

mutual

/-- The tree that a printed tree reads back as. -/
def asWritten : Sexpr → Sexpr
  | .atom s => .atom s
  | .quoted s => .quoted (withoutQuotesText s)
  | .list items => .list (allAsWritten items)

def allAsWritten : List Sexpr → List Sexpr
  | [] => []
  | e :: rest => e.asWritten :: allAsWritten rest

end

theorem allAsWritten_eq_map (items : List Sexpr) : allAsWritten items = items.map asWritten := by
  induction items with
  | nil => rfl
  | cons e items ih => rw [allAsWritten, ih, List.map_cons]

theorem asWritten_form (head : String) (rest : List Sexpr) :
    (form head rest).asWritten = form head (rest.map asWritten) := by
  rw [form, asWritten, allAsWritten_eq_map]
  rfl

/-- The bare atoms among the tokens are bare texts; quoted atoms may hold anything. -/
def BareAtoms (ts : List Token) : Prop := ∀ s, .atom s ∈ ts → IsBare s.toList

theorem BareAtoms.left {ts us : List Token} (h : BareAtoms (ts ++ us)) : BareAtoms ts :=
  fun s hs => h s (List.mem_append_left _ hs)

theorem BareAtoms.right {ts us : List Token} (h : BareAtoms (ts ++ us)) : BareAtoms us :=
  fun s hs => h s (List.mem_append_right _ hs)

theorem BareAtoms.of_cons {t : Token} {ts : List Token} (h : BareAtoms (t :: ts)) : BareAtoms ts :=
  fun s hs => h s (List.mem_cons_of_mem _ hs)

theorem bareAtoms_atom {s : String} (bare : IsBare s.toList) : BareAtoms (tokens (.atom s)) := by
  intro t ht
  rw [tokens, List.mem_singleton] at ht
  obtain rfl := Token.atom.inj ht
  exact bare

theorem bareAtoms_quoted (s : String) : BareAtoms (tokens (.quoted s)) := by
  intro t ht
  rw [tokens, List.mem_singleton] at ht
  cases ht

theorem bareAtoms_forestTokens {items : List Sexpr} (bare : ∀ e ∈ items, BareAtoms (tokens e)) :
    BareAtoms (forestTokens items) := by
  induction items with
  | nil => exact nofun
  | cons e items ih =>
    obtain ⟨first, others⟩ := List.forall_mem_cons.1 bare
    intro s hs
    rw [forestTokens] at hs
    rcases List.mem_append.1 hs with here | later
    · exact first s here
    · exact ih others s later

theorem bareAtoms_form {head : String} {rest : List Sexpr} (bareHead : IsBare head.toList)
    (bareRest : ∀ e ∈ rest, BareAtoms (tokens e)) : BareAtoms (tokens (form head rest)) := by
  have inside : BareAtoms (forestTokens (.atom head :: rest)) :=
    bareAtoms_forestTokens (List.forall_mem_cons.2 ⟨bareAtoms_atom bareHead, bareRest⟩)
  intro s hs
  rw [form, tokens] at hs
  simp only [List.mem_cons, List.mem_append, List.not_mem_nil, or_false, reduceCtorEq,
    false_or] at hs
  exact inside s hs

theorem notMem_withoutQuotes (cs : List Char) : '"' ∉ withoutQuotes cs := by
  rw [withoutQuotes, List.mem_map]
  rintro ⟨c, -, same⟩
  by_cases quote : c = '"'
  · rw [if_pos quote] at same
    cases same
  · rw [if_neg quote] at same
    exact quote same

theorem withoutQuotes_eq_self {cs : List Char} (closed : '"' ∉ cs) : withoutQuotes cs = cs := by
  rw [withoutQuotes]
  conv => rhs; rw [← List.map_id cs]
  refine List.map_congr_left fun c hc => if_neg ?_
  rintro rfl
  exact closed hc

theorem withoutQuotesText_eq_self {s : String} (closed : '"' ∉ s.toList) :
    withoutQuotesText s = s := by
  rw [withoutQuotesText, withoutQuotes_eq_self closed, String.ofList_toList]

theorem notMem_withoutQuotesText (s : String) : '"' ∉ (withoutQuotesText s).toList := by
  rw [withoutQuotesText, String.toList_ofList]
  exact notMem_withoutQuotes _

theorem withoutQuotesText_eq_self_iff {s : String} :
    withoutQuotesText s = s ↔ '"' ∉ s.toList := by
  refine ⟨fun same => ?_, withoutQuotesText_eq_self⟩
  rw [← same]
  exact notMem_withoutQuotesText s

@[simp] theorem withoutQuotesText_idem (s : String) :
    withoutQuotesText (withoutQuotesText s) = withoutQuotesText s :=
  withoutQuotesText_eq_self (notMem_withoutQuotesText s)

theorem endsAtom_nil : EndsAtom [] := nofun

theorem endsAtom_cons {c : Char} {rest : List Char} (delimiter : isDelimiter c = true) :
    EndsAtom (c :: rest) := by
  rintro d ⟨⟩
  exact delimiter

theorem endsAtom_inlineRest (items : List Sexpr) {rest : List Char} (ends : EndsAtom rest) :
    EndsAtom (inlineRest items ++ rest) := by
  cases items with
  | nil => exact ends
  | cons e items =>
    rw [inlineRest]
    exact endsAtom_cons (by decide)

theorem endsAtom_brokenRest (level : Nat) (items : List Sexpr) {rest : List Char}
    (ends : EndsAtom rest) : EndsAtom (brokenRest level items ++ rest) := by
  cases items with
  | nil => exact ends
  | cons e items =>
    rw [brokenRest]
    exact endsAtom_cons (by decide)

theorem tokenize_tabs (n : Nat) (cs : List Char) :
    tokenize (List.replicate n '\t' ++ cs) = tokenize cs := by
  induction n with
  | zero => rfl
  | succ n ih => rw [List.replicate_succ, List.cons_append, tokenize_blank (by decide), ih]

mutual

/-- A printed tree is cut into the tokens of the tree that it reads back as. -/
theorem tokenize_bodyChars (level : Nat) (e : Sexpr) {rest : List Char}
    (bare : BareAtoms (tokens e)) (ends : EndsAtom rest) :
    tokenize (bodyChars level e ++ rest) = tokens e.asWritten ++ tokenize rest := by
  cases e with
  | atom s =>
    have cut := tokenize_atom (bare s (by simp [tokens])) ends
    rw [String.ofList_toList] at cut
    rw [bodyChars, cut]
    rfl
  | quoted s =>
    have cut : tokenize ('"' :: (withoutQuotes s.toList ++ '"' :: rest)) =
      .quoted (withoutQuotesText s) :: tokenize rest := tokenize_quoted (notMem_withoutQuotes _)
    rw [bodyChars, quotedChars, List.cons_append, List.append_assoc, List.singleton_append, cut]
    rfl
  | list items =>
    cases items with
    | nil =>
      rw [bodyChars]
      simp [asWritten, allAsWritten, tokens, forestTokens]
    | cons first more =>
      rw [tokens, forestTokens] at bare
      have bareFirst : BareAtoms (tokens first) := bare.of_cons.left.left
      have bareMore : BareAtoms (forestTokens more) := bare.of_cons.left.right
      have closes : EndsAtom (')' :: rest) := endsAtom_cons (by decide)
      -- Both layouts put a blank before each further item.
      obtain ⟨tail, layout, tailEnds, tailCut⟩ : ∃ tail,
          (if isInline (first :: more) then inlineRest more else brokenRest level more) = tail ∧
          EndsAtom (tail ++ ')' :: rest) ∧
          tokenize (tail ++ ')' :: rest) =
            forestTokens (allAsWritten more) ++ tokenize (')' :: rest) := by
        by_cases inline : isInline (first :: more) = true
        · exact ⟨_, if_pos inline, endsAtom_inlineRest more closes,
            tokenize_inlineRest more bareMore closes⟩
        · exact ⟨_, if_neg inline, endsAtom_brokenRest level more closes,
            tokenize_brokenRest level more bareMore closes⟩
      have firstCut := tokenize_bodyChars 0 first bareFirst tailEnds
      have whole : bodyChars level (.list (first :: more)) ++ rest =
          '(' :: (bodyChars 0 first ++ (tail ++ ')' :: rest)) := by
        rw [bodyChars, layout]
        simp
      rw [whole, tokenize_opening, firstCut, tailCut, tokenize_closing]
      simp [asWritten, allAsWritten, tokens, forestTokens]

theorem tokenize_inlineRest (items : List Sexpr) {rest : List Char}
    (bare : BareAtoms (forestTokens items)) (ends : EndsAtom rest) :
    tokenize (inlineRest items ++ rest) = forestTokens (allAsWritten items) ++ tokenize rest := by
  cases items with
  | nil => rfl
  | cons e items =>
    rw [forestTokens] at bare
    have later := tokenize_inlineRest items bare.right ends
    have here := tokenize_bodyChars 0 e bare.left (endsAtom_inlineRest items ends)
    rw [inlineRest, List.cons_append, tokenize_blank (by decide), List.append_assoc, here, later,
      allAsWritten, forestTokens, List.append_assoc]

theorem tokenize_brokenRest (level : Nat) (items : List Sexpr) {rest : List Char}
    (bare : BareAtoms (forestTokens items)) (ends : EndsAtom rest) :
    tokenize (brokenRest level items ++ rest) =
      forestTokens (allAsWritten items) ++ tokenize rest := by
  cases items with
  | nil => rfl
  | cons e items =>
    rw [forestTokens] at bare
    have later := tokenize_brokenRest level items bare.right ends
    have here := tokenize_bodyChars (level + 1) e bare.left (endsAtom_brokenRest level items ends)
    rw [brokenRest, List.cons_append, tokenize_blank (by decide), List.append_assoc,
      List.append_assoc, tokenize_tabs, here, later, allAsWritten, forestTokens, List.append_assoc]

end

/-- A printed tree, indented or not, is cut into its tokens. -/
theorem tokenize_formatChars (level : Nat) (e : Sexpr) {rest : List Char}
    (bare : BareAtoms (tokens e)) (ends : EndsAtom rest) :
    tokenize (formatChars level e ++ rest) = tokens e.asWritten ++ tokenize rest := by
  rw [formatChars, List.append_assoc, tokenize_tabs, tokenize_bodyChars level e bare ends]

theorem toList_format (e : Sexpr) (level : Nat) : (e.format level).toList = formatChars level e :=
  String.toList_ofList

theorem parse_of_tokenize {text : String} {e : Sexpr} (h : tokenize text.toList = tokens e) :
    parse text = .ok e := by
  have read : readTree [] (lexemes text ++ []) = readOn e [] [] := readTree_of_tokens e [] [] h
  rw [List.append_nil] at read
  exact congrArg Prod.fst read

theorem parseAll_of_tokenize {text : String} {es : List Sexpr}
    (h : tokenize text.toList = forestTokens es) : parseAll text = .ok es :=
  readForest_of_forestTokens es h

theorem parse_format (e : Sexpr) (level : Nat) (bare : BareAtoms (tokens e)) :
    parse (e.format level) = .ok e.asWritten := by
  refine parse_of_tokenize ?_
  have cut := tokenize_formatChars level e bare endsAtom_nil
  rw [List.append_nil, tokenize_nil, List.append_nil] at cut
  rw [toList_format, cut]

theorem Readable.bareAtoms {e : Sexpr} (h : e.Readable) : BareAtoms (tokens e) :=
  fun s hs => (readable_iff e).1 h (.atom s) hs

mutual

theorem Readable.asWritten_eq {e : Sexpr} (h : e.Readable) : e.asWritten = e := by
  cases h with
  | atom bare => rfl
  | quoted closed => rw [asWritten, withoutQuotesText_eq_self closed]
  | list readable => rw [asWritten, allAsWritten_eq readable]

theorem allAsWritten_eq {items : List Sexpr} (h : ∀ e ∈ items, e.Readable) :
    allAsWritten items = items := by
  cases items with
  | nil => rfl
  | cons e items =>
    obtain ⟨first, others⟩ := List.forall_mem_cons.1 h
    rw [allAsWritten, first.asWritten_eq, allAsWritten_eq others]

end

theorem Readable.of_tokenize {text : String} {e : Sexpr}
    (h : ∀ t ∈ tokens e, t ∈ tokenize text.toList) : e.Readable := by
  refine (readable_iff e).2 fun t ht => ?_
  obtain ⟨l, hl, rfl⟩ := List.mem_map.1 (h t ht)
  exact spelled_of_mem_scan hl

/-- What is read from a text can be written down. -/
theorem readable_of_parse {text : String} {e : Sexpr} (h : parse text = .ok e) : e.Readable := by
  have read : readTree [] (lexemes text) = (.ok e, (readTree [] (lexemes text)).2) := Prod.ext h rfl
  obtain ⟨used, split, spelled⟩ := tokens_of_readTree read
  have inText : ∀ t ∈ tokens e, t ∈ tokenize text.toList := by
    intro t ht
    rw [← spelled] at ht
    rw [← map_token_lexemes, split, List.map_append]
    exact List.mem_append_left _ ht
  exact .of_tokenize inText

theorem readable_of_parseAll {text : String} {es : List Sexpr} (h : parseAll text = .ok es) :
    ∀ e ∈ es, e.Readable := by
  have spelled : tokenize text.toList = forestTokens es := forestTokens_of_readForest h
  refine (allReadable_iff es).2 fun t ht => ?_
  obtain ⟨l, hl, rfl⟩ := List.mem_map.1 (spelled ▸ ht)
  exact spelled_of_mem_scan hl

theorem tokenize_lines (trees : List (Sexpr × Nat))
    (bare : ∀ p ∈ trees, BareAtoms (tokens p.1)) :
    tokenize (['\n'].intercalate (trees.map fun p => formatChars p.2 p.1)) =
      forestTokens (allAsWritten (trees.map (·.1))) := by
  induction trees with
  | nil => exact tokenize_nil
  | cons p trees ih =>
    obtain ⟨bareFirst, bareOthers⟩ := List.forall_mem_cons.1 bare
    cases trees with
    | nil =>
      have cut := tokenize_formatChars p.2 p.1 bareFirst endsAtom_nil
      rw [List.append_nil] at cut
      rw [List.map_singleton, List.intercalate_singleton, cut, tokenize_nil]
      rfl
    | cons q trees =>
      have breaks : isDelimiter '\n' = true := by decide
      have others := ih bareOthers
      rw [List.map_cons] at others
      rw [List.map_cons, List.map_cons, List.intercalate_cons_cons, List.append_assoc,
        List.singleton_append, tokenize_formatChars p.2 p.1 bareFirst (endsAtom_cons breaks),
        tokenize_blank (by decide), others]
      rfl

/-- A tree reads back from its printed form just when all its atoms can be written down. Whatever
is read has this form, and any number of such trees, printed one below the other, are read
back. -/
theorem printing_round_trip :
    (∀ (e : Sexpr) (level : Nat), parse (e.format level) = .ok e ↔ e.Readable) ∧
    (∀ (text : String) (e : Sexpr), parse text = .ok e → e.Readable) ∧
    (∀ (text : String) (es : List Sexpr), parseAll text = .ok es → ∀ e ∈ es, e.Readable) ∧
    ∀ trees : List (Sexpr × Nat), (∀ p ∈ trees, p.1.Readable) →
      parseAll ("\n".intercalate (trees.map fun p => p.1.format p.2)) = .ok (trees.map (·.1)) := by
  refine ⟨fun e level => ⟨readable_of_parse, fun readable => ?_⟩, fun _ _ => readable_of_parse,
    fun _ _ => readable_of_parseAll, fun trees readable => ?_⟩
  · rw [parse_format e level readable.bareAtoms, readable.asWritten_eq]
  · have readableTrees : ∀ e ∈ trees.map (·.1), e.Readable := by
      simpa using readable
    have cut := tokenize_lines trees fun p hp => (readable p hp).bareAtoms
    rw [allAsWritten_eq readableTrees] at cut
    refine parseAll_of_tokenize ?_
    rw [String.toList_intercalate, List.map_map, ← cut]
    congr 3
    funext p
    exact toList_format p.1 p.2

end BlockSchematic.Sexpr
