import BlockSchematic.Document.Write
import BlockSchematic.Proofs.JsonNumbers
import Mathlib.Data.List.DropRight
import Mathlib.Data.List.Forall2

/-!
# Written values read back

A decoder decodes a value if it reads the value's written form, at any depth and in front of any
text that does not go on with a number. Texts, names and whole numbers are decoded as they were
written, and a list is decoded if each of its items is.
-/

namespace BlockSchematic.Json

/-! ## Texts -/

theorem hexValue?_digitChar {d : Nat} (small : d < 16) : hexValue? d.digitChar = some d := by
  revert d
  decide

theorem readText_cons {c : Char} (plain : c ≠ '"' ∧ c ≠ '\\' ∧ 0x20 ≤ c.toNat) (rest : List Char) :
    readText (c :: rest) = (readText rest).map fun (chars, after) => (c :: chars, after) := by
  rw [readText, if_neg plain.1, if_neg plain.2.1, if_neg (by omega)]

theorem readText_backslash {cs : List Char} {c : Char} {n : Nat}
    (escape : readEscape cs = .ok (c, n)) :
    readText ('\\' :: cs) =
      (readText (cs.drop n)).map fun (chars, after) => (c :: chars, after) := by
  rw [readText, if_neg (by decide), if_pos rfl, escape]

theorem readText_mark {mark c : Char} (escape : simpleEscape? mark = some c) (rest : List Char) :
    readText ('\\' :: mark :: rest) =
      (readText rest).map fun (chars, after) => (c :: chars, after) := by
  have read : readEscape (mark :: rest) = .ok (c, 1) := by
    rw [readEscape.eq_3, escape]
    rintro rfl
    cases escape
  exact readText_backslash read

theorem readEscape_unicode {n : Nat} (control : n < 0x20) (rest : List Char) :
    readEscape ('u' :: '0' :: '0' :: (n / 16).digitChar :: (n % 16).digitChar :: rest) =
      .ok (Char.ofNat n, 5) := by
  have zero : hexValue? '0' = some 0 := rfl
  have high := hexValue?_digitChar (d := n / 16) (by omega)
  have low := hexValue?_digitChar (d := n % 16) (by omega)
  have value : ((0 * 16 + 0) * 16 + n / 16) * 16 + n % 16 = n := by omega
  have notLow : isLowSurrogate n = false := by
    simp only [isLowSurrogate, Bool.and_eq_false_iff, decide_eq_false_iff_not]
    omega
  have notHigh : isHighSurrogate n = false := by
    simp only [isHighSurrogate, Bool.and_eq_false_iff, decide_eq_false_iff_not]
    omega
  have digits : readHex ('0' :: '0' :: (n / 16).digitChar :: (n % 16).digitChar :: rest) =
      .ok n := by
    simp only [readHex, zero, high, low, value]
  have read : readUnicode ('0' :: '0' :: (n / 16).digitChar :: (n % 16).digitChar :: rest) =
      .ok (Char.ofNat n, 4) := by
    rw [readUnicode, digits]
    simp only [notLow, notHigh, bind, Except.bind, Bool.false_eq_true, if_false]
  rw [readEscape, read]
  rfl

/-- An escaped character reads as the character, and what follows it goes on as before. -/
theorem readText_escapeChar (c : Char) (rest : List Char) :
    readText (escapeChar c ++ rest) =
      (readText rest).map fun (chars, after) => (c :: chars, after) := by
  have coded {n : Nat} (code : c.toNat = n) : c = Char.ofNat n := by rw [← code, Char.ofNat_toNat]
  rw [escapeChar]
  split
  · rename_i quote
    subst quote
    exact readText_mark rfl rest
  split
  · rename_i backslash
    subst backslash
    exact readText_mark rfl rest
  rename_i notQuote notBackslash
  split
  · rename_i printable
    exact readText_cons ⟨notQuote, notBackslash, printable⟩ rest
  rename_i control
  -- The five control characters that have a letter of their own.
  iterate 5
    split
    · rename_i code
      rw [coded code]
      exact readText_mark rfl rest
  have read := readEscape_unicode (Nat.lt_of_not_le control) rest
  rw [Char.ofNat_toNat] at read
  exact readText_backslash read

theorem readText_escaped (chars rest : List Char) :
    readText (chars.flatMap escapeChar ++ '"' :: rest) = .ok (chars, rest) := by
  induction chars with
  | nil => rw [List.flatMap_nil, List.nil_append, readText, if_pos rfl]
  | cons c chars ih =>
    rw [List.flatMap_cons, List.append_assoc, readText_escapeChar, ih]
    rfl

theorem textChars_append (s : String) (rest : List Char) :
    textChars s ++ rest = '"' :: (s.toList.flatMap escapeChar ++ '"' :: rest) := by
  simp only [textChars, List.cons_append, List.append_assoc, List.nil_append]

/-! ## Spaces -/

theorem skipSpaces_cons {c : Char} (solid : isSpace c = false) (rest : List Char) :
    skipSpaces (c :: rest) = c :: rest := by
  rw [skipSpaces, List.dropWhile_cons_of_neg (by simp [solid])]

theorem skipSpaces_skipSpaces (cs : List Char) : skipSpaces (skipSpaces cs) = skipSpaces cs :=
  List.dropWhile_idempotent _ cs

theorem skipSpaces_newLine_append (depth : Nat) (rest : List Char) :
    skipSpaces (newLine depth ++ rest) = skipSpaces rest := by
  have spaces : ∀ n, skipSpaces (List.replicate n ' ' ++ rest) = skipSpaces rest := by
    intro n
    induction n with
    | zero => rfl
    | succ n ih => exact ih
  exact spaces (2 * depth)

/-- The first character that counts can start neither the null of an absent value nor the end of
an array. -/
def Opens (cs : List Char) : Prop := ∃ c rest, skipSpaces cs = c :: rest ∧ c ≠ ']' ∧ c ≠ 'n'

theorem opens_cons {c : Char} (solid : isSpace c = false ∧ c ≠ ']' ∧ c ≠ 'n') (rest : List Char) :
    Opens (c :: rest) := ⟨c, rest, skipSpaces_cons solid.1 rest, solid.2⟩

theorem skipSpaces_append {cs : List Char} {c : Char} {left : List Char}
    (starts : skipSpaces cs = c :: left) (rest : List Char) :
    skipSpaces (cs ++ rest) = c :: (left ++ rest) := by
  rw [skipSpaces, List.dropWhile_append, ← skipSpaces, starts]
  rfl

theorem Opens.append {cs : List Char} (opens : Opens cs) (rest : List Char) :
    Opens (cs ++ rest) := by
  obtain ⟨c, left, starts, other⟩ := opens
  exact ⟨c, left ++ rest, skipSpaces_append starts rest, other⟩

/-! ## What a decoder decodes -/

variable {α β : Type} {d : Decoder α} {accept : Number → Option α} {v : Json} {a : α}
  {cs rest left : List Char}

/-- The decoder reads the value from its written form. An item of a list is told from the closing
bracket by the character it opens with, and the value of a member has a space in front of it. -/
structure Decodes (d : Decoder α) (v : Json) (a : α) : Prop where
  skips : ∀ cs, d (skipSpaces cs) = d cs
  opens : ∀ depth, Opens (prettyChars depth v)
  reads : ∀ depth rest, EndsNumber rest → d (prettyChars depth v ++ rest) = .ok (a, rest)

theorem Decodes.map (h : Decodes d v a) (f : α → β) :
    Decodes (d.map f) v (f a) where
  skips cs := by rw [Decoder.map, h.skips, ← Decoder.map]
  opens := h.opens
  reads depth rest ends := by
    rw [Decoder.map, h.reads depth rest ends]
    rfl

/-- A written value is a whole text. -/
theorem Decodes.decodeText_pretty (h : Decodes d v a) :
    decodeText d v.pretty = .ok a := by
  have read := h.reads 0 [] endsNumber_nil
  rw [List.append_nil] at read
  rw [decodeText, pretty, String.toList_ofList, read]
  rfl

theorem decodes_text (s : String) : Decodes .text (.text s) s where
  skips cs := by simp only [Decoder.text, skipSpaces_skipSpaces]
  opens _ := opens_cons (by decide) _
  reads depth rest _ := by
    rw [prettyChars, textChars_append, Decoder.text, skipSpaces_cons (by decide)]
    simp only [if_true, readText_escaped, Except.map, String.ofList_toList]

theorem decodes_choice {ofName? : String → Option α} {name : String}
    (named : ofName? name = some a) : Decodes (.choice ofName?) (.text name) a where
  skips cs := by simp only [Decoder.choice, skipSpaces_skipSpaces]
  opens _ := opens_cons (by decide) _
  reads depth rest ends := by
    have read := (decodes_text name).reads depth rest ends
    rw [prettyChars, textChars_append] at read ⊢
    simp only [Decoder.choice, skipSpaces_cons (show isSpace '"' = false from rfl), read, named]

/-! ## Numbers -/

theorem number_skipSpaces (accept : Number → Option α) (cs : List Char) :
    Decoder.number accept (skipSpaces cs) = Decoder.number accept cs := by
  simp only [Decoder.number, skipSpaces_skipSpaces]

/-- A number decoder takes what it reads from the start of a number. -/
theorem exists_of_number (read : Decoder.number accept cs = .ok (a, left)) :
    ∃ c digits n, skipSpaces cs = c :: digits ∧ startsNumber c = true ∧
      readNumber (c :: digits) = .ok (n, left) ∧ accept n = some a := by
  rw [Decoder.number] at read
  split at read
  · cases read
  · rename_i c digits starts
    split at read
    · rename_i number
      split at read
      · cases read
      · rename_i n after run
        split at read
        · rename_i b accepted
          cases read
          exact ⟨c, digits, n, starts, number, run, accepted⟩
        · cases read
    · cases read

/-- What a number decoder reads alone, it reads in front of what does not go on with it. -/
theorem number_append (ends : EndsNumber rest)
    (read : Decoder.number accept cs = .ok (a, [])) :
    Decoder.number accept (cs ++ rest) = .ok (a, rest) := by
  obtain ⟨c, digits, n, starts, number, run, accepted⟩ := exists_of_number read
  have longer : readNumber (c :: (digits ++ rest)) = .ok (n, rest) := readNumber_append ends run
  rw [Decoder.number, skipSpaces_append starts]
  simp only [number, if_true, longer, accepted]

theorem opens_of_number (read : Decoder.number accept cs = .ok (a, left)) : Opens cs := by
  obtain ⟨c, digits, -, starts, number, -⟩ := exists_of_number read
  refine ⟨c, digits, starts, ?_, ?_⟩ <;> rintro rfl <;> cases number

theorem decodes_number
    (read : ∀ depth, Decoder.number accept (prettyChars depth v) = .ok (a, [])) :
    Decodes (.number accept) v a where
  skips := number_skipSpaces accept
  opens depth := opens_of_number (read depth)
  reads depth _ ends := number_append ends (read depth)

theorem isSpace_eq_false_of_isDigit {c : Char} (digit : c.isDigit = true) : isSpace c = false := by
  refine Bool.eq_false_iff.2 fun space => ?_
  simp only [isSpace, Bool.or_eq_true, beq_iff_eq] at space
  rcases space with ((rfl | rfl) | rfl) | rfl <;> cases digit

theorem startsNumber_intChars (n : Int) :
    ∃ c digits, Text.intChars n = c :: digits ∧ isSpace c = false ∧ startsNumber c = true := by
  obtain ⟨c, digits, whole, sign, -⟩ := Text.exists_intChars_eq_cons n
  refine ⟨c, digits, whole, ?_, ?_⟩
  · rcases sign with digit | rfl
    · exact isSpace_eq_false_of_isDigit digit
    · rfl
  · rcases sign with digit | rfl
    · rw [startsNumber, digit, Bool.or_true]
    · rfl

theorem decodes_integer {n : Int} (small : n.natAbs < WordBound.unsigned64)
    (accepted : accept (wholeNumber (decide (n < 0)) n.natAbs) = some a) :
    Decodes (.number accept) (.integer n) a := by
  refine decodes_number fun depth => ?_
  have run := readNumber_intChars small
  obtain ⟨c, digits, whole, solid, number⟩ := startsNumber_intChars n
  rw [whole] at run
  rw [prettyChars, whole, Decoder.number, skipSpaces_cons solid]
  simp only [number, if_true, run, accepted]

theorem decodes_natural {n : Nat} (small : n < WordBound.unsigned64)
    (accepted : accept (.natural n) = some a) : Decodes (.number accept) (.integer n) a := by
  refine decodes_integer small ?_
  have notNegative : ¬(n : Int) < 0 := by omega
  rw [decide_eq_false notNegative, Int.natAbs_natCast]
  exact accepted

theorem decodes_negative {n : Nat} (positive : 0 < n) (small : n ≤ WordBound.signed64)
    (accepted : accept (.negative n) = some a) : Decodes (.number accept) (.integer (-n)) a := by
  have word : WordBound.signed64 < WordBound.unsigned64 := by decide
  have negative : -(n : Int) < 0 := by omega
  refine decodes_integer (by omega) ?_
  rw [decide_eq_true negative, Int.natAbs_neg, Int.natAbs_natCast]
  simp only [wholeNumber, Bool.not_true, Bool.false_eq_true, if_false, positive, small, and_self,
    if_true, accepted]

theorem decodes_index {n : Nat} (small : n < WordBound.unsigned64) :
    Decodes .index (.integer n) n := decodes_natural small (if_pos small)

theorem decodes_word (n : UInt32) : Decodes .word (ofWord n) n := by
  have below : n.toNat < WordBound.unsigned32 := n.toNat_lt
  have small : n.toNat < WordBound.unsigned64 := Nat.lt_trans below (by decide)
  have number : Decodes (.natBelow WordBound.unsigned32) (ofWord n) n.toNat :=
    decodes_natural small (if_pos below)
  have word := number.map UInt32.ofNat
  rwa [UInt32.ofNat_toNat] at word

theorem decodes_signedWord (n : Int32) : Decodes .signedWord (ofSigned n) n := by
  have lower := n.le_toInt
  have upper := n.toInt_lt
  have bound : WordBound.signed32 = 2 ^ 31 := rfl
  have wide : WordBound.signed32 ≤ WordBound.signed64 ∧
      WordBound.signed32 ≤ WordBound.unsigned64 := by decide
  rw [ofSigned]
  by_cases negative : n.toInt < 0
  · obtain ⟨k, value⟩ := Int.exists_eq_neg_ofNat (Int.le_of_lt negative)
    have inRange : k ≤ WordBound.signed32 := by omega
    have word : Int32.ofInt (-k) = n := by rw [← value, Int32.ofInt_toInt]
    rw [value]
    exact decodes_negative (by omega) (by omega) ((if_pos inRange).trans (congrArg some word))
  · obtain ⟨k, value⟩ := Int.eq_ofNat_of_zero_le (Int.not_lt.1 negative)
    have inRange : k < WordBound.signed32 := by omega
    have word : Int32.ofInt k = n := by rw [← value, Int32.ofInt_toInt]
    rw [value]
    exact decodes_natural (by omega) ((if_pos inRange).trans (congrArg some word))

/-- The text written for a double reads as that double, and to its end. -/
def ReadsBack (x : Float) : Prop := Decoder.double (doubleChars x) = .ok (x, [])

theorem scaleByTens_of_neg {e : Int} (inReach : -308 ≤ e ∧ e < 0) (f : Float) :
    scaleByTens f e = .ok (f / powerOfTen (-e).toNat) := by
  rw [scaleByTens, if_neg (by omega), if_neg (by omega), if_pos inReach.1]

/-- A decimal fraction reads back if dividing its digits by a power of ten gives the double. -/
theorem readsBack_of_fraction {x : Float} {c : Char} {cs : List Char} {minus : Bool} {digits : Nat}
    {e : Int} (written : doubleChars x = c :: cs) (starts : isSpace c = false ∧ startsNumber c = true)
    (run : readNumber (c :: cs) = (makeDouble minus digits e).map (·, []))
    (inReach : -308 ≤ e ∧ e < 0)
    (value : Decimal.signed minus ((UInt64.ofNat digits).toFloat / powerOfTen (-e).toNat) = x) :
    ReadsBack x := by
  have scaled : makeDouble minus digits e = .ok (.double x) := by
    rw [makeDouble, scaleByTens_of_neg inReach, ← value]
    rfl
  rw [ReadsBack, written, Decoder.double, Decoder.number, skipSpaces_cons starts.1]
  simp only [starts.2, if_true, run, scaled]
  rfl

theorem decodes_double {x : Float} (readsBack : ReadsBack x) : Decodes .double (.double x) x :=
  decodes_number fun _ => readsBack

/-! ## Optional values and lists -/

theorem decodes_some (h : Decodes d v a) :
    Decodes d.optional v (some a) where
  skips cs := by simp only [Decoder.optional, skipSpaces_skipSpaces]
  opens := h.opens
  reads depth rest ends := by
    obtain ⟨c, left, starts, -, notNull⟩ := (h.opens depth).append rest
    have read := (h.map some).reads depth rest ends
    rw [← (h.map some).skips, starts] at read
    rw [Decoder.optional, starts]
    split
    · rename_i null
      cases null
      contradiction
    · exact read

theorem endsNumber_newLine_append (depth : Nat) (rest : List Char) :
    EndsNumber (newLine depth ++ rest) := endsNumber_cons (by decide)

theorem nextItem_first {cs : List Char} (opens : Opens cs) (depth : Nat) :
    Decoder.nextItem true (newLine depth ++ cs) = .ok (some (skipSpaces cs)) := by
  obtain ⟨c, left, starts, notEnd, -⟩ := opens
  rw [Decoder.nextItem, skipSpaces_newLine_append, starts]
  simp only [notEnd, if_true, if_false]

theorem nextItem_comma {cs : List Char} (opens : Opens cs) (depth : Nat) :
    Decoder.nextItem false (',' :: (newLine depth ++ cs)) = .ok (some (skipSpaces cs)) := by
  obtain ⟨c, left, starts, notEnd, -⟩ := opens
  have comma : (',' : Char) ≠ ']' := by decide
  rw [Decoder.nextItem, skipSpaces_cons (by decide)]
  simp only [comma, if_false, Bool.false_eq_true, if_true, skipSpaces_newLine_append, starts]
  split
  · contradiction
  · rename_i close
    cases close
    contradiction
  · rfl

theorem closeArray_newLine (depth : Nat) (rest : List Char) :
    Decoder.closeArray (newLine depth ++ ']' :: rest) = .ok rest := by
  rw [Decoder.closeArray, skipSpaces_newLine_append, skipSpaces_cons (by decide)]
  rfl

theorem nextItem_close (depth : Nat) (rest : List Char) :
    Decoder.nextItem false (newLine depth ++ ']' :: rest) = .ok none := by
  rw [Decoder.nextItem, skipSpaces_newLine_append, skipSpaces_cons (by decide)]
  rfl

theorem prettyItems_append (depth : Nat) (v : Json) (items : List Json) (rest : List Char) :
    prettyItems depth (v :: items) ++ rest =
      ',' :: (newLine (depth + 1) ++ (prettyChars (depth + 1) v ++
        (prettyItems depth items ++ rest))) := by
  simp only [prettyItems, List.cons_append, List.append_assoc]

theorem prettyArray_append (depth : Nat) (v : Json) (items : List Json) (rest : List Char) :
    prettyChars depth (.array (v :: items)) ++ rest =
      '[' :: (newLine (depth + 1) ++ (prettyChars (depth + 1) v ++
        (prettyItems depth items ++ (newLine depth ++ ']' :: rest)))) := by
  simp only [prettyChars, List.cons_append, List.append_assoc, List.nil_append]

theorem endsNumber_items (depth : Nat) (items : List Json) (rest : List Char) :
    EndsNumber (prettyItems depth items ++ (newLine depth ++ rest)) := by
  cases items with
  | nil => exact endsNumber_newLine_append depth rest
  | cons v items => exact endsNumber_cons (by decide)

/-- There are fewer further items than characters from the first one on. -/
theorem length_lt_length_items (depth : Nat) (v : Json) (items : List Json) (rest : List Char) :
    items.length < (newLine (depth + 1) ++ (prettyChars (depth + 1) v ++
      (prettyItems depth items ++ rest))).length := by
  have others : items.length ≤ (prettyItems depth items).length := by
    induction items with
    | nil => exact Nat.le_refl _
    | cons v items ih =>
      simp only [prettyItems, List.length_cons, List.length_append]
      omega
  simp only [newLine, List.length_append, List.length_cons]
  omega

section Lists

variable {vs : List Json} {as : List α}

/-- An item is read wherever the list stands, and the others are left. -/
theorem itemsWithin_item (item : Decodes d v a) {first : Bool} (depth : Nat)
    {cs tail : List Char} (ends : EndsNumber tail) (steps : Nat)
    (next : Decoder.nextItem first cs = .ok (some (skipSpaces (prettyChars depth v ++ tail)))) :
    Decoder.itemsWithin d (steps + 1) first cs =
      (Decoder.itemsWithin d steps false tail).map fun (items, rest) => (a :: items, rest) := by
  rw [Decoder.itemsWithin, next]
  simp only [bind, Except.bind, item.skips, item.reads depth tail ends]
  cases Decoder.itemsWithin d steps false tail <;> rfl

theorem itemsWithin_prettyItems (each : List.Forall₂ (Decodes d) vs as)
    {steps : Nat} (enough : vs.length ≤ steps) (depth : Nat) (rest : List Char) :
    Decoder.itemsWithin d steps false (prettyItems depth vs ++ (newLine depth ++ ']' :: rest)) =
      .ok (as, rest) := by
  -- On the items. With no step left, the bracket has to come next, and it does.
  induction each generalizing steps with
  | nil =>
    rw [prettyItems, List.nil_append]
    cases steps with
    | zero =>
      rw [Decoder.itemsWithin, closeArray_newLine]
      rfl
    | succ steps =>
      rw [Decoder.itemsWithin, nextItem_close, closeArray_newLine]
      rfl
  | @cons v a vs as item others ih =>
    obtain ⟨spare, rfl⟩ := Nat.exists_eq_add_of_lt enough
    have ends := endsNumber_items depth vs (']' :: rest)
    rw [prettyItems_append,
      itemsWithin_item item (depth + 1) ends _ (nextItem_comma ((item.opens _).append _) _),
      ih (Nat.le_add_right _ spare)]
    rfl

theorem decodes_array (each : List.Forall₂ (Decodes d) vs as) :
    Decodes d.list (.array vs) as where
  skips cs := by simp only [Decoder.list, skipSpaces_skipSpaces]
  opens depth := by cases vs <;> exact opens_cons (by decide) _
  reads depth rest _ := by
    cases each with
    | nil =>
      rw [prettyChars]
      rfl
    | @cons v a vs as item others =>
      have ends := endsNumber_items depth vs (']' :: rest)
      have enough := length_lt_length_items depth v vs (newLine depth ++ ']' :: rest)
      obtain ⟨spare, length⟩ := Nat.exists_eq_add_of_lt enough
      rw [prettyArray_append, Decoder.list, skipSpaces_cons (by decide)]
      simp only [length]
      rw [itemsWithin_item item (depth + 1) ends _ (nextItem_first ((item.opens _).append _) _),
        itemsWithin_prettyItems others (by omega)]
      rfl

theorem decodes_list {toJson : α → Json} (each : ∀ a ∈ as, Decodes d (toJson a) a) :
    Decodes d.list (.array (as.map toJson)) as :=
  decodes_array (List.forall₂_map_left_iff.2 (List.forall₂_same.2 each))

end Lists

end BlockSchematic.Json
