import BlockSchematic.Proofs.JsonRecords

/-!
# What is read back of a written value

A decoder refuses a written value if it fails on it, whatever follows. A list or a record that is
decoded up to some part is refused with that part. So whether a value can be read back is decided
by its parts.
-/

namespace BlockSchematic.Json

variable {α β : Type} {d : Decoder α} {v : Json} {ok : Prop}

structure Refuses (d : Decoder α) (v : Json) : Prop where
  skips : ∀ cs, d (skipSpaces cs) = d cs
  refuses : ∀ depth rest, EndsNumber rest → ∃ f, d (prettyChars depth v ++ rest) = .error f

theorem Refuses.map (h : Refuses d v) (f : α → β) : Refuses (d.map f) v where
  skips cs := by rw [Decoder.map, h.skips, ← Decoder.map]
  refuses depth rest ends := by
    obtain ⟨fault, refused⟩ := h.refuses depth rest ends
    exact ⟨fault, by rw [Decoder.map, refused]; rfl⟩

theorem Refuses.decodeText_pretty (h : Refuses d v) : ∃ f, decodeText d v.pretty = .error f := by
  obtain ⟨fault, refused⟩ := h.refuses 0 [] endsNumber_nil
  rw [List.append_nil] at refused
  exact ⟨fault, by rw [decodeText, pretty, String.toList_ofList, refused]; rfl⟩

theorem Refuses.refuses_member (h : Refuses d v) {tail : List Char} (ends : EndsNumber tail)
    (depth : Nat) : ∃ f, d (' ' :: (prettyChars depth v ++ tail)) = .error f := by
  have space (cs : List Char) : skipSpaces (' ' :: cs) = skipSpaces cs := rfl
  rw [← h.skips, space, h.skips]
  exact h.refuses depth tail ends

/-- The value is decoded under the condition, and refused without it. -/
structure Decides (d : Decoder α) (v : Json) (ok : Prop) : Prop where
  decodes : ok → ∃ a, Decodes d v a
  refuses : ¬ok → Refuses d v

theorem Decodes.decides {a : α} (h : Decodes d v a) : Decides d v True :=
  ⟨fun _ => ⟨a, h⟩, fun never => (never trivial).elim⟩

theorem Decides.congr {other : Prop} (h : Decides d v ok) (same : ok ↔ other) :
    Decides d v other := by
  rwa [← propext same]

theorem Decides.map (h : Decides d v ok) (f : α → β) : Decides (d.map f) v ok where
  decodes holds := by
    obtain ⟨a, decoded⟩ := h.decodes holds
    exact ⟨f a, decoded.map f⟩
  refuses fails := (h.refuses fails).map f

theorem Decides.decodeText_iff (h : Decides d v ok) :
    (∃ a, decodeText d v.pretty = .ok a) ↔ ok := by
  constructor
  · rintro ⟨a, read⟩
    by_contra fails
    obtain ⟨f, refused⟩ := (h.refuses fails).decodeText_pretty
    rw [refused] at read
    cases read
  · intro holds
    obtain ⟨a, decoded⟩ := h.decodes holds
    exact ⟨a, decoded.decodeText_pretty⟩

theorem opens_object (members : List (String × Json)) (depth : Nat) :
    Opens (prettyChars depth (.object members)) := by
  rcases members with _ | ⟨⟨key, v⟩, members⟩ <;> exact opens_cons (by decide) _

theorem opens_array (vs : List Json) (depth : Nat) : Opens (prettyChars depth (.array vs)) := by
  cases vs <;> exact opens_cons (by decide) _

/-! ## Whole numbers -/

/-- Digits are taken up to a digit that does not fit, unless all of them fit. -/
theorem accumulate_stops {ds : List Char} (digits : ∀ d ∈ ds, d.isDigit = true) {limit value : Nat}
    (within : value ≤ limit) (count : Nat) :
    (startsWithDigit (accumulate limit value count ds).2.2 = true ∧
      ∀ d ∈ (accumulate limit value count ds).2.2, d.isDigit = true) ∨
    Nat.ofDigitChars 10 ds value ≤ limit := by
  induction ds generalizing value count with
  | nil => exact .inr within
  | cons d ds ih =>
    obtain ⟨digit, others⟩ := List.forall_mem_cons.1 digits
    rw [accumulate]
    by_cases fits : value * 10 + (d.toNat - '0'.toNat) ≤ limit
    · simp only [digit, fits, decide_true, Bool.and_self, if_true]
      rw [Nat.ofDigitChars_cons, Nat.mul_comm 10]
      exact ih others fits (count + 1)
    · simp only [fits, decide_false, Bool.and_false, Bool.false_eq_true, if_false]
      exact .inl ⟨digit, digits⟩

theorem makeDouble_eq_double {minus : Bool} {digits : Nat} {e : Int} {n : Number}
    {after cs : List Char} (read : (makeDouble minus digits e).map (·, cs) = .ok (n, after)) :
    ∃ x, n = .double x := by
  rw [makeDouble] at read
  cases scaled : scaleByTens (UInt64.ofNat digits).toFloat e with
  | error f =>
    rw [scaled] at read
    cases read
  | ok x =>
    rw [scaled] at read
    cases read
    exact ⟨_, rfl⟩

/-- A whole number that does not fit 64 bits is read as a double, if at all. -/
theorem readUnsigned_long (minus : Bool) {n : Nat} (long : WordBound.unsigned64 ≤ n)
    {rest after : List Char} (ends : EndsNumber rest) {a : Number}
    (read : readUnsigned minus (Text.natChars n ++ rest) = .ok (a, after)) :
    ∃ x, a = .double x := by
  have positive : 0 < n := Nat.lt_of_lt_of_le (by decide) long
  have digits := List.all_eq_true.1 (Text.all_isDigit_natChars n)
  have value : Nat.ofDigitChars 10 (Text.natChars n) 0 = n := Nat.ofDigitChars_ten_toDigits
  obtain ⟨d, ds, whole, notZero⟩ := head_natChars_ne_zero positive
  have large : ¬Nat.ofDigitChars 10 (Text.natChars n) 0 ≤ WordBound.unsigned64 - 1 := by omega
  obtain ⟨stops, left⟩ := (accumulate_stops digits (Nat.zero_le _) 0).resolve_right large
  have run := accumulate_append ends (WordBound.unsigned64 - 1) 0 0 (Text.natChars n)
  have digit : d.isDigit = true := digits d (by rw [whole]; exact List.mem_cons_self)
  rw [whole] at run stops left read
  rw [List.cons_append] at run read
  simp only [readUnsigned, notZero, if_false, digit, if_true, run, startsWithDigit_append ends,
    stops] at read
  have gone := List.dropWhile_eq_nil_iff.2 left
  simp only [afterLong, dropWhile_isDigit_append ends, gone, List.nil_append] at read
  split at read
  · exact ((ends '.' rfl).2.1 rfl).elim
  · cases rest with
    | nil => exact makeDouble_eq_double read
    | cons c rest =>
      have noMark := (ends c rfl).2.2
      simp only [readScale, noMark, or_self, if_false] at read
      exact makeDouble_eq_double read

theorem decides_index (n : Nat) :
    Decides .index (.integer n) (n < WordBound.unsigned64) where
  decodes small := ⟨n, decodes_index small⟩
  refuses long := by
    refine ⟨number_skipSpaces _, fun depth rest ends => ?_⟩
    cases read : Decoder.index (prettyChars depth (.integer n) ++ rest) with
    | error f => exact ⟨f, rfl⟩
    | ok taken =>
      obtain ⟨m, after⟩ := taken
      obtain ⟨c, digits, a, starts, -, number, accepted⟩ := exists_of_number read
      have text : prettyChars depth (.integer n) = Text.natChars n := by
        rw [prettyChars, Text.intChars, if_neg (by omega), Int.natAbs_natCast]
      have positive : 0 < n := by
        have : 0 < WordBound.unsigned64 := by decide
        omega
      obtain ⟨d, ds, whole, -⟩ := head_natChars_ne_zero positive
      have digit : d.isDigit = true :=
        List.all_eq_true.1 (Text.all_isDigit_natChars n) d (by rw [whole]; exact List.mem_cons_self)
      have noMinus : d ≠ '-' := by
        rintro rfl
        cases digit
      rw [text, whole, List.cons_append,
        skipSpaces_cons (isSpace_eq_false_of_isDigit digit)] at starts
      obtain ⟨rfl, rfl⟩ := List.cons.inj starts
      rw [readNumber.eq_2 _ fun rest same => noMinus (List.cons.inj same).1, ← List.cons_append,
        ← whole] at number
      obtain ⟨x, rfl⟩ := readUnsigned_long false (Nat.le_of_not_lt long) ends number
      cases accepted

/-! ## Lists -/

section Lists

variable {before : List Json}

theorem itemsWithin_stop (stop : Refuses d v) {first : Bool} (depth : Nat) {cs tail : List Char}
    (ends : EndsNumber tail) (steps : Nat)
    (next : Decoder.nextItem first cs = .ok (some (skipSpaces (prettyChars depth v ++ tail)))) :
    ∃ f, Decoder.itemsWithin d (steps + 1) first cs = .error f := by
  obtain ⟨f, refused⟩ := stop.refuses depth tail ends
  refine ⟨f, ?_⟩
  rw [Decoder.itemsWithin, next]
  simp only [bind, Except.bind, stop.skips, refused]

theorem itemsWithin_refused (decoded : ∀ w ∈ before, ∃ a, Decodes d w a) (stop : Refuses d v)
    (opens : ∀ depth, Opens (prettyChars depth v)) (after : List Json) {steps : Nat}
    (enough : before.length < steps) (depth : Nat) (rest : List Char) :
    ∃ f, Decoder.itemsWithin d steps false
      (prettyItems depth (before ++ v :: after) ++ (newLine depth ++ ']' :: rest)) = .error f := by
  obtain ⟨spare, rfl⟩ := Nat.exists_eq_add_of_lt enough
  clear enough
  induction before with
  | nil =>
    rw [List.nil_append, prettyItems_append]
    exact itemsWithin_stop stop (depth + 1) (endsNumber_items depth after (']' :: rest)) _
      (nextItem_comma ((opens _).append _) _)
  | cons w before ih =>
    obtain ⟨⟨a, item⟩, others⟩ := List.forall_mem_cons.1 decoded
    obtain ⟨f, refused⟩ := ih others
    have ends := endsNumber_items depth (before ++ v :: after) (']' :: rest)
    have steps : before.length + 1 + spare + 1 = before.length + spare + 1 + 1 := by omega
    rw [List.cons_append, prettyItems_append, List.length_cons, steps,
      itemsWithin_item item (depth + 1) ends _ (nextItem_comma ((item.opens _).append _) _), refused]
    exact ⟨f, rfl⟩

/-- A list is refused with its first item that is refused. -/
theorem refuses_array (decoded : ∀ w ∈ before, ∃ a, Decodes d w a) (stop : Refuses d v)
    (opens : ∀ depth, Opens (prettyChars depth v)) (after : List Json) :
    Refuses d.list (.array (before ++ v :: after)) where
  skips cs := by simp only [Decoder.list, skipSpaces_skipSpaces]
  refuses depth rest _ := by
    cases before with
    | nil =>
      have ends := endsNumber_items depth after (']' :: rest)
      have enough := length_lt_length_items depth v after (newLine depth ++ ']' :: rest)
      obtain ⟨spare, length⟩ := Nat.exists_eq_add_of_lt enough
      rw [List.nil_append, prettyArray_append, Decoder.list, skipSpaces_cons (by decide)]
      simp only [length]
      exact itemsWithin_stop stop (depth + 1) ends _ (nextItem_first ((opens _).append _) _)
    | cons w before =>
      obtain ⟨⟨a, item⟩, others⟩ := List.forall_mem_cons.1 decoded
      have ends := endsNumber_items depth (before ++ v :: after) (']' :: rest)
      have enough := length_lt_length_items depth w (before ++ v :: after)
        (newLine depth ++ ']' :: rest)
      rw [List.length_append, List.length_cons] at enough
      obtain ⟨spare, length⟩ := Nat.exists_eq_add_of_lt enough
      obtain ⟨f, refused⟩ := itemsWithin_refused others stop opens after
        (by omega : before.length < before.length + (after.length + 1) + spare) depth rest
      rw [List.cons_append, prettyArray_append, Decoder.list, skipSpaces_cons (by decide)]
      simp only [length]
      rw [itemsWithin_item item (depth + 1) ends _ (nextItem_first ((item.opens _).append _) _),
        refused]
      exact ⟨f, rfl⟩

theorem forall_or_exists_first {γ : Type} (p : γ → Prop) (as : List γ) :
    (∀ a ∈ as, p a) ∨ ∃ before a after, as = before ++ a :: after ∧ (∀ b ∈ before, p b) ∧ ¬p a := by
  induction as with
  | nil => exact .inl nofun
  | cons a as ih =>
    by_cases holds : p a
    · rcases ih with all | ⟨before, b, after, rfl, good, bad⟩
      · exact .inl (List.forall_mem_cons.2 ⟨holds, all⟩)
      · exact .inr ⟨a :: before, b, after, rfl, List.forall_mem_cons.2 ⟨holds, good⟩, bad⟩
    · exact .inr ⟨[], a, as, rfl, nofun, holds⟩

theorem exists_decodes_array {vs : List Json} (each : ∀ w ∈ vs, ∃ a, Decodes d w a) :
    ∃ as, Decodes d.list (.array vs) as := by
  have values : ∃ as, List.Forall₂ (Decodes d) vs as := by
    induction vs with
    | nil => exact ⟨[], .nil⟩
    | cons w vs ih =>
      obtain ⟨⟨a, item⟩, others⟩ := List.forall_mem_cons.1 each
      obtain ⟨as, items⟩ := ih others
      exact ⟨a :: as, .cons item items⟩
  obtain ⟨as, items⟩ := values
  exact ⟨as, decodes_array items⟩

theorem decides_list {γ : Type} {as : List γ} {toJson : γ → Json} {good : γ → Prop}
    (each : ∀ a ∈ as, Decides d (toJson a) (good a))
    (opens : ∀ a ∈ as, ∀ depth, Opens (prettyChars depth (toJson a))) :
    Decides d.list (.array (as.map toJson)) (∀ a ∈ as, good a) := by
  have decoded {bs : List γ} (sub : bs ⊆ as) (all : ∀ b ∈ bs, good b) :
      ∀ w ∈ bs.map toJson, ∃ b, Decodes d w b := by
    intro w hw
    obtain ⟨b, hb, rfl⟩ := List.mem_map.1 hw
    exact (each b (sub hb)).decodes (all b hb)
  rcases forall_or_exists_first good as with all | ⟨before, a, after, rfl, firsts, bad⟩
  · exact ⟨fun _ => exists_decodes_array (decoded (List.Subset.refl _) all),
      fun never => (never all).elim⟩
  · have last : a ∈ before ++ a :: after := List.mem_append_right _ List.mem_cons_self
    refine ⟨fun all => (bad (all a last)).elim, fun _ => ?_⟩
    rw [List.map_append, List.map_cons]
    exact refuses_array (decoded (List.subset_append_left _ _) firsts)
      ((each a last).refuses bad) (opens a last) _

end Lists

/-! ## Values that may be missing -/

theorem decides_some (h : Decides d v ok) (opens : ∀ depth, Opens (prettyChars depth v)) :
    Decides d.optional v ok where
  decodes holds := by
    obtain ⟨a, decoded⟩ := h.decodes holds
    exact ⟨some a, decodes_some decoded⟩
  refuses fails := by
    have stop := (h.refuses fails).map some
    refine ⟨fun cs => by simp only [Decoder.optional, skipSpaces_skipSpaces],
      fun depth rest ends => ?_⟩
    obtain ⟨c, left, starts, -, notNull⟩ := (opens depth).append rest
    obtain ⟨f, refused⟩ := stop.refuses depth rest ends
    rw [← stop.skips, starts] at refused
    refine ⟨f, ?_⟩
    rw [Decoder.optional, starts]
    split
    · rename_i null
      cases null
      contradiction
    · exact refused

/-! ## Records -/

namespace Fields

variable {ts : List Type} {fields : Fields ts} {slots : Slots ts} {members : List (String × Json)}
  {key : String}

/-- Of the members, which come in the order of the fields, some are decoded and then one is
refused. -/
inductive Refused : {ts : List Type} → Fields ts → Slots ts → List (String × Json) → Prop
  | met {t : Type} {ts : List Type} {field : Field t} {fields : Fields ts} {slots : Slots ts}
      {members : List (String × Json)} {a : t} (rest : Refused fields slots members) :
      Refused (.cons field fields) (some a, slots) members
  | next {t : Type} {ts : List Type} {field : Field t} {fields : Fields ts} {slots : Slots ts}
      {members : List (String × Json)} {v : Json} {a : t} (value : Decodes field.read v a)
      (rest : Refused fields slots members) :
      Refused (.cons field fields) (none, slots) ((field.name, v) :: members)
  | absent {t : Type} {ts : List Type} {field : Field t} {fields : Fields ts} {slots : Slots ts}
      {members : List (String × Json)} (rest : Refused fields slots members) :
      Refused (.cons field fields) (none, slots) members
  | here {t : Type} {ts : List Type} {field : Field t} {fields : Fields ts} {slots : Slots ts}
      {members : List (String × Json)} {v : Json} (value : Refuses field.read v) :
      Refused (.cons field fields) (none, slots) ((field.name, v) :: members)

theorem Refused.key_mem_names (h : fields.Refused slots ((key, v) :: members)) :
    key ∈ fields.names := by
  generalize whole : (key, v) :: members = all at h
  induction h with
  | met rest ih => exact List.mem_cons_of_mem _ (ih whole)
  | next value rest ih =>
    cases whole
    exact List.mem_cons_self
  | absent rest ih => exact List.mem_cons_of_mem _ (ih whole)
  | here value =>
    cases whole
    exact List.mem_cons_self

theorem Refused.name_ne_key (h : fields.Refused slots ((key, v) :: members)) {name : String}
    (fresh : name ∉ fields.names) : name ≠ key := fun same => fresh (same ▸ h.key_mem_names)

/-- The first member fills the slot of its field, or is the one that is refused. -/
theorem Refused.fill (h : fields.Refused slots ((key, v) :: members))
    (distinct : fields.names.Nodup) {tail : List Char} (ends : EndsNumber tail) (depth : Nat) :
    (∃ filled, fields.Refused filled members ∧
      fields.fill key (':' :: ' ' :: (prettyChars depth v ++ tail)) slots =
        some (.ok (filled, tail))) ∨
    ∃ f, fields.fill key (':' :: ' ' :: (prettyChars depth v ++ tail)) slots =
      some (.error f) := by
  generalize whole : (key, v) :: members = all at h
  induction h with
  | @met t ts field fields slots all a rest ih =>
    obtain ⟨fresh, distinct⟩ := List.nodup_cons.1 distinct
    subst whole
    rw [Fields.fill, if_neg (rest.name_ne_key fresh)]
    rcases ih distinct rfl with ⟨filled, refused, fills⟩ | ⟨f, fails⟩
    · exact .inl ⟨(some a, filled), .met refused, by rw [fills]; rfl⟩
    · exact .inr ⟨f, by rw [fails]; rfl⟩
  | @next t ts field fields slots all w a value rest ih =>
    cases whole
    refine .inl ⟨(some a, slots), .met rest, ?_⟩
    rw [Fields.fill, if_pos rfl]
    simp only [colon_cons, bind, Except.bind, value.reads_member ends]
    rfl
  | @absent t ts field fields slots all rest ih =>
    obtain ⟨fresh, distinct⟩ := List.nodup_cons.1 distinct
    subst whole
    rw [Fields.fill, if_neg (rest.name_ne_key fresh)]
    rcases ih distinct rfl with ⟨filled, refused, fills⟩ | ⟨f, fails⟩
    · exact .inl ⟨(none, filled), .absent refused, by rw [fills]; rfl⟩
    · exact .inr ⟨f, by rw [fails]; rfl⟩
  | @here t ts field fields slots all w value =>
    cases whole
    obtain ⟨f, fails⟩ := value.refuses_member ends depth
    refine .inr ⟨f, ?_⟩
    rw [Fields.fill, if_pos rfl]
    simp only [colon_cons, bind, Except.bind, fails, Option.isSome_none, Bool.false_eq_true,
      if_false]

theorem Refused.not_nil (h : fields.Refused slots []) : False := by
  generalize whole : [] = members at h
  induction h with
  | met rest ih => exact ih whole
  | next value rest ih => cases whole
  | absent rest ih => exact ih whole
  | here value => cases whole

/-- A member is read or refused wherever the record stands. -/
theorem membersWithin_refused_member (distinct : fields.names.Nodup)
    (h : fields.Refused slots ((key, v) :: members)) {first : Bool} (depth : Nat)
    {cs tail : List Char} (ends : EndsNumber tail) (steps : Nat)
    (next : Decoder.nextKey first cs = .ok (some (memberChars depth key v ++ tail))) :
    (∃ filled, fields.Refused filled members ∧
      fields.membersWithin (steps + 1) first slots cs =
        fields.membersWithin steps false filled tail) ∨
    ∃ f, fields.membersWithin (steps + 1) first slots cs = .error f := by
  rw [Fields.membersWithin, next]
  simp only [bind, Except.bind, readText_memberChars, String.ofList_toList]
  rcases h.fill distinct ends depth with ⟨filled, refused, fills⟩ | ⟨f, fails⟩
  · exact .inl ⟨filled, refused, by rw [fills]⟩
  · exact .inr ⟨f, by rw [fails]⟩

theorem membersWithin_refused (distinct : fields.names.Nodup) (h : fields.Refused slots members)
    {steps : Nat} (enough : members.length < steps) (depth : Nat) (rest : List Char) :
    ∃ f, fields.membersWithin steps false slots
      (prettyMembers depth members ++ (newLine depth ++ '\x7d' :: rest)) = .error f := by
  obtain ⟨spare, rfl⟩ := Nat.exists_eq_add_of_lt enough
  clear enough
  induction members generalizing slots with
  | nil => exact h.not_nil.elim
  | cons member members ih =>
    obtain ⟨key, v⟩ := member
    have ends := endsNumber_members depth members ('\x7d' :: rest)
    have steps : members.length + 1 + spare = members.length + spare + 1 := by omega
    rw [prettyMembers_append, List.length_cons, steps]
    rcases membersWithin_refused_member distinct h (depth + 1) ends (members.length + spare + 1)
      (nextKey_comma (depth + 1) _) with ⟨filled, refused, read⟩ | fails
    · rw [read]
      exact ih refused
    · exact fails

theorem refuses_record (distinct : fields.names.Nodup) (h : fields.Refused fields.noSlots members) :
    Refuses fields.decoder (.object members) where
  skips cs := by simp only [Fields.decoder, skipSpaces_skipSpaces]
  refuses depth rest _ := by
    rcases members with _ | ⟨⟨key, v⟩, members⟩
    · exact h.not_nil.elim
    · have ends := endsNumber_members depth members ('\x7d' :: rest)
      have enough := length_lt_length_members depth key v members (newLine depth ++ '\x7d' :: rest)
      rw [prettyObject_append, Fields.decoder, skipSpaces_cons (by decide)]
      rcases membersWithin_refused_member distinct h (depth + 1) ends
        (newLine (depth + 1) ++ '"' :: (memberChars (depth + 1) key v ++
          (prettyMembers depth members ++ (newLine depth ++ '\x7d' :: rest)))).length
        (nextKey_first (depth + 1) _) with ⟨filled, refused, read⟩ | fails
      · simp only [read]
        exact membersWithin_refused distinct refused enough depth rest
      · exact fails

/-- The members, which come in the order of the fields, are decoded under conditions. A field
without a member has its value for a record without it. -/
inductive Decided : {ts : List Type} → Fields ts → List (String × Json) → Prop → Prop
  | done : Decided .nil [] True
  | next {t : Type} {ts : List Type} {field : Field t} {fields : Fields ts}
      {members : List (String × Json)} {v : Json} {ok others : Prop}
      (value : Decides field.read v ok) (rest : Decided fields members others) :
      Decided (.cons field fields) ((field.name, v) :: members) (ok ∧ others)
  | absent {t : Type} {ts : List Type} {field : Field t} {fields : Fields ts}
      {members : List (String × Json)} {a : t} {others : Prop}
      (value : field.absent = some a) (rest : Decided fields members others) :
      Decided (.cons field fields) members others

theorem Decided.completes (h : fields.Decided members ok) (holds : ok) :
    ∃ row, fields.Completes fields.noSlots members row := by
  induction h with
  | done => exact ⟨(), .done⟩
  | next value rest ih =>
    obtain ⟨a, decoded⟩ := value.decodes holds.1
    obtain ⟨row, completes⟩ := ih holds.2
    exact ⟨(a, row), .next decoded completes⟩
  | @absent t ts field fields members a others value rest ih =>
    obtain ⟨row, completes⟩ := ih holds
    exact ⟨(a, row), .absent value completes⟩

theorem Decided.refused (h : fields.Decided members ok) (fails : ¬ok) :
    fields.Refused fields.noSlots members := by
  induction h with
  | done => exact (fails trivial).elim
  | @next t ts field fields members v ok others value rest ih =>
    by_cases holds : ok
    · obtain ⟨a, decoded⟩ := value.decodes holds
      exact .next decoded (ih fun all => fails ⟨holds, all⟩)
    · exact .here (value.refuses holds)
  | absent value rest ih => exact .absent (ih fails)

theorem decides_built (build : Row ts → α) (h : fields.Decided members ok)
    (distinct : fields.names.Nodup) : Decides (fields.decoder.map build) (.object members) ok where
  decodes holds := by
    obtain ⟨row, completes⟩ := h.completes holds
    exact ⟨build row, (decodes_record distinct completes).map build⟩
  refuses fails := (refuses_record distinct (h.refused fails)).map build

/-- A field that is written only if it has a value. -/
theorem Decided.optional {name : String} {toJson : β → Json} {value : Option β} {good : β → Prop}
    {others : Prop} (decides : ∀ b, value = some b → Decides d (toJson b) (good b))
    (opens : ∀ b, value = some b → ∀ depth, Opens (prettyChars depth (toJson b)))
    (rest : fields.Decided members others) :
    Decided (.cons (.defaulted name d.optional none) fields)
      (optionalMember name toJson value ++ members) ((∀ b, value = some b → good b) ∧ others) := by
  cases value with
  | none =>
    have trivial_part : ((∀ b, none = some b → good b) ∧ others) = others :=
      propext (and_iff_right nofun)
    rw [trivial_part]
    exact .absent rfl rest
  | some b =>
    refine .next ((decides_some (decides b rfl) (opens b rfl)).congr ?_) rest
    exact ⟨fun holds _ same => Option.some.inj same ▸ holds, fun all => all b rfl⟩

end Fields

end BlockSchematic.Json
