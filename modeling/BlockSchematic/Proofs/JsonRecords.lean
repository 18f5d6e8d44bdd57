import BlockSchematic.Proofs.JsonValues

/-!
# Written members and records read back

An object with any keys is decoded entry by entry. A record is decoded from members in the order
of its fields, of which those may be missing that have a value for it.
-/

namespace BlockSchematic.Json

variable {α : Type}

/-! ## Members -/

/-- A member without the quote in front of its key. -/
def memberChars (depth : Nat) (key : String) (v : Json) : List Char :=
  key.toList.flatMap escapeChar ++ '"' :: ':' :: ' ' :: prettyChars depth v

theorem nextKey_first (depth : Nat) (rest : List Char) :
    Decoder.nextKey true (newLine depth ++ '"' :: rest) = .ok (some rest) := by
  rw [Decoder.nextKey, skipSpaces_newLine_append, skipSpaces_cons (by decide)]
  rfl

theorem nextKey_comma (depth : Nat) (rest : List Char) :
    Decoder.nextKey false (',' :: (newLine depth ++ '"' :: rest)) = .ok (some rest) := by
  have comma : (',' : Char) ≠ '\x7d' := by decide
  rw [Decoder.nextKey, skipSpaces_cons (by decide)]
  simp only [comma, if_false, Bool.false_eq_true, if_true, skipSpaces_newLine_append]
  rw [skipSpaces_cons (by decide)]
  rfl

theorem nextKey_close (first : Bool) (depth : Nat) (rest : List Char) :
    Decoder.nextKey first (newLine depth ++ '\x7d' :: rest) = .ok none := by
  rw [Decoder.nextKey, skipSpaces_newLine_append, skipSpaces_cons (by decide)]
  rfl

theorem closeObject_newLine (depth : Nat) (rest : List Char) :
    Decoder.closeObject (newLine depth ++ '\x7d' :: rest) = .ok rest := by
  rw [Decoder.closeObject, skipSpaces_newLine_append, skipSpaces_cons (by decide)]
  rfl

theorem readText_memberChars (depth : Nat) (key : String) (v : Json) (tail : List Char) :
    readText (memberChars depth key v ++ tail) =
      .ok (key.toList, ':' :: ' ' :: (prettyChars depth v ++ tail)) := by
  rw [memberChars, List.append_assoc]
  exact readText_escaped _ _

theorem colon_cons (rest : List Char) : Decoder.colon (':' :: rest) = .ok rest := rfl

/-- After the colon of a member stands a space. -/
theorem Decodes.reads_member {d : Decoder α} {v : Json} {a : α} (h : Decodes d v a)
    {tail : List Char} (ends : EndsNumber tail) (depth : Nat) :
    d (' ' :: (prettyChars depth v ++ tail)) = .ok (a, tail) := by
  have space (cs : List Char) : skipSpaces (' ' :: cs) = skipSpaces cs := rfl
  rw [← h.skips, space, h.skips, h.reads depth tail ends]

theorem prettyMembers_append (depth : Nat) (key : String) (v : Json)
    (members : List (String × Json)) (rest : List Char) :
    prettyMembers depth ((key, v) :: members) ++ rest =
      ',' :: (newLine (depth + 1) ++ '"' :: (memberChars (depth + 1) key v ++
        (prettyMembers depth members ++ rest))) := by
  simp only [prettyMembers, textChars, memberChars, List.cons_append, List.append_assoc,
    List.nil_append]

theorem prettyObject_append (depth : Nat) (key : String) (v : Json)
    (members : List (String × Json)) (rest : List Char) :
    prettyChars depth (.object ((key, v) :: members)) ++ rest =
      '\x7b' :: (newLine (depth + 1) ++ '"' :: (memberChars (depth + 1) key v ++
        (prettyMembers depth members ++ (newLine depth ++ '\x7d' :: rest)))) := by
  simp only [prettyChars, textChars, memberChars, List.cons_append, List.append_assoc,
    List.nil_append]

theorem endsNumber_members (depth : Nat) (members : List (String × Json)) (rest : List Char) :
    EndsNumber (prettyMembers depth members ++ (newLine depth ++ rest)) := by
  cases members with
  | nil => exact endsNumber_newLine_append depth rest
  | cons member members => exact endsNumber_cons (by decide)

/-- There are fewer further members than characters from the first one on. -/
theorem length_lt_length_members (depth : Nat) (key : String) (v : Json)
    (members : List (String × Json)) (rest : List Char) :
    members.length < (newLine (depth + 1) ++ '"' :: (memberChars (depth + 1) key v ++
      (prettyMembers depth members ++ rest))).length := by
  have others : members.length ≤ (prettyMembers depth members).length := by
    induction members with
    | nil => exact Nat.le_refl _
    | cons member members ih =>
      simp only [prettyMembers, List.length_cons, List.length_append]
      omega
  simp only [List.length_append, List.length_cons]
  omega

section Members

variable {d : Decoder α} {toJson : α → Json}

def memberJson (toJson : α → Json) (entry : String × α) : String × Json :=
  (entry.1, toJson entry.2)

theorem membersWithin_entry {key : String} {v : Json} {a : α} (value : Decodes d v a)
    {first : Bool} (depth : Nat) {cs tail : List Char} (ends : EndsNumber tail) (steps : Nat)
    (next : Decoder.nextKey first cs = .ok (some (memberChars depth key v ++ tail))) :
    Decoder.membersWithin d (steps + 1) first cs =
      (Decoder.membersWithin d steps false tail).map fun (entries, rest) =>
        ((key, a) :: entries, rest) := by
  rw [Decoder.membersWithin, next]
  simp only [bind, Except.bind, readText_memberChars, colon_cons, value.reads_member ends,
    String.ofList_toList]
  cases Decoder.membersWithin d steps false tail <;> rfl

theorem membersWithin_prettyMembers {entries : List (String × α)}
    (each : ∀ e ∈ entries, Decodes d (toJson e.2) e.2) {steps : Nat}
    (enough : entries.length ≤ steps) (depth : Nat) (rest : List Char) :
    Decoder.membersWithin d steps false
      (prettyMembers depth (entries.map (memberJson toJson)) ++ (newLine depth ++ '\x7d' :: rest)) =
        .ok (entries, rest) := by
  induction entries generalizing steps with
  | nil =>
    rw [List.map_nil, prettyMembers, List.nil_append]
    cases steps with
    | zero =>
      rw [Decoder.membersWithin, closeObject_newLine]
      rfl
    | succ steps =>
      rw [Decoder.membersWithin, nextKey_close, closeObject_newLine]
      rfl
  | cons entry entries ih =>
    obtain ⟨key, a⟩ := entry
    obtain ⟨value, others⟩ := List.forall_mem_cons.1 each
    obtain ⟨spare, rfl⟩ := Nat.exists_eq_add_of_lt enough
    have ends := endsNumber_members depth (entries.map (memberJson toJson)) ('\x7d' :: rest)
    rw [List.map_cons, memberJson, prettyMembers_append,
      membersWithin_entry value (depth + 1) ends _ (nextKey_comma (depth + 1) _),
      ih others (Nat.le_add_right _ spare)]
    rfl

theorem decodes_members {entries : List (String × α)}
    (each : ∀ e ∈ entries, Decodes d (toJson e.2) e.2) :
    Decodes d.members (.object (entries.map (memberJson toJson))) entries where
  skips cs := by simp only [Decoder.members, skipSpaces_skipSpaces]
  opens depth := by cases entries <;> exact opens_cons (by decide) _
  reads depth rest _ := by
    cases entries with
    | nil =>
      rw [List.map_nil, prettyChars]
      rfl
    | cons entry entries =>
      obtain ⟨key, a⟩ := entry
      obtain ⟨value, others⟩ := List.forall_mem_cons.1 each
      have ends := endsNumber_members depth (entries.map (memberJson toJson)) ('\x7d' :: rest)
      have enough := length_lt_length_members depth key (toJson a)
        (entries.map (memberJson toJson)) (newLine depth ++ '\x7d' :: rest)
      obtain ⟨spare, length⟩ := Nat.exists_eq_add_of_lt enough
      rw [List.map_cons, memberJson, prettyObject_append, Decoder.members,
        skipSpaces_cons (by decide)]
      simp only [length]
      rw [membersWithin_entry value (depth + 1) ends _ (nextKey_first (depth + 1) _),
        membersWithin_prettyMembers others (by rw [List.length_map]; omega)]
      rfl

end Members

/-! ## Records -/

namespace Fields

variable {ts : List Type}

def names : {ts : List Type} → Fields ts → List String
  | _, .nil => []
  | _, .cons field rest => field.name :: rest.names

/-- The members, which come in the order of the fields, give the fields not met so far their
values. A field without a member has its value for a record without it. -/
inductive Completes : {ts : List Type} → Fields ts → Slots ts → List (String × Json) → Row ts → Prop
  | done : Completes .nil () [] ()
  | met {t : Type} {ts : List Type} {field : Field t} {fields : Fields ts} {slots : Slots ts}
      {members : List (String × Json)} {row : Row ts} {a : t}
      (rest : Completes fields slots members row) :
      Completes (.cons field fields) (some a, slots) members (a, row)
  | next {t : Type} {ts : List Type} {field : Field t} {fields : Fields ts} {slots : Slots ts}
      {members : List (String × Json)} {row : Row ts} {v : Json} {a : t}
      (value : Decodes field.read v a) (rest : Completes fields slots members row) :
      Completes (.cons field fields) (none, slots) ((field.name, v) :: members) (a, row)
  | absent {t : Type} {ts : List Type} {field : Field t} {fields : Fields ts} {slots : Slots ts}
      {members : List (String × Json)} {row : Row ts} {a : t}
      (value : field.absent = some a) (rest : Completes fields slots members row) :
      Completes (.cons field fields) (none, slots) members (a, row)

variable {fields : Fields ts} {slots : Slots ts} {members : List (String × Json)} {row : Row ts}
  {key : String} {v : Json}

theorem Completes.key_mem_names (h : fields.Completes slots members row)
    {member : String × Json} (mem : member ∈ members) : member.1 ∈ fields.names := by
  induction h with
  | done => cases mem
  | met rest ih => exact List.mem_cons_of_mem _ (ih mem)
  | next value rest ih =>
    rcases List.mem_cons.1 mem with rfl | mem
    · exact List.mem_cons_self
    · exact List.mem_cons_of_mem _ (ih mem)
  | absent value rest ih => exact List.mem_cons_of_mem _ (ih mem)

theorem Completes.name_ne_key (h : fields.Completes slots ((key, v) :: members) row)
    {name : String} (fresh : name ∉ fields.names) : name ≠ key := fun same =>
  fresh (same ▸ h.key_mem_names List.mem_cons_self)

/-- The first member fills the slot of its field. -/
theorem Completes.fill (h : fields.Completes slots ((key, v) :: members) row)
    (distinct : fields.names.Nodup) {tail : List Char} (ends : EndsNumber tail) (depth : Nat) :
    ∃ filled, fields.Completes filled members row ∧
      fields.fill key (':' :: ' ' :: (prettyChars depth v ++ tail)) slots =
        some (.ok (filled, tail)) := by
  -- A field that was met or has no member is passed over: no two fields have one name.
  generalize whole : (key, v) :: members = all at h
  induction h with
  | done => cases whole
  | @met t ts field fields slots all row a rest ih =>
    obtain ⟨fresh, distinct⟩ := List.nodup_cons.1 distinct
    subst whole
    obtain ⟨filled, completes, fills⟩ := ih distinct rfl
    refine ⟨(some a, filled), .met completes, ?_⟩
    rw [Fields.fill, if_neg (rest.name_ne_key fresh), fills]
    rfl
  | @next t ts field fields slots all row w a value rest ih =>
    cases whole
    refine ⟨(some a, slots), .met rest, ?_⟩
    rw [Fields.fill, if_pos rfl]
    simp only [colon_cons, bind, Except.bind, value.reads_member ends]
    rfl
  | @absent t ts field fields slots all row a value rest ih =>
    obtain ⟨fresh, distinct⟩ := List.nodup_cons.1 distinct
    subst whole
    obtain ⟨filled, completes, fills⟩ := ih distinct rfl
    refine ⟨(none, filled), .absent value completes, ?_⟩
    rw [Fields.fill, if_neg (rest.name_ne_key fresh), fills]
    rfl

theorem Completes.finish (h : fields.Completes slots [] row) : fields.finish slots = .ok row := by
  generalize whole : [] = members at h
  induction h with
  | done => rfl
  | met rest ih =>
    rw [Fields.finish]
    simp only [Option.or, ih whole]
    rfl
  | next value rest ih => cases whole
  | absent value rest ih =>
    rw [Fields.finish]
    simp only [Option.or, value, ih whole]
    rfl

/-- A member is read wherever the record stands, and the others are left. -/
theorem membersWithin_member (distinct : fields.names.Nodup)
    (h : fields.Completes slots ((key, v) :: members) row) {first : Bool} (depth : Nat)
    {cs tail : List Char} (ends : EndsNumber tail) (steps : Nat)
    (next : Decoder.nextKey first cs = .ok (some (memberChars depth key v ++ tail))) :
    ∃ filled, fields.Completes filled members row ∧
      fields.membersWithin (steps + 1) first slots cs =
        fields.membersWithin steps false filled tail := by
  obtain ⟨filled, completes, fills⟩ := h.fill distinct ends depth
  refine ⟨filled, completes, ?_⟩
  rw [Fields.membersWithin, next]
  simp only [bind, Except.bind, readText_memberChars, String.ofList_toList, fills]

theorem membersWithin_prettyMembers (distinct : fields.names.Nodup)
    (h : fields.Completes slots members row) {steps : Nat} (enough : members.length < steps)
    (depth : Nat) (rest : List Char) :
    fields.membersWithin steps false slots
      (prettyMembers depth members ++ (newLine depth ++ '\x7d' :: rest)) = .ok (row, rest) := by
  -- On the members left. The slots change with each, but complete to the same row.
  obtain ⟨spare, rfl⟩ := Nat.exists_eq_add_of_lt enough
  clear enough
  induction members generalizing slots with
  | nil =>
    rw [prettyMembers, List.nil_append, Fields.membersWithin, nextKey_close]
    simp only [bind, Except.bind, h.finish, closeObject_newLine]
    rfl
  | cons member members ih =>
    obtain ⟨key, v⟩ := member
    have ends := endsNumber_members depth members ('\x7d' :: rest)
    obtain ⟨filled, completes, read⟩ := membersWithin_member distinct h (depth + 1) ends
      (members.length + spare + 1) (nextKey_comma (depth + 1) _)
    have steps : members.length + 1 + spare = members.length + spare + 1 := by omega
    rw [prettyMembers_append, List.length_cons, steps, read, ih completes]

/-- A record is decoded from the members of its fields, in their order. -/
theorem decodes_record (distinct : fields.names.Nodup)
    (h : fields.Completes fields.noSlots members row) :
    Decodes fields.decoder (.object members) row where
  skips cs := by simp only [Fields.decoder, skipSpaces_skipSpaces]
  opens depth := by rcases members with _ | ⟨⟨key, v⟩, members⟩ <;> exact opens_cons (by decide) _
  reads depth rest _ := by
    rcases members with _ | ⟨⟨key, v⟩, members⟩
    · have close : Decoder.nextKey true ('\x7d' :: rest) = .ok none := rfl
      have closed : Decoder.closeObject ('\x7d' :: rest) = .ok rest := rfl
      have text : prettyChars depth (.object []) ++ rest = '\x7b' :: '\x7d' :: rest := by
        rw [prettyChars]
        rfl
      rw [text, Fields.decoder, skipSpaces_cons (by decide)]
      simp only [Fields.membersWithin, close, bind, Except.bind, h.finish, closed]
      rfl
    · have ends := endsNumber_members depth members ('\x7d' :: rest)
      obtain ⟨filled, completes, read⟩ := membersWithin_member distinct h (depth + 1) ends
        (newLine (depth + 1) ++ '"' :: (memberChars (depth + 1) key v ++
          (prettyMembers depth members ++ (newLine depth ++ '\x7d' :: rest)))).length
        (nextKey_first (depth + 1) _)
      have enough := length_lt_length_members depth key v members (newLine depth ++ '\x7d' :: rest)
      rw [prettyObject_append, Fields.decoder, skipSpaces_cons (by decide)]
      simp only [read]
      exact membersWithin_prettyMembers distinct completes enough depth rest

theorem decodes_built {build : Row ts → α} {a : α}
    (h : fields.Completes fields.noSlots members row) (built : build row = a)
    (distinct : fields.names.Nodup) :
    Decodes (fields.decoder.map build) (.object members) a := by
  rw [← built]
  exact (decodes_record distinct h).map build

/-- A field that is written only if it has a value. -/
theorem Completes.optional {name : String} {d : Decoder α} {toJson : α → Json} {value : Option α}
    (decodes : ∀ a, value = some a → Decodes d (toJson a) a)
    (rest : fields.Completes slots members row) :
    Completes (.cons (.defaulted name d.optional none) fields) (none, slots)
      (optionalMember name toJson value ++ members) (value, row) := by
  cases value with
  | none => exact .absent rfl rest
  | some a => exact .next (decodes_some (decodes a rfl)) rest

end Fields

end BlockSchematic.Json
