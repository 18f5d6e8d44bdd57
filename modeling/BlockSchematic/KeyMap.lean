/-!
# Maps with text keys

The entries stand in ascending key order and no key occurs twice, so a map is determined by what
`get?` answers.
-/

namespace BlockSchematic

structure KeyMap (α : Type) where
  entries : List (String × α)
  ascending : entries.Pairwise fun a b => a.1 < b.1

namespace KeyMap

variable {α : Type}

def empty : KeyMap α := ⟨[], .nil⟩

instance : Inhabited (KeyMap α) := ⟨empty⟩

def get? (m : KeyMap α) (key : String) : Option α := m.entries.lookup key

def put (key : String) (value : α) : List (String × α) → List (String × α)
  | [] => [(key, value)]
  | e :: rest =>
    if key < e.1 then (key, value) :: e :: rest
    else if key = e.1 then (key, value) :: rest
    else e :: put key value rest

theorem mem_put {key : String} {value : α} {entries : List (String × α)} {e : String × α}
    (h : e ∈ put key value entries) : e.1 = key ∨ e ∈ entries := by
  induction entries with
  | nil => simp only [put, List.mem_singleton] at h; exact .inl (by rw [h])
  | cons d rest ih =>
    rw [put] at h
    split at h
    · rcases List.mem_cons.1 h with rfl | h
      · exact .inl rfl
      · exact .inr h
    · split at h
      · rcases List.mem_cons.1 h with rfl | h
        · exact .inl rfl
        · exact .inr (List.mem_cons_of_mem _ h)
      · rcases List.mem_cons.1 h with rfl | h
        · exact .inr List.mem_cons_self
        · exact (ih h).imp id (List.mem_cons_of_mem _)

theorem ascending_put (key : String) (value : α) {entries : List (String × α)}
    (h : entries.Pairwise fun a b => a.1 < b.1) :
    (put key value entries).Pairwise fun a b => a.1 < b.1 := by
  induction entries with
  | nil => simp [put]
  | cons e rest ih =>
    obtain ⟨below, restAscending⟩ := List.pairwise_cons.1 h
    rw [put]
    split
    · rename_i before
      refine List.pairwise_cons.2 ⟨fun d hd => ?_, h⟩
      rcases List.mem_cons.1 hd with rfl | hd
      · exact before
      · exact String.lt_trans before (below d hd)
    · split
      · rename_i same
        exact List.pairwise_cons.2 ⟨fun d hd => same ▸ below d hd, restAscending⟩
      · rename_i notBefore notSame
        refine List.pairwise_cons.2 ⟨fun d hd => ?_, ih restAscending⟩
        rcases mem_put hd with rfl | hd
        · exact Decidable.byContradiction fun notAfter =>
            notSame (String.le_antisymm (String.not_lt.1 notAfter) (String.not_lt.1 notBefore))
        · exact below d hd

def insert (m : KeyMap α) (key : String) (value : α) : KeyMap α :=
  ⟨put key value m.entries, ascending_put key value m.ascending⟩

def ofList (entries : List (String × α)) : KeyMap α :=
  entries.foldl (fun m e => m.insert e.1 e.2) empty

def toList (m : KeyMap α) : List (String × α) := m.entries

/-- An entry above all others goes to the end. -/
theorem put_eq_append {key : String} {value : α} {entries : List (String × α)}
    (above : ∀ e ∈ entries, e.1 < key) : put key value entries = entries ++ [(key, value)] := by
  induction entries with
  | nil => rfl
  | cons e entries ih =>
    obtain ⟨below, others⟩ := List.forall_mem_cons.1 above
    have notBefore : ¬key < e.1 := String.lt_asymm below
    have notSame : key ≠ e.1 := fun same => String.lt_irrefl e.1 (same ▸ below)
    rw [put, if_neg notBefore, if_neg notSame, ih others, List.cons_append]

theorem ext {m n : KeyMap α} (h : m.entries = n.entries) : m = n := by
  cases m; cases n; cases h; rfl

theorem entries_foldl_insert (m : KeyMap α) {entries : List (String × α)}
    (ascending : (m.entries ++ entries).Pairwise fun a b => a.1 < b.1) :
    (entries.foldl (fun m e => m.insert e.1 e.2) m).entries = m.entries ++ entries := by
  induction entries generalizing m with
  | nil => exact (List.append_nil _).symm
  | cons e entries ih =>
    have above : ∀ d ∈ m.entries, d.1 < e.1 := fun d hd =>
      (List.pairwise_append.1 ascending).2.2 d hd e List.mem_cons_self
    have inserted : (m.insert e.1 e.2).entries = m.entries ++ [e] := put_eq_append above
    have moved : (m.insert e.1 e.2).entries ++ entries = m.entries ++ e :: entries := by
      rw [inserted, List.append_assoc, List.singleton_append]
    rw [List.foldl_cons, ih _ (moved ▸ ascending), moved]

@[simp] theorem ofList_toList (m : KeyMap α) : ofList m.toList = m :=
  ext (entries_foldl_insert empty m.ascending)

theorem lookup_cons (k : String) (e : String × α) (rest : List (String × α)) :
    (e :: rest).lookup k = if k = e.1 then some e.2 else rest.lookup k := by
  by_cases same : k = e.1
  · rw [if_pos same, List.lookup_cons, same, beq_self_eq_true]
  · rw [if_neg same, List.lookup_cons, beq_false_of_ne same]

theorem lookup_put (key : String) (value : α) (entries : List (String × α)) (k : String) :
    (put key value entries).lookup k = if k = key then some value else entries.lookup k := by
  induction entries with
  | nil => rw [put, lookup_cons]
  | cons e rest ih =>
    rw [put]
    split
    · rw [lookup_cons]
    · split
      · rename_i replaced
        rw [lookup_cons, lookup_cons, ← replaced]
        split <;> rfl
      · rename_i other
        rw [lookup_cons, lookup_cons, ih]
        by_cases here : k = e.1
        · rw [if_pos here, if_neg (here ▸ Ne.symm other), if_pos here]
        · rw [if_neg here, if_neg here]

theorem get?_insert (m : KeyMap α) (key : String) (value : α) (k : String) :
    (m.insert key value).get? k = if k = key then some value else m.get? k :=
  lookup_put key value m.entries k

theorem get?_foldl_insert {entries : List (String × α)} {key : String} {value : α}
    (agreed : ∀ other, (key, other) ∈ entries → other = value) (m : KeyMap α)
    (listed : (key, value) ∈ entries ∨ m.get? key = some value) :
    (entries.foldl (fun m e => m.insert e.1 e.2) m).get? key = some value := by
  induction entries generalizing m with
  | nil => exact listed.resolve_left (List.not_mem_nil)
  | cons e rest ih =>
    refine ih (fun other later => agreed other (List.mem_cons_of_mem _ later)) _ ?_
    rw [get?_insert]
    by_cases same : key = e.1
    · have first : e.2 = value := agreed e.2 (same ▸ List.mem_cons_self)
      exact .inr (by rw [if_pos same, first])
    · rw [if_neg same]
      refine listed.imp_left fun here => (List.mem_cons.1 here).resolve_left fun eq => ?_
      exact same (congrArg Prod.fst eq)

/-- A key on whose value all entries agree is found with that value. -/
theorem get?_ofList {entries : List (String × α)} {key : String} {value : α}
    (listed : (key, value) ∈ entries)
    (agreed : ∀ other, (key, other) ∈ entries → other = value) :
    (ofList entries).get? key = some value :=
  get?_foldl_insert agreed empty (.inl listed)

instance [DecidableEq α] : DecidableEq (KeyMap α) := fun m n =>
  if h : m.entries = n.entries then isTrue (ext h) else isFalse fun e => h (e ▸ rfl)

instance [BEq α] : BEq (KeyMap α) := ⟨fun m n => m.entries == n.entries⟩

end KeyMap

end BlockSchematic
