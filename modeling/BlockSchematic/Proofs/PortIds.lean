import BlockSchematic.Proofs.LayeredRoutes

/-!
# Printed port ids read back

The id of a port in a layout request is its instance's id, `-p` and its index. Instance ids are any
texts and may hold that mark themselves, but a number never does, so the last mark is the one in
front of the index.
-/

namespace BlockSchematic

namespace Text

theorem isDigit_of_readDigits? {cs : List Char} {n : Nat} (h : readDigits? cs = some n) :
    ∀ c ∈ cs, c.isDigit = true := by
  rw [readDigits?] at h
  split at h
  · rename_i digits
    rw [Bool.and_eq_true] at digits
    exact List.all_eq_true.1 digits.2
  · cases h

/-- A number has no hyphen, only digits with at most a plus in front. -/
theorem hyphen_notMem_of_readNat? {cs : List Char} {n : Nat} (h : readNat? cs = some n) :
    '-' ∉ cs := by
  intro hyphen
  unfold readNat? at h
  split at h
  · rename_i rest
    have later : '-' ∈ rest := List.mem_of_ne_of_mem (by decide) hyphen
    exact absurd (isDigit_of_readDigits? h '-' later) (by decide)
  · exact absurd (isDigit_of_readDigits? h '-' hyphen) (by decide)

theorem readNat?_natChars (n : Nat) : readNat? (natChars n) = some n := by
  rw [readNat?]
  · exact readDigits?_natChars n
  · intro rest signed
    have plus : '+' ∈ natChars n := signed ▸ List.mem_cons_self
    exact absurd (isDigit_of_mem_natChars plus) (by decide)

theorem readNatBelow?_eq_some_iff {bound n : Nat} {cs : List Char} :
    readNatBelow? bound cs = some n ↔ readNat? cs = some n ∧ n < bound := by
  rw [readNatBelow?, Option.filter_eq_some_iff, decide_eq_true_iff]

end Text

open Text

/-- The text is its two sides with the mark between them. -/
theorem eq_of_splitPortMark? {cs before after : List Char}
    (h : splitPortMark? cs = some (before, after)) : cs = before ++ '-' :: 'p' :: after := by
  fun_induction splitPortMark? cs generalizing before after with
  | case1 => cases h
  | case2 c rest front back found ih =>
    obtain ⟨rfl, rfl⟩ := Prod.mk.inj (Option.some.inj h)
    rw [ih found, List.cons_append]
  | case3 back none ih =>
    obtain ⟨rfl, rfl⟩ := Prod.mk.inj (Option.some.inj h)
    rfl
  | case4 => cases h

theorem splitPortMark?_eq_none {cs : List Char} (h : '-' ∉ cs) : splitPortMark? cs = none := by
  rw [Option.eq_none_iff_forall_ne_some]
  rintro ⟨before, after⟩ found
  rw [eq_of_splitPortMark? found] at h
  exact h (List.mem_append_right before List.mem_cons_self)

/-- The mark is found that has no hyphen behind it. -/
theorem splitPortMark?_append {after : List Char} (h : '-' ∉ after) (before : List Char) :
    splitPortMark? (before ++ '-' :: 'p' :: after) = some (before, after) := by
  induction before with
  | nil =>
    have behind : '-' ∉ 'p' :: after := by
      rw [List.mem_cons, not_or]
      exact ⟨by decide, h⟩
    rw [List.nil_append, splitPortMark?, splitPortMark?_eq_none behind]
  | cons c before ih =>
    rw [List.cons_append]
    unfold splitPortMark?
    rw [ih]

/-- A text is read as a port if it is the id of the instance, a mark and a number for the index. -/
theorem PortRef.ofLayoutId?_eq_some_iff {id : String} {p : PortRef} :
    PortRef.ofLayoutId? id = some p ↔ ∃ digits,
      id.toList = p.instanceId.toList ++ '-' :: 'p' :: digits ∧
        readNat? digits = some p.index ∧ p.index < WordBound.unsigned64 := by
  constructor
  · intro read
    simp only [ofLayoutId?, Option.bind_eq_bind, Option.bind_eq_some_iff, Option.pure_def,
      Option.some.injEq] at read
    obtain ⟨⟨before, digits⟩, split, index, number, rfl⟩ := read
    refine ⟨digits, ?_, readNatBelow?_eq_some_iff.1 number⟩
    rw [String.toList_ofList]
    exact eq_of_splitPortMark? split
  · rintro ⟨digits, whole, number⟩
    have split := splitPortMark?_append (hyphen_notMem_of_readNat? number.1) p.instanceId.toList
    simp only [ofLayoutId?, whole, split, readNatBelow?_eq_some_iff.2 number,
      Option.bind_eq_bind, Option.bind_some, Option.pure_def, String.ofList_toList]

/-- The printed id of a port is read as that port if its index is a word, whatever the id of its
instance holds, and no other port has that id. -/
theorem port_id_reads_back {p : PortRef} (small : p.index < WordBound.unsigned64) :
    PortRef.ofLayoutId? p.layoutId = some p ∧
      ∀ q : PortRef, q ≠ p → q.layoutId ≠ p.layoutId := by
  constructor
  · refine PortRef.ofLayoutId?_eq_some_iff.2 ⟨natChars p.index, ?_, readNat?_natChars _, small⟩
    rw [PortRef.layoutId, String.toList_ofList]
  · intro q other same
    exact other (PortRef.layoutId_inj same)

/-- An instance whose own id looks like that of a port. -/
theorem hyphenated_port_id_reads_back :
    PortRef.ofLayoutId? "inst-p3-p12" = some ⟨"inst-p3", 12⟩ ∧
      (⟨"inst", 3⟩ : PortRef).layoutId ≠ "inst-p3-p12" := by
  obtain ⟨read, apart⟩ := port_id_reads_back (p := ⟨"inst-p3", 12⟩) (by decide)
  have printed : (⟨"inst-p3", 12⟩ : PortRef).layoutId = "inst-p3-p12" := by decide
  rw [printed] at read apart
  exact ⟨read, apart ⟨"inst", 3⟩ (by decide)⟩

end BlockSchematic
