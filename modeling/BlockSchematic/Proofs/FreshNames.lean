import BlockSchematic.Proofs.InstanceNames
import Mathlib.Data.Finset.Card
import Mathlib.Order.Interval.Finset.Nat

/-!
# Names that are not in use

Ids are drawn, and names for pins are tried, by counting up until one is not in use. Different
numbers make different names and only finitely many are in use, so no search goes on for longer
than the names in use keep it.
-/

namespace BlockSchematic

/-- Counting up from `start`, the first number whose candidate is not in use is `n`. -/
structure FirstUnused (candidate : Nat → String) (used : List String) (start n : Nat) : Prop where
  le : start ≤ n
  unused : candidate n ∉ used
  taken : ∀ k, start ≤ k → k < n → candidate k ∈ used

section FirstUnused

variable {candidate : Nat → String} {used : List String} {start n : Nat}

theorem FirstUnused.unique {m : Nat} (h : FirstUnused candidate used start n)
    (h' : FirstUnused candidate used start m) : n = m := by
  rcases Nat.lt_trichotomy n m with before | same | after
  · exact absurd (h'.taken n h.le before) h.unused
  · exact same
  · exact absurd (h.taken m h'.le after) h'.unused

/-- A search passes over no more numbers than there are names that it can meet. -/
theorem FirstUnused.le_add_card (h : FirstUnused candidate used start n)
    (apart : ∀ {k l}, candidate k = candidate l → k = l) (met : Finset String)
    (within : ∀ k, candidate k ∈ used → candidate k ∈ met) : n ≤ start + met.card := by
  have passed : (Finset.Ico start n).card ≤ met.card := by
    refine Finset.card_le_card_of_injOn candidate (fun k between => ?_) fun k _ l _ => apart
    obtain ⟨reached, before⟩ := Finset.mem_Ico.1 between
    exact within k (h.taken k reached before)
  rw [Nat.card_Ico] at passed
  omega

/-- The first of some candidates in a row that is not in use is the first of all. -/
theorem exists_firstUnused_of_find? {bound : Nat} {name : String}
    (found : ((List.range bound).map fun n => candidate (n + start)).find? (· ∉ used) =
      some name) : ∃ n, FirstUnused candidate used start n ∧ name = candidate n := by
  obtain ⟨free, k, inside, rfl, before⟩ := List.find?_eq_some_iff_getElem.1 found
  rw [List.getElem_map, List.getElem_range] at free ⊢
  refine ⟨k + start, ⟨Nat.le_add_left start k, of_decide_eq_true free, ?_⟩, rfl⟩
  intro n reached earlier
  obtain ⟨j, rfl⟩ := Nat.exists_eq_add_of_le' reached
  simpa using before j (by omega)

end FirstUnused

/-! ## Drawing an id -/

/-- Drawing passes over ids in use and ends with the first draw that is not. -/
theorem IdDraws.exists_fresh_eq_skip {d : IdDraws} {kind : String} {used : List String}
    {st : d.State} (h : d.Ends kind used st) : ∃ k,
      d.fresh kind used st h = d.draw kind (d.skip kind k st) ∧
      (d.draw kind (d.skip kind k st)).1 ∉ used ∧
      ∀ j, j < k → (d.draw kind (d.skip kind j st)).1 ∈ used := by
  induction h with
  | intro st next ih =>
    rw [IdDraws.fresh]
    by_cases taken : (d.draw kind st).1 ∈ used
    · obtain ⟨k, drawn, unused, passed⟩ := ih taken
      refine ⟨k + 1, (dif_pos taken).trans drawn, unused, fun j before => ?_⟩
      cases j with
      | zero => exact taken
      | succ j => exact passed j (by omega)
    · exact ⟨0, dif_neg taken, taken, fun j before => absurd before (Nat.not_lt_zero j)⟩

theorem draw_skip_numberedDraws (label kind : String) (st k : Nat) :
    (numberedDraws label).draw kind ((numberedDraws label).skip kind k st) =
      (numberedId kind label (st + (k + 1)), st + (k + 1)) := by
  rw [skip_numberedDraws]
  rfl

/-- A counter at `st` draws the number `st + 1` first. The ids in use, each counted once, bound the
draws. -/
theorem Schematic.exists_fresh_eq (s : Schematic) (kind label : String) (st : Nat) :
    ∃ draws, FirstUnused (fun k => numberedId kind label (st + k)) s.ids 1 draws ∧
      draws ≤ s.ids.toFinset.card + 1 ∧
      s.fresh (.numbered label) kind st = (numberedId kind label (st + draws), st + draws) := by
  obtain ⟨k, drawn, unused, passed⟩ :=
    IdDraws.exists_fresh_eq_skip (ends_numberedDraws label kind s.ids st)
  simp only [draw_skip_numberedDraws] at drawn unused passed
  have first : FirstUnused (fun k => numberedId kind label (st + k)) s.ids 1 (k + 1) := by
    refine ⟨Nat.le_add_left 1 k, unused, fun n reached before => ?_⟩
    obtain ⟨j, rfl⟩ := Nat.exists_eq_add_of_le' reached
    exact passed j (by omega)
  have bound : k + 1 ≤ 1 + s.ids.toFinset.card :=
    first.le_add_card (fun same => Nat.add_left_cancel (numberedId_injective same)) _
      fun _ listed => List.mem_toFinset.2 listed
  exact ⟨k + 1, first, by omega, drawn⟩

/-! ## Naming a pin -/

theorem numberedName_ne (base : String) (n : Nat) : numberedName base n ≠ base := by
  intro same
  have longer := congrArg (List.length ∘ String.toList) same
  simp [toList_numberedName] at longer

namespace Schematic

variable {s : Schematic} {base : String}

theorem unusedName_of_free (free : ∀ i ∈ s.instances, i.name ≠ base) :
    s.unusedName base = base := by
  simp [unusedName, instanceNamed?_eq_none_iff.2 free]

theorem unusedName_of_taken (taken : base ∈ s.instances.map (·.name)) :
    s.unusedName base = (((List.range (s.instances.length + 1)).map
      fun n => numberedName base (n + 2)).find? (· ∉ s.instances.map (·.name))).getD base := by
  have same : (fun name => (s.instanceNamed? name).isNone) =
      fun name => decide (name ∉ s.instances.map (·.name)) := by
    funext name
    rw [Bool.eq_iff_iff]
    simp [instanceNamed?]
  rw [unusedName, same, List.find?_cons_of_neg (by simpa using taken)]
  rfl

/-- The numbered names that are tried reach up to the first that nobody bears. -/
theorem exists_unusedName_eq (taken : base ∈ s.instances.map (·.name)) :
    ∃ n, FirstUnused (numberedName base) (s.instances.map (·.name)) 2 n ∧
      n ≤ s.instances.length + 1 ∧ s.unusedName base = numberedName base n := by
  have unborne := s.unusedName_ne base
  rw [unusedName_of_taken taken] at unborne ⊢
  cases found : List.find? (· ∉ s.instances.map (·.name))
      ((List.range (s.instances.length + 1)).map fun n => numberedName base (n + 2)) with
  | none =>
    obtain ⟨i, here, same⟩ := List.mem_map.1 taken
    rw [found] at unborne
    exact absurd same (unborne i here)
  | some name =>
    obtain ⟨n, first, rfl⟩ := exists_firstUnused_of_find? found
    refine ⟨n, first, ?_, rfl⟩
    -- The base is in use as well, and no candidate is the base.
    have passed := first.le_add_card (fun same => (numberedName_inj same).2)
      ((s.instances.map (·.name)).toFinset.erase base) fun l listed =>
        Finset.mem_erase.2 ⟨numberedName_ne base l, List.mem_toFinset.2 listed⟩
    have one := Finset.card_erase_add_one (List.mem_toFinset.2 taken)
    have few := List.toFinset_card_le (s.instances.map (·.name))
    rw [List.length_map] at few
    omega

/-- Drawing an id ends at the first number behind the counter's that makes an id no instance and no
wire has. It takes at most one draw more than there are ids, and a counter that is further from the
end of its word than that stays a word. The name for a pin is one that no instance bears: the base,
if none bears it, and otherwise the base with the first number from 2 on for which none does. This
number is at most one more than there are instances, so if these are fewer than 2^31 - 2, it and the
number after it are signed words. -/
theorem searches_end_unused (s : Schematic) :
    (∀ (kind label : String) (st : Nat), ∃ draws,
      s.fresh (.numbered label) kind st = (numberedId kind label (st + draws), st + draws) ∧
      FirstUnused (fun k => numberedId kind label (st + k)) s.ids 1 draws ∧
      draws ≤ s.ids.toFinset.card + 1 ∧
      (st + s.ids.toFinset.card + 1 < WordBound.unsigned64 →
        st + draws < WordBound.unsigned64) ∧
      (∀ i ∈ s.instances, i.id ≠ numberedId kind label (st + draws)) ∧
      ∀ w ∈ s.wires, w.id ≠ numberedId kind label (st + draws)) ∧
    ∀ base, (∀ i ∈ s.instances, i.name ≠ s.unusedName base) ∧
      ((∀ i ∈ s.instances, i.name ≠ base) → s.unusedName base = base) ∧
      ∀ i ∈ s.instances, i.name = base → ∃ n, s.unusedName base = numberedName base n ∧
        FirstUnused (numberedName base) (s.instances.map (·.name)) 2 n ∧
        n ≤ s.instances.length + 1 ∧
        (s.instances.length + 2 < WordBound.signed32 → n + 1 < WordBound.signed32) := by
  refine ⟨fun kind label st => ?_, fun base => ⟨s.unusedName_ne base, unusedName_of_free, ?_⟩⟩
  · obtain ⟨draws, first, few, drawn⟩ := s.exists_fresh_eq kind label st
    have unused := first.unused
    rw [ids, List.mem_append, not_or] at unused
    refine ⟨draws, drawn, first, few, fun room => by omega, fun i here same => ?_,
      fun w here same => ?_⟩
    · exact unused.1 (same ▸ List.mem_map_of_mem here)
    · exact unused.2 (same ▸ List.mem_map_of_mem here)
  · rintro i here rfl
    obtain ⟨n, first, few, named⟩ := exists_unusedName_eq (List.mem_map_of_mem here)
    exact ⟨n, named, first, few, fun room => by omega⟩

/-- A counter from the beginning passes over two ids, and a third pin for the port over the names
of the two it has. -/
theorem pinnedTwice_unused :
    pinnedTwice.fresh (.numbered "") "inst" (0 : Nat) = ("inst_3", (3 : Nat)) ∧
      pinnedTwice.unusedName "A_pin" = "A_pin_3" := by
  obtain ⟨draw, name⟩ := searches_end_unused pinnedTwice
  obtain ⟨draws, drawn, firstDraw, -⟩ := draw "inst" "" 0
  obtain ⟨-, -, numbered⟩ := name "A_pin"
  obtain ⟨n, named, firstName, -⟩ := numbered pinnedTwice.instances[1] (List.getElem_mem _) rfl
  have third : FirstUnused (fun k => numberedId "inst" "" (0 + k)) pinnedTwice.ids 1 3 := by
    refine ⟨by decide, by decide, fun k reached before => ?_⟩
    obtain rfl | rfl : k = 1 ∨ k = 2 := by omega
    all_goals decide
  have thirdName : FirstUnused (numberedName "A_pin") (pinnedTwice.instances.map (·.name)) 2 3 := by
    refine ⟨by decide, by decide, fun k reached before => ?_⟩
    obtain rfl : k = 2 := by omega
    decide
  obtain rfl := firstDraw.unique third
  obtain rfl := firstName.unique thirdName
  have spelled : numberedId "inst" "" 3 = "inst_3" := by decide
  exact ⟨drawn.trans (Prod.ext spelled rfl), named.trans (by decide)⟩

end Schematic

end BlockSchematic
