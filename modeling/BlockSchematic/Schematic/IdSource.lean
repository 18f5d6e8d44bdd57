import BlockSchematic.Text.Number

/-!
# Sources of ids

A source draws one id after the other and may repeat itself, but against any finite number of ids
in use it sooner or later draws an unused one. So the search for a fresh id ends.
-/

namespace BlockSchematic

structure IdDraws where
  State : Type
  /-- An id of a kind, and the source after it. -/
  draw : String → State → String × State

namespace IdDraws

variable (d : IdDraws)

/-- The source after `n` draws. -/
def skip (kind : String) : Nat → d.State → d.State
  | 0, st => st
  | n + 1, st => skip kind n (d.draw kind st).2

/-- Drawing ends at an id that is not in use. -/
inductive Ends (kind : String) (used : List String) : d.State → Prop where
  | intro (st : d.State)
      (next : (d.draw kind st).1 ∈ used → Ends kind used (d.draw kind st).2) :
      Ends kind used st

theorem Ends.next {d : IdDraws} {kind : String} {used : List String} {st : d.State}
    (h : d.Ends kind used st) (taken : (d.draw kind st).1 ∈ used) :
    d.Ends kind used (d.draw kind st).2 := by
  cases h with
  | intro _ next => exact next taken

theorem ends_of_draw_skip {d : IdDraws} {kind : String} {used : List String} {n : Nat}
    {st : d.State} (h : (d.draw kind (d.skip kind n st)).1 ∉ used) : d.Ends kind used st := by
  induction n generalizing st with
  | zero => exact .intro st fun taken => absurd taken h
  | succ n ih => exact .intro st fun _ => ih h

/-- One state comes right after another whose id was taken. -/
def Follows (kind : String) (used : List String) (after before : d.State) : Prop :=
  after = (d.draw kind before).2 ∧ (d.draw kind before).1 ∈ used

theorem Ends.acc {d : IdDraws} {kind : String} {used : List String} {st : d.State}
    (h : d.Ends kind used st) : Acc (d.Follows kind used) st := by
  induction h with
  | intro st _ ih =>
    refine .intro st fun after follows => ?_
    obtain ⟨rfl, taken⟩ := follows
    exact ih taken

instance (kind : String) (used : List String) :
    WellFoundedRelation { st // d.Ends kind used st } where
  rel after before := d.Follows kind used after.1 before.1
  wf := ⟨fun st => InvImage.accessible _ st.2.acc⟩

/-- Draws until an id is unused. -/
def fresh {d : IdDraws} (kind : String) (used : List String) (st : d.State)
    (h : d.Ends kind used st) : String × d.State :=
  if taken : (d.draw kind st).1 ∈ used then fresh kind used (d.draw kind st).2 (h.next taken)
  else d.draw kind st
  termination_by (⟨st, h⟩ : { st // d.Ends kind used st })
  decreasing_by exact ⟨rfl, taken⟩

end IdDraws

structure IdSource extends IdDraws where
  ends : ∀ kind used st, toIdDraws.Ends kind used st

def IdSource.fresh (src : IdSource) (kind : String) (used : List String) (st : src.State) :
    String × src.State :=
  IdDraws.fresh kind used st (src.ends kind used st)

/-- An injective sequence leaves every list. -/
theorem exists_bound_notMem {f : Nat → String} (hf : ∀ {m n}, f m = f n → m = n)
    (used : List String) : ∃ bound, ∀ n, bound ≤ n → f n ∉ used := by
  induction used with
  | nil => exact ⟨0, fun _ _ => by simp⟩
  | cons u rest ih =>
    obtain ⟨bound, hb⟩ := ih
    by_cases hit : ∃ m, f m = u
    · obtain ⟨m, rfl⟩ := hit
      refine ⟨max bound (m + 1), fun n hn => ?_⟩
      rw [List.mem_cons]
      rintro (same | member)
      · have := hf same; omega
      · exact hb n (by omega) member
    · refine ⟨bound, fun n hn => ?_⟩
      rw [List.mem_cons]
      rintro (same | member)
      · exact hit ⟨n, same⟩
      · exact hb n hn member

/-- The id with a number: the kind, an underscore, the label of the source and the number. -/
def numberedId (kind label : String) (n : Nat) : String :=
  String.ofList (kind.toList ++ '_' :: (label.toList ++ Text.natChars n))

theorem numberedId_injective {kind label : String} {m n : Nat}
    (h : numberedId kind label m = numberedId kind label n) : m = n := by
  have h := congrArg String.toList h
  simp only [numberedId, String.toList_ofList, List.append_cancel_left_eq, List.cons.injEq,
    true_and] at h
  exact Text.natChars_injective h

/-- Ids that count up; the state is the last number drawn. -/
def numberedDraws (label : String) : IdDraws where
  State := Nat
  draw kind n := (numberedId kind label (n + 1), n + 1)

theorem skip_numberedDraws (label kind : String) (n st : Nat) :
    (numberedDraws label).skip kind n st = (st + n : Nat) := by
  induction n generalizing st with
  | zero => rfl
  | succ n ih =>
    have := ih (st + 1)
    simp only [IdDraws.skip, numberedDraws] at this ⊢
    rw [this]
    omega

theorem ends_numberedDraws (label kind : String) (used : List String) (st : Nat) :
    (numberedDraws label).Ends kind used st := by
  obtain ⟨bound, hb⟩ :=
    exists_bound_notMem (f := numberedId kind label) numberedId_injective used
  refine IdDraws.ends_of_draw_skip (n := bound) ?_
  rw [skip_numberedDraws]
  exact hb _ (by omega)

def IdSource.numbered (label : String) : IdSource where
  toIdDraws := numberedDraws label
  ends := ends_numberedDraws label

end BlockSchematic
