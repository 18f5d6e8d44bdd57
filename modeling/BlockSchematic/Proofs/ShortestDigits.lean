import BlockSchematic.Decimal.Shortest
import Mathlib.Algebra.Group.Nat.Defs

/-!
# The grids of the shortest decimal

A grid whose points lie closer together than the ends of the interval has a point in it. So the
search ends at a grid that is not much finer than the interval, and its point has few digits.
-/

namespace BlockSchematic.Decimal

theorem twoTo_pos (n : Nat) : 0 < twoTo n := Nat.pow_pos (by decide)

theorem tenTo_pos (n : Nat) : 0 < tenTo n := Nat.pow_pos (by decide)

theorem twoTo_le {m n : Nat} (order : m ≤ n) : twoTo m ≤ twoTo n :=
  Nat.pow_le_pow_right (by decide) order

theorem tenTo_le {m n : Nat} (order : m ≤ n) : tenTo m ≤ tenTo n :=
  Nat.pow_le_pow_right (by decide) order

theorem twoTo_succ (n : Nat) : twoTo (n + 1) = 2 * twoTo n := Nat.pow_succ'

theorem tenTo_succ (n : Nat) : tenTo (n + 1) = 10 * tenTo n := Nat.pow_succ'

/-- The ends lie around the middle. -/
structure Interval.Proper (i : Interval) : Prop where
  low_pos : 0 < i.low
  low_lt : i.low < i.middle
  lt_high : i.middle < i.high

structure Scale.Positive (s : Scale) : Prop where
  point : 0 < s.point
  quarter : 0 < s.quarter

theorem Scale.positive_of (exponent k : Int) : (Scale.of exponent k).Positive where
  point := Nat.mul_pos (tenTo_pos _) (twoTo_pos _)
  quarter := Nat.mul_pos (twoTo_pos _) (tenTo_pos _)

/-- The next grid is ten times as coarse. -/
theorem Scale.next_of (exponent k : Int) :
    (Scale.of exponent (k + 1)).point * (Scale.of exponent k).quarter =
      10 * ((Scale.of exponent k).point * (Scale.of exponent (k + 1)).quarter) := by
  rcases Int.lt_or_le k 0 with fraction | whole
  · have next : (-k).toNat = (-(k + 1)).toNat + 1 := by omega
    have same : (k + 1).toNat = k.toNat := by omega
    simp only [Scale.of, next, same, tenTo_succ]
    ac_rfl
  · have next : (k + 1).toNat = k.toNat + 1 := by omega
    have same : (-(k + 1)).toNat = (-k).toNat := by omega
    simp only [Scale.of, next, same, tenTo_succ]
    ac_rfl

section Grid

variable {i : Interval} {s : Scale} {tie : Tie}

theorem Interval.holds_of_between {c : Nat} (above : i.low * s.quarter < c * s.point)
    (below : c * s.point < i.high * s.quarter) : i.holds s c = true := by
  rw [holds]
  split
  · simp only [Nat.le_of_lt above, Nat.le_of_lt below, decide_true, Bool.and_self]
  · simp only [above, below, decide_true, Bool.and_self]

theorem Interval.le_of_holds {c : Nat} (holds : i.holds s c = true) :
    i.low * s.quarter ≤ c * s.point ∧ c * s.point ≤ i.high * s.quarter := by
  rw [Interval.holds] at holds
  split at holds
  · simpa using holds
  · have strict : i.low * s.quarter < c * s.point ∧ c * s.point < i.high * s.quarter := by
      simpa using holds
    exact ⟨Nat.le_of_lt strict.1, Nat.le_of_lt strict.2⟩

theorem Interval.holds_of_onGrid? {c : Nat} (found : i.onGrid? tie s = some c) :
    i.holds s c = true := by
  rw [onGrid?] at found
  split at found
  · rename_i first second
    cases found
    have either : nearer tie (i.middle * s.quarter) s.point (i.middle * s.quarter / s.point) =
          i.middle * s.quarter / s.point ∨
        nearer tie (i.middle * s.quarter) s.point (i.middle * s.quarter / s.point) =
          i.middle * s.quarter / s.point + 1 := by
      simp only [nearer]
      split
      · exact .inl rfl
      · split
        · exact .inr rfl
        · split
          · split
            · exact .inl rfl
            · exact .inr rfl
          · exact .inr rfl
    rcases either with same | next
    · rwa [same]
    · rwa [next]
  · rename_i first second
    cases found
    exact first
  · rename_i first second
    cases found
    exact second
  · cases found

/-- One of the neighbours of the middle lies in the interval. -/
theorem Interval.onGrid?_isSome (proper : i.Proper) (positive : s.Positive)
    (fine : s.point < (i.high - i.low) * s.quarter) : (i.onGrid? tie s).isSome = true := by
  have floor := Nat.div_mul_le_self (i.middle * s.quarter) s.point
  have ceiling := Nat.lt_div_mul_add positive.point (a := i.middle * s.quarter)
  have low := Nat.mul_lt_mul_of_pos_right proper.low_lt positive.quarter
  have high := Nat.mul_lt_mul_of_pos_right proper.lt_high positive.quarter
  rw [Nat.sub_mul] at fine
  have either : i.holds s (i.middle * s.quarter / s.point) = true ∨
      i.holds s (i.middle * s.quarter / s.point + 1) = true := by
    by_cases inside : i.low * s.quarter < i.middle * s.quarter / s.point * s.point
    · exact .inl (holds_of_between inside (Nat.lt_of_le_of_lt floor high))
    · refine .inr (holds_of_between ?_ ?_) <;> rw [Nat.succ_mul] <;> omega
  rw [onGrid?]
  rcases either with first | second
  · rw [first]
    cases i.holds s (i.middle * s.quarter / s.point + 1) <;> rfl
  · rw [second]
    cases i.holds s (i.middle * s.quarter / s.point) <;> rfl

end Grid

/-! ## The search -/

/-- The grid has a point in the interval, and the next coarser one, if it was tried, has none. -/
structure Found (i : Interval) (tie : Tie) (exponent first : Int) (tried : Nat)
    (found : Nat × Int) : Prop where
  point : i.onGrid? tie (Scale.of exponent found.2) = some found.1
  inReach : first - tried ≤ found.2 ∧ found.2 ≤ first
  coarsest : found.2 = first ∨ i.onGrid? tie (Scale.of exponent (found.2 + 1)) = none

theorem found_searchGrids {i : Interval} {tie : Tie} {exponent : Int} {steps : Nat} (first : Int)
    {tried : Nat} (enough : tried < steps)
    (some_point : (i.onGrid? tie (Scale.of exponent (first - tried))).isSome = true) :
    Found i tie exponent first tried (searchGrids i tie exponent steps first) := by
  -- On the steps. A grid without a point is left behind, and the one that has some is one closer.
  induction steps generalizing first tried with
  | zero => omega
  | succ steps ih =>
    rw [searchGrids]
    cases here : i.onGrid? tie (Scale.of exponent first) with
    | some c => exact ⟨here, ⟨by dsimp only; omega, Int.le_refl _⟩, .inl rfl⟩
    | none =>
      obtain ⟨others, rfl⟩ : ∃ others, tried = others + 1 := by
        cases tried with
        | zero =>
          rw [Int.ofNat_zero, Int.sub_zero, here] at some_point
          cases some_point
        | succ others => exact ⟨others, rfl⟩
      have closer : first - ((others + 1 : Nat) : Int) = first - 1 - others := by omega
      rw [closer] at some_point
      obtain ⟨point, inReach, coarsest⟩ := ih (first - 1) (by omega) some_point
      dsimp only
      refine ⟨point, by omega, .inr ?_⟩
      rcases coarsest with start | missed
      · rw [start, Int.sub_add_cancel]
        exact here
      · exact missed

/-! ## Doubles -/

/-- The mantissa and the exponent of a positive double. -/
structure IsDouble (m : Nat) (e : Int) : Prop where
  positive : 0 < m
  bits : m < 2 ^ 53
  least : leastExponent ≤ e
  most : e ≤ 971
  normal : 2 ^ 52 ≤ m ∨ e = leastExponent

variable {m : Nat} {e : Int}

theorem IsDouble.proper_around (double : IsDouble m e) : (Interval.around m e).Proper := by
  have positive := double.positive
  refine ⟨?_, ?_, ?_⟩ <;> simp only [Interval.around]
  · split <;> omega
  · split <;> omega
  · omega

/-- The gap below a power of two is half as wide as the one above. -/
theorem IsDouble.gap_around (double : IsDouble m e) :
    (Interval.around m e).high - (Interval.around m e).low = 4 ∨
      (Interval.around m e).high - (Interval.around m e).low = 3 ∧ m = 2 ^ 52 := by
  have positive := double.positive
  simp only [Interval.around]
  split
  · rename_i edge
    exact .inr ⟨by omega, edge.1⟩
  · exact .inl (by omega)

/-- The grid at which the search begins, for a double whose leading bit has the given place. -/
def firstGrid (leading : Nat) (e : Int) : Int := ((leading : Int) + e) * 30103 / 100000 + 2

/-- The grids go from one that is coarse enough to one that is fine enough. -/
def gridsReach (leading : Nat) (e : Int) : Bool :=
  let first := Scale.of e (firstGrid leading e)
  let last := Scale.of e (firstGrid leading e - 23)
  8 * twoTo leading * first.quarter ≤ tenTo 17 * first.point && last.point < 3 * last.quarter

theorem gridsReach_normal : ∀ n < 2046, gridsReach 52 (leastExponent + (n : Nat)) = true := by
  decide +kernel

theorem gridsReach_subnormal : ∀ leading < 52, gridsReach leading leastExponent = true := by
  decide +kernel

theorem IsDouble.gridsReach (double : IsDouble m e) : gridsReach m.log2 e = true := by
  obtain ⟨positive, bits, least, most, normal⟩ := double
  have bound := (Nat.log2_lt (Nat.ne_of_gt positive)).2 bits
  rcases Nat.lt_or_ge m.log2 52 with short | long
  · have subnormal : e = leastExponent := normal.resolve_left fun large => by
      have := (Nat.le_log2 (Nat.ne_of_gt positive)).2 large
      omega
    rw [subnormal]
    exact gridsReach_subnormal m.log2 short
  · have full : m.log2 = 52 := by omega
    obtain ⟨n, rfl⟩ := Int.exists_add_of_le least
    rw [full]
    exact gridsReach_normal n (by rw [leastExponent] at most; omega)

/-- Fewer than ten points of the next coarser grid reach over the gap between the ends. -/
theorem mul_gap_le {i : Interval} {tie : Tie} {k : Int} {d : Nat} (proper : i.Proper)
    (missed : i.onGrid? tie (Scale.of e (k + 1)) = none)
    (within : d * (Scale.of e k).point ≤ i.high * (Scale.of e k).quarter) :
    d * (i.high - i.low) ≤ 10 * i.high := by
  have here := Scale.positive_of e k
  have next := Scale.positive_of e (k + 1)
  have coarse : (i.high - i.low) * (Scale.of e (k + 1)).quarter ≤ (Scale.of e (k + 1)).point := by
    refine Nat.le_of_not_lt fun fine => ?_
    have found : (i.onGrid? tie (Scale.of e (k + 1))).isSome = true :=
      Interval.onGrid?_isSome proper next fine
    rw [missed] at found
    cases found
  refine Nat.le_of_mul_le_mul_right ?_ (Nat.mul_pos next.quarter here.quarter)
  calc
    d * (i.high - i.low) * ((Scale.of e (k + 1)).quarter * (Scale.of e k).quarter)
      = d * ((i.high - i.low) * (Scale.of e (k + 1)).quarter * (Scale.of e k).quarter) := by
        ac_rfl
    _ ≤ d * ((Scale.of e (k + 1)).point * (Scale.of e k).quarter) :=
        Nat.mul_le_mul_left _ (Nat.mul_le_mul_right _ coarse)
    _ = 10 * (d * (Scale.of e k).point * (Scale.of e (k + 1)).quarter) := by
        rw [Scale.next_of]
        ac_rfl
    _ ≤ 10 * (i.high * (Scale.of e k).quarter * (Scale.of e (k + 1)).quarter) :=
        Nat.mul_le_mul_left _ (Nat.mul_le_mul_right _ within)
    _ = 10 * i.high * ((Scale.of e (k + 1)).quarter * (Scale.of e k).quarter) := by ac_rfl

/-- The decimal has at most seventeen digits and does not lie above the interval. -/
structure FewDigits (m : Nat) (e : Int) (d : Nat) (k : Int) : Prop where
  positive : 0 < d
  few : d < 10 ^ 17
  inReach : -400 ≤ k ∧ k ≤ 400
  within : d * (Scale.of e k).point ≤ (4 * m + 2) * (Scale.of e k).quarter

/-- Either the decimal lies on the first grid, which is coarse enough, or the next grid was too
coarse, so that this one is not much finer than the gap. -/
theorem IsDouble.digits_lt (double : IsDouble m e) {tie : Tie} {d : Nat} {k : Int}
    (coarsest : k = firstGrid m.log2 e ∨
      (Interval.around m e).onGrid? tie (Scale.of e (k + 1)) = none)
    (within : d * (Scale.of e k).point ≤ (4 * m + 2) * (Scale.of e k).quarter) : d < 10 ^ 17 := by
  rcases coarsest with rfl | missed
  · have reach := double.gridsReach
    simp only [Decimal.gridsReach, Bool.and_eq_true, decide_eq_true_eq] at reach
    have leading : m < 2 ^ (m.log2 + 1) := Nat.lt_log2_self
    have size : 4 * m + 2 < 8 * twoTo m.log2 := by
      rw [Nat.pow_succ] at leading
      change 4 * m + 2 < 8 * 2 ^ m.log2
      omega
    have first := Scale.positive_of e (firstGrid m.log2 e)
    refine Nat.lt_of_mul_lt_mul_right (Nat.lt_of_le_of_lt within ?_)
    exact Nat.lt_of_lt_of_le (Nat.mul_lt_mul_of_pos_right size first.quarter) reach.1
  · have few := mul_gap_le double.proper_around missed within
    have bits := double.bits
    have high : (Interval.around m e).high = 4 * m + 2 := rfl
    rcases double.gap_around with wide | ⟨narrow, edge⟩
    · rw [wide, high] at few
      omega
    · rw [narrow, high] at few
      omega

theorem IsDouble.found_shortest (double : IsDouble m e) (tie : Tie) :
    Found (.around m e) tie e (firstGrid m.log2 e) 23 (shortest tie m e) := by
  have reach := double.gridsReach
  simp only [Decimal.gridsReach, Bool.and_eq_true, decide_eq_true_eq] at reach
  have gap := double.gap_around
  have enough : ((Interval.around m e).onGrid? tie
      (Scale.of e (firstGrid m.log2 e - (23 : Nat)))).isSome = true := by
    refine Interval.onGrid?_isSome double.proper_around (Scale.positive_of _ _)
      (Nat.lt_of_lt_of_le reach.2 ?_)
    exact Nat.mul_le_mul_right _ (by omega)
  exact found_searchGrids _ (by decide : 23 < 24) enough

theorem IsDouble.fewDigits_shortest (double : IsDouble m e) (tie : Tie) :
    FewDigits m e (shortest tie m e).1 (shortest tie m e).2 := by
  obtain ⟨point, inReach, coarsest⟩ := double.found_shortest tie
  obtain ⟨above, within⟩ := Interval.le_of_holds (Interval.holds_of_onGrid? point)
  refine ⟨?_, double.digits_lt coarsest within, ?_, within⟩
  · refine Nat.pos_of_ne_zero fun none => ?_
    have low := Nat.mul_pos double.proper_around.low_pos
      (Scale.positive_of e (shortest tie m e).2).quarter
    rw [none, Nat.zero_mul] at above
    omega
  · have leading : m.log2 < 53 := (Nat.log2_lt (Nat.ne_of_gt double.positive)).2 double.bits
    have least := double.least
    have most := double.most
    rw [firstGrid] at inReach
    rw [leastExponent] at least
    omega

end BlockSchematic.Decimal
