import BlockSchematic.Schematic.Rules

/-!
# What the connection rules ask

The rules look up both ports and compare them. Nothing else of a schematic is read, so two
schematics that agree on the two ports agree on the answer.
-/

namespace BlockSchematic

theorem bind_eq_ok_iff {ε α β : Type} {x : Except ε α} {f : α → Except ε β} {b : β} :
    x >>= f = .ok b ↔ ∃ a, x = .ok a ∧ f a = .ok b := by
  cases x <;> simp [bind, Except.bind]

theorem orReject_eq_ok_iff {α : Type} {x : Option α} {r : Rejection} {a : α} :
    orReject x r = .ok a ↔ x = some a := by
  cases x <;> simp [orReject]

/-- A rule that refuses decides, whatever comes after it. -/
theorem refusal_eq_ok_iff {P : Prop} [Decidable P] {r : Rejection} {x : Except Rejection Unit} :
    (if P then (do throw r; x) else x) = .ok () ↔ ¬ P ∧ x = .ok () := by
  by_cases hp : P
  · simp [hp, throw, throwThe, MonadExceptOf.throw, bind, Except.bind]
  · simp [hp]

/-- The rules on two instances and a port of each, once these are found. -/
structure Compatible (i j : Instance) (source target : Port) : Prop where
  pins : (i.isPin && j.isPin) = false
  width : source.width = target.width
  sourcePin : pinConflict? i.role target.direction = none
  targetPin : pinConflict? j.role source.direction = none
  directions : source.direction.connects target.direction = true

theorem Direction.connects_comm (d e : Direction) : d.connects e = e.connects d := by
  cases d <;> cases e <;> rfl

/-- The rules read the same from both sides. -/
theorem Compatible.symm {i j : Instance} {source target : Port}
    (h : Compatible i j source target) : Compatible j i target source where
  pins := by
    rw [Bool.and_comm]
    exact h.pins
  width := h.width.symm
  sourcePin := h.targetPin
  targetPin := h.sourcePin
  directions := by
    rw [Direction.connects_comm]
    exact h.directions

/-- The last rules, on pins and directions, are asked together. -/
theorem directionRules_eq_ok_iff {i j : Instance} {source target : Port} :
    (match (pinConflict? i.role target.direction).or (pinConflict? j.role source.direction) with
      | some r => throw r
      | none =>
        if source.direction.connects target.direction then pure ()
        else throw (.directions source.direction target.direction) : Except Rejection Unit) =
        .ok () ↔
      pinConflict? i.role target.direction = none ∧
        pinConflict? j.role source.direction = none ∧
        source.direction.connects target.direction = true := by
  cases hi : pinConflict? i.role target.direction with
  | some r => simp [throw, throwThe, MonadExceptOf.throw]
  | none =>
    cases hj : pinConflict? j.role source.direction with
    | some r => simp [throw, throwThe, MonadExceptOf.throw]
    | none =>
      by_cases hd : source.direction.connects target.direction = true <;>
        simp [hd, throw, throwThe, MonadExceptOf.throw, pure, Except.pure]

namespace Schematic

theorem port?_eq_some_iff {s : Schematic} {p : PortRef} {i : Instance} {port : Port} :
    s.port? p = some (i, port) ↔
      s.instance? p.instanceId = some i ∧ i.port? p.index = some port := by
  simp only [port?, bind, Option.bind_eq_some_iff, pure, Option.some.injEq, Prod.mk.injEq]
  constructor
  · rintro ⟨a, ha, b, hb, rfl, rfl⟩
    exact ⟨ha, hb⟩
  · rintro ⟨hi, hport⟩
    exact ⟨i, hi, port, hport, rfl, rfl⟩

theorem portPosition?_eq (s : Schematic) (p : PortRef) :
    s.portPosition? p = (s.port? p).map fun (i, port) => i.position.offset port.location := by
  simp only [portPosition?, port?, Instance.portPosition?]
  cases s.instance? p.instanceId with
  | none => rfl
  | some i => cases h : i.port? p.index <;> simp [h]

/-- The rules accept two ports exactly when both exist, on different instances, and fit. -/
theorem check_eq_ok_iff {s : Schematic} {p q : PortRef} :
    s.check p q = .ok () ↔ p.instanceId ≠ q.instanceId ∧
      ∃ i j source target, s.port? p = some (i, source) ∧ s.port? q = some (j, target) ∧
        Compatible i j source target := by
  simp only [check, refusal_eq_ok_iff, bind_eq_ok_iff, orReject_eq_ok_iff, port?_eq_some_iff,
    Bool.not_eq_true, ne_eq, Decidable.not_not]
  constructor
  · rintro ⟨apart, i, hi, j, hj, pins, source, hs, target, ht, width, rules⟩
    obtain ⟨hip, hjp, hd⟩ := directionRules_eq_ok_iff.1 rules
    exact ⟨apart, i, j, source, target, ⟨hi, hs⟩, ⟨hj, ht⟩, pins, width, hip, hjp, hd⟩
  · rintro ⟨apart, i, j, source, target, ⟨hi, hs⟩, ⟨hj, ht⟩, pins, width, hip, hjp, hd⟩
    exact ⟨apart, i, hi, j, hj, pins, source, hs, target, ht, width,
      directionRules_eq_ok_iff.2 ⟨hip, hjp, hd⟩⟩

theorem check_symm {s : Schematic} {p q : PortRef} (h : s.check p q = .ok ()) :
    s.check q p = .ok () := by
  obtain ⟨apart, i, j, source, target, hs, ht, fits⟩ := check_eq_ok_iff.1 h
  exact check_eq_ok_iff.2 ⟨apart.symm, j, i, target, source, ht, hs, fits.symm⟩

/-- Wires have no say in the rules. -/
theorem check_congr {s t : Schematic} (same : s.instances = t.instances) (p q : PortRef) :
    s.check p q = t.check p q := by
  simp only [check, instance?, same]

theorem isLegal_iff {s : Schematic} {p q : PortRef} :
    s.isLegal p q = true ↔ s.check p q = .ok () := by
  rw [isLegal]
  cases s.check p q <;> simp [Except.isOk, Except.toBool]

end Schematic

end BlockSchematic
