import BlockSchematic.Command.Names
import BlockSchematic.Proofs.NearestDoubles
import BlockSchematic.Proofs.ReadableDocuments
import BlockSchematic.Schematic.Edit

/-!
# Positions that documents can hold

A position is accepted as a word for infinity or for what is no number, or as a numeral of any
size. Placing or moving an instance there leaves a document that can be read again exactly if both
coordinates are numerals that are not rounded to infinity.
-/

namespace BlockSchematic

open Doubles (isFinite_add_wordValue)

/-! ## Accepted texts -/

/-- Both coordinates are numerals of finite doubles. -/
def Position.InRange (text : String) : Prop :=
  ∃ x y, Text.splitFirst? ',' text.toList = some (x, y) ∧ Decimal.InRange (Text.trimChars x) ∧
    Decimal.InRange (Text.trimChars y)

theorem Position.finite_iff_of_parse {text : String} {p : Position} (accepted : parse text = .ok p) :
    p.Finite ↔ InRange text := by
  rw [parse] at accepted
  cases parts : Text.splitFirst? ',' text.toList with
  | none =>
    rw [parts] at accepted
    cases accepted
  | some both =>
    obtain ⟨x, y⟩ := both
    rw [parts] at accepted
    cases readX : Decimal.readFloat? (Text.trimChars x) with
    | none =>
      simp only [readX] at accepted
      cases accepted
    | some a =>
      cases readY : Decimal.readFloat? (Text.trimChars y) with
      | none =>
        simp only [readX, readY] at accepted
        cases accepted
      | some b =>
        simp only [readX, readY] at accepted
        cases accepted
        have first := Decimal.isFinite_readFloat?_iff readX
        have second := Decimal.isFinite_readFloat?_iff readY
        constructor
        · rintro ⟨finiteX, finiteY⟩
          exact ⟨x, y, parts, first.1 finiteX, second.1 finiteY⟩
        · rintro ⟨x', y', same, inX, inY⟩
          obtain ⟨rfl, rfl⟩ := Prod.mk.inj (Option.some.inj (parts.symm.trans same))
          exact ⟨first.2 inX, second.2 inY⟩

/-! ## Placing and moving -/

theorem Position.Finite.offset {p : Position} (finite : p.Finite) (q : Point) :
    (p.offset q).Finite :=
  ⟨isFinite_add_wordValue finite.x q.x, isFinite_add_wordValue finite.y q.y⟩

namespace Schematic

variable {s t : Schematic} {p : Position}

theorem Readable.place_iff {src : IdSource} (readable : s.Readable) (symbol : Symbol) (role : Role)
    (glue : Option Glue) (name : Option String) (st : src.State) :
    (s.place src symbol role glue name p st).1.1.Readable ↔ p.Finite := by
  constructor
  · intro after
    exact after.instances _ (List.mem_append_right _ List.mem_cons_self)
  · intro finite
    refine ⟨fun i hi => ?_, readable.wires⟩
    rcases List.mem_append.1 hi with old | new
    · exact readable.instances i old
    · rw [List.mem_singleton.1 new]
      exact finite

theorem mem_or_eq_of_mem_updateFirst {α : Type} {p : α → Bool} {f : α → α} {l : List α} {b : α}
    (h : b ∈ updateFirst p f l) : b ∈ l ∨ ∃ a, b = f a := by
  induction l with
  | nil => cases h
  | cons a rest ih =>
    rw [updateFirst] at h
    split at h
    · rcases List.mem_cons.1 h with here | later
      · exact .inr ⟨a, here⟩
      · exact .inl (List.mem_cons_of_mem _ later)
    · rcases List.mem_cons.1 h with here | later
      · exact .inl (here ▸ List.mem_cons_self)
      · exact (ih later).imp_left (List.mem_cons_of_mem _)

theorem exists_mem_updateFirst {α : Type} {p : α → Bool} {l : List α}
    (found : (l.find? p).isSome = true) (f : α → α) : ∃ a, f a ∈ updateFirst p f l := by
  induction l with
  | nil => cases found
  | cons a rest ih =>
    rw [updateFirst]
    split
    · exact ⟨a, List.mem_cons_self⟩
    · rename_i other
      rw [List.find?_cons_of_neg other] at found
      obtain ⟨b, hb⟩ := ih found
      exact ⟨b, List.mem_cons_of_mem _ hb⟩

theorem portPosition?_finite (placed : ∀ i ∈ s.instances, i.position.Finite) {q : PortRef}
    (found : s.portPosition? q = some p) : p.Finite := by
  obtain ⟨i, hi, there⟩ := Option.bind_eq_some_iff.1 found
  obtain ⟨port, -, rfl⟩ := Option.map_eq_some_iff.1 there
  exact (placed i (List.mem_of_find?_eq_some hi)).offset port.location

theorem refreshEnd_readable (placed : ∀ i ∈ s.instances, i.position.Finite) {e : WireEnd}
    (readable : e.Readable) : (s.refreshEnd e).Readable := by
  refine ⟨readable.indexed, ?_⟩
  rw [refreshEnd]
  cases found : s.portPosition? e.port with
  | none => exact readable.placed
  | some q => exact portPosition?_finite placed found

theorem Readable.refreshWires (readable : s.Readable) : s.refreshWires.Readable where
  instances := readable.instances
  wires := by
    intro w hw
    obtain ⟨v, hv, rfl⟩ := List.mem_map.1 hw
    obtain ⟨start, finish, route⟩ := readable.wires v hv
    exact ⟨refreshEnd_readable readable.instances start,
      refreshEnd_readable readable.instances finish, route⟩

theorem Readable.moveInstance_iff (readable : s.Readable) {id : String}
    (h : s.moveInstance id p = .ok t) : t.Readable ↔ p.Finite := by
  rw [moveInstance] at h
  split at h
  · rename_i found
    obtain rfl := Except.ok.inj h
    constructor
    · intro after
      obtain ⟨i, hi⟩ := exists_mem_updateFirst found fun i : Instance => { i with position := p }
      exact after.instances _ hi
    · intro finite
      refine Readable.refreshWires ⟨fun i hi => ?_, fun w hw => ?_⟩
      · rcases mem_or_eq_of_mem_updateFirst hi with old | ⟨j, rfl⟩
        · exact readable.instances i old
        · exact finite
      · obtain ⟨v, hv, rfl⟩ := List.mem_map.1 hw
        obtain ⟨start, finish, route⟩ := readable.wires v hv
        split
        · exact ⟨start, finish, nofun⟩
        · exact ⟨start, finish, route⟩
  · cases h

theorem exists_moveInstance {id : String} (found : (s.instance? id).isSome = true) (p : Position) :
    ∃ t, s.moveInstance id p = .ok t := ⟨_, if_pos found⟩

end Schematic

namespace Document

/-- Of a document that is read back, an instance placed or moved where an accepted text says makes
another one exactly if both coordinates of the text are in range. -/
theorem read_back_at_accepted_iff (src : IdSource) {s : Schematic}
    (readable : ∃ t, read (write s) = .ok t) {text : String} {p : Position}
    (accepted : Position.parse text = .ok p) :
    (∀ symbol st, (∃ t, read (write (s.addInstance src symbol p st).1.1) = .ok t) ↔
      Position.InRange text) ∧
    (∀ name code ports st,
      (∃ t, read (write (s.addGlue src name code ports p st).1.1) = .ok t) ↔
        Position.InRange text) ∧
    ∀ id, (s.instance? id).isSome = true → ∃ moved, s.moveInstance id p = .ok moved ∧
      ((∃ t, read (write moved) = .ok t) ↔ Position.InRange text) := by
  have before := (exists_read_write_iff s).1 readable
  have range := Position.finite_iff_of_parse accepted
  refine ⟨fun symbol st => ?_, fun name code ports st => ?_, fun id found => ?_⟩
  · exact (exists_read_write_iff _).trans ((before.place_iff symbol _ none none st).trans range)
  · exact (exists_read_write_iff _).trans ((before.place_iff _ .glue _ none st).trans range)
  · obtain ⟨moved, done⟩ := Schematic.exists_moveInstance found p
    exact ⟨moved, done, (exists_read_write_iff _).trans ((before.moveInstance_iff done).trans range)⟩

/-- A sheet with one pin on it. -/
def pinSheet : Schematic where
  instances := [⟨"inst_1", "PIN_INPUT", "PIN_INPUT_1", ⟨0.0, 0.0⟩, .inputPin, .pinInput, none⟩]
  wires := []
  counters := .ofList [("PIN_INPUT", 1)]

theorem pinSheet_read_back : ∃ t, read (write pinSheet) = .ok t := by
  refine (exists_read_write_iff pinSheet).2 ⟨fun i hi => ?_, nofun⟩
  rw [List.mem_singleton.1 hi]
  exact ⟨by decide +kernel, by decide +kernel⟩

theorem pinSheet_read_back_at_accepted : (∃ t, read (write pinSheet) = .ok t) ∧
    ∃ p, Position.parse "-12.5, 4e2" = .ok p ∧
      (∃ t, read (write (pinSheet.addInstance (.numbered "") .pinOutput p (1 : Nat)).1.1) = .ok t) ∧
      ∃ moved, pinSheet.moveInstance "inst_1" p = .ok moved ∧ ∃ t, read (write moved) = .ok t := by
  have accepted : Position.parse "-12.5, 4e2" =
      .ok ⟨-Decimal.nearest 125 (-1), Decimal.nearest 4 2⟩ := by rfl
  have inRange := (Position.finite_iff_of_parse accepted).1 ⟨by decide +kernel, by decide +kernel⟩
  obtain ⟨place, -, move⟩ := read_back_at_accepted_iff (.numbered "") pinSheet_read_back accepted
  obtain ⟨moved, done, reads⟩ := move "inst_1" (by decide)
  exact ⟨pinSheet_read_back, _, accepted, (place .pinOutput (1 : Nat)).2 inRange, moved, done,
    reads.2 inRange⟩

/-- A word for infinity is accepted, and the document is lost. -/
theorem pinSheet_not_read_back : ∃ p, Position.parse "inf,0" = .ok p ∧
    (∃ t, read (write pinSheet) = .ok t) ∧
    (¬∃ t, read (write (pinSheet.addInstance (.numbered "") .pinInput p (1 : Nat)).1.1) = .ok t) ∧
    ∃ moved, pinSheet.moveInstance "inst_1" p = .ok moved ∧
      ¬∃ t, read (write moved) = .ok t := by
  have accepted : Position.parse "inf,0" =
      .ok ⟨Float.ofBits (UInt64.ofNat Decimal.infinityBits), Decimal.nearest 0 0⟩ := by rfl
  have before := (exists_read_write_iff pinSheet).1 pinSheet_read_back
  have infinite : ¬(Float.ofBits (UInt64.ofNat Decimal.infinityBits)).isFinite = true := by
    decide +kernel
  obtain ⟨moved, done⟩ := Schematic.exists_moveInstance
    (by decide : (pinSheet.instance? "inst_1").isSome = true)
    ⟨Float.ofBits (UInt64.ofNat Decimal.infinityBits), Decimal.nearest 0 0⟩
  refine ⟨_, accepted, pinSheet_read_back, fun reads => infinite ?_, moved, done,
    fun reads => infinite ?_⟩
  · exact ((before.place_iff _ _ _ _ _).1 ((exists_read_write_iff _).1 reads)).x
  · exact ((before.moveInstance_iff done).1 ((exists_read_write_iff _).1 reads)).x

end Document

end BlockSchematic
