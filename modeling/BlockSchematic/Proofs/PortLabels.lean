import BlockSchematic.Command.Names
import BlockSchematic.Proofs.Identifier
import BlockSchematic.Proofs.InstanceNames

/-!
# Ports by their labels

The label of a port is the name of its instance, a colon and its own name. What is typed for a port
is cut at its last colon, and a number behind it is an index. So a port is found by its label unless
its name is the number of another place or holds a colon itself.
-/

namespace BlockSchematic

theorem Text.splitLast?_append_cons {sep : Char} {after : List Char} (h : sep ∉ after)
    (before : List Char) : splitLast? sep (before ++ sep :: after) = some (before, after) := by
  have last : splitLast? sep (before ++ [sep]) = some (before, []) := by
    induction before with
    | nil => simp [splitLast?]
    | cons c before ih => rw [List.cons_append, splitLast?, ih]
  rw [List.append_cons, Vhdl.splitLast?_append h, last]
  rfl

namespace Schematic

variable {s : Schematic} {p : PortRef} {i : Instance} {port : Port}

theorem portLabel_eq (found : s.port? p = some (i, port)) :
    s.portLabel p = i.name ++ ":" ++ port.name := by
  rw [portLabel, found]
  rfl

/-- No other port of the instance has the port's name. -/
def NamedApart (i : Instance) (p : PortRef) (port : Port) : Prop :=
  ∀ (index : Nat) (q : Port), i.port? index = some q → q.name = port.name → index = p.index

theorem namedApart_of_nodup (names : (i.symbol.ports.map (·.name)).Nodup)
    (here : i.port? p.index = some port) : NamedApart i p port := by
  intro index q there same
  obtain ⟨inside, -⟩ := List.getElem?_eq_some_iff.1 there
  have here : i.symbol.ports[p.index]? = some port := here
  have there : i.symbol.ports[index]? = some q := there
  refine (List.getElem?_inj (by rwa [List.length_map]) names).1 ?_
  rw [List.getElem?_map, List.getElem?_map, here, there, Option.map_some, Option.map_some, same]

theorem portIndexOf?_eq (here : i.port? p.index = some port) (apart : NamedApart i p port) :
    portIndexOf? i.symbol.ports port.name = some p.index := by
  obtain ⟨inside, same⟩ := List.getElem?_eq_some_iff.1 here
  have first : i.symbol.ports.findIdx? (·.name = port.name) = some p.index := by
    refine List.findIdx?_eq_some_iff_getElem.2 ⟨inside, by simp [same], fun index before => ?_⟩
    have there : index < i.symbol.ports.length := Nat.lt_trans before inside
    intro alike
    have index := apart index _ (List.getElem?_eq_getElem there) (of_decide_eq_true alike)
    omega
  rw [portIndexOf?, first]
  rfl

section Typed

variable {name typed : String} (colon : ':' ∉ typed.toList)
include colon

theorem splitLast?_typed :
    Text.splitLast? ':' (name ++ ":" ++ typed).toList = some (name.toList, typed.toList) := by
  rw [String.toList_append, String.toList_append, List.append_assoc]
  exact Text.splitLast?_append_cons colon _

theorem resolvePort_unknown (unknown : s.find? name = none) :
    s.resolvePort (name ++ ":" ++ typed) = .error (.unknownInstance name) := by
  rw [resolvePort, splitLast?_typed colon]
  simp only [String.ofList_toList, unknown]

/-- A number is an index, whatever the ports are called. -/
theorem resolvePort_number (known : s.find? name = some i) {n : Nat}
    (number : Text.readNatBelow? WordBound.unsigned64 typed.toList = some n) :
    s.resolvePort (name ++ ":" ++ typed) =
      if n < i.symbol.ports.length then .ok ⟨i.id, n⟩
      else .error (.indexTooLarge i.name i.symbol.ports.length n) := by
  rw [resolvePort, splitLast?_typed colon]
  simp only [String.ofList_toList, known, number]

theorem resolvePort_name (known : s.find? name = some i)
    (noNumber : Text.readNatBelow? WordBound.unsigned64 typed.toList = none) {index : Nat}
    (first : portIndexOf? i.symbol.ports typed = some index) :
    s.resolvePort (name ++ ":" ++ typed) = .ok ⟨i.id, index⟩ := by
  rw [resolvePort, splitLast?_typed colon]
  simp only [String.ofList_toList, known, noNumber, first]

end Typed

theorem find?_of_port? (distinct : s.NamesDistinct) (found : s.port? p = some (i, port)) :
    s.find? i.name = some i ∧ i.id = p.instanceId := by
  obtain ⟨here, -⟩ := port?_eq_some_iff.1 found
  have named := instanceNamed?_of_mem distinct (List.mem_of_find?_eq_some here)
  constructor
  · rw [find?, named, Option.some_or]
  · simpa using List.find?_some here

/-- The label of a port whose name no other port of its instance has. Without a colon in the name it
addresses the port if and only if the name is no number below 2^64 or the number of the port itself.
With one, all in front of the last colon is taken for the instance. -/
theorem label_addresses_port_iff (distinct : s.NamesDistinct)
    (found : s.port? p = some (i, port)) (apart : NamedApart i p port) :
    (':' ∉ port.name.toList → (s.resolvePort (s.portLabel p) = .ok p ↔
      ∀ n, Text.readNatBelow? WordBound.unsigned64 port.name.toList = some n → n = p.index)) ∧
    ∀ before after, port.name = before ++ ":" ++ after → ':' ∉ after.toList →
      s.find? (i.name ++ ":" ++ before) = none →
      s.resolvePort (s.portLabel p) = .error (.unknownInstance (i.name ++ ":" ++ before)) := by
  obtain ⟨known, owner⟩ := find?_of_port? distinct found
  obtain ⟨-, here⟩ := port?_eq_some_iff.1 found
  obtain ⟨inside, -⟩ := List.getElem?_eq_some_iff.1 here
  rw [portLabel_eq found]
  constructor
  · intro colon
    cases number : Text.readNatBelow? WordBound.unsigned64 port.name.toList with
    | none =>
      rw [resolvePort_name colon known number (portIndexOf?_eq here apart), owner]
      exact iff_of_true rfl nofun
    | some n =>
      rw [resolvePort_number colon known number, owner]
      constructor
      · intro resolved m same
        obtain rfl := Option.some.inj same
        split at resolved
        · exact congrArg PortRef.index (Except.ok.inj resolved)
        · cases resolved
      · intro own
        obtain rfl := own n rfl
        rw [if_pos inside]
  · rintro before after split colon unknown
    rw [split, ← String.append_assoc, ← String.append_assoc]
    exact resolvePort_unknown colon unknown

/-- A block two of whose ports are called by each other's numbers. -/
def selectorBlock : Instance :=
  ⟨"inst_1", "sel", "sel_1", .origin, .component,
    ⟨"sel", "0.1", .zero,
      [⟨"1", .input, 1, .origin, [], []⟩, ⟨"0", .input, 1, .origin, [], []⟩,
        ⟨"D", .output, 2, .origin, [], []⟩, ⟨"a:b", .output, 1, .origin, [], []⟩], .blank, []⟩,
    none⟩

def selectorSheet : Schematic := ⟨[selectorBlock], [], .empty⟩

def selectorPort (index : Nat) : PortRef := ⟨"inst_1", index⟩

theorem namesDistinct_selectorSheet : selectorSheet.NamesDistinct := List.nodup_singleton _

theorem port?_selectorSheet (index : Nat) {port : Port}
    (here : selectorBlock.port? index = some port) :
    selectorSheet.port? (selectorPort index) = some (selectorBlock, port) ∧
      NamedApart selectorBlock (selectorPort index) port :=
  ⟨port?_eq_some_iff.2 ⟨rfl, here⟩, namedApart_of_nodup (by decide) here⟩

/-- The third port of the selector is found by its label, the first is not, and for the last one
no instance is found. -/
theorem selector_labels :
    selectorSheet.resolvePort (selectorSheet.portLabel (selectorPort 2)) =
        .ok (selectorPort 2) ∧
      selectorSheet.resolvePort (selectorSheet.portLabel (selectorPort 0)) ≠
        .ok (selectorPort 0) ∧
      selectorSheet.resolvePort (selectorSheet.portLabel (selectorPort 3)) =
        .error (.unknownInstance "sel_1:a") := by
  obtain ⟨third, thirdApart⟩ := port?_selectorSheet 2 rfl
  obtain ⟨first, firstApart⟩ := port?_selectorSheet 0 rfl
  obtain ⟨last, lastApart⟩ := port?_selectorSheet 3 rfl
  refine ⟨?_, ?_, ?_⟩
  · refine ((label_addresses_port_iff namesDistinct_selectorSheet third thirdApart).1
      (by decide)).2 fun n number => ?_
    cases number
  · intro resolved
    have own := ((label_addresses_port_iff namesDistinct_selectorSheet first firstApart).1
      (by decide)).1 resolved 1 (by decide)
    cases own
  · exact (label_addresses_port_iff namesDistinct_selectorSheet last lastApart).2 "a" "b" rfl
      (by decide) (by decide)

/-- A label may address another port than its own. -/
theorem label_of_other_port : ¬ ∀ {s : Schematic} {p : PortRef} {i : Instance} {port : Port},
    s.NamesDistinct → s.port? p = some (i, port) → NamedApart i p port →
      s.resolvePort (s.portLabel p) = .ok p := by
  intro all
  obtain ⟨found, apart⟩ := port?_selectorSheet 0 rfl
  have own := all namesDistinct_selectorSheet found apart
  have colon : ':' ∉ "1".toList := by decide
  have number : Text.readNatBelow? WordBound.unsigned64 "1".toList = some 1 := by decide
  have known : selectorSheet.find? "sel_1" = some selectorBlock := rfl
  have second : selectorSheet.resolvePort ("sel_1" ++ ":" ++ "1") = .ok (selectorPort 1) :=
    resolvePort_number colon known number
  rw [portLabel_eq found] at own
  have same : selectorPort 1 = selectorPort 0 := Except.ok.inj (second.symm.trans own)
  exact absurd (congrArg PortRef.index same) (by decide)

end Schematic

end BlockSchematic
