import BlockSchematic.Proofs.Identifier
import BlockSchematic.Proofs.PinNets

/-!
# When two nets have one name

A net without a pin is numbered, and its name is never that of another net. The name of a pin is
changed before it is used for a net, so two nets with pins may end up with one name even though
their pins are named apart.
-/

namespace BlockSchematic

open Text Schematic Vhdl

/-- The words before the number of a pin. -/
def pinWords : List String := ["_pin", "_INPUT", "_OUTPUT"]

/-- The ends of pin names: of the plain ones, and of those with a number. -/
inductive PinTail : List Char → Prop where
  | plain : PinTail "_pin".toList
  | numbered (word : String) (n : Nat) (known : word ∈ pinWords) :
      PinTail (word.toList ++ '_' :: natChars n)

/-- What a pin can be called. -/
def PinName (name : String) : Prop := ∃ base tail, PinTail tail ∧ name.toList = base ++ tail

theorem exists_getLast?_natChars (n : Nat) :
    ∃ c, (natChars n).getLast? = some c ∧ c.isDigit = true :=
  ⟨_, List.getLast?_eq_getLast_of_ne_nil (natChars_ne_nil n),
    isDigit_of_mem_natChars (List.getLast_mem _)⟩

theorem tidy_pinWord {word : String} (h : word ∈ pinWords) : Tidy word.toList := by
  simp only [pinWords, List.mem_cons, List.not_mem_nil, or_false] at h
  rcases h with rfl | rfl | rfl <;>
    exact ⟨List.all_eq_true.1 (by decide), by decide, _, rfl, by decide⟩

theorem tidy_number (n : Nat) : Tidy ('_' :: natChars n) := by
  have other : ∀ c ∈ natChars n, c ≠ '_' := by
    rintro c hc rfl
    exact absurd (isDigit_of_mem_natChars hc) (by decide)
  refine ⟨?_, singleUnderscores_cons fun member => other _ member rfl, ?_⟩
  · intro c hc
    rcases List.mem_cons.1 hc with rfl | hc
    · decide
    · simp [isIdentifierChar, Char.isAlphanum, isDigit_of_mem_natChars hc]
  · obtain ⟨c, last, -⟩ := exists_getLast?_natChars n
    refine ⟨c, ?_, other c (List.mem_of_getLast? last)⟩
    rw [List.getLast?_cons, last]
    rfl

theorem PinTail.tidy {tail : List Char} (h : PinTail tail) : Tidy tail := by
  cases h with
  | plain => exact tidy_pinWord (by decide)
  | numbered word n known => exact (tidy_pinWord known).append (tidy_number n)

theorem toLower_of_isDigit {c : Char} (h : c.isDigit = true) : c.toLower = c := by
  have low : c.val ≤ '9'.val := of_decide_eq_true (Bool.and_eq_true_iff.1 h).2
  refine dif_neg fun capital => ?_
  exact absurd (UInt32.le_trans capital.1 low) (by decide)

theorem map_toLower_natChars (n : Nat) : (natChars n).map Char.toLower = natChars n := by
  have same : ∀ c ∈ natChars n, c.toLower = c := fun c hc =>
    toLower_of_isDigit (isDigit_of_mem_natChars hc)
  exact (List.map_congr_left same).trans (List.map_id _)

theorem toList_toString (n : Nat) : (toString n).toList = natChars n := by
  rw [Nat.toString_eq_repr, Nat.toList_repr, natChars]

theorem toList_numbered (base : String) (n : Nat) :
    s!"{base}_{n}".toList = base.toList ++ '_' :: natChars n := by
  change (base ++ "_" ++ toString n).toList = _
  rw [String.toList_append, String.toList_append, toList_toString, List.append_assoc]
  rfl

theorem map_toLower_netName (k : Nat) :
    s!"net_{k}".toList.map Char.toLower = "net".toList ++ '_' :: natChars k := by
  change ("net_" ++ toString k).toList.map Char.toLower = _
  rw [String.toList_append, toList_toString, List.map_append, map_toLower_natChars]
  rfl

theorem netName_inj {j k : Nat} (h : SameIdentifier s!"net_{j}" s!"net_{k}") : j = k := by
  rw [SameIdentifier, map_toLower_netName, map_toLower_netName] at h
  exact (append_natChars_inj (by decide) h).2

/-- A sanitized pin name still ends like one, so it is no number of a net. -/
theorem PinName.ne_netName {name : String} (h : PinName name) (k : Nat) :
    ¬ SameIdentifier (sanitize name) s!"net_{k}" := by
  obtain ⟨base, tail, ending, split⟩ := h
  obtain ⟨front, kept⟩ := ending.tidy.sanitizeChars_append base
  rw [SameIdentifier, map_toLower_netName, sanitize, String.toList_ofList, split, kept,
    List.map_append]
  intro same
  cases ending with
  | plain =>
    obtain ⟨c, last, digit⟩ := exists_getLast?_natChars k
    have ends := congrArg List.getLast? same
    rw [List.getLast?_append, List.getLast?_append, List.getLast?_cons, last] at ends
    obtain rfl : 'n' = c := by simpa using ends
    exact absurd digit (by decide)
  | numbered word n known =>
    rw [List.map_append, List.map_cons, map_toLower_natChars, ← List.append_assoc] at same
    have short := congrArg List.length (append_natChars_inj (by decide) same).1
    have long : ∀ word ∈ pinWords, 3 < word.toList.length := by decide
    have := long word known
    simp only [List.length_append, List.length_map] at short
    change _ = 3 at short
    omega

theorem isPin_ofTemplate {name : String} (h : (Role.ofTemplate name).isPin = true) :
    name = Symbol.pinInputName ∨ name = Symbol.pinOutputName := by
  rw [Role.ofTemplate] at h
  split at h
  · exact .inl ‹_›
  · split at h
    · exact .inr ‹_›
    · cases h

namespace Schematic

theorem unusedName_cases (s : Schematic) (base : String) : s.unusedName base = base ∨
    ∃ n : Nat, 2 ≤ n ∧ s.unusedName base = s!"{base}_{n}" := by
  simp only [unusedName]
  cases found : List.find? (fun name => (s.instanceNamed? name).isNone)
    (base :: (List.range (s.instances.length + 1)).map fun n => s!"{base}_{n + 2}") with
  | none => exact .inl rfl
  | some name =>
    rcases List.mem_cons.1 (List.mem_of_find?_eq_some found) with rfl | listed
    · exact .inl rfl
    · obtain ⟨n, -, rfl⟩ := List.mem_map.1 listed
      exact .inr ⟨n + 2, Nat.le_add_left 2 n, rfl⟩

theorem pinName_unusedName (s : Schematic) (port : String) :
    PinName (s.unusedName s!"{port}_pin") := by
  have plain : s!"{port}_pin".toList = port.toList ++ "_pin".toList := String.toList_append
  rcases s.unusedName_cases s!"{port}_pin" with same | ⟨n, -, same⟩
  · exact ⟨port.toList, _, .plain, by rw [same, plain]⟩
  · refine ⟨port.toList, _, .numbered "_pin" n (by decide), ?_⟩
    rw [same, toList_numbered, plain, List.append_assoc]

theorem Placeable.pinName {s : Schematic} {i : Instance} (h : s.Placeable i)
    (isPin : i.isPin = true) : PinName i.name := by
  cases h with
  | symbol symbol position =>
    refine ⟨"PIN".toList, ?_⟩
    rcases isPin_ofTemplate isPin with named | named <;> rw [named]
    · exact ⟨_, .numbered "_INPUT" _ (by decide), toList_numbered ..⟩
    · exact ⟨_, .numbered "_OUTPUT" _ (by decide), toList_numbered ..⟩
  | glue name code ports position => cases isPin
  | pin pin position role exported => exact s.pinName_unusedName _

/-- Every pin is called what a pin can be called. -/
def PinsNamed (s : Schematic) : Prop := ∀ i ∈ s.instances, i.isPin = true → PinName i.name

theorem PinsNamed.change {s t : Schematic} (h : Change s t) (hs : s.PinsNamed) : t.PinsNamed := by
  cases h with
  | place i _ placeable =>
    intro j hj isPin
    rcases List.mem_append.1 hj with hj | hj
    · exact hs j hj isPin
    · obtain rfl := List.mem_singleton.1 hj
      exact placeable.pinName isPin
  | dropInstance id => exact fun i hi => hs i (List.mem_of_mem_filter hi)
  | dropWires keep => exact hs
  | wire w _ _ => exact hs
  | rearrange instances route moved =>
    intro j hj isPin
    obtain ⟨i, hi, same⟩ := exists_of_mem_moved moved hj
    rw [same] at isPin ⊢
    exact hs i hi isPin

end Schematic

theorem Reachable.pinsNamed {s : Schematic} (h : Reachable s) : s.PinsNamed :=
  h.induction (P := PinsNamed) nofun PinsNamed.change

namespace Schematic

/-- A net bears the name of its first pin, or its number. -/
theorem netOf_cases (s : Schematic) (e : Nat × Nat × UInt32) :
    (∃ a ∈ s.instances, a.isPin = true ∧ (s.netOf e).pin = some a.id ∧
      (s.netOf e).name = sanitize a.name) ∨
    ((s.netOf e).pin = none ∧ (s.netOf e).name = s!"net_{e.2.1}") := by
  rw [netOf, Net.make]
  cases found : s.bindingPin? (s.membersOf e.1) with
  | none => exact .inr ⟨rfl, rfl⟩
  | some a =>
    have isPin := List.find?_some found
    rw [Bool.and_eq_true] at isPin
    exact .inl ⟨a, List.mem_of_find?_eq_some found, isPin.1, rfl, rfl⟩

/-- Two entries with one number stand for one net. -/
theorem netEntries_number_inj {s : Schematic} {d e : Nat × Nat × UInt32}
    (hd : d ∈ s.netEntries) (he : e ∈ s.netEntries) (same : d.2.1 = e.2.1) : d = e := by
  obtain ⟨v, hv, keyd, -⟩ := wire_of_mem_netEntries hd
  obtain ⟨w, hw, keye, -⟩ := wire_of_mem_netEntries he
  rw [same, hw] at hv
  obtain rfl := Option.some.inj hv
  exact netEntries_unique hd he (keyd.trans keye.symm)

theorem nodup_nets (s : Schematic) : (Netlist.build s).nets.Nodup := by
  rw [nets_build]
  refine s.nodup_netEntries.map_on fun d hd e he same => ?_
  obtain ⟨w, hw, key, -⟩ := wire_of_mem_netEntries hd
  have listed : w.start.port ∈ s.membersOf d.1 :=
    mem_membersOf.2 ⟨⟨w, List.mem_of_getElem? hw, by simp [Wire.touches]⟩, key.symm⟩
  rw [← members_netOf, same, members_netOf, mem_membersOf] at listed
  exact netEntries_unique hd he (key.trans listed.2)

/-- The net of a port is bound to the first pin that the port is linked to. -/
theorem WellFormed.pin_eq_some_iff {s : Schematic} (hs : s.WellFormed) {p : PortRef} {net : Net}
    (h : (Netlist.build s).netOf? p = some net) {a : Instance} (ha : a ∈ s.instances) :
    net.pin = some a.id ↔ s.FirstPin p a := by
  obtain ⟨wired, e, -, key, rfl⟩ := entry_of_netOf? h
  rw [← bindingPin?_eq_some_iff wired, netOf, Net.make, key]
  cases found : s.bindingPin? (s.membersOf (s.group p)) with
  | none => simp
  | some b =>
    have hb : b ∈ s.instances := List.mem_of_find?_eq_some found
    simp only [Option.some.injEq]
    exact ⟨hs.eq_of_id hb ha, congrArg _⟩

theorem WellFormed.name_of_pin {s : Schematic} (hs : s.WellFormed) {e : Nat × Nat × UInt32}
    {a : Instance} (ha : a ∈ s.instances) (h : (s.netOf e).pin = some a.id) :
    (s.netOf e).name = sanitize a.name := by
  rcases s.netOf_cases e with ⟨b, hb, -, bound, name⟩ | ⟨unbound, -⟩
  · obtain rfl := hs.eq_of_id hb ha (Option.some.inj (bound.symm.trans h))
    exact name
  · rw [unbound] at h
    cases h

/-- Only pins give two nets one name: a number is not given twice and is no name of a pin. -/
theorem PinsNamed.bound_of_sameIdentifier {s : Schematic} (named : s.PinsNamed)
    {d e : Nat × Nat × UInt32} (hd : d ∈ s.netEntries) (he : e ∈ s.netEntries) (apart : d ≠ e)
    (same : SameIdentifier (s.netOf d).name (s.netOf e).name) :
    ∃ a ∈ s.instances, ∃ b ∈ s.instances,
      (s.netOf d).pin = some a.id ∧ (s.netOf e).pin = some b.id ∧
        SameIdentifier (sanitize a.name) (sanitize b.name) := by
  rcases s.netOf_cases d with ⟨a, ha, aPin, dPin, dName⟩ | ⟨-, dName⟩
  · rcases s.netOf_cases e with ⟨b, hb, -, ePin, eName⟩ | ⟨-, eName⟩
    · rw [dName, eName] at same
      exact ⟨a, ha, b, hb, dPin, ePin, same⟩
    · rw [dName, eName] at same
      exact absurd same ((named a ha aPin).ne_netName _)
  · rcases s.netOf_cases e with ⟨b, hb, bPin, -, eName⟩ | ⟨-, eName⟩
    · rw [dName, eName] at same
      exact absurd same.symm ((named b hb bPin).ne_netName _)
    · rw [dName, eName] at same
      exact absurd (netEntries_number_inj hd he (netName_inj same)) apart

theorem sameIdentifier_names_iff {s : Schematic} (hs : s.WellFormed) (named : s.PinsNamed)
    {m n : Net} (hm : m ∈ (Netlist.build s).nets) (hn : n ∈ (Netlist.build s).nets)
    (apart : m ≠ n) :
    SameIdentifier m.name n.name ↔ ∃ a ∈ s.instances, ∃ b ∈ s.instances,
      m.pin = some a.id ∧ n.pin = some b.id ∧
        SameIdentifier (sanitize a.name) (sanitize b.name) := by
  rw [nets_build] at hm hn
  obtain ⟨d, hd, rfl⟩ := List.mem_map.1 hm
  obtain ⟨e, he, rfl⟩ := List.mem_map.1 hn
  constructor
  · exact named.bound_of_sameIdentifier hd he (by rintro rfl; exact apart rfl)
  · rintro ⟨a, ha, b, hb, dPin, ePin, same⟩
    rw [hs.name_of_pin ha dPin, hs.name_of_pin hb ePin]
    exact same

end Schematic

/-- After any edits two nets have one name, up to the case of letters, exactly when both are bound
to pins whose names are sanitized to one. So unlinked ports share a signal only where the first
pins linked to them have such names. -/
theorem nets_share_name_iff {s : Schematic} (reached : Reachable s) :
    (Netlist.build s).nets.Nodup ∧
    (∀ m ∈ (Netlist.build s).nets, ∀ n ∈ (Netlist.build s).nets, m ≠ n →
      (SameIdentifier m.name n.name ↔ ∃ a ∈ s.instances, ∃ b ∈ s.instances,
        m.pin = some a.id ∧ n.pin = some b.id ∧
          SameIdentifier (sanitize a.name) (sanitize b.name))) ∧
    ∀ p q, s.Wired p → s.Wired q → ¬ s.Linked p q →
      (SameIdentifier ((Netlist.build s).signalFor p) ((Netlist.build s).signalFor q) ↔
        ∃ a b, s.FirstPin p a ∧ s.FirstPin q b ∧
          SameIdentifier (sanitize a.name) (sanitize b.name)) := by
  have hs := reached.wellFormed
  have named := reached.pinsNamed
  refine ⟨s.nodup_nets, fun m hm n hn => sameIdentifier_names_iff hs named hm hn, ?_⟩
  intro p q hp hq unlinked
  obtain ⟨m, hm⟩ := Option.isSome_iff_exists.1 (isSome_netOf?.2 hp)
  obtain ⟨n, hn⟩ := Option.isSome_iff_exists.1 (isSome_netOf?.2 hq)
  have apart : m ≠ n := by
    rintro rfl
    exact unlinked (sameNet_iff.1 ⟨m, hm, hn⟩).2
  rw [Netlist.signalFor, Netlist.signalFor, hm, hn]
  refine (sameIdentifier_names_iff hs named (List.mem_of_find?_eq_some hm)
    (List.mem_of_find?_eq_some hn) apart).trans ?_
  constructor
  · rintro ⟨a, ha, b, hb, aPin, bPin, same⟩
    exact ⟨a, b, (hs.pin_eq_some_iff hm ha).1 aPin, (hs.pin_eq_some_iff hn hb).1 bPin, same⟩
  · rintro ⟨a, b, first, second, same⟩
    exact ⟨a, first.mem, b, second.mem, (hs.pin_eq_some_iff hm first.mem).2 first,
      (hs.pin_eq_some_iff hn second.mem).2 second, same⟩

def bitPort (name : String) : Port := ⟨name, .output, 1, .origin, [], []⟩

/-- A block with two scalar outputs, which are told apart by their brackets only. -/
def bitBlock : Instance :=
  ⟨"inst_1", "bits", "bits_1", .origin, .component,
    ⟨"bits", "1.0", .zero, [bitPort "D[0]", bitPort "D[1]"], .blank, []⟩, none⟩

def bitPinPort : Port :=
  ⟨"PIN", .input, 1, ⟨0, 20⟩, [⟨"PIN", ⟨5, 15, 20, 25⟩, Symbol.arial 8⟩],
    [.thin ⟨0, 20⟩ ⟨20, 20⟩]⟩

def firstBitPinned : Schematic :=
  (Schematic.empty.withInstance bitBlock).withExport ⟨"inst_1", 0⟩ .pinOutput bitBlock
    (bitPort "D[0]") bitPinPort "inst_2" "w_3"

def bothBitsPinned : Schematic :=
  firstBitPinned.withExport ⟨"inst_1", 1⟩ .pinOutput bitBlock (bitPort "D[1]") bitPinPort
    "inst_4" "w_5"

theorem reachable_bothBitsPinned : Reachable bothBitsPinned := by
  have placed : Reachable (Schematic.empty.withInstance bitBlock) :=
    Reachable.empty.withSymbol 0 bitBlock.symbol .origin (by decide)
  have first : Reachable firstBitPinned :=
    placed.withExport 1 (by decide) rfl rfl (by decide) (by decide) (by decide)
  exact first.withExport 3 (by decide) rfl rfl (by decide) (by decide) (by decide)

theorem wired_bits : bothBitsPinned.Wired ⟨"inst_1", 0⟩ ∧ bothBitsPinned.Wired ⟨"inst_1", 1⟩ :=
  ⟨⟨_, List.mem_append_left _ (List.mem_singleton_self _), by decide⟩,
    ⟨_, List.mem_append_right _ (List.mem_singleton_self _), by decide⟩⟩

theorem unlinked_bits : ¬ bothBitsPinned.Linked ⟨"inst_1", 0⟩ ⟨"inst_1", 1⟩ := by
  intro linked
  obtain ⟨net, first, second⟩ := sameNet_iff.2 ⟨wired_bits.1, linked⟩
  have same := first.trans second.symm
  exact absurd same (by decide)

/-- The two outputs have one signal, and so their pins have one sanitized name. -/
theorem bits_share_name : ∃ a b, bothBitsPinned.FirstPin ⟨"inst_1", 0⟩ a ∧
    bothBitsPinned.FirstPin ⟨"inst_1", 1⟩ b ∧
      SameIdentifier (sanitize a.name) (sanitize b.name) :=
  ((nets_share_name_iff reachable_bothBitsPinned).2.2 _ _ wired_bits.1 wired_bits.2
    unlinked_bits).1 (by decide)

/-- Different nets may have one name. -/
theorem nets_without_own_name : ¬ ∀ {s : Schematic}, Reachable s →
    ∀ m ∈ (Netlist.build s).nets, ∀ n ∈ (Netlist.build s).nets, m ≠ n →
      ¬ SameIdentifier m.name n.name := by
  intro distinct
  have nets : (Netlist.build bothBitsPinned).nets =
      [⟨"D_pin", 1, [⟨"inst_1", 0⟩, ⟨"inst_2", 0⟩], some "inst_2"⟩,
        ⟨"D_pin", 1, [⟨"inst_1", 1⟩, ⟨"inst_4", 0⟩], some "inst_4"⟩] := by decide
  have clash := distinct reachable_bothBitsPinned
  rw [nets] at clash
  exact clash _ List.mem_cons_self _ (List.mem_cons_of_mem _ List.mem_cons_self) (by decide)
    (by decide)

end BlockSchematic
