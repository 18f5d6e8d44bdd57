import BlockSchematic.Proofs.EditedInstances
import BlockSchematic.Proofs.NetNames

/-!
# When two instances have one name

An instance that is placed is named by counting, and a pin that is made by an export takes a name
that nobody bears. Counting does not ask whether a name is taken, so an instance of a template
called like an exported pin may be given the name of a numbered pin. Nothing else gives two
instances one name.
-/

namespace BlockSchematic

open Text Schematic

/-- A base and a number: the name by counting, and that of a pin whose plain name was taken. -/
def numberedName (base : String) (n : Nat) : String := s!"{base}_{n}"

/-- The plain name of a pin for a port. -/
def pinBase (port : String) : String := s!"{port}_pin"

theorem toList_numberedName (base : String) (n : Nat) :
    (numberedName base n).toList = base.toList ++ '_' :: natChars n :=
  toList_numbered base n

theorem toList_pinBase (port : String) : (pinBase port).toList = port.toList ++ "_pin".toList :=
  String.toList_append

theorem numberedName_inj {base base' : String} {m n : Nat}
    (h : numberedName base m = numberedName base' n) : base = base' ∧ m = n := by
  have chars := congrArg String.toList h
  rw [toList_numberedName, toList_numberedName] at chars
  obtain ⟨front, number⟩ := append_natChars_inj (by decide) chars
  exact ⟨String.toList_inj.1 front, number⟩

theorem getLast?_pinBase (port : String) : (pinBase port).toList.getLast? = some 'n' := by
  rw [toList_pinBase, List.getLast?_append]
  rfl

theorem pinBase_ne_numberedName (port base : String) (n : Nat) :
    pinBase port ≠ numberedName base n := by
  intro same
  obtain ⟨c, last, digit⟩ := exists_getLast?_natChars n
  have ends := getLast?_pinBase port
  rw [same, toList_numberedName, List.getLast?_append, List.getLast?_cons, last] at ends
  obtain rfl : c = 'n' := by simpa using ends
  exact absurd digit (by decide)

/-- No template that makes pins is called like an exported pin. -/
theorem isPin_ofTemplate_pinBase (port : String) :
    (Role.ofTemplate (pinBase port)).isPin = false := by
  rw [Bool.eq_false_iff]
  intro isPin
  have last := getLast?_pinBase port
  rcases isPin_ofTemplate isPin with same | same <;> rw [same] at last <;> revert last <;> decide

namespace Schematic

/-- One more candidate is tried than there are instances, so one of them is the name of none. -/
theorem unusedName_ne (s : Schematic) (base : String) :
    ∀ i ∈ s.instances, i.name ≠ s.unusedName base := by
  rw [unusedName]
  cases found : List.find? (fun name => (s.instanceNamed? name).isNone)
    (base :: (List.range (s.instances.length + 1)).map fun n => s!"{base}_{n + 2}") with
  | some name =>
    have free : s.instanceNamed? name = none := by simpa using List.find?_some found
    simpa [instanceNamed?] using free
  | none =>
    have borne : (List.range (s.instances.length + 1)).map (fun n => numberedName base (n + 2)) ⊆
        s.instances.map (·.name) := by
      intro name listed
      have taken := List.find?_eq_none.1 found name (List.mem_cons_of_mem _ listed)
      simpa [instanceNamed?] using taken
    have apart : ((List.range (s.instances.length + 1)).map
        fun n => numberedName base (n + 2)).Nodup :=
      List.nodup_range.map fun m n same => by
        have := (numberedName_inj same).2
        omega
    have fits := (List.subperm_of_subset apart borne).length_le
    exact absurd fits (by simp)

end Schematic

/-! ## What an edit does to names -/

/-- What the name of an instance depends on. -/
structure Label where
  name : String
  template : String
  isPin : Bool
  deriving DecidableEq

def Instance.label (i : Instance) : Label := ⟨i.name, i.template, i.isPin⟩

namespace Schematic

def labels (s : Schematic) : List Label := s.instances.map Instance.label

/-- How often a template was placed, as far as the counters tell. -/
def placedCount (s : Schematic) (template : String) : UInt32 :=
  (s.counters.get? template).getD 0

/-- Neither the counters nor the instances have changed, but for their places. -/
def SameLabels (s t : Schematic) : Prop := t.labels = s.labels ∧ t.counters = s.counters

variable {s t : Schematic} {id : String}

theorem SameInstances.sameLabels (h : s.SameInstances t) : s.SameLabels t :=
  ⟨congrArg (List.map Instance.label) h.1, h.2⟩

theorem labels_moved {is js : List Instance} (moved : List.Forall₂ Instance.Moved is js) :
    js.map Instance.label = is.map Instance.label :=
  (map_eq_of_forall₂ moved fun here => by rw [here]; rfl).symm

theorem sameLabels_moveInstance {position : Position}
    (h : s.moveInstance id position = .ok t) : s.SameLabels t := by
  rw [moveInstance] at h
  split at h
  · obtain rfl := Except.ok.inj h
    exact ⟨labels_moved (moved_updateFirst _ _ _), rfl⟩
  · cases h

theorem sameLabels_withLayout (s : Schematic) (response : LayoutResponse) :
    s.SameLabels (s.withLayout response) :=
  ⟨labels_moved (forall₂_map_self fun _ _ => rfl), rfl⟩

theorem labels_withInstance (s : Schematic) (i : Instance) :
    (s.withInstance i).labels = s.labels ++ [i.label] :=
  List.map_append

theorem placedCount_withInstance (s : Schematic) (i : Instance) (template : String) :
    (s.withInstance i).placedCount template =
      if template = i.template then s.placedCount template + 1 else s.placedCount template := by
  rw [placedCount, withInstance, KeyMap.get?_insert]
  split
  · rename_i same
    rw [same]
    rfl
  · rfl

theorem name_widenPin (pin : Symbol) (width : UInt32) : (widenPin pin width).name = pin.name := by
  rw [widenPin]
  split <;> rfl

end Schematic

namespace Edit

/-- The template of the instance that an edit places. -/
def template? : Edit → Option String
  | .addInstance symbol _ => some symbol.name
  | .addGlue name .. => some name
  | .exportToPin _ pin => some pin.name
  | .removeInstance _ | .moveInstance .. | .connect .. | .reconnect .. | .removeWire _
  | .autoConnect | .withLayout _ => none

/-- The template by which the instance that an edit places is named. -/
def counted? : Edit → Option String
  | .addInstance symbol _ => some symbol.name
  | .addGlue name .. => some name
  | .exportToPin .. | .removeInstance _ | .moveInstance .. | .connect .. | .reconnect ..
  | .removeWire _ | .autoConnect | .withLayout _ => none

end Edit

/-- What an edit does to the labels of the instances: it places none, or one that is named by
counting, or a pin with a name that nobody bears. -/
inductive Relabels (e : Edit) (s t : Schematic) : Prop where
  | keeps (places : e.template? = none) (counted : e.counted? = none)
      (labels : t.labels.Sublist s.labels) (counters : t.counters = s.counters)
  | counts (i : Instance) (places : e.template? = some i.template)
      (counted : e.counted? = some i.template)
      (named : i.name = numberedName i.template (s.countPlaced i.template).toNat)
      (pin : i.isPin = true → (Role.ofTemplate i.template).isPin = true)
      (same : (s.withInstance i).SameLabels t)
  | exports (i : Instance) (port : String) (places : e.template? = some i.template)
      (counted : e.counted? = none) (named : i.name = s.unusedName (pinBase port))
      (isPin : i.isPin = true) (same : (s.withInstance i).SameLabels t)

variable {src : IdSource} {s t : Schematic} {st st' : src.State} {e : Edit}

theorem Relabels.of_sameLabels (places : e.template? = none) (counted : e.counted? = none)
    (same : s.SameLabels t) : Relabels e s t :=
  .keeps places counted (same.1 ▸ List.Sublist.refl _) same.2

theorem relabels_exportToPin {p : PortRef} {pin : Symbol} {id : String}
    (h : s.exportToPin src p pin st = (.ok (t, id), st')) :
    Relabels (.exportToPin p pin) s t := by
  simp only [exportToPin] at h
  split at h
  · cases h
  rename_i role
  split at h
  · cases h
  rename_i i port exported
  split at h
  · cases h
  rename_i wired _ _ connected
  obtain ⟨rfl, -⟩ := Prod.mk.inj (Except.ok.inj (Prod.mk.inj h).1)
  have isPin : (Role.ofTemplate pin.name).isPin = true := by simpa using role
  exact .exports ⟨_, (widenPin pin port.width).name, s.unusedName (pinBase port.name), _,
    .ofTemplate pin.name, widenPin pin port.width, none⟩ port.name
    (congrArg some (name_widenPin pin port.width).symm) rfl rfl isPin (sameInstances_connect connected).sameLabels

/-- Every edit that is not refused relabels the schematic in one of the three ways. -/
theorem Edit.relabels (h : e.apply src s st = (.ok t, st')) : Relabels e s t := by
  cases e with
  | addInstance symbol position =>
    obtain rfl := Except.ok.inj (Prod.mk.inj h).1
    exact .counts ⟨_, symbol.name, _, position, .ofTemplate symbol.name, symbol, none⟩ rfl rfl rfl
      id ⟨rfl, rfl⟩
  | addGlue name code ports position =>
    obtain rfl := Except.ok.inj (Prod.mk.inj h).1
    exact .counts ⟨_, name, _, position, .glue, .ofInterface name (Synthesis.drawnPorts ports),
      some ⟨code, Synthesis.drawnPorts ports⟩⟩ rfl rfl rfl (fun isPin => nomatch isPin) ⟨rfl, rfl⟩
  | removeInstance id =>
    have removed := (Prod.mk.inj h).1
    rw [Schematic.removeInstance] at removed
    split at removed
    · obtain rfl := Except.ok.inj removed
      exact .keeps rfl rfl (List.filter_sublist.map _) rfl
    · cases removed
  | moveInstance id position =>
    exact .of_sameLabels rfl rfl (sameLabels_moveInstance (Prod.mk.inj h).1)
  | connect p q =>
    obtain ⟨id, hr⟩ := exists_of_map_fst_eq_ok (Prod.mk.inj h).1
    exact .of_sameLabels rfl rfl (sameInstances_connect (Prod.ext hr rfl)).sameLabels
  | reconnect p q =>
    obtain ⟨id, hr⟩ := exists_of_map_fst_eq_ok (Prod.mk.inj h).1
    exact .of_sameLabels rfl rfl (sameInstances_reconnect (Prod.ext hr rfl)).sameLabels
  | removeWire id =>
    exact .of_sameLabels rfl rfl (sameInstances_removeWire (Prod.mk.inj h).1).sameLabels
  | exportToPin p pin =>
    obtain ⟨id, hr⟩ := exists_of_map_fst_eq_ok (Prod.mk.inj h).1
    exact relabels_exportToPin (Prod.ext hr rfl)
  | autoConnect =>
    obtain rfl := Except.ok.inj (Prod.mk.inj h).1
    exact .of_sameLabels rfl rfl (sameInstances_autoConnect s st).sameLabels
  | withLayout response =>
    obtain rfl := Except.ok.inj (Prod.mk.inj h).1
    exact .of_sameLabels rfl rfl (sameLabels_withLayout s response)

/-! ## One edit -/

/-- No two instances have one name. -/
def Schematic.NamesDistinct (s : Schematic) : Prop := (s.instances.map (·.name)).Nodup

theorem namesDistinct_iff_labels : s.NamesDistinct ↔ (s.labels.map (·.name)).Nodup := by
  rw [NamesDistinct, labels, List.map_map]
  rfl

theorem instanceNamed?_eq_none_iff {name : String} :
    s.instanceNamed? name = none ↔ ∀ i ∈ s.instances, i.name ≠ name := by
  simp [instanceNamed?]

theorem instanceNamed?_of_mem (distinct : s.NamesDistinct) {i : Instance}
    (here : i ∈ s.instances) : s.instanceNamed? i.name = some i := by
  cases found : s.instanceNamed? i.name with
  | none => exact absurd rfl (instanceNamed?_eq_none_iff.1 found i here)
  | some j =>
    have same : j.name = i.name := by simpa using List.find?_some found
    rw [List.inj_on_of_nodup_map distinct (List.mem_of_find?_eq_some found) here same]

theorem namesDistinct_withInstance {i : Instance} (distinct : s.NamesDistinct)
    (same : (s.withInstance i).SameLabels t) :
    t.NamesDistinct ↔ s.instanceNamed? i.name = none := by
  rw [namesDistinct_iff_labels] at distinct ⊢
  rw [same.1, labels_withInstance, List.map_append, List.map_singleton, ← List.concat_eq_append,
    List.nodup_concat, instanceNamed?_eq_none_iff, and_iff_left distinct, labels, List.map_map]
  simp only [List.mem_map, not_exists, not_and]
  rfl

/-- An edit keeps the names apart unless it counts up to a name that is borne. -/
theorem namesDistinct_apply_iff (distinct : s.NamesDistinct)
    (done : e.apply src s st = (.ok t, st')) :
    t.NamesDistinct ↔ ∀ template, e.counted? = some template →
      s.instanceNamed? (numberedName template (s.countPlaced template).toNat) = none := by
  cases e.relabels done with
  | keeps _ counted labels _ =>
    rw [namesDistinct_iff_labels] at distinct ⊢
    refine iff_of_true (distinct.sublist (labels.map _)) fun template some => ?_
    rw [counted] at some
    cases some
  | counts i _ counted named _ same =>
    rw [namesDistinct_withInstance distinct same, named]
    constructor
    · intro free template some
      rw [counted] at some
      cases some
      exact free
    · intro free
      exact free _ counted
  | exports i port _ counted named _ same =>
    have free : s.instanceNamed? i.name = none := by
      rw [named]
      exact instanceNamed?_eq_none_iff.2 (s.unusedName_ne _)
    refine iff_of_true ((namesDistinct_withInstance distinct same).2 free) fun template some => ?_
    rw [counted] at some
    cases some

/-! ## Runs of edits -/

/-- Made from the empty schematic by these edits, none of which was refused. -/
inductive MadeBy : List Edit → Schematic → Prop where
  | empty : MadeBy [] .empty
  | edit {edits : List Edit} {s t : Schematic} {src : IdSource} {st st' : src.State} (e : Edit)
      (before : MadeBy edits s) (done : e.apply src s st = (.ok t, st')) : MadeBy (edits ++ [e]) t

theorem reachable_iff_exists_madeBy : Reachable s ↔ ∃ edits, MadeBy edits s := by
  constructor
  · intro reached
    induction reached with
    | empty => exact ⟨[], .empty⟩
    | edit e _ done ih =>
      obtain ⟨edits, made⟩ := ih
      exact ⟨edits ++ [e], .edit e made done⟩
  · rintro ⟨edits, made⟩
    induction made with
    | empty => exact .empty
    | edit e _ done ih => exact .edit e ih done

/-- How many of the edits place an instance of a template. -/
def placements (edits : List Edit) (template : String) : Nat :=
  (edits.filterMap Edit.template?).count template

variable {edits : List Edit} {template : String}

theorem placements_append (edits : List Edit) (e : Edit) (template : String) :
    placements (edits ++ [e]) template =
      if e.template? = some template then placements edits template + 1
      else placements edits template := by
  rw [placements, List.filterMap_append, List.count_append, ← placements]
  cases places : e.template? with
  | none => simp [places]
  | some other =>
    by_cases same : other = template <;> simp [places, same]

theorem placements_le_append (edits : List Edit) (e : Edit) (template : String) :
    placements edits template ≤ placements (edits ++ [e]) template := by
  rw [placements_append]
  split <;> omega

/-- The other is no pin, and it was placed from a template that is called like the plain name of the
pin, which has a number behind it. -/
structure Label.TakesNameOf (l pin : Label) : Prop where
  isPin : pin.isPin = true
  block : l.isPin = false
  called : ∃ port n, 2 ≤ n ∧ l.template = pinBase port ∧ pin.name = numberedName (pinBase port) n

/-- How a label came about, when so many instances of each template were placed. -/
inductive Label.Formed (placed : String → Nat) (l : Label) : Prop where
  | counted (n : Nat) (first : 1 ≤ n) (last : n ≤ placed l.template)
      (named : l.name = numberedName l.template n)
      (pin : l.isPin = true → (Role.ofTemplate l.template).isPin = true)
  | plain (port : String) (isPin : l.isPin = true) (named : l.name = pinBase port)
  | numbered (port : String) (n : Nat) (second : 2 ≤ n) (isPin : l.isPin = true)
      (named : l.name = numberedName (pinBase port) n)

theorem Label.Formed.mono {placed more : String → Nat} (le : ∀ template, placed template ≤ more template)
    {l : Label} (h : l.Formed placed) : l.Formed more := by
  cases h with
  | counted n first last named pin => exact .counted n first (last.trans (le _)) named pin
  | plain port isPin named => exact .plain port isPin named
  | numbered port n second isPin named => exact .numbered port n second isPin named

theorem Label.formed_of_unusedName {placed : String → Nat} {l : Label} {port : String}
    (isPin : l.isPin = true) (named : l.name = s.unusedName (pinBase port)) : l.Formed placed := by
  rcases s.unusedName_cases (pinBase port) with same | ⟨n, second, same⟩
  · exact .plain port isPin (named.trans same)
  · exact .numbered port n second isPin (named.trans same)

/-- The next number of a template is no name but that of a numbered pin. -/
theorem Label.Formed.takesNameOf {placed : String → Nat} {l m : Label} (formed : m.Formed placed)
    (named : l.name = numberedName l.template (placed l.template + 1))
    (pin : l.isPin = true → (Role.ofTemplate l.template).isPin = true) (same : m.name = l.name) :
    l.TakesNameOf m := by
  rw [named] at same
  cases formed with
  | counted n _ last other _ =>
    obtain ⟨template, number⟩ := numberedName_inj (other.symm.trans same)
    rw [template] at last
    omega
  | plain port _ other => exact absurd (other.symm.trans same) (pinBase_ne_numberedName _ _ _)
  | numbered port n second isPin other =>
    obtain ⟨template, number⟩ := numberedName_inj (other.symm.trans same)
    refine ⟨isPin, ?_, port, n, second, template.symm, other⟩
    rw [Bool.eq_false_iff]
    intro both
    have none := isPin_ofTemplate_pinBase port
    rw [template, pin both] at none
    cases none

/-- What a run of edits keeps of the names. -/
structure NamesKept (placed : String → Nat) (s : Schematic) : Prop where
  counts : ∀ template, (s.placedCount template).toNat = placed template
  formed : ∀ l ∈ s.labels, l.Formed placed
  apart : s.labels.Pairwise fun l m => l.name = m.name → l.TakesNameOf m ∨ m.TakesNameOf l

theorem NamesKept.placedCount_lt (kept : NamesKept (placements edits) s)
    (places : e.template? = some template)
    (room : ∀ template, placements (edits ++ [e]) template < WordBound.unsigned32) :
    (s.placedCount template).toNat + 1 < WordBound.unsigned32 := by
  have small := room template
  rw [placements_append, if_pos places] at small
  rw [kept.counts]
  exact small

/-- A counter goes up by one where it does not overflow. -/
theorem toNat_countPlaced (room : (s.placedCount template).toNat + 1 < WordBound.unsigned32) :
    (s.countPlaced template).toNat = (s.placedCount template).toNat + 1 := by
  have next : s.countPlaced template = s.placedCount template + 1 := rfl
  rw [next, UInt32.toNat_add]
  exact Nat.mod_eq_of_lt room

theorem NamesKept.place (kept : NamesKept (placements edits) s) {i : Instance}
    (places : e.template? = some i.template)
    (room : ∀ template, placements (edits ++ [e]) template < WordBound.unsigned32)
    (formed : i.label.Formed (placements (edits ++ [e])))
    (apart : ∀ m ∈ s.labels, m.name = i.name → i.label.TakesNameOf m)
    (same : (s.withInstance i).SameLabels t) : NamesKept (placements (edits ++ [e])) t := by
  refine ⟨fun template => ?_, ?_, ?_⟩
  · have counters : t.placedCount template = (s.withInstance i).placedCount template := by
      rw [placedCount, same.2]
      rfl
    rw [counters, placedCount_withInstance, placements_append, places, ← kept.counts]
    by_cases here : template = i.template
    · rw [if_pos here, if_pos (congrArg some here.symm), here]
      exact toNat_countPlaced (kept.placedCount_lt places room)
    · rw [if_neg here, if_neg fun same => here (Option.some.inj same).symm]
  · rw [same.1, labels_withInstance]
    intro l here
    rcases List.mem_append.1 here with old | new
    · exact (kept.formed l old).mono (placements_le_append edits e)
    · rw [List.mem_singleton.1 new]
      exact formed
  · rw [same.1, labels_withInstance, List.pairwise_append]
    refine ⟨kept.apart, List.pairwise_singleton _ _, fun m old l new alike => ?_⟩
    obtain rfl := List.mem_singleton.1 new
    exact .inr (apart m old alike)

/-- One edit keeps the names in order while the counters do not overflow. -/
theorem NamesKept.edit (kept : NamesKept (placements edits) s)
    (done : e.apply src s st = (.ok t, st'))
    (room : ∀ template, placements (edits ++ [e]) template < WordBound.unsigned32) :
    NamesKept (placements (edits ++ [e])) t := by
  cases e.relabels done with
  | keeps places _ labels counters =>
    have same : placements (edits ++ [e]) = placements edits := by
      funext template
      rw [placements_append, places]
      rfl
    rw [same]
    refine ⟨fun template => ?_, fun l here => kept.formed l (labels.subset here),
      kept.apart.sublist labels⟩
    rw [← kept.counts, placedCount, counters]
    rfl
  | counts i places _ named pin same =>
    rw [toNat_countPlaced (kept.placedCount_lt places room), kept.counts] at named
    refine kept.place places room ?_ (fun m old alike => ?_) same
    · have one : placements edits i.template + 1 ≤ placements (edits ++ [e]) i.template := by
        rw [placements_append, if_pos places]
      exact .counted _ (Nat.le_add_left 1 _) one named pin
    · exact (kept.formed m old).takesNameOf named pin alike
  | exports i port places _ named isPin same =>
    refine kept.place places room (Label.formed_of_unusedName isPin named)
      (fun m old alike => ?_) same
    obtain ⟨j, hj, rfl⟩ := List.mem_map.1 old
    rw [named] at alike
    exact absurd alike (s.unusedName_ne _ j hj)

theorem MadeBy.namesKept (made : MadeBy edits s)
    (few : ∀ template, placements edits template < WordBound.unsigned32) :
    NamesKept (placements edits) s := by
  induction made with
  | empty => exact ⟨fun _ => rfl, nofun, .nil⟩
  | @edit edits s t src st st' e before done ih =>
    refine (ih fun template => ?_).edit done few
    exact (placements_le_append edits e template).trans_lt (few template)

/-- Only an instance of a template called like a pin takes the name of a pin. -/
theorem NamesKept.namesDistinct (kept : NamesKept (placements edits) s)
    (plain : ∀ e ∈ edits, ∀ template, e.template? = some template →
      ¬ "_pin".toList <:+ template.toList) : s.NamesDistinct := by
  have free : ∀ l ∈ s.labels, ∀ m, ¬ l.TakesNameOf m := by
    intro l here m takes
    obtain ⟨port, -, -, called, -⟩ := takes.called
    have block := takes.block
    cases kept.formed l here with
    | counted n first last _ _ =>
      have placed : l.template ∈ edits.filterMap Edit.template? :=
        List.count_pos_iff.1 (first.trans last)
      obtain ⟨e, he, places⟩ := List.mem_filterMap.1 placed
      refine plain e he _ places ?_
      rw [called, toList_pinBase]
      exact List.suffix_append _ _
    | plain port isPin _ => rw [isPin] at block; cases block
    | numbered port n _ isPin _ => rw [isPin] at block; cases block
  rw [namesDistinct_iff_labels, List.Nodup, List.pairwise_map]
  refine kept.apart.imp_of_mem fun {l m} hl hm clash same => ?_
  rcases clash same with takes | takes
  · exact free l hl m takes
  · exact free m hm l takes

/-- Two instances have one name only if one is a pin with a number behind its plain name and the
other was placed from a template called like that plain name. This holds after any run of edits in
which no template was placed too often for its counter. So the names are distinct where no such
template was placed. As long as they are, every instance is found by its name, and they stay so
with the next edit unless it counts up to a name that is borne. -/
theorem names_shared_only_with_numbered_pins {edits : List Edit} {s : Schematic}
    (made : MadeBy edits s)
    (few : ∀ template, placements edits template < WordBound.unsigned32) :
    (s.instances.Pairwise fun i j => i.name = j.name →
      i.label.TakesNameOf j.label ∨ j.label.TakesNameOf i.label) ∧
    ((∀ e ∈ edits, ∀ template, e.template? = some template →
        ¬ "_pin".toList <:+ template.toList) → s.NamesDistinct) ∧
    (s.NamesDistinct → (∀ i ∈ s.instances, s.instanceNamed? i.name = some i) ∧
      ∀ {src : IdSource} {e : Edit} {t : Schematic} {st st' : src.State},
        e.apply src s st = (.ok t, st') →
        (t.NamesDistinct ↔ ∀ template, e.counted? = some template →
          s.instanceNamed? (numberedName template (s.countPlaced template).toNat) = none)) := by
  have kept := made.namesKept few
  refine ⟨List.pairwise_map.1 kept.apart, fun plain => kept.namesDistinct plain, ?_⟩
  intro distinct
  exact ⟨fun i here => instanceNamed?_of_mem distinct here,
    fun done => namesDistinct_apply_iff distinct done⟩

theorem placements_le_length (edits : List Edit) (template : String) :
    placements edits template ≤ edits.length :=
  List.count_le_length.trans (List.length_filterMap_le _ _)

def pinNamedPort : Port := ⟨"A", .input, 1, .origin, [], []⟩

/-- A block that is called like the pin for its port. -/
def pinNamed : Symbol := ⟨"A_pin", "1.0", .zero, [pinNamedPort], .blank, []⟩

def pinNamedBlock (id name : String) : Instance :=
  ⟨id, "A_pin", name, .origin, .component, pinNamed, none⟩

def inputPinPort : Port :=
  ⟨"PIN", .output, 1, ⟨80, 20⟩, [⟨"PIN", ⟨60, 15, 75, 25⟩, Symbol.arial 8⟩],
    [.thin ⟨80, 20⟩ ⟨60, 20⟩]⟩

def pinnedOnce : Schematic :=
  (Schematic.empty.withInstance (pinNamedBlock "inst_1" "A_pin_1")).withExport ⟨"inst_1", 0⟩
    .pinInput (pinNamedBlock "inst_1" "A_pin_1") pinNamedPort inputPinPort "inst_2" "w_3"

/-- The block's port has two pins, the second of them with a number. -/
def pinnedTwice : Schematic :=
  pinnedOnce.withExport ⟨"inst_1", 0⟩ .pinInput (pinNamedBlock "inst_1" "A_pin_1") pinNamedPort
    inputPinPort "inst_4" "w_5"

/-- The block once more. -/
def countedUp : Schematic := pinnedTwice.withInstance (pinNamedBlock "inst_6" "A_pin_2")

def countingEdits : List Edit :=
  [.addInstance pinNamed .origin, .exportToPin ⟨"inst_1", 0⟩ .pinInput,
    .exportToPin ⟨"inst_1", 0⟩ .pinInput, .addInstance pinNamed .origin]

theorem madeBy_countingEdits : MadeBy countingEdits countedUp := by
  have start : MadeBy [] Schematic.empty := .empty
  have placed : MadeBy _ (Schematic.empty.withInstance (pinNamedBlock "inst_1" "A_pin_1")) :=
    start.edit _ (Edit.apply_addInstance_numbered 0 pinNamed .origin (by decide))
  have once : MadeBy _ pinnedOnce :=
    placed.edit _ (Edit.apply_exportToPin_numbered 1 (by decide) rfl rfl (by decide) (by decide)
      (by decide))
  have twice : MadeBy _ pinnedTwice :=
    once.edit _ (Edit.apply_exportToPin_numbered 3 (by decide) rfl rfl (by decide) (by decide)
      (by decide))
  exact twice.edit _ (Edit.apply_addInstance_numbered 5 pinNamed .origin (by decide))

/-- The second block takes the name of the second pin. -/
theorem countedUp_takes_name : ∃ pin ∈ countedUp.instances, pin.name = "A_pin_2" ∧
    (pinNamedBlock "inst_6" "A_pin_2").label.TakesNameOf pin.label := by
  have few : ∀ template, placements countingEdits template < WordBound.unsigned32 :=
    fun template => (placements_le_length _ _).trans_lt (by decide)
  have clash := (names_shared_only_with_numbered_pins madeBy_countingEdits few).1
  have alike := List.pairwise_iff_getElem.1 clash 2 3 (by decide) (by decide) (by decide)
    (by decide)
  refine ⟨countedUp.instances[2], List.getElem_mem _, by decide, alike.resolve_left ?_⟩
  exact fun takes => absurd takes.isPin (by decide)

/-- Edits may give two instances one name. -/
theorem instances_without_own_name : ¬ ∀ {s : Schematic}, Reachable s → s.NamesDistinct := by
  intro distinct
  have names : countedUp.instances.map (·.name) = ["A_pin_1", "A_pin", "A_pin_2", "A_pin_2"] := by
    decide
  have apart := distinct (reachable_iff_exists_madeBy.2 ⟨_, madeBy_countingEdits⟩)
  rw [NamesDistinct, names] at apart
  exact absurd apart (by decide)

end BlockSchematic
