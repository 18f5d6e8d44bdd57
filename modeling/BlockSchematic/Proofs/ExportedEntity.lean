import BlockSchematic.Proofs.BasicIdentifier
import BlockSchematic.Proofs.EntityReading
import BlockSchematic.Proofs.NetNames
import BlockSchematic.Vhdl.Export
import Mathlib.Data.Bool.AllAny

/-!
# The exported entity reads back

The export begins with the entity of the pins. The entity reader finds it there with the names,
modes and widths that were written, whatever the rest of the schematic adds to the text.
-/

namespace BlockSchematic

open Text Entity

namespace Vhdl

/-- What sanitizing leaves can be written as a name. -/
theorem plainName_sanitizeChars (cs : List Char) : PlainName (sanitizeChars cs) := by
  have valid := basicIdentifier_sanitizeChars cs
  exact ⟨valid.ne_nil, valid.chars⟩

theorem plainName_sanitize (name : String) : PlainName (sanitize name).toList := by
  rw [sanitize, String.toList_ofList]
  exact plainName_sanitizeChars name.toList

/-- A text that a statement of a port clause can be made of: the reader keeps it, no mark cuts it
and its parentheses are closed in it. -/
structure ClauseText (cs : List Char) : Prop where
  kept : Kept cs
  noMark : ';' ∉ cs
  settled : Settled cs

theorem clauseText_of_plainName {name : List Char} (h : PlainName name) : ClauseText name where
  kept := kept_of_plainName h
  noMark := h.notMem (by decide)
  settled := settled_of_notMem (h.notMem (by decide)) (h.notMem (by decide))

theorem ClauseText.append {cs ds between : List Char} (hc : ClauseText cs) (hd : ClauseText ds)
    (harmless : ∀ c ∈ ['\n', '-', ';', '(', ')'], c ∉ between) :
    ClauseText (cs ++ between ++ ds) := by
  refine ⟨hc.kept.append hd.kept ?_, ?_, ?_⟩
  · intro c known
    exact harmless c (List.mem_append_left [';', '(', ')'] known)
  · rw [List.mem_append, List.mem_append, not_or, not_or]
    exact ⟨⟨hc.noMark, harmless _ (by decide)⟩, hd.noMark⟩
  · exact settled_append (settled_append hc.settled
      (settled_of_notMem (harmless _ (by decide)) (harmless _ (by decide)))) hd.settled

theorem ClauseText.parenthesized {cs ds : List Char} (hc : ClauseText cs) (hd : ClauseText ds) :
    ClauseText (cs ++ '(' :: (ds ++ [')'])) := by
  have closing : Kept [')'] := by decide
  refine ⟨?_, ?_, settled_append hc.settled (settled_parenthesized hd.settled)⟩
  · have opening : ∀ c ∈ ['\n', '-'], c ∉ ['('] := List.all_iff_forall_prop.1 (by decide)
    have whole := (hc.kept.append hd.kept opening).append closing
      (fun _ _ => List.not_mem_nil)
    simpa only [List.append_assoc, List.cons_append, List.nil_append] using whole
  · simp [hc.noMark, hd.noMark]

theorem typeName_scalar {width : UInt32} (h : ¬ 1 < width) : typeName width = "std_logic" :=
  if_neg h

theorem toList_typeName_vector {width : UInt32} (h : 1 < width) :
    (typeName width).toList =
      "std_logic_vector".toList ++ '(' :: (natChars (width.toNat - 1) ++ " downto 0)".toList) := by
  have opening : "std_logic_vector(".toList = "std_logic_vector".toList ++ ['('] := by decide
  rw [typeName, if_pos h]
  change ("std_logic_vector(" ++ toString (width.toNat - 1) ++ " downto 0)").toList = _
  rw [String.toList_append, String.toList_append, toList_toString, opening]
  simp only [List.append_assoc, List.cons_append, List.nil_append]

theorem plainName_vector : PlainName "std_logic_vector".toList := by decide

theorem clauseText_typeName (width : UInt32) : ClauseText (typeName width).toList := by
  by_cases h : 1 < width
  · have inner : ClauseText (natChars (width.toNat - 1) ++ " downto ".toList ++ ['0']) :=
      (clauseText_of_plainName (plainName_natChars _)).append
        (clauseText_of_plainName (by decide)) (List.all_iff_forall_prop.1 (by decide))
    have closing : " downto 0)".toList = " downto ".toList ++ ['0'] ++ [')'] := by decide
    have whole := (clauseText_of_plainName plainName_vector).parenthesized inner
    rw [toList_typeName_vector h, closing]
    simpa only [List.append_assoc] using whole
  · rw [typeName_scalar h]
    exact clauseText_of_plainName (by decide)

/-- The type of a port says how wide it is, and one line for a width of nothing. -/
theorem typeWidth_typeName (width : UInt32) :
    typeWidth (typeName width).toList = if width = 0 then 1 else width := by
  by_cases h : 1 < width
  · have noOpening : '(' ∉ "std_logic_vector".toList := plainName_vector.notMem (by decide)
    have bound := width.toNat_lt
    have least : 1 < width.toNat := UInt32.lt_iff_toNat_lt.1 h
    have small : width.toNat - 1 < WordBound.signed64 := by
      rw [WordBound.signed64]
      omega
    have back : width.toNat - 1 + 1 = width.toNat := by omega
    have fits : width.toNat < WordBound.unsigned32 := by
      rw [WordBound.unsigned32]
      omega
    have some : width ≠ 0 := by
      rintro rfl
      exact absurd least (by decide)
    rw [toList_typeName_vector h, typeWidth_downto noOpening small, back, wordWidth, if_pos fits,
      UInt32.ofNat_toNat, if_neg some]
  · have single : typeWidth "std_logic".toList = 1 := by decide
    have bound : width.toNat ≤ 1 := by
      rw [UInt32.lt_iff_toNat_lt] at h
      exact Nat.le_of_not_lt h
    have cases : width = 0 ∨ width = 1 := by
      rw [← UInt32.toNat_inj, ← UInt32.toNat_inj]
      change width.toNat = 0 ∨ width.toNat = 1
      omega
    rw [typeName_scalar h, single]
    rcases cases with rfl | rfl <;> rfl

theorem make_typeWidth (name : String) (mode : PortMode) (width : UInt32) :
    PortSpec.make name mode (typeWidth (typeName width).toList) =
      PortSpec.make name mode width := by
  rw [typeWidth_typeName]
  by_cases none : width = 0
  · rw [none]
    rfl
  · rw [if_neg none]

theorem colon_notMem_typeName (width : UInt32) : ':' ∉ (typeName width).toList := by
  by_cases h : 1 < width
  · have digits : ':' ∉ natChars (width.toNat - 1) := (plainName_natChars _).notMem (by decide)
    have closing : ':' ∉ " downto 0)".toList := by decide
    have opening : ':' ∉ "std_logic_vector".toList := plainName_vector.notMem (by decide)
    rw [toList_typeName_vector h, List.mem_append, List.mem_cons, List.mem_append, not_or, not_or,
      not_or]
    exact ⟨opening, by decide, digits, closing⟩
  · rw [typeName_scalar h]
    decide

def entityMode (role : Role) : PortMode := if role = .inputPin then .input else .output

/-- The port of the entity that stands for a pin. It is as wide as the pin's own port, and one line
wide where that is missing or has no width. -/
def entityPort (pin : Instance) : PortSpec :=
  .make (sanitize pin.name) (entityMode pin.role) (pinWidth pin)

theorem toList_pinEntry (i : Instance) : (pinEntry i).toList = (sanitize i.name).toList ++
    ' ' :: ':' :: ' ' :: ((entityMode i.role).keyword.toList ++
      ' ' :: (typeName (pinWidth i)).toList) := by
  have mode : pinMode i.role = (entityMode i.role).keyword := by
    rw [pinMode, entityMode]
    split <;> rfl
  have colon : " : ".toList = [' ', ':', ' '] := by decide
  have space : " ".toList = [' '] := by decide
  rw [pinEntry, mode]
  change (sanitize i.name ++ " : " ++ (entityMode i.role).keyword ++ " " ++
    typeName (pinWidth i)).toList = _
  simp only [String.toList_append, colon, space, List.append_assoc, List.cons_append,
    List.nil_append]

theorem clauseText_pinEntry (i : Instance) : ClauseText (pinEntry i).toList := by
  have harmless : ∀ c ∈ ['\n', '-', ';', '(', ')'],
      c ∉ ' ' :: ':' :: ' ' :: ((entityMode i.role).keyword.toList ++ [' ']) := by
    cases entityMode i.role <;> exact List.all_iff_forall_prop.1 (by decide)
  have whole := (clauseText_of_plainName (plainName_sanitize i.name)).append
    (clauseText_typeName (pinWidth i)) harmless
  rw [toList_pinEntry]
  simpa only [List.append_assoc, List.cons_append, List.nil_append] using whole

theorem statementPorts_pinEntry (i : Instance) :
    statementPorts (pinEntry i).toList = [entityPort i] := by
  rw [toList_pinEntry, statementPorts_of_name (plainName_sanitize i.name) _
    (clauseText_typeName _).kept.solid (colon_notMem_typeName _), make_typeWidth,
    String.ofList_toList, entityPort]

/-- The lines of a port clause in a row, up to the closing parenthesis. -/
def clauseRow (entries : List String) : List Char :=
  (separated ";" entries).flatMap (fun line => ' ' :: line.toList) ++ [' ']

theorem exists_of_mem_separated {mark line : String} {entries : List String}
    (h : line ∈ separated mark entries) :
    ∃ entry ∈ entries, line = entry ∨ line = entry ++ mark := by
  induction entries using separated.induct with
  | case1 => cases h
  | case2 last => exact ⟨last, List.mem_cons_self, .inl (List.mem_singleton.1 h)⟩
  | case3 item rest more ih =>
    rw [separated] at h
    · rcases List.mem_cons.1 h with rfl | later
      · exact ⟨item, List.mem_cons_self, .inr rfl⟩
      · obtain ⟨entry, listed, same⟩ := ih later
        exact ⟨entry, List.mem_cons_of_mem _ listed, same⟩
    · exact more

theorem settled_clauseRow {entries : List String} (h : ∀ e ∈ entries, ClauseText e.toList) :
    Settled (clauseRow entries) := by
  have line : ∀ line ∈ separated ";" entries, Settled (' ' :: line.toList) := by
    intro line listed
    have space : Settled [' '] := settled_of_notMem (by decide) (by decide)
    have mark : Settled ";".toList := settled_of_notMem (by decide) (by decide)
    obtain ⟨entry, he, same | same⟩ := exists_of_mem_separated listed
    · rw [same]
      exact settled_append space (h entry he).settled
    · rw [same, String.toList_append]
      exact settled_append space (settled_append (h entry he).settled mark)
  exact settled_append (settled_flatMap line) (settled_of_notMem (by decide) (by decide))

theorem map_trimChars_splitOn_clauseRow {entries : List String} (filled : entries ≠ [])
    (h : ∀ e ∈ entries, ClauseText e.toList) :
    (splitOn ';' (clauseRow entries)).map trimChars = entries.map String.toList := by
  have space := isBlank_of_mem_space
  induction entries using separated.induct with
  | case1 => exact absurd rfl filled
  | case2 last =>
    have text := h last List.mem_cons_self
    have whole : clauseRow [last] = [' '] ++ (last.toList ++ [' ']) := by simp [clauseRow, separated]
    have noMark : ';' ∉ [' '] ++ (last.toList ++ [' ']) := by simp [text.noMark]
    rw [whole, splitOn_of_notMem noMark, List.map_singleton, List.map_singleton,
      text.kept.solid.trimChars_eq space space]
  | case3 item rest more ih =>
    have text := h item List.mem_cons_self
    have mark : ";".toList = [';'] := by decide
    have whole : clauseRow (item :: rest) =
        [' '] ++ (item.toList ++ []) ++ ';' :: clauseRow rest := by
      rw [clauseRow, separated, List.flatMap_cons, String.toList_append, mark, clauseRow]
      · simp only [List.append_assoc, List.cons_append, List.nil_append]
      · exact more
    have noMark : ';' ∉ [' '] ++ (item.toList ++ []) := by simp [text.noMark]
    rw [whole, splitOn_append noMark, List.map_cons, List.map_cons,
      text.kept.solid.trimChars_eq space (fun _ hc => absurd hc List.not_mem_nil),
      ih more fun e he => h e (List.mem_cons_of_mem _ he)]

theorem clausePorts_clauseRow {entries : List String} (filled : entries ≠ [])
    (h : ∀ e ∈ entries, ClauseText e.toList) :
    clausePorts (clauseRow entries) = entries.flatMap fun e => statementPorts e.toList := by
  have solid : ∀ cs ∈ entries.map String.toList, (!cs.isEmpty) = true := by
    rw [List.forall_mem_map]
    intro e he
    rw [List.isEmpty_eq_false_iff.2 (h e he).kept.solid.ne_nil]
    rfl
  rw [clausePorts, map_trimChars_splitOn_clauseRow filled h, List.filter_eq_self.2 solid,
    List.flatMap_map]

/-- The lines of the export up to the end of the port clause. -/
def declarationLines (s : Schematic) (top : String) : List String :=
  headLines ++ s!"entity {top} is" ::
    portClause "    " ((s.instances.filter (·.isPin)).map pinEntry)

theorem ofSchematic_eq (s : Schematic) (top : String) : ∃ rest,
    (ofSchematic s top).toList =
      ((declarationLines s (sanitize top)).map String.toList).flatMap (· ++ ['\n']) ++ rest := by
  have feed : "\n".toList = ['\n'] := by decide
  have row : ∀ lines : List String,
      (unlines lines).toList = (lines.map String.toList).flatMap (· ++ ['\n']) := by
    intro lines
    rw [unlines, String.toList_join, List.flatMap_map, List.flatMap_map]
    simp only [String.toList_append, feed]
  have lines : ∃ more, headLines ++ entityLines s (sanitize top) ++ [""] ++
      architectureLines s (.build s) (sanitize top) =
        declarationLines s (sanitize top) ++ more := by
    rw [entityLines, declarationLines]
    simp only [List.append_assoc, List.cons_append]
    exact ⟨_, rfl⟩
  obtain ⟨more, split⟩ := lines
  refine ⟨(more.map String.toList).flatMap (· ++ ['\n']), ?_⟩
  rw [ofSchematic, split, row, List.map_append, List.flatMap_append]

theorem kept_of_mem_separated {entries : List String} (h : ∀ e ∈ entries, ClauseText e.toList)
    {line : String} (listed : line ∈ separated ";" entries) : Kept line.toList := by
  have mark : Kept ";".toList := by decide
  obtain ⟨entry, he, same | same⟩ := exists_of_mem_separated listed
  · rw [same]
    exact (h entry he).kept
  · have whole := (h entry he).kept.append mark (fun _ _ => List.not_mem_nil)
    rw [same, String.toList_append]
    simpa only [List.append_nil] using whole

/-- The clauses after the library clause in front of the entity. -/
def useTexts : List (List Char) :=
  ["use IEEE.STD_LOGIC_1164.ALL;", "use IEEE.NUMERIC_STD.ALL;"].map String.toList

theorem filter_content_headLines :
    ((headLines.map String.toList).map content).filter (!·.isEmpty) =
        "library IEEE;".toList :: useTexts ∧
      ∀ line ∈ headLines.map String.toList, '\n' ∉ line := by
  decide

theorem beginsNoWord_head :
    beginsNoWord 'e' false ("library IEEE;".toList ++ useTexts.flatMap (' ' :: ·)) = true := by
  decide

/-- What the reader takes from the lines of a declaration. -/
def clauseTexts (top : String) (entries : List String) : List (List Char) :=
  ("entity".toList ++ ' ' :: (top.toList ++ ' ' :: "is".toList)) ::
    ("port".toList ++ [' ', '(']) :: (separated ";" entries).map String.toList ++ [[')', ';']]

theorem shows_entityHead {top : String} (plain : PlainName top.toList) :
    Shows s!"entity {top} is".toList
      ("entity".toList ++ ' ' :: (top.toList ++ ' ' :: "is".toList)) := by
  have first : "entity ".toList = "entity".toList ++ [' '] := by decide
  have last : " is".toList = ' ' :: "is".toList := by decide
  have text : s!"entity {top} is".toList =
      "entity".toList ++ ' ' :: (top.toList ++ ' ' :: "is".toList) := by
    change ("entity " ++ top ++ " is").toList = _
    rw [String.toList_append, String.toList_append, first, last]
    simp only [List.append_assoc, List.cons_append, List.nil_append]
  have space : ∀ c ∈ ['\n', '-'], c ∉ [' '] := List.all_iff_forall_prop.1 (by decide)
  have entity : Kept "entity".toList := by decide
  have is : Kept "is".toList := by decide
  have whole := (entity.append (kept_of_plainName plain) space).append is space
  rw [text]
  refine Kept.shows ?_
  simpa only [List.append_assoc, List.cons_append, List.nil_append] using whole

theorem shows_clauseTexts {top : String} (plain : PlainName top.toList) {entries : List String}
    (filled : entries ≠ []) (h : ∀ e ∈ entries, ClauseText e.toList) :
    List.Forall₂ Shows ((s!"entity {top} is" :: portClause "    " entries).map String.toList)
      (clauseTexts top entries) := by
  have some : ¬ entries.isEmpty = true := by
    rw [List.isEmpty_iff]
    exact filled
  have spaces : ∀ c ∈ "    ".toList, c = ' ' := List.all_iff_forall_prop.1 (by decide)
  have opening : Shows ("    " ++ "port (").toList ("port".toList ++ [' ', '(']) :=
    ⟨by decide, "    ".toList, spaces, by decide⟩
  have closing : Shows ("    " ++ ");").toList [')', ';'] :=
    ⟨by decide, "    ".toList, spaces, by decide⟩
  have entry : ∀ line ∈ separated ";" entries,
      Shows ("    " ++ "    " ++ line).toList line.toList := by
    intro line listed
    refine ⟨kept_of_mem_separated h listed, ("    " ++ "    ").toList,
      List.all_iff_forall_prop.1 (by decide), ?_⟩
    rw [String.toList_append]
  rw [portClause, if_neg some, clauseTexts]
  simp only [List.cons_append, List.map_cons, List.map_append, List.map_map, List.map_nil]
  refine .cons (shows_entityHead plain) (.cons opening (List.rel_append ?_ (.cons closing .nil)))
  rw [List.forall₂_map_left_iff, List.forall₂_map_right_iff, List.forall₂_same]
  exact entry

theorem filter_content_declarationLines {s : Schematic} {top : String}
    (plain : PlainName top.toList) (filled : (s.instances.filter (·.isPin)).map pinEntry ≠ [])
    (texts : ∀ e ∈ (s.instances.filter (·.isPin)).map pinEntry, ClauseText e.toList) :
    (((declarationLines s top).map String.toList).map content).filter (!·.isEmpty) =
        "library IEEE;".toList ::
          (useTexts ++ clauseTexts top ((s.instances.filter (·.isPin)).map pinEntry)) ∧
      ∀ line ∈ (declarationLines s top).map String.toList, '\n' ∉ line := by
  obtain ⟨shown, oneLine⟩ := filter_content_of_shows (shows_clauseTexts plain filled texts)
  obtain ⟨shownHead, oneLineHead⟩ := filter_content_headLines
  rw [declarationLines, List.map_append]
  constructor
  · rw [List.map_append, List.filter_append, shownHead, shown, List.cons_append]
  · exact List.forall_mem_append.2 ⟨oneLineHead, oneLine⟩

theorem row_clauseTexts (top : String) (entries : List String) (tail : List Char) :
    (clauseTexts top entries).flatMap (' ' :: ·) ++ tail = ' ' :: ("entity".toList ++ ' ' ::
      (top.toList ++ ' ' :: ("is".toList ++ ' ' :: ("port".toList ++ ' ' :: '(' ::
        (clauseRow entries ++ ')' :: ';' :: tail))))) := by
  simp only [clauseTexts, clauseRow, List.flatMap_cons, List.flatMap_append, List.flatMap_map,
    List.flatMap_nil, List.append_assoc, List.cons_append, List.nil_append]

/-- The export of a schematic with pins reads back as the entity of these pins, whatever the
components, signals and fragments after it are. -/
theorem exported_entity_reads_back {s : Schematic} (pinned : ∃ i ∈ s.instances, i.isPin = true)
    (top : String) :
    Entity.read? (ofSchematic s top) =
      some ⟨sanitize top, (s.instances.filter (·.isPin)).map entityPort⟩ := by
  obtain ⟨pin, present, isPin⟩ := pinned
  have filled : (s.instances.filter (·.isPin)).map pinEntry ≠ [] := by
    have listed : pinEntry pin ∈ (s.instances.filter (·.isPin)).map pinEntry :=
      List.mem_map_of_mem (List.mem_filter.2 ⟨present, isPin⟩)
    exact List.ne_nil_of_mem listed
  have texts : ∀ e ∈ (s.instances.filter (·.isPin)).map pinEntry, ClauseText e.toList := by
    rw [List.forall_mem_map]
    exact fun i _ => clauseText_pinEntry i
  have specs : ((s.instances.filter (·.isPin)).map pinEntry).flatMap
      (fun e => statementPorts e.toList) = (s.instances.filter (·.isPin)).map entityPort := by
    rw [List.flatMap_map, List.map_eq_flatMap]
    exact List.flatMap_congr fun i _ => statementPorts_pinEntry i
  obtain ⟨shown, oneLine⟩ := filter_content_declarationLines (plainName_sanitize top) filled texts
  obtain ⟨rest, source⟩ := ofSchematic_eq s top
  obtain ⟨tail, cleaned⟩ := withoutComments_append oneLine shown rest
  rw [← source, List.flatMap_append, ← List.append_assoc, List.append_assoc _ _ tail,
    row_clauseTexts] at cleaned
  rw [read?_of_declaration beginsNoWord_head (plainName_sanitize top) (settled_clauseRow texts)
    cleaned, clausePorts_clauseRow filled texts, specs, String.ofList_toList]

/-- The two pins of the multiplexer's output are read back under their own names. -/
theorem twicePinned_reads_back : Entity.read? (ofSchematic twicePinned defaultTop) =
    some ⟨"TopLevelSchematic", [⟨"Y_pin", .output, 8⟩, ⟨"Y_pin_2", .output, 8⟩]⟩ := by
  rw [exported_entity_reads_back ⟨secondPin, secondPin_mem, by decide⟩]
  decide

end Vhdl

end BlockSchematic
