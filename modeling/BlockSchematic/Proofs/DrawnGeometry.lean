import BlockSchematic.Proofs.DrawnSymbol

/-!
# The drawing of an interface is sound

A symbol that is drawn from an interface has its ports apart from each other on its two edges, each
joined to the body by its pigtail, and a body that is wide enough for the labels. All of this is
said of coordinates as words, so it rests on the size of the drawing being a word.
-/

namespace BlockSchematic

/-- The closed outline of a rectangle. -/
def Rect.border (r : Rect) : List Segment :=
  outline ⟨r.x1, r.y1⟩ ⟨r.x2, r.y1⟩ ⟨r.x2, r.y2⟩ ⟨r.x1, r.y2⟩

/-- The segment runs between two points, in either direction. -/
def Segment.Joins (s : Segment) (p q : Point) : Prop :=
  (s.p1 = p ∧ s.p2 = q) ∨ (s.p1 = q ∧ s.p2 = p)

namespace Synthesis

/-- The drawing is not larger than words can say. -/
structure Fits (ports : List PortSpec) : Prop where
  width : totalWidth ports < WordBound.signed32
  height : totalHeight ports < WordBound.signed32

/-- The length of the longest label of a side, 0 for a side without ports. -/
structure IsLongestLabel (side : List PortSpec) (n : Nat) : Prop where
  most : ∀ p ∈ side, labelLength p ≤ n
  reached : n = 0 ∨ ∃ p ∈ side, labelLength p = n

/-- An input stands on the left edge of the drawing and any other port on the right one, between
top and bottom. Its only line is a pigtail that runs level to the body's edge on that side. -/
structure PortDrawn (bounds body : Rect) (p : Port) : Prop where
  side : p.location.x = if p.direction = .input then 0 else bounds.x2
  below : 0 < p.location.y
  above : p.location.y < bounds.y2
  pigtail : ∃ line, p.lines = [line] ∧
    line.Joins p.location ⟨if p.direction = .input then body.x1 else body.x2, p.location.y⟩

/-- The symbol draws the interface around the given body. -/
structure SoundDrawing (ports : List PortSpec) (s : Symbol) (body : Rect) : Prop where
  origin : s.bounds.x1 = 0 ∧ s.bounds.y1 = 0
  interface : s.ports.map Port.interface =
    (leftPorts ports ++ rightPorts ports).map PortSpec.interface
  apart : (s.ports.map (·.location)).Nodup
  drawn : ∀ p ∈ s.ports, PortDrawn s.bounds body p
  border : s.drawing.lines = body.border
  level : body.y1 = 0 ∧ body.y2 = s.bounds.y2 ∧ 0 < s.bounds.y2
  inside : 0 < body.x1 ∧ body.x1 < body.x2 ∧ body.x2 < s.bounds.x2
  pigtails : body.x1.toInt = 16 ∧ s.bounds.x2.toInt - body.x2.toInt = 16
  leastWidth : 60 ≤ s.bounds.x2.toInt - 2 * 16
  labels : ∃ left right, IsLongestLabel (leftPorts ports) left ∧
    IsLongestLabel (rightPorts ports) right ∧
    7 * (left + right) + 20 ≤ s.bounds.x2.toInt - 2 * 16

/-! ## Coordinates -/

theorem toInt_coordinate {n : Int} (low : 0 ≤ n) (high : n < WordBound.signed32) :
    (coordinate n).toInt = n := by
  rw [WordBound.signed32] at high
  exact Int32.toInt_ofInt_of_le (by omega) (by omega)

theorem coordinate_lt {m n : Int} (low : 0 ≤ m) (less : m < n) (high : n < WordBound.signed32) :
    coordinate m < coordinate n := by
  rw [Int32.lt_iff_toInt_lt, toInt_coordinate low (by omega), toInt_coordinate (by omega) high]
  exact less

theorem coordinate_zero : coordinate 0 = 0 := by decide

theorem coordinate_pos {n : Int} (low : 0 < n) (high : n < WordBound.signed32) :
    0 < coordinate n := by
  rw [← coordinate_zero]
  exact coordinate_lt (Int.le_refl 0) low high

theorem coordinate_inj {m n : Int} (hm : 0 ≤ m ∧ m < WordBound.signed32)
    (hn : 0 ≤ n ∧ n < WordBound.signed32) (same : coordinate m = coordinate n) : m = n := by
  have values := congrArg Int32.toInt same
  rwa [toInt_coordinate hm.1 hm.2, toInt_coordinate hn.1 hn.2] at values

/-! ## Widths and heights -/

theorem le_ceilToGrid (n : Nat) : n ≤ ceilToGrid n := by
  rw [ceilToGrid, grid]
  omega

theorem isLongestLabel_longestLabel (side : List PortSpec) :
    IsLongestLabel side (longestLabel side) := by
  have largest : (0 :: side.map labelLength).max? = some (longestLabel side) := List.max?_cons'
  obtain ⟨reached, most⟩ := List.max?_eq_some_iff.1 largest
  refine ⟨fun p hp => most _ (List.mem_cons_of_mem _ (List.mem_map_of_mem hp)), ?_⟩
  rcases List.mem_cons.1 reached with none | some
  · exact .inl none
  · exact .inr (List.mem_map.1 some)

variable (ports : List PortSpec)

theorem leastBodyWidth_le : 60 ≤ bodyWidth ports := Nat.le_max_left ..

theorem labels_le_bodyWidth :
    7 * (longestLabel (leftPorts ports) + longestLabel (rightPorts ports)) + 20 ≤
      bodyWidth ports := by
  have ceil := le_ceilToGrid (longestLabel (leftPorts ports) * letterWidth + centerGap +
    longestLabel (rightPorts ports) * letterWidth)
  have most := (Nat.le_max_right leastBodyWidth _).trans' ceil
  change _ ≤ bodyWidth ports at most
  rw [letterWidth, centerGap] at most
  omega

theorem totalWidth_eq : (totalWidth ports : Int) = bodyWidth ports + 32 := by
  rw [totalWidth, pigtail]
  omega

variable {ports}

/-- Every row lies between the top and the bottom of the drawing. -/
theorem rowHeight_bounds {row : Nat} (listed : row < rows ports) :
    0 < rowHeight row ∧ rowHeight row < totalHeight ports := by
  rw [rowHeight, totalHeight, topMargin, bottomMargin, portPitch]
  omega

/-! ## Ports -/

theorem length_leftPorts_le : (leftPorts ports).length ≤ rows ports := Nat.le_max_left ..

theorem length_rightPorts_le : (rightPorts ports).length ≤ rows ports := Nat.le_max_right ..

theorem direction_eq_input_iff {spec : PortSpec} :
    spec.mode.direction = .input ↔ isLeft spec = true := by
  rw [isLeft]
  cases spec.mode <;> decide

/-- The edges of the drawing. -/
def frame (ports : List PortSpec) : Rect := rect 0 0 (totalWidth ports) (totalHeight ports)

/-- The body that is drawn between the pigtails. -/
def body (ports : List PortSpec) : Rect :=
  rect pigtail 0 ((totalWidth ports : Int) - pigtail) (totalHeight ports)

theorem Fits.row (fits : Fits ports) {row : Nat} (listed : row < rows ports) :
    0 < coordinate (rowHeight row) ∧ coordinate (rowHeight row) < (frame ports).y2 := by
  obtain ⟨low, high⟩ := rowHeight_bounds listed
  have bottom : (totalHeight ports : Int) < WordBound.signed32 := Int.ofNat_lt.2 fits.height
  exact ⟨coordinate_pos low (by omega), coordinate_lt (by omega) high bottom⟩

theorem Fits.portDrawn_left (fits : Fits ports) {spec : PortSpec} {row : Nat}
    (left : isLeft spec = true) (listed : row < rows ports) :
    PortDrawn (frame ports) (body ports) (leftPort spec row) := by
  obtain ⟨below, above⟩ := fits.row listed
  have input : (leftPort spec row).direction = .input := direction_eq_input_iff.2 left
  refine ⟨?_, below, above, _, rfl, .inl ⟨rfl, ?_⟩⟩
  · rw [if_pos input]
    exact coordinate_zero
  · rw [if_pos input]
    rfl

theorem Fits.portDrawn_right (fits : Fits ports) {spec : PortSpec} {row : Nat}
    (right : isLeft spec = false) (listed : row < rows ports) :
    PortDrawn (frame ports) (body ports) (rightPort (totalWidth ports) spec row) := by
  obtain ⟨below, above⟩ := fits.row listed
  have other : (rightPort (totalWidth ports) spec row).direction ≠ .input := fun input => by
    rw [direction_eq_input_iff.1 input] at right
    cases right
  refine ⟨?_, below, above, _, rfl, .inr ⟨?_, rfl⟩⟩
  · rw [if_neg other]
    rfl
  · rw [if_neg other]
    rfl

theorem mem_ports_ofInterface {name : String} {p : Port}
    (listed : p ∈ (Symbol.ofInterface name ports).ports) :
    (∃ spec row, isLeft spec = true ∧ row < rows ports ∧ p = leftPort spec row) ∨
      ∃ spec row, isLeft spec = false ∧ row < rows ports ∧
        p = rightPort (totalWidth ports) spec row := by
  rcases List.mem_append.1 listed with left | right
  · obtain ⟨row, here, rfl⟩ := List.mem_mapIdx.1 left
    exact .inl ⟨_, row, List.of_mem_filter (List.getElem_mem here),
      here.trans_le length_leftPorts_le, rfl⟩
  · obtain ⟨row, here, rfl⟩ := List.mem_mapIdx.1 right
    have other := List.of_mem_filter (List.getElem_mem here)
    exact .inr ⟨_, row, by simpa using other, here.trans_le length_rightPorts_le, rfl⟩

/-- The rows of one side have different heights. -/
theorem Fits.nodup_column (fits : Fits ports) {side : List PortSpec} {draw : Nat → PortSpec → Port}
    (short : side.length ≤ rows ports) {x : Int}
    (placed : ∀ row spec, (draw row spec).location = point x (rowHeight row)) :
    ((side.mapIdx draw).map (·.location)).Nodup := by
  have bottom : (totalHeight ports : Int) < WordBound.signed32 := Int.ofNat_lt.2 fits.height
  rw [List.Nodup, List.pairwise_map, List.pairwise_iff_getElem]
  intro i j hi hj less same
  rw [List.length_mapIdx] at hi hj
  rw [List.getElem_mapIdx, List.getElem_mapIdx, placed, placed] at same
  obtain ⟨lowI, highI⟩ := rowHeight_bounds (hi.trans_le short)
  obtain ⟨lowJ, highJ⟩ := rowHeight_bounds (hj.trans_le short)
  have heights := coordinate_inj ⟨by omega, by omega⟩ ⟨by omega, by omega⟩ (congrArg Point.y same)
  rw [rowHeight, rowHeight, portPitch] at heights
  omega

theorem Fits.nodup_locations (fits : Fits ports) (name : String) :
    ((Symbol.ofInterface name ports).ports.map (·.location)).Nodup := by
  have right : (totalWidth ports : Int) < WordBound.signed32 := Int.ofNat_lt.2 fits.width
  have wide := totalWidth_eq ports
  rw [Symbol.ofInterface, List.map_append, List.nodup_append]
  refine ⟨fits.nodup_column length_leftPorts_le fun _ _ => rfl,
    fits.nodup_column length_rightPorts_le fun _ _ => rfl, ?_⟩
  simp only [List.mem_map, List.mem_mapIdx]
  rintro _ ⟨_, ⟨_, _, rfl⟩, rfl⟩ _ ⟨_, ⟨_, _, rfl⟩, rfl⟩ same
  have edges := coordinate_inj (by rw [WordBound.signed32]; omega) ⟨by omega, right⟩
    (congrArg Point.x same)
  omega

/-- A symbol drawn from an interface is a sound drawing of it, if its size is a word. Its ports are
the inputs and then the others, in order, with their names, widths and directions. No two of them
share a place, inputs are on the left edge and the others on the right, and each has a pigtail that
runs level to the body's edge. The body is a rectangle inside the drawing, at least 60 wide and as
wide as the longest labels of both sides need; a bus counts five characters more than its name. -/
theorem drawing_is_sound {ports : List PortSpec} (name : String) (fits : Fits ports) :
    ∃ body, SoundDrawing ports (Symbol.ofInterface name ports) body := by
  have right : (totalWidth ports : Int) < WordBound.signed32 := Int.ofNat_lt.2 fits.width
  have bottom : (totalHeight ports : Int) < WordBound.signed32 := Int.ofNat_lt.2 fits.height
  have wide := totalWidth_eq ports
  have least := leastBodyWidth_le ports
  have labels := labels_le_bodyWidth ports
  have high : (0 : Int) < totalHeight ports := by
    rw [totalHeight, topMargin]
    omega
  have edge : (pigtail : Int) = 16 := rfl
  have boundsX2 : (frame ports).x2.toInt = totalWidth ports := toInt_coordinate (by omega) right
  have bodyX1 : (body ports).x1.toInt = 16 := toInt_coordinate (by omega) (by omega)
  have bodyX2 : (body ports).x2.toInt = totalWidth ports - 16 :=
    toInt_coordinate (by omega) (by omega)
  have inside : 0 < (body ports).x1 ∧ (body ports).x1 < (body ports).x2 ∧
      (body ports).x2 < (frame ports).x2 := by
    simp only [Int32.lt_iff_toInt_lt, Int32.toInt_zero, boundsX2, bodyX1, bodyX2]
    omega
  refine ⟨body ports, ⟨coordinate_zero, coordinate_zero⟩, map_interface_ports,
    fits.nodup_locations name, ?_, rfl, ⟨coordinate_zero, rfl, coordinate_pos high bottom⟩, inside,
    ⟨bodyX1, ?_⟩, ?_, _, _, isLongestLabel_longestLabel _, isLongestLabel_longestLabel _, ?_⟩
  · intro p listed
    rcases mem_ports_ofInterface listed with ⟨spec, row, left, here, rfl⟩ |
      ⟨spec, row, other, here, rfl⟩
    · exact fits.portDrawn_left left here
    · exact fits.portDrawn_right other here
  · change (frame ports).x2.toInt - _ = _
    rw [boundsX2, bodyX2]
    omega
  · change _ ≤ (frame ports).x2.toInt - _
    rw [boundsX2]
    omega
  · change _ ≤ (frame ports).x2.toInt - _
    rw [boundsX2]
    omega

def alu : List PortSpec :=
  [⟨"operand_a", .input, 16⟩, ⟨"result", .output, 16⟩, ⟨"flags", .inout, 4⟩]

/-- The widest labels count 14 and 11 characters, so the body is 200 wide. -/
theorem alu_is_sound : Fits alu ∧ (Symbol.ofInterface "alu" alu).bounds = ⟨0, 0, 232, 56⟩ ∧
    ∃ body, SoundDrawing alu (Symbol.ofInterface "alu" alu) body := by
  have fits : Fits alu := ⟨by decide, by decide⟩
  exact ⟨fits, by decide, drawing_is_sound "alu" fits⟩

end Synthesis

end BlockSchematic
