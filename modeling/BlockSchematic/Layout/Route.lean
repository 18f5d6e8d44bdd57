import BlockSchematic.Layout.Request

/-!
# Orthogonal routes

A route leaves its start horizontally, has at most one vertical run and enters its end
horizontally. The run stands halfway when the end lies on the side that the start faces, and a
fixed distance beyond the start otherwise.
-/

namespace BlockSchematic

def bendAt (start finish : Position) (side : Side) (jog : Float) : Float :=
  match side with
  | .east => if start.x < finish.x then (start.x + finish.x) / 2.0 else start.x + jog
  | .west => if finish.x < start.x then (start.x + finish.x) / 2.0 else start.x - jog

def routeBetween (start finish : Position) (side : Side) (jog : Float) : List Position :=
  if start.y == finish.y then [start, finish]
  else
    let x := bendAt start finish side jog
    [start, ⟨x, start.y⟩, ⟨x, finish.y⟩, finish]

end BlockSchematic
