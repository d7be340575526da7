import GridRobot.World.Basic
import GridRobot.World.Scan
import GridRobot.Text.Lines

/-!
# World files

A world file holds one declaration on a line, a keyword and its parameters with a colon between them.
Reading never fails: a line that is no declaration is passed over, and a declaration changes what the
lines before it have set up. Writing lists the declarations that build a world, in a fixed order.
-/

namespace GridRobot

inductive Declaration where
  | dimension (width height : UInt32)
  | wall (wall : Wall)
  | beeper (pile : Pile)
  | agent (pose : Pose)
  | bag (bag : Bag)
  deriving DecidableEq, Repr

namespace Declaration

/-- The bag a parameter stands for. A sign is passed over, what follows the digits is ignored, a value
that does not fit counts as the greatest one, and a parameter without digits is an empty bag. -/
def readBag (params : Text) : Bag :=
  if params = "infinity".toList ∨ params = "infinite".toList then .unbounded
  else
    let unsigned := match params with
      | '+' :: rest => rest
      | rest => rest
    let digits := (Text.spanDigits unsigned).1
    if digits.isEmpty then .empty else .finite ((Text.word32? digits).getD (UInt32.ofNat (UInt32.size - 1)))

/-- A grid has at least one row and one column: a parameter that says otherwise declares nothing. -/
def readDimension? (params : Text) : Option Declaration := do
  let p ← Scan.leftmost Scan.cell params
  if p.x = 0 ∨ p.y = 0 then none else some (.dimension p.x p.y)

/-- The declaration that a keyword and its parameters make, both in small letters. -/
def ofParts? (keyword params : Text) : Option Declaration :=
  if keyword = "dimension".toList then readDimension? params
  else if keyword = "wall".toList then
    (Scan.leftmost (Scan.cellThen Scan.direction) params).map fun (p, d) => .wall ⟨p, d⟩
  else if keyword = "beeper".toList then
    (Scan.leftmost (Scan.cellThen Scan.number) params).map fun (p, n) => .beeper ⟨p, n⟩
  else if keyword = "karel".toList then
    (Scan.leftmost (Scan.cellThen Scan.direction) params).map fun (p, d) => .agent ⟨p, d⟩
  else if keyword = "beeperbag".toList then some (.bag (readBag params))
  else none

/-- Keyword and parameters of a line: what stands before its first colon and between its first two. -/
def parts? (line : Text) : Option (Text × Text) :=
  match Text.pieces ':' line.trim with
  | keyword :: params :: _ => some (keyword.trim.toSmall, params.trim.toSmall)
  | _ => none

/-- The declaration on a line. -/
def read? (line : Text) : Option Declaration :=
  (parts? line).bind fun (keyword, params) => ofParts? keyword params

def renderCell (p : Position) : Text :=
  '(' :: Text.numeral p.x.toNat ++ ',' :: ' ' :: Text.numeral p.y.toNat ++ [')']

/-- The line that makes a declaration. -/
def render : Declaration → Text
  | .dimension w h => "Dimension: ".toList ++ renderCell ⟨w, h⟩
  | .wall w => "Wall: ".toList ++ renderCell w.cell ++ "; ".toList ++ w.side.name.toList
  | .beeper p => "Beeper: ".toList ++ renderCell p.cell ++ "; ".toList ++ Text.numeral p.count.toNat
  | .agent p => "Karel: ".toList ++ renderCell p.cell ++ "; ".toList ++ p.facing.name.toList
  | .bag b => "BeeperBag: ".toList ++ b.render.toList

end Declaration

namespace World

/-- What a declaration changes. -/
def declare (w : World) : Declaration → World
  | .dimension width height => { w with width, height }
  | .wall wall => w.addWall wall
  | .beeper pile => w.setBeepers pile.cell pile.count
  | .agent agent => { w with agent }
  | .bag bag => { w with bag }

/-- The world that a sequence of declarations builds. -/
def ofDeclarations (ds : List Declaration) : World := ds.foldl declare initial

/-- The world that a text describes. -/
def ofText (t : Text) : World := ofDeclarations ((Text.lines t).filterMap Declaration.read?)

/-- The declarations that build a world. -/
def declarations (w : World) : List Declaration :=
  .dimension w.width w.height :: w.walls.map .wall ++ w.beepers.piles.map .beeper ++
    [.agent w.agent, .bag w.bag]

/-- The text that describes a world, each declaration on a line of its own. -/
def toText (w : World) : Text := w.declarations.flatMap fun d => d.render ++ ['\n']

/-- Reads a world file. -/
def parse (s : String) : World := ofText s.toList

/-- Writes a world file. -/
def format (w : World) : String := String.ofList w.toText

end World

end GridRobot
