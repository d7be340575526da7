import GridRobot.Json.Record
import GridRobot.Json.Value
import GridRobot.World.Basic
import GridRobot.Command

/-!
# Worlds as JSON

Cells, poses, walls, piles, bags, directions, commands and worlds, each with its written form and its
reader. A world that is read has at least one row and one column, and its beepers are built from the
piles that are not empty.
-/

namespace GridRobot

namespace Direction

def toJson (d : Direction) : Json := .str d.name

def reader : Json.Reader Direction := Json.variant (all.map fun d => (d.name, d))

end Direction

namespace Command

def toJson (c : Command) : Json := .str c.name

def reader : Json.Reader Command := Json.variant (all.map fun c => (c.name, c))

end Command

namespace Position

def toJson (p : Position) : Json := .obj [("x", .word p.x), ("y", .word p.y)]

structure Draft where
  x : Option UInt32
  y : Option UInt32

def record : Json.Record Draft Position where
  name := "Position"
  fields :=
    [.of "x" Draft.x (fun d x => { d with x := some x }) Json.word32,
      .of "y" Draft.y (fun d y => { d with y := some y }) Json.word32]
  draft := ⟨none, none⟩
  finish d := return ⟨← d.x, ← d.y⟩

end Position

namespace Pose

def toJson (p : Pose) : Json :=
  .obj [("x", .word p.cell.x), ("y", .word p.cell.y), ("facing", p.facing.toJson)]

structure Draft where
  x : Option UInt32
  y : Option UInt32
  facing : Option Direction

def record : Json.Record Draft Pose where
  name := "Pose"
  fields :=
    [.of "x" Draft.x (fun d x => { d with x := some x }) Json.word32,
      .of "y" Draft.y (fun d y => { d with y := some y }) Json.word32,
      .of "facing" Draft.facing (fun d facing => { d with facing := some facing }) Direction.reader]
  draft := ⟨none, none, none⟩
  finish d := return ⟨⟨← d.x, ← d.y⟩, ← d.facing⟩

end Pose

namespace Wall

def toJson (w : Wall) : Json :=
  .obj [("x", .word w.cell.x), ("y", .word w.cell.y), ("direction", w.side.toJson)]

structure Draft where
  x : Option UInt32
  y : Option UInt32
  direction : Option Direction

def record : Json.Record Draft Wall where
  name := "Wall"
  fields :=
    [.of "x" Draft.x (fun d x => { d with x := some x }) Json.word32,
      .of "y" Draft.y (fun d y => { d with y := some y }) Json.word32,
      .of "direction" Draft.direction (fun d side => { d with direction := some side })
        Direction.reader]
  draft := ⟨none, none, none⟩
  finish d := return ⟨⟨← d.x, ← d.y⟩, ← d.direction⟩

end Wall

namespace Pile

def toJson (p : Pile) : Json :=
  .obj [("x", .word p.cell.x), ("y", .word p.cell.y), ("count", .word p.count)]

structure Draft where
  x : Option UInt32
  y : Option UInt32
  count : Option UInt32

def record : Json.Record Draft Pile where
  name := "BeeperPile"
  fields :=
    [.of "x" Draft.x (fun d x => { d with x := some x }) Json.word32,
      .of "y" Draft.y (fun d y => { d with y := some y }) Json.word32,
      .of "count" Draft.count (fun d count => { d with count := some count }) Json.word32]
  draft := ⟨none, none, none⟩
  finish d := return ⟨⟨← d.x, ← d.y⟩, ← d.count⟩

end Pile

namespace Bag

def toJson : Bag → Json
  | .finite n => .word n
  | .unbounded => .str "infinity"

/-- What a bag may be written as. -/
def expected : String := "a beeper count or \"infinity\""

def ofNumber : Json.Number → Except Json.Fault Bag
  | .natural n =>
      if n < UInt32.size then .ok (.finite (UInt32.ofNat n)) else .error (.data .countOutOfRange)
  | .negative _ => .error (.data .countNegative)
  | .real shown => .error (.data (.invalidType (.real shown) expected))

/-- The endless bag goes by two names, in any letter case. -/
def ofWord (t : Text) : Except Json.Fault Bag :=
  let word := t.toSmallAscii
  if word = "infinity".toList ∨ word = "infinite".toList then .ok .unbounded
  else .error (.data (.invalidValue (.string word) expected))

def reader : Json.Reader Bag := fun t => do
  let t := Json.skipSpace t
  if Json.startsNumber t then
    let (n, t) ← Json.orMalformed (Json.number? t)
    return (← ofNumber n, t)
  else if t.head? = some '"' then
    let (word, t) ← Json.quotedString t
    return (← ofWord word, t)
  else Json.unexpected expected t

end Bag

namespace World

def toJson (w : World) : Json :=
  .obj [("width", .word w.width), ("height", .word w.height), ("walls", .arr (w.walls.map Wall.toJson)),
    ("beepers", .arr (w.beepers.piles.map Pile.toJson)), ("agent", w.agent.toJson),
    ("bag", w.bag.toJson)]

/-- A side of the grid: a word that is not zero. -/
def dimension : Json.Reader UInt32 := fun t => do
  let (n, t) ← Json.word32 t
  if n = 0 then .error (.data (.invalidValue (.integer 0) "a dimension of at least 1")) else .ok (n, t)

structure Draft where
  width : Option UInt32
  height : Option UInt32
  walls : Option (List Wall)
  beepers : Option Layout
  agent : Option Pose
  bag : Option Bag

/-- Beepers, listed pile by pile. -/
def beepersReader : Json.Reader Layout := fun t => do
  let (piles, t) ← Json.list Pile.record.reader t
  .ok (.ofPiles piles, t)

def record : Json.Record Draft World where
  name := "World"
  fields :=
    [.of "width" Draft.width (fun d width => { d with width := some width }) dimension,
      .of "height" Draft.height (fun d height => { d with height := some height }) dimension,
      .of "walls" Draft.walls (fun d walls => { d with walls := some walls })
        (Json.list Wall.record.reader),
      .of "beepers" Draft.beepers (fun d beepers => { d with beepers := some beepers }) beepersReader,
      .of "agent" Draft.agent (fun d agent => { d with agent := some agent }) Pose.record.reader,
      .of "bag" Draft.bag (fun d bag => { d with bag := some bag }) Bag.reader]
  draft := ⟨none, none, none, none, none, none⟩
  finish d := return ⟨← d.width, ← d.height, ← d.walls, ← d.beepers, ← d.agent, ← d.bag⟩

/-- Reads a world from JSON text. -/
def ofJson (s : String) : Except Json.Fault World := Json.decode record.reader s

end World

end GridRobot
