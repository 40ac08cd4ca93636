/-
HoxServer.Referee.Piece — the movement rules of the seven pieces
(`Piece::IsValidMove`, the `CanMoveTo` and `GetPotentialNextPositions`
overrides of `hoxReferee.cpp`).

A rule reads its own `m_info` (the argument `me`) and the board it
points back at. No rule tests that the destination is a position of the
board; `KingPiece` and `AdvisorPiece` test the palace, `ElephantPiece`
and `PawnPiece` the rows of a country, the others nothing.
-/
import HoxServer.Referee.Board
import Mathlib.Data.Int.Range

namespace HoxServer

/-! ## `CanMoveTo` -/

/-- `KingPiece::CanMoveTo`. -/
def KingPiece.canMoveTo (me : PieceInfo) (newPos : Position) : Bool :=
  let curPos := me.position
  newPos.isInsidePalace me.color &&
    decide (((newPos.x - curPos.x).natAbs = 1 ∧ newPos.y = curPos.y)
      ∨ (newPos.x = curPos.x ∧ (newPos.y - curPos.y).natAbs = 1))

/-- `AdvisorPiece::CanMoveTo`. -/
def AdvisorPiece.canMoveTo (me : PieceInfo) (newPos : Position) : Bool :=
  let curPos := me.position
  newPos.isInsidePalace me.color &&
    decide ((newPos.x - curPos.x).natAbs = 1 ∧ (newPos.y - curPos.y).natAbs = 1)

/-- `ElephantPiece::CanMoveTo`. The division truncates toward zero. -/
def ElephantPiece.canMoveTo (b : Board) (me : PieceInfo) (newPos : Position) : Bool :=
  let curPos := me.position
  newPos.isInsideCountry me.color &&
    decide ((newPos.x - curPos.x).natAbs = 2 ∧ (newPos.y - curPos.y).natAbs = 2) &&
    !b.hasPieceAt ⟨(curPos.x + newPos.x).tdiv 2, (curPos.y + newPos.y).tdiv 2⟩

/-- The positions strictly between two positions of a row or a column, as
`ChariotPiece::CanMoveTo` and `CannonPiece::CanMoveTo` collect them:
TOP, RIGHT, BOTTOM, LEFT. -/
def middlePositions (curPos newPos : Position) : List Position :=
  if newPos.y < curPos.y then (Int.range (newPos.y + 1) curPos.y).map (⟨curPos.x, ·⟩)
  else if newPos.x > curPos.x then (Int.range (curPos.x + 1) newPos.x).map (⟨·, curPos.y⟩)
  else if newPos.y > curPos.y then (Int.range (curPos.y + 1) newPos.y).map (⟨curPos.x, ·⟩)
  else if newPos.x < curPos.x then (Int.range (newPos.x + 1) curPos.x).map (⟨·, curPos.y⟩)
  else []

/-- Is a horizontal or vertical move? -/
def isStraight (curPos newPos : Position) : Bool :=
  decide ((newPos.x ≠ curPos.x ∧ newPos.y = curPos.y)
    ∨ (newPos.x = curPos.x ∧ newPos.y ≠ curPos.y))

/-- `ChariotPiece::CanMoveTo`. -/
def ChariotPiece.canMoveTo (b : Board) (me : PieceInfo) (newPos : Position) : Bool :=
  let curPos := me.position
  isStraight curPos newPos && !(middlePositions curPos newPos).any b.hasPieceAt

/-- `HorsePiece::CanMoveTo`: the neighbour that hinders the move is on the
TOP, BOTTOM, RIGHT or LEFT. -/
def HorsePiece.canMoveTo (b : Board) (me : PieceInfo) (newPos : Position) : Bool :=
  let curPos := me.position
  if curPos.y - 2 = newPos.y ∧ (newPos.x - curPos.x).natAbs = 1 then
    !b.hasPieceAt ⟨curPos.x, curPos.y - 1⟩
  else if curPos.y + 2 = newPos.y ∧ (newPos.x - curPos.x).natAbs = 1 then
    !b.hasPieceAt ⟨curPos.x, curPos.y + 1⟩
  else if curPos.x + 2 = newPos.x ∧ (newPos.y - curPos.y).natAbs = 1 then
    !b.hasPieceAt ⟨curPos.x + 1, curPos.y⟩
  else if curPos.x - 2 = newPos.x ∧ (newPos.y - curPos.y).natAbs = 1 then
    !b.hasPieceAt ⟨curPos.x - 1, curPos.y⟩
  else false

/-- `CannonPiece::CanMoveTo`. -/
def CannonPiece.canMoveTo (b : Board) (me : PieceInfo) (newPos : Position) : Bool :=
  let curPos := me.position
  if isStraight curPos newPos then
    let numMiddle := (middlePositions curPos newPos).countP b.hasPieceAt
    if numMiddle > 1 then false
    else if numMiddle = 1 then
      -- exactly one middle piece: this must be a capture
      match b.getPieceAt newPos with
      | none => false
      | some c => !b.hasColor c me.color
    else !b.hasPieceAt newPos
  else false

/-- One row forward, `newPos.y == curPos.y+1` for BLACK and
`newPos.y == curPos.y-1` for RED. -/
def PawnPiece.isForward (me : PieceInfo) (newPos : Position) : Bool :=
  let curPos := me.position
  decide ((me.color = .black ∧ newPos.y = curPos.y + 1)
    ∨ (me.color = .red ∧ newPos.y = curPos.y - 1))

/-- `PawnPiece::CanMoveTo`. -/
def PawnPiece.canMoveTo (me : PieceInfo) (newPos : Position) : Bool :=
  let curPos := me.position
  if newPos.isInsideCountry me.color then
    decide (newPos.x = curPos.x) && PawnPiece.isForward me newPos
  else
    decide (newPos.y = curPos.y ∧ (newPos.x - curPos.x).natAbs = 1)
      || (decide (newPos.x = curPos.x) && PawnPiece.isForward me newPos)

/-- The virtual call `this->CanMoveTo( newPos )`. The class of a piece is
the one of its type; no object has the type `hoxPIECE_INVALID`. -/
def Board.canMoveTo (b : Board) (me : PieceInfo) (newPos : Position) : Bool :=
  match me.type with
  | .king => KingPiece.canMoveTo me newPos
  | .advisor => AdvisorPiece.canMoveTo me newPos
  | .elephant => ElephantPiece.canMoveTo b me newPos
  | .chariot => ChariotPiece.canMoveTo b me newPos
  | .horse => HorsePiece.canMoveTo b me newPos
  | .cannon => CannonPiece.canMoveTo b me newPos
  | .pawn => PawnPiece.canMoveTo me newPos
  | .invalid => false

/-- `Piece::IsValidMove`. -/
def Board.isValidMove (b : Board) (r : PieceRef) (newPos : Position) : Bool :=
  b.canMoveTo (b.info r) newPos &&
    match b.getPieceAt newPos with
    | some c => !b.hasColor c (b.info r).color
    | none => true

/-! ## `GetPotentialNextPositions` -/

/-- The four neighbours, as `KingPiece` and `PawnPiece` list them. -/
def neighbourPositions (p : Position) : List Position :=
  [⟨p.x, p.y - 1⟩, ⟨p.x, p.y + 1⟩, ⟨p.x - 1, p.y⟩, ⟨p.x + 1, p.y⟩]

/-- The four positions at distance `n` on the diagonals (`AdvisorPiece`
with 1, `ElephantPiece` with 2). -/
def diagonalPositions (n : Int) (p : Position) : List Position :=
  [⟨p.x - n, p.y - n⟩, ⟨p.x - n, p.y + n⟩, ⟨p.x + n, p.y - n⟩, ⟨p.x + n, p.y + n⟩]

/-- The row and the column of a position without it (`ChariotPiece` and
`CannonPiece`). -/
def crossPositions (p : Position) : List Position :=
  ((Int.range 0 9).filter (· ≠ p.x)).map (⟨·, p.y⟩)
    ++ ((Int.range 0 10).filter (· ≠ p.y)).map (⟨p.x, ·⟩)

/-- `KingPiece::GetPotentialNextPositions`. -/
def KingPiece.getPotentialNextPositions : Position → List Position := neighbourPositions

/-- `AdvisorPiece::GetPotentialNextPositions`. -/
def AdvisorPiece.getPotentialNextPositions : Position → List Position := diagonalPositions 1

/-- `ElephantPiece::GetPotentialNextPositions`. -/
def ElephantPiece.getPotentialNextPositions : Position → List Position := diagonalPositions 2

/-- `ChariotPiece::GetPotentialNextPositions`. -/
def ChariotPiece.getPotentialNextPositions : Position → List Position := crossPositions

/-- `HorsePiece::GetPotentialNextPositions`. -/
def HorsePiece.getPotentialNextPositions (p : Position) : List Position :=
  [⟨p.x - 1, p.y - 2⟩, ⟨p.x - 1, p.y + 2⟩, ⟨p.x - 2, p.y - 1⟩, ⟨p.x - 2, p.y + 1⟩,
   ⟨p.x + 1, p.y - 2⟩, ⟨p.x + 1, p.y + 2⟩, ⟨p.x + 2, p.y - 1⟩, ⟨p.x + 2, p.y + 1⟩]

/-- `CannonPiece::GetPotentialNextPositions`. -/
def CannonPiece.getPotentialNextPositions : Position → List Position := crossPositions

/-- `PawnPiece::GetPotentialNextPositions`. -/
def PawnPiece.getPotentialNextPositions : Position → List Position := neighbourPositions

/-- The virtual call `this->GetPotentialNextPositions( positions )`. -/
def PieceInfo.getPotentialNextPositions (me : PieceInfo) : List Position :=
  match me.type with
  | .king => KingPiece.getPotentialNextPositions me.position
  | .advisor => AdvisorPiece.getPotentialNextPositions me.position
  | .elephant => ElephantPiece.getPotentialNextPositions me.position
  | .chariot => ChariotPiece.getPotentialNextPositions me.position
  | .horse => HorsePiece.getPotentialNextPositions me.position
  | .cannon => CannonPiece.getPotentialNextPositions me.position
  | .pawn => PawnPiece.getPotentialNextPositions me.position
  | .invalid => []

end HoxServer
