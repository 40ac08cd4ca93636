/-
HoxServer.Referee.Referee — the validation of moves
(`Board::ValidateMove` and what it calls) and the class `hoxReferee`.

A function that calls `_GetKing` returns `Except Fault`: the source goes
on after the failed assertion with a NULL pointer that it dereferences,
the model stops at the assertion. The loop of `_DoesNextMoveExist`
iterates over the list that the simulated captures remove from and append
to. `loopBound` steps are what the model gives it, and `endlessLoop` is a
loop that needs more.
-/
import HoxServer.Lib.Traversal
import HoxServer.Referee.Piece

namespace HoxServer

/-- What the code must not run into: a failed assertion, the use of a
NULL pointer, a loop without end. -/
inductive Fault where
  | assertFailed
  | nullPointer
  | endlessLoop
  deriving DecidableEq, Repr

namespace Board

/-! ## Kings -/

/-- `Board::_GetKing`: "A King of any color should exist." -/
def getKing (b : Board) (color : Color) : Except Fault PieceRef :=
  match b.pieces.find? (fun r => decide ((b.info r).type = .king) && b.hasColor r color) with
  | some r => .ok r
  | none => .error .assertFailed

/-- `Board::_IsKingBeingChecked`. -/
def isKingBeingChecked (b : Board) (color : Color) : Except Fault Bool := do
  let pKing ← b.getKing color
  .ok (b.pieces.any fun r => !b.hasColor r color && b.isValidMove r (b.positionOf pKing))

/-- `Piece::HasSameColumnAs`. -/
def hasSameColumnAs (b : Board) (r s : PieceRef) : Bool :=
  decide ((b.positionOf r).x = (b.positionOf s).x)

/-- `Board::_IsKingFaceKing`. -/
def isKingFaceKing (b : Board) : Except Fault Bool := do
  let blackKing ← b.getKing .black
  let redKing ← b.getKing .red
  if b.hasSameColumnAs blackKing redKing then
    .ok !(b.pieces.any fun r =>
      decide (r ≠ blackKing ∧ r ≠ redKing) && b.hasSameColumnAs r redKing)
  else .ok false

/-! ## Simulation and the end of the game -/

/-- `Board::Simulation_IsValidMove`. -/
def simulationIsValidMove (b : Board) (move : Move) : Except Fault (Board × Bool) :=
  match b.getPieceAt move.piece.position with
  | none => .ok (b, false)
  | some r =>
    if b.isValidMove r move.newPosition then do
      let (b', captured) := b.recordMove move
      let beingChecked ← b'.isKingBeingChecked (b'.info r).color
      let areKingsFacing ← b'.isKingFaceKing
      .ok (b'.undoMove move captured, !(beingChecked || areKingsFacing))
    else .ok (b, false)

/-- The loop of `Piece::DoesNextMoveExist` over the potential positions of
the piece `me`. -/
def simulatePositions (b : Board) (me : PieceInfo) : List Position → Except Fault (Board × Bool)
  | [] => .ok (b, false)
  | p :: ps =>
    if p.isValid then
      match b.simulationIsValidMove { piece := me, newPosition := p } with
      | .error e => .error e
      | .ok (b', true) => .ok (b', true)
      | .ok (b', false) => simulatePositions b' me ps
    else simulatePositions b me ps

/-- `Piece::DoesNextMoveExist`. -/
def pieceDoesNextMoveExist (b : Board) (r : PieceRef) : Except Fault (Board × Bool) :=
  b.simulatePositions (b.info r) (b.info r).getPotentialNextPositions

/-- The body of the loop of `_DoesNextMoveExist`. -/
def nextMoveBody (b : Board) (r : PieceRef) : Except Fault (Board × Bool) :=
  if b.hasColor r b.nextColor then b.pieceDoesNextMoveExist r else .ok (b, false)

/-- Enough steps for the loop of `_DoesNextMoveExist`. -/
def loopBound (b : Board) : Nat := (b.pieces.length + 1) * (b.pieces.length + 1)

/-- `Board::_DoesNextMoveExist`. The function is `const`, the board it
leaves behind is not always the one it was called on. -/
def doesNextMoveExist (b : Board) : Except Fault (Board × Bool) :=
  Lib.traverse Board.pieces nextMoveBody .endlessLoop b.loopBound b b.pieces.head?

/-! ## Validation -/

/-- What a call of `ValidateMove` leaves behind: its result, the board and
the two arguments passed by reference. -/
structure Verdict where
  accepted : Bool
  board : Board
  move : Move
  status : GameStatus

/-- `Board::ValidateMove` after the move has been recorded on `b` and
found legal. -/
def concludeMove (b : Board) (move : Move) (captured : Option PieceRef) : Except Fault Verdict := do
  let move := { move with capturedPiece := match captured with
                                           | some c => b.info c
                                           | none => {} }
  let b := { b with nextColor := b.nextColor.opposite }
  let (b, nextMoveExists) ← b.doesNextMoveExist
  let status := if nextMoveExists then GameStatus.inProgress
    else if b.nextColor = .black then .redWin else .blackWin
  .ok ⟨true, b, move, status⟩

/-- `Board::ValidateMove`. -/
def validateMove (b : Board) (move : Move) (status : GameStatus) : Except Fault Verdict :=
  if move.piece.color ≠ b.nextColor then .ok ⟨false, b, move, status⟩
  else
    match b.getPieceAt move.piece.position with
    | none => .ok ⟨false, b, move, status⟩
    | some r =>
      if b.isValidMove r move.newPosition then do
        let (b', captured) := b.recordMove move
        let illegal ← do
          if ← b'.isKingBeingChecked move.piece.color then pure true else b'.isKingFaceKing
        if illegal then .ok ⟨false, b'.undoMove move captured, move, status⟩
        else b'.concludeMove move captured
      else .ok ⟨false, b, move, status⟩

/-- `Board::IsLastMoveCheck`. -/
def isLastMoveCheck (b : Board) : Except Fault Bool := b.isKingBeingChecked b.nextColor

end Board

/-! ## `hoxReferee` -/

/-- `hoxReferee::resetGame`: the board of a new game, RED to move. -/
def Referee.resetGame : Board := Board.new .red

/-- A character of a move-string minus `'0'`, stored in a `char`. -/
def coordinate (c : UInt8) : Int := toChar ((c.toNat : Int) - 48)

/-- `hoxReferee::stringToMove`: the format is "xyXY". -/
def Referee.stringToMove (b : Board) (sMove : Bytes) : Move :=
  match sMove with
  | [x, y, X, Y] =>
    match b.getPieceAtPosition ⟨coordinate x, coordinate y⟩ with
    | some info => { piece := info, newPosition := ⟨coordinate X, coordinate Y⟩ }
    | none => {}
  | _ => {}

/-- A move-string given to the referee: `stringToMove`, `validateMove`. -/
def Referee.validateString (b : Board) (sMove : Bytes) : Except Fault Board.Verdict :=
  b.validateMove (stringToMove b sMove) .unknown

end HoxServer
