/-
HoxServer.Referee.Board — the data structures of `BoardInfoAPI::Board`
(`hoxReferee.cpp`) and the helpers that update them.

The source keeps `Piece` objects on the heap and points at them from
three places: the list of active pieces, the list of dead pieces and the
9x10 array of cells. A pointer is a `PieceRef` here and `info` is the
heap, so the three structures stay as redundant as they are in the
source, and a helper that updates only some of them is a helper that
breaks the redundancy.

`hoxCHECK_RET(cond, ..)` logs and returns when `cond` is false. Each one
is the `else` branch that returns the board unchanged.
-/
import HoxServer.Move

namespace HoxServer

/-! ## Data -/

/-- A `Piece*`. The objects are numbered in the order of their creation. -/
abbrev PieceRef := Nat

/-- `Cell`: its position, (-1,-1) while it is empty, and its piece. -/
structure Cell where
  position : Position := ⟨-1, -1⟩
  piece : Option PieceRef := none
  deriving DecidableEq

/-- `Board`. `info` holds the `m_info` of every `Piece` object. The array
of cells is read and written at valid positions only. -/
structure Board where
  info : PieceRef → PieceInfo
  pieces : List PieceRef
  deadPieces : List PieceRef
  cells : Position → Cell
  nextColor : Color

namespace Board

/-- `Piece::GetPosition`. -/
def positionOf (b : Board) (r : PieceRef) : Position := (b.info r).position

/-- `Piece::HasColor`. -/
def hasColor (b : Board) (r : PieceRef) (c : Color) : Bool := decide ((b.info r).color = c)

/-- `Piece::SetPosition`. -/
def setPosition (b : Board) (r : PieceRef) (pos : Position) : Board :=
  { b with info := Function.update b.info r { b.info r with position := pos } }

/-! ## Cells -/

/-- `Board::GetPieceAt`. -/
def getPieceAt (b : Board) (pos : Position) : Option PieceRef :=
  if pos.isValid then (b.cells pos).piece else none

/-- `Board::HasPieceAt`. -/
def hasPieceAt (b : Board) (pos : Position) : Bool := (b.getPieceAt pos).isSome

/-- `Board::GetPieceAtPosition`. -/
def getPieceAtPosition (b : Board) (pos : Position) : Option PieceInfo :=
  (b.getPieceAt pos).map b.info

/-- `Board::_SetPiece`. -/
def setPiece (b : Board) (r : PieceRef) : Board :=
  let pos := b.positionOf r
  if pos.isValid then
    if (b.cells pos).piece = none then
      { b with cells := Function.update b.cells pos { position := pos, piece := some r } }
    else b
  else b

/-- `Board::_UnsetPiece`. -/
def unsetPiece (b : Board) (r : PieceRef) : Board :=
  let curPos := b.positionOf r
  if curPos.isValid then
    if (b.cells curPos).piece = some r then
      { b with cells := Function.update b.cells curPos {} }
    else b
  else b

/-! ## The two lists -/

/-- `std::list::remove`: every element equal to `r` goes. -/
def listRemove (l : List PieceRef) (r : PieceRef) : List PieceRef := l.filter (· ≠ r)

/-- `Board::_CapturePiece`. -/
def capturePiece (b : Board) (r : PieceRef) : Board :=
  let b := b.unsetPiece r
  if r ∈ b.pieces then
    if r ∉ b.deadPieces then
      { b with pieces := listRemove b.pieces r, deadPieces := b.deadPieces ++ [r] }
    else b
  else b

/-- `Board::_AddPiece`. -/
def addPiece (b : Board) (r : PieceRef) : Board :=
  { b with pieces := b.pieces ++ [r] }.setPiece r

/-- `Board::_PutbackPiece`. -/
def putbackPiece (b : Board) (r : PieceRef) : Board :=
  if r ∈ b.deadPieces then
    { b with deadPieces := listRemove b.deadPieces r }.addPiece r
  else b

/-! ## Moving -/

/-- `Board::_MovePieceTo`. The pointer may be NULL. -/
def movePieceTo (b : Board) (piece : Option PieceRef) (newPos : Position) : Board :=
  match piece with
  | none => b
  | some r =>
    if (b.positionOf r).isValid then
      if newPos.isValid then ((b.unsetPiece r).setPosition r newPos).setPiece r
      else b
    else b

/-- `Board::_RecordMove`: the captured piece, if any, and the board. -/
def recordMove (b : Board) (move : Move) : Board × Option PieceRef :=
  let captured := b.getPieceAt move.newPosition
  let b := match captured with
    | some c => b.capturePiece c
    | none => b
  (b.movePieceTo (b.getPieceAt move.piece.position) move.newPosition, captured)

/-- `Board::_UndoMove`. -/
def undoMove (b : Board) (move : Move) (captured : Option PieceRef) : Board :=
  match b.getPieceAt move.newPosition with
  | none => b
  | some r =>
    if b.positionOf r = move.newPosition then
      let b := b.movePieceTo (some r) move.piece.position
      match captured with
      | some c => (b.setPosition c move.newPosition).putbackPiece c
      | none => b
    else b

/-! ## A new game -/

/-- The pieces of one side as `Board::_CreateNewGame` adds them: the back
row, the cannons and the five pawns. -/
def newGameSide (color : Color) (back cannons pawns : Int) : List PieceInfo :=
  [⟨.king, color, ⟨4, back⟩⟩,
   ⟨.advisor, color, ⟨3, back⟩⟩, ⟨.advisor, color, ⟨5, back⟩⟩,
   ⟨.elephant, color, ⟨2, back⟩⟩, ⟨.elephant, color, ⟨6, back⟩⟩,
   ⟨.horse, color, ⟨1, back⟩⟩, ⟨.horse, color, ⟨7, back⟩⟩,
   ⟨.chariot, color, ⟨0, back⟩⟩, ⟨.chariot, color, ⟨8, back⟩⟩,
   ⟨.cannon, color, ⟨1, cannons⟩⟩, ⟨.cannon, color, ⟨7, cannons⟩⟩]
  ++ [0, 2, 4, 6, 8].map (fun i => ⟨.pawn, color, ⟨i, pawns⟩⟩)

/-- The 32 pieces in the order of their creation. -/
def newGamePieces : List PieceInfo := newGameSide .black 0 2 3 ++ newGameSide .red 9 7 6

/-- `Board::_AddNewPiece( new XPiece(..) )`: `r` is the new object. -/
def addNewPiece (b : Board) (r : PieceRef) (i : PieceInfo) : Board :=
  { b with info := Function.update b.info r i }.addPiece r

/-- `Board::_CreateNewGame`. -/
def createNewGame (b : Board) : Board :=
  newGamePieces.zipIdx.foldl (fun b p => b.addNewPiece p.2 p.1) b

/-- The members of a `Board` before its constructor's body has run. -/
def empty (nextColor : Color) : Board :=
  { info := fun _ => {}, pieces := [], deadPieces := [], cells := fun _ => {}, nextColor }

/-- `Board::Board`. -/
def new (nextColor : Color) : Board := (empty nextColor).createNewGame

/-! ## Update lemmas -/

@[simp] theorem setPosition_pieces (b : Board) (r pos) : (b.setPosition r pos).pieces = b.pieces := rfl
@[simp] theorem setPosition_deadPieces (b : Board) (r pos) :
    (b.setPosition r pos).deadPieces = b.deadPieces := rfl
@[simp] theorem setPosition_cells (b : Board) (r pos) : (b.setPosition r pos).cells = b.cells := rfl
@[simp] theorem setPosition_nextColor (b : Board) (r pos) :
    (b.setPosition r pos).nextColor = b.nextColor := rfl

theorem getPieceAt_of_isValid {b : Board} {p : Position} (h : p.isValid = true) :
    b.getPieceAt p = (b.cells p).piece := by
  simp [getPieceAt, h]

theorem getPieceAt_of_not_isValid {b : Board} {p : Position} (h : p.isValid = false) :
    b.getPieceAt p = none := by
  simp [getPieceAt, h]

theorem isValid_of_getPieceAt {b : Board} {p : Position} {r : PieceRef}
    (h : b.getPieceAt p = some r) : p.isValid = true := by
  by_contra hv
  rw [getPieceAt_of_not_isValid (by simpa using hv)] at h
  cases h

end Board

end HoxServer
