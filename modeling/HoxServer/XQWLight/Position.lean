/-
HoxServer.XQWLight.Position — the position of the engine
(`PositionStruct`): the generation of moves, the test of a move, the test
for check, and a move made and undone.

A position carries, beside the board, the worth of the men of each side
and a Zobrist key, which are kept up to date piece by piece; and the list
of the moves made, of which the newest is the first here and whose end is
the entry of `SetIrrev`. What the source does outside of its arrays is a
fault: taking a piece off an empty square, undoing a move that was not
made, the 257th entry of the list of moves, the 129th of an array of
generated moves, and a search below `LIMIT_DEPTH`.
-/
import HoxServer.XQWLight.Tables
import HoxServer.Lib.Ray
import Mathlib.Logic.Function.Basic

namespace HoxServer.XQWLight

/-- What is outside of the arrays of the engine. -/
inductive Fault where
  | noPiece | noMove | historyFull | movesFull | tooDeep
  deriving DecidableEq, Repr

/-! ## Zobrist keys -/

/-- `RC4Struct`. -/
structure Rc4Struct where
  s : List Nat
  x : Nat := 0
  y : Nat := 0

/-- The exchange of two bytes of the state. -/
def Rc4Struct.swap (s : List Nat) (i j : Nat) : List Nat :=
  (s.set i (s.getD j 0)).set j (s.getD i 0)

/-- `RC4Struct::InitZero`. -/
def Rc4Struct.initZero : Rc4Struct :=
  let (s, _) := (List.range 256).foldl
    (fun (s, j) i =>
      let j := (j + s.getD i 0) % 256
      (Rc4Struct.swap s i j, j)) (List.range 256, 0)
  { s }

/-- `RC4Struct::NextByte`. -/
def Rc4Struct.nextByte (rc4 : Rc4Struct) : Nat × Rc4Struct :=
  let x := (rc4.x + 1) % 256
  let y := (rc4.y + rc4.s.getD x 0) % 256
  let s := Rc4Struct.swap rc4.s x y
  (s.getD ((s.getD x 0 + s.getD y 0) % 256) 0, { s, x, y })

/-- `RC4Struct::NextLong`. -/
def Rc4Struct.nextLong (rc4 : Rc4Struct) : UInt32 × Rc4Struct :=
  let (uc0, rc4) := rc4.nextByte
  let (uc1, rc4) := rc4.nextByte
  let (uc2, rc4) := rc4.nextByte
  let (uc3, rc4) := rc4.nextByte
  (UInt32.ofNat (uc0 + uc1 * 2 ^ 8 + uc2 * 2 ^ 16 + uc3 * 2 ^ 24), rc4)

/-- `ZobristStruct`. -/
@[ext]
structure ZobristStruct where
  dwKey : UInt32 := 0
  dwLock0 : UInt32 := 0
  dwLock1 : UInt32 := 0
  deriving DecidableEq, Repr, Inhabited

/-- `ZobristStruct::Xor`. -/
def ZobristStruct.xor (a b : ZobristStruct) : ZobristStruct :=
  ⟨a.dwKey ^^^ b.dwKey, a.dwLock0 ^^^ b.dwLock0, a.dwLock1 ^^^ b.dwLock1⟩

/-- `ZobristStruct::InitRC4`. -/
def ZobristStruct.initRC4 (rc4 : Rc4Struct) : ZobristStruct × Rc4Struct :=
  let (dwKey, rc4) := rc4.nextLong
  let (dwLock0, rc4) := rc4.nextLong
  let (dwLock1, rc4) := rc4.nextLong
  (⟨dwKey, dwLock0, dwLock1⟩, rc4)

/-- `Zobrist`: a key for the side to move, and one for each piece on each
square. -/
structure Zobrist where
  player : ZobristStruct
  table : Nat → Int → ZobristStruct

/-- The keys of the stream, one after another. -/
def zobristKeys : Nat → Rc4Struct → List ZobristStruct
  | 0, _ => []
  | n + 1, rc4 =>
    let (zobr, rc4) := ZobristStruct.initRC4 rc4
    zobr :: zobristKeys n rc4

/-- `InitZobrist`: the key of the player, then 256 keys for each piece. -/
def initZobrist : Zobrist :=
  let keys := zobristKeys (1 + 14 * 256) Rc4Struct.initZero
  { player := keys.headD {}
    table := fun i sq => keys.getD (1 + 256 * i + sq.toNat) {} }

/-! ## Positions -/

/-- `MoveStruct`. -/
structure MoveStruct where
  wmv : Int
  ucpcCaptured : Nat
  ucbCheck : Bool
  dwKey : UInt32
  deriving DecidableEq, Repr

/-- `PositionStruct`. `nMoveNum` is the length of `mvsList`. -/
@[ext]
structure PositionStruct where
  sdPlayer : Side := .red
  ucpcSquares : Int → Nat := fun _ => 0
  vlWhite : Int := 0
  vlBlack : Int := 0
  nDistance : Nat := 0
  mvsList : List MoveStruct := []
  zobr : ZobristStruct := {}

namespace PositionStruct

/-- The 256 squares, in the order of the loops over them. -/
def squares : List Int := (List.range 256).map Int.ofNat

/-- A square with a piece on it. -/
def occupied (p : PositionStruct) (sq : Int) : Bool := p.ucpcSquares sq ≠ 0

/-- `pc & pcSelfSide`. -/
def isSelf (p : PositionStruct) (pc : Nat) : Bool := pc &&& sideTag p.sdPlayer ≠ 0

/-- `pc & pcOppSide`. -/
def isOpp (p : PositionStruct) (pc : Nat) : Bool := pc &&& oppSideTag p.sdPlayer ≠ 0

/-- The squares that a loop `while (IN_BOARD(sqDst))` visits which starts
next to `sqSrc` and adds `nDelta`; on the board there are at most nine. -/
def line (sqSrc nDelta : Int) : List Int := Lib.walk (· + nDelta) inBoard 9 sqSrc

/-! ### Generating moves -/

/-- `bCapture ? (pcDst & pcOppSide) != 0 : (pcDst & pcSelfSide) == 0`. -/
def wanted (p : PositionStruct) (bCapture : Bool) (sqDst : Int) : Bool :=
  if bCapture then p.isOpp (p.ucpcSquares sqDst) else !p.isSelf (p.ucpcSquares sqDst)

/-- The cases of the king and of the advisor: one step inside a palace. -/
def fortSquares (p : PositionStruct) (bCapture : Bool) (deltas : List Int) (sqSrc : Int) :
    List Int :=
  (deltas.map (sqSrc + ·)).filter fun sqDst => inFort sqDst && p.wanted bCapture sqDst

/-- The case of the bishop. -/
def bishopSquares (p : PositionStruct) (bCapture : Bool) (sqSrc : Int) : List Int :=
  ((ccAdvisorDelta.filter fun nDelta =>
      inBoard (sqSrc + nDelta) && homeHalf (sqSrc + nDelta) p.sdPlayer &&
        !p.occupied (sqSrc + nDelta)).map fun nDelta => sqSrc + nDelta + nDelta).filter
    (p.wanted bCapture)

/-- The case of the knight: past a free leg. -/
def knightSquares (p : PositionStruct) (bCapture : Bool) (sqSrc : Int) : List Int :=
  (ccKingDelta.zip ccKnightDelta).flatMap fun (nPin, nDeltas) =>
    if p.occupied (sqSrc + nPin) then []
    else (nDeltas.map (sqSrc + ·)).filter fun sqDst => inBoard sqDst && p.wanted bCapture sqDst

/-- The free squares at the start of a line. -/
def freeSquares (p : PositionStruct) (bCapture : Bool) (l : List Int) : List Int :=
  if bCapture then [] else l.takeWhile fun sqDst => !p.occupied sqDst

/-- The squares on the way of a rook: the free ones, and an enemy behind them. -/
def rookLine (p : PositionStruct) (bCapture : Bool) (l : List Int) : List Int :=
  p.freeSquares bCapture l ++
    (l.find? p.occupied).toList.filter fun sqDst => p.isOpp (p.ucpcSquares sqDst)

/-- The squares on the way of a cannon: the free ones, and an enemy behind
one piece. -/
def cannonLine (p : PositionStruct) (bCapture : Bool) (l : List Int) : List Int :=
  p.freeSquares bCapture l ++
    (Lib.second? p.occupied l).toList.filter fun sqDst => p.isOpp (p.ucpcSquares sqDst)

/-- The case of the pawn: forward, and sideways beyond the river. -/
def pawnSquares (p : PositionStruct) (bCapture : Bool) (sqSrc : Int) : List Int :=
  (squareForward sqSrc p.sdPlayer ::
      if awayHalf sqSrc p.sdPlayer then [sqSrc - 1, sqSrc + 1] else []).filter
    fun sqDst => inBoard sqDst && p.wanted bCapture sqDst

/-- The `switch` over the type of the piece on `sqSrc`. -/
def destinations (p : PositionStruct) (bCapture : Bool) (sqSrc : Int) : List Int :=
  match p.ucpcSquares sqSrc - sideTag p.sdPlayer with
  | 0 => p.fortSquares bCapture ccKingDelta sqSrc
  | 1 => p.fortSquares bCapture ccAdvisorDelta sqSrc
  | 2 => p.bishopSquares bCapture sqSrc
  | 3 => p.knightSquares bCapture sqSrc
  | 4 => ccKingDelta.flatMap fun nDelta => p.rookLine bCapture (line sqSrc nDelta)
  | 5 => ccKingDelta.flatMap fun nDelta => p.cannonLine bCapture (line sqSrc nDelta)
  | 6 => p.pawnSquares bCapture sqSrc
  | _ => []

/-- The moves that `GenerateMoves` writes, one after another. -/
def generated (p : PositionStruct) (bCapture : Bool) : List Int :=
  squares.flatMap fun sqSrc =>
    if p.isSelf (p.ucpcSquares sqSrc) then (p.destinations bCapture sqSrc).map (move sqSrc) else []

/-- `GenerateMoves`, into an array of `MAX_GEN_MOVES` entries. -/
def generateMoves (p : PositionStruct) (bCapture : Bool) : Except Fault (List Int) :=
  if (p.generated bCapture).length ≤ maxGenMoves then .ok (p.generated bCapture)
  else .error .movesFull

/-! ### Testing a move -/

/-- The loop `while (sqPin != sqDst && ucpcSquares[sqPin] == 0)`; no rank
and no file has more than 16 squares. -/
def scan (p : PositionStruct) (sqDst nDelta : Int) : Nat → Int → Int
  | 0, sqPin => sqPin
  | n + 1, sqPin =>
    if sqPin ≠ sqDst ∧ p.ucpcSquares sqPin = 0 then p.scan sqDst nDelta n (sqPin + nDelta)
    else sqPin

/-- The step from `sqSrc` toward `sqDst` on their rank or file. -/
def lineDelta? (sqSrc sqDst : Int) : Option Int :=
  if sameRank sqSrc sqDst then some (if sqDst < sqSrc then -1 else 1)
  else if sameFile sqSrc sqDst then some (if sqDst < sqSrc then -16 else 16)
  else none

/-- The cases of the rook and of the cannon in `LegalMove`. -/
def legalLine (p : PositionStruct) (isRook : Bool) (sqSrc sqDst : Int) : Bool :=
  match lineDelta? sqSrc sqDst with
  | none => false
  | some nDelta =>
    let sqPin := p.scan sqDst nDelta 16 (sqSrc + nDelta)
    if sqPin = sqDst then !p.occupied sqDst || isRook
    else if p.occupied sqDst && !isRook then
      decide (p.scan sqDst nDelta 16 (sqPin + nDelta) = sqDst)
    else false

/-- `LegalMove`: the move is one of a piece of the side to move. -/
def legalMove (p : PositionStruct) (mv : Int) : Bool :=
  let sqSrc := src mv
  let sqDst := dst mv
  if !p.isSelf (p.ucpcSquares sqSrc) then false
  else if p.isSelf (p.ucpcSquares sqDst) then false
  else match p.ucpcSquares sqSrc - sideTag p.sdPlayer with
    | 0 => inFort sqDst && kingSpan sqSrc sqDst
    | 1 => inFort sqDst && advisorSpan sqSrc sqDst
    | 2 => sameHalf sqSrc sqDst && bishopSpan sqSrc sqDst && !p.occupied (bishopPin sqSrc sqDst)
    | 3 => knightPin sqSrc sqDst ≠ sqSrc && !p.occupied (knightPin sqSrc sqDst)
    | 4 => p.legalLine true sqSrc sqDst
    | 5 => p.legalLine false sqSrc sqDst
    | 6 => (awayHalf sqDst p.sdPlayer && decide (sqDst = sqSrc - 1 ∨ sqDst = sqSrc + 1)) ||
        decide (sqDst = squareForward sqSrc p.sdPlayer)
    | _ => false

/-! ### Testing for check -/

/-- An enemy piece of a type on a square. -/
def hasOpp (p : PositionStruct) (type : Nat) (sq : Int) : Bool :=
  p.ucpcSquares sq = oppSideTag p.sdPlayer + type

/-- What the loops along one line from the king find: a rook or a king
first, or a cannon behind one piece. -/
def checkedOnLine (p : PositionStruct) (l : List Int) : Bool :=
  (l.find? p.occupied).any (fun sqDst => p.hasOpp pieceRook sqDst || p.hasOpp pieceKing sqDst) ||
    (Lib.second? p.occupied l).any (p.hasOpp pieceCannon)

/-- `Checked`: the king of the side to move is attacked, or the kings face
each other. -/
def checked (p : PositionStruct) : Bool :=
  match squares.find? fun sq => p.ucpcSquares sq = sideTag p.sdPlayer + pieceKing with
  | none => false
  | some sqSrc =>
    p.hasOpp piecePawn (squareForward sqSrc p.sdPlayer) ||
    [-1, 1].any (fun nDelta => p.hasOpp piecePawn (sqSrc + nDelta)) ||
    (ccAdvisorDelta.zip ccKnightCheckDelta).any (fun (nPin, nDeltas) =>
      !p.occupied (sqSrc + nPin) && nDeltas.any fun nDelta => p.hasOpp pieceKnight (sqSrc + nDelta)) ||
    ccKingDelta.any fun nDelta => p.checkedOnLine (line sqSrc nDelta)

/-! ### Making and undoing moves -/

/-- `ChangeSide`. -/
def changeSide (Z : Zobrist) (p : PositionStruct) : PositionStruct :=
  { p with sdPlayer := p.sdPlayer.opposite, zobr := p.zobr.xor Z.player }

/-- The key of a piece on a square. -/
def pieceKey (Z : Zobrist) (pc : Nat) (sq : Int) : ZobristStruct :=
  if pc < 16 then Z.table (pc - 8) sq else Z.table (pc - 9) sq

/-- The worth of a piece of each side; the table is for red, black is
turned around. -/
def whiteValue (pc : Nat) (sq : Int) : Int :=
  if pc < 16 then ((entry (cucvlPiecePos.getD (pc - 8) []) sq : Nat) : Int) else 0

def blackValue (pc : Nat) (sq : Int) : Int :=
  if pc < 16 then 0 else ((entry (cucvlPiecePos.getD (pc - 16) []) (squareFlip sq) : Nat) : Int)

/-- `AddPiece`. -/
def addPiece (Z : Zobrist) (p : PositionStruct) (sq : Int) (pc : Nat) : PositionStruct :=
  { p with
    ucpcSquares := Function.update p.ucpcSquares sq pc
    vlWhite := p.vlWhite + whiteValue pc sq
    vlBlack := p.vlBlack + blackValue pc sq
    zobr := p.zobr.xor (pieceKey Z pc sq) }

/-- `DelPiece`. -/
def delPiece (Z : Zobrist) (p : PositionStruct) (sq : Int) (pc : Nat) : PositionStruct :=
  { p with
    ucpcSquares := Function.update p.ucpcSquares sq 0
    vlWhite := p.vlWhite - whiteValue pc sq
    vlBlack := p.vlBlack - blackValue pc sq
    zobr := p.zobr.xor (pieceKey Z pc sq) }

/-- `MovePiece`: the position and the piece that is captured. -/
def movePiece (Z : Zobrist) (p : PositionStruct) (mv : Int) : Except Fault (PositionStruct × Nat) :=
  let pcCaptured := p.ucpcSquares (dst mv)
  let p := if pcCaptured ≠ 0 then p.delPiece Z (dst mv) pcCaptured else p
  let pc := p.ucpcSquares (src mv)
  -- the tables have no entries for the piece 0
  if pc = 0 then .error .noPiece
  else .ok ((p.delPiece Z (src mv) pc).addPiece Z (dst mv) pc, pcCaptured)

/-- `UndoMovePiece`. -/
def undoMovePiece (Z : Zobrist) (p : PositionStruct) (mv : Int) (pcCaptured : Nat) :
    Except Fault PositionStruct :=
  let pc := p.ucpcSquares (dst mv)
  if pc = 0 then .error .noPiece
  else
    let p := (p.delPiece Z (dst mv) pc).addPiece Z (src mv) pc
    .ok (if pcCaptured ≠ 0 then p.addPiece Z (dst mv) pcCaptured else p)

/-- A new entry of `mvsList`. -/
def pushMove (p : PositionStruct) (m : MoveStruct) : Except Fault PositionStruct :=
  if p.mvsList.length < maxMoves then .ok { p with mvsList := m :: p.mvsList }
  else .error .historyFull

/-- `MakeMove`: `false` for a move that leaves the own king attacked, which
is undone. -/
def makeMove (Z : Zobrist) (p : PositionStruct) (mv : Int) : Except Fault (Bool × PositionStruct) := do
  let dwKey := p.zobr.dwKey
  let (p, pcCaptured) ← p.movePiece Z mv
  if p.checked then
    let p ← p.undoMovePiece Z mv pcCaptured
    .ok (false, p)
  else
    let p := p.changeSide Z
    let p ← p.pushMove ⟨mv, pcCaptured, p.checked, dwKey⟩
    .ok (true, { p with nDistance := p.nDistance + 1 })

/-- `UndoMakeMove`. -/
def undoMakeMove (Z : Zobrist) (p : PositionStruct) : Except Fault PositionStruct :=
  match p.mvsList with
  | [] => .error .noMove
  | m :: mvsList =>
    let p := { p with nDistance := p.nDistance - 1, mvsList }
    (p.changeSide Z).undoMovePiece Z m.wmv m.ucpcCaptured

/-- `NullMove`. -/
def nullMove (Z : Zobrist) (p : PositionStruct) : Except Fault PositionStruct := do
  let dwKey := p.zobr.dwKey
  let p ← (p.changeSide Z).pushMove ⟨0, 0, false, dwKey⟩
  .ok { p with nDistance := p.nDistance + 1 }

/-- `UndoNullMove`. -/
def undoNullMove (Z : Zobrist) (p : PositionStruct) : PositionStruct :=
  ({ p with nDistance := p.nDistance - 1, mvsList := p.mvsList.tail }).changeSide Z

/-- The loop of `IsMate`: the first move that leaves the own king unattacked
ends it. -/
def isMateLoop (Z : Zobrist) : List Int → PositionStruct → Except Fault (Bool × PositionStruct)
  | [], p => .ok (true, p)
  | mv :: mvs, p => do
    let (q, pcCaptured) ← p.movePiece Z mv
    let p ← q.undoMovePiece Z mv pcCaptured
    if !q.checked then .ok (false, p) else isMateLoop Z mvs p

/-- `IsMate`. -/
def isMate (Z : Zobrist) (p : PositionStruct) : Except Fault (Bool × PositionStruct) := do
  let mvs ← p.generateMoves false
  isMateLoop Z mvs p

/-! ### Setting up a board -/

/-- `SetIrrev`. -/
def setIrrev (p : PositionStruct) : PositionStruct :=
  { p with mvsList := [⟨0, 0, p.checked, p.zobr.dwKey⟩] }

/-- The pieces of a list of squares, put on the board one after another. -/
def addPieces (Z : Zobrist) (p : PositionStruct) (l : List (Int × Nat)) : PositionStruct :=
  l.foldl (fun p (sq, pc) => if pc ≠ 0 then p.addPiece Z sq pc else p) p

/-- The squares of the rows and columns of the board that is passed to
`Startup`. -/
def boardSquares (board : Nat → Nat → Nat) : List (Int × Nat) :=
  (List.range 10).flatMap fun i => (List.range 9).map fun j =>
    (Int.ofNat ((3 + i) * 16 + 3 + j), board i j)

/-- `Startup`. -/
def startup (Z : Zobrist) : Option (Nat → Nat → Nat) → PositionStruct
  | some board => (addPieces Z {} (boardSquares board)).setIrrev
  | none => (addPieces Z {} (squares.map fun sq => (sq, entry cucpcStartup sq))).setIrrev

/-! ### Values -/

/-- `Evaluate`. -/
def evaluate (p : PositionStruct) : Int :=
  (if p.sdPlayer = .red then p.vlWhite - p.vlBlack else p.vlBlack - p.vlWhite) + advancedValue

/-- `InCheck`: what the last move noted. -/
def inCheck (p : PositionStruct) : Bool := p.mvsList.head?.any MoveStruct.ucbCheck

/-- `DrawValue`. -/
def drawValueAt (p : PositionStruct) : Int :=
  if p.nDistance % 2 = 0 then -drawValue else drawValue

/-- The loop of `RepStatus` over the moves made, the newest first. -/
def repLoop (dwKey : UInt32) (bSelfSide bPerpCheck bOppPerpCheck : Bool) (nRecur : Nat) :
    List MoveStruct → Nat
  | [] => 0
  | m :: l =>
    if m.wmv = 0 ∨ m.ucpcCaptured ≠ 0 then 0
    else if bSelfSide then
      let bPerpCheck := bPerpCheck && m.ucbCheck
      if m.dwKey = dwKey then
        if nRecur - 1 = 0 then
          1 + (if bPerpCheck then 2 else 0) + (if bOppPerpCheck then 4 else 0)
        else repLoop dwKey (!bSelfSide) bPerpCheck bOppPerpCheck (nRecur - 1) l
      else repLoop dwKey (!bSelfSide) bPerpCheck bOppPerpCheck nRecur l
    else repLoop dwKey (!bSelfSide) bPerpCheck (bOppPerpCheck && m.ucbCheck) nRecur l

/-- `RepStatus`. -/
def repStatus (p : PositionStruct) (nRecur : Nat) : Nat :=
  repLoop p.zobr.dwKey false true true nRecur p.mvsList

/-- `RepValue`. -/
def repValue (p : PositionStruct) (nRepStatus : Nat) : Int :=
  let vlReturn := (if nRepStatus &&& 2 = 0 then 0 else (p.nDistance : Int) - banValue) +
    (if nRepStatus &&& 4 = 0 then 0 else banValue - p.nDistance)
  if vlReturn = 0 then p.drawValueAt else vlReturn

end PositionStruct

end HoxServer.XQWLight
