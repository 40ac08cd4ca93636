/-
HoxServer.Move — positions, pieces and moves (`hoxMove.h`, `hoxMove.cpp`).

The two coordinates of a `hoxPosition` are of type `char`. They are
`Int` here, and `toChar` is the narrowing that happens where the code
stores an `int` that may not fit, which is in `stringToMove` only: every
other position is built from the coordinates of a piece on the board and
of a position that already went through `toChar`.
-/
import HoxServer.Enums

namespace HoxServer

/-! ## Positions -/

/-- The narrowing conversion from `int` to a signed `char`. -/
def toChar (n : Int) : Int := (n + 128) % 256 - 128

/-- `hoxPosition`. -/
@[ext] structure Position where
  x : Int
  y : Int
  deriving DecidableEq, Repr

/-- `hoxPosition::isValid`: a position of the 9x10 board. -/
def Position.isValid (p : Position) : Bool :=
  decide (0 ≤ p.x ∧ p.x ≤ 8 ∧ 0 ≤ p.y ∧ p.y ≤ 9)

/-- `hoxPosition::isInsidePalace`. Every colour but BLACK is read as RED. -/
def Position.isInsidePalace (p : Position) (color : Color) : Bool :=
  if color = .black then decide (3 ≤ p.x ∧ p.x ≤ 5 ∧ 0 ≤ p.y ∧ p.y ≤ 2)
  else decide (3 ≤ p.x ∧ p.x ≤ 5 ∧ 7 ≤ p.y ∧ p.y ≤ 9)

/-- `hoxPosition::isInsideCountry`: only the row is looked at. -/
def Position.isInsideCountry (p : Position) (color : Color) : Bool :=
  if color = .black then decide (0 ≤ p.y ∧ p.y ≤ 4) else decide (5 ≤ p.y ∧ p.y ≤ 9)

theorem Position.isValid_iff {p : Position} :
    p.isValid = true ↔ 0 ≤ p.x ∧ p.x ≤ 8 ∧ 0 ≤ p.y ∧ p.y ≤ 9 := by
  simp [isValid]

/-- A palace lies on the board. -/
theorem Position.isValid_of_isInsidePalace {p : Position} {c : Color}
    (h : p.isInsidePalace c = true) : p.isValid = true := by
  rw [isValid_iff]
  unfold isInsidePalace at h
  split at h <;> simp only [decide_eq_true_eq] at h <;> omega

/-! ## Pieces -/

/-- `hoxPieceType`. -/
inductive PieceType where
  | invalid | king | advisor | elephant | chariot | horse | cannon | pawn
  deriving DecidableEq, Repr

/-- `hoxPieceInfo`. The default is the constructor without arguments. -/
structure PieceInfo where
  type : PieceType := .invalid
  color : Color := .none
  position : Position := ⟨-1, -1⟩
  deriving DecidableEq, Repr

/-- `hoxPieceInfo::isValid`. -/
def PieceInfo.isValid (i : PieceInfo) : Bool := decide (i.type ≠ .invalid)

/-! ## Moves -/

/-- `hoxMove`. `capturedPiece` is filled in by the referee. -/
structure Move where
  piece : PieceInfo := {}
  newPosition : Position := ⟨-1, -1⟩
  capturedPiece : PieceInfo := {}
  deriving DecidableEq, Repr

/-- `hoxMove::isValid`. -/
def Move.isValid (m : Move) : Bool := m.piece.isValid

end HoxServer
