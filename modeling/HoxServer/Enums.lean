/-
HoxServer.Enums — the constants and enumerations of `hoxEnums.h` that
the modelled code reads.

An enumeration of the source is an inductive type here, with the
source's words for its values (`hoxCOLOR_RED` is `Color.red`). The
numeric codes matter only on the wire, so they are not part of these
types.

A `std::string` is a list of bytes (`Bytes`): the strings this server
handles come unvalidated from the network, so any byte value occurs.
`bytes` turns a literal of the source into its bytes.
-/
import Mathlib.Tactic

namespace HoxServer

/-! ## Byte strings -/

/-- A `std::string`: any bytes, any length. -/
abbrev Bytes := List UInt8

/-- The bytes of an ASCII literal of the source. -/
def bytes (s : String) : Bytes := s.toList.map (fun c => UInt8.ofNat c.toNat)

/-! ## Constants -/

/-- `hoxPERPETUAL_CHECKS_MAX`: the number of consecutive checks allowed. -/
def perpetualChecksMax : Int := 6

/-- `hoxEFFECTIVE_MOVES_MAX`: the number of non-check moves allowed. -/
def effectiveMovesMax : Int := 200

/-! ## Enumerations -/

/-- `hoxResult`. -/
inductive Result where
  | unknown | ok | err | timeout | eintr | handled | closed
  | notValid | notFound | notAllowed | notSupported
  deriving DecidableEq, Repr

/-- `hoxPlayerType`. -/
inductive PlayerType where
  | normal | guest
  deriving DecidableEq, Repr

/-- `hoxGameGroup`. -/
inductive GameGroup where
  | pub | priv
  deriving DecidableEq, Repr

/-- `hoxGameType`. -/
inductive GameType where
  | unknown | rated | nonrated | solo
  deriving DecidableEq, Repr

/-- `hoxColor`: the colour of a piece, or the role of a player. `none`
is an observer, `unknown` the absence of a role. -/
inductive Color where
  | unknown | red | black | none
  deriving DecidableEq, Repr

/-- `hoxGameStatus`. -/
inductive GameStatus where
  | unknown | «open» | ready | inProgress | redWin | blackWin | drawn
  deriving DecidableEq, Repr

/-- The other side of a game (`m_nextColor` is flipped by exactly this
expression in `Board::ValidateMove`). -/
def Color.opposite (c : Color) : Color := if c = .red then .black else .red

@[simp] theorem Color.opposite_red : Color.red.opposite = .black := rfl
@[simp] theorem Color.opposite_black : Color.black.opposite = .red := rfl

/-- The two colours that play. -/
def Color.IsSide (c : Color) : Prop := c = .red ∨ c = .black

instance (c : Color) : Decidable c.IsSide := inferInstanceAs (Decidable (_ ∨ _))

theorem Color.IsSide.opposite {c : Color} (h : c.IsSide) : c.opposite.IsSide := by
  rcases h with rfl | rfl
  · exact Or.inr rfl
  · exact Or.inl rfl

theorem Color.IsSide.opposite_ne {c : Color} (h : c.IsSide) : c.opposite ≠ c := by
  rcases h with rfl | rfl <;> decide

theorem Color.IsSide.opposite_opposite {c : Color} (h : c.IsSide) :
    c.opposite.opposite = c := by
  rcases h with rfl | rfl <;> rfl

/-- A side other than `c` is the opposite of `c`. -/
theorem Color.IsSide.eq_opposite {c d : Color} (hc : c.IsSide) (hd : d.IsSide) (h : d ≠ c) :
    d = c.opposite := by
  rcases hc with rfl | rfl <;> rcases hd with rfl | rfl <;> simp_all

end HoxServer
