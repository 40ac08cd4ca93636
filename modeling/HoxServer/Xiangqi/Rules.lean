/-
HoxServer.Xiangqi.Rules — the game the referee arbitrates, stated on
placements of men and independently of the referee's code.

A placement says which man stands where. A piece moves by its reach
(`Reaches`): the king and the advisor one step inside the palace, the
elephant two diagonal steps over a free eye on its own side of the
river, the horse past a free leg, the pawn forward and, beyond the
river, sideways. The chariot and the cannon are given by walking the
four rays: the chariot goes up to the first blocker, the cannon moves
short of the first and captures on the second.

`PseudoLegal` adds that no own man is captured, `InCheck` that an enemy
man could capture the king, `KingsFacing` the rule of the flying
general. `KingsAloneOnFile` is the weaker condition that the referee
tests in its place, and `Accepted` is a legal move with that condition.
-/
import HoxServer.Lib.Ray
import HoxServer.Move
import Mathlib.Logic.Function.Basic

namespace HoxServer.Xiangqi

/-! ## Placements -/

/-- What stands on a point: a type and a side. -/
structure Man where
  type : PieceType
  color : Color
  deriving DecidableEq, Repr

/-- Which man stands where. Nothing stands off the board. -/
abbrev Placement := Position → Option Man

def occupied (P : Placement) (p : Position) : Bool := (P p).isSome

/-- The placement after the man on `p` has gone to `q`. -/
def Placement.move (P : Placement) (p q : Position) : Placement :=
  Function.update (Function.update P p none) q (P p)

/-! ## Geometry -/

/-- A position of the 9x10 board. -/
def OnBoard (p : Position) : Prop := 0 ≤ p.x ∧ p.x ≤ 8 ∧ 0 ≤ p.y ∧ p.y ≤ 9

def shift (d : Int × Int) (p : Position) : Position := ⟨p.x + d.1, p.y + d.2⟩

def orthogonals : List (Int × Int) := [(0, -1), (1, 0), (0, 1), (-1, 0)]

def diagonals : List (Int × Int) := [(-1, -1), (-1, 1), (1, -1), (1, 1)]

/-- The side of the river a colour starts on. -/
def OwnHalf (c : Color) (p : Position) : Prop := if c = .black then p.y ≤ 4 else 5 ≤ p.y

def Palace (c : Color) (p : Position) : Prop :=
  3 ≤ p.x ∧ p.x ≤ 5 ∧ if c = .black then p.y ≤ 2 else 7 ≤ p.y

/-- Toward the enemy. -/
def forward (c : Color) : Int × Int := if c = .black then (0, 1) else (0, -1)

/-- The points met from `p` in the direction `d`, up to the edge. -/
def ray (p : Position) (d : Int × Int) : List Position := Lib.walk (shift d) Position.isValid 9 p

/-! ## Moves -/

/-- Where the man `m` standing on `p` can go, captures apart. -/
def Reaches (P : Placement) (m : Man) (p q : Position) : Prop :=
  match m.type with
  | .king => Palace m.color q ∧ ∃ d ∈ orthogonals, q = shift d p
  | .advisor => Palace m.color q ∧ ∃ d ∈ diagonals, q = shift d p
  | .elephant =>
      OwnHalf m.color q ∧ ∃ d ∈ diagonals, P (shift d p) = none ∧ q = shift d (shift d p)
  | .chariot => ∃ d ∈ orthogonals, q ∈ Lib.upToFirst (occupied P) (ray p d)
  | .horse =>
      -- one step along `d`, where the leg is, and one diagonal step further out
      ∃ d ∈ orthogonals, P (shift d p) = none ∧
        ∃ e ∈ diagonals, d.1 * e.1 + d.2 * e.2 = 1 ∧ q = shift e (shift d p)
  | .cannon =>
      ∃ d ∈ orthogonals, q ∈ (ray p d).takeWhile (fun r => !occupied P r) ∨
        Lib.second? (occupied P) (ray p d) = some q
  | .pawn =>
      q = shift (forward m.color) p ∨
        (¬ OwnHalf m.color p ∧ (q = shift (1, 0) p ∨ q = shift (-1, 0) p))
  | .invalid => False

/-- A man of `p` reaches `q` on the board, where no man of his own stands. -/
def PseudoLegal (P : Placement) (p q : Position) : Prop :=
  OnBoard q ∧ ∃ m, P p = some m ∧ Reaches P m p q ∧ ∀ n, P q = some n → n.color ≠ m.color

/-- Some enemy man attacks the king of `c`. -/
def InCheck (P : Placement) (c : Color) : Prop :=
  ∃ k p m, P k = some ⟨.king, c⟩ ∧ P p = some m ∧ m.color ≠ c ∧ PseudoLegal P p k

/-- The kings stand on one file with nothing strictly between them. -/
def KingsFacing (P : Placement) : Prop :=
  ∃ k k', P k = some ⟨.king, .black⟩ ∧ P k' = some ⟨.king, .red⟩ ∧ k.x = k'.x ∧
    ∀ y, min k.y k'.y < y → y < max k.y k'.y → P ⟨k.x, y⟩ = none

/-- The kings stand on one file with nothing else on that file, between
them or behind them. -/
def KingsAloneOnFile (P : Placement) : Prop :=
  ∃ k k', P k = some ⟨.king, .black⟩ ∧ P k' = some ⟨.king, .red⟩ ∧ k.x = k'.x ∧
    ∀ p m, P p = some m → p.x = k.x → p = k ∨ p = k'

/-- The kings stand on one file with nothing strictly between them, and a
man stands on that file behind one of them. -/
def FacingWithManBehind (P : Placement) : Prop :=
  ∃ k k', P k = some ⟨.king, .black⟩ ∧ P k' = some ⟨.king, .red⟩ ∧ k.x = k'.x ∧
    (∀ y, min k.y k'.y < y → y < max k.y k'.y → P ⟨k.x, y⟩ = none) ∧
    ∃ p m, P p = some m ∧ p.x = k.x ∧ (p.y < min k.y k'.y ∨ max k.y k'.y < p.y)

/-- A move of the side `c` that is pseudo-legal and leaves its own king
unattacked and the kings not alone on one file. -/
structure Accepted (P : Placement) (c : Color) (p q : Position) : Prop where
  pseudoLegal : PseudoLegal P p q
  own : ∃ m, P p = some m ∧ m.color = c
  safe : ¬ InCheck (P.move p q) c
  notAlone : ¬ KingsAloneOnFile (P.move p q)

/-! ## Basic facts -/

theorem onBoard_iff_isValid {p : Position} : OnBoard p ↔ p.isValid = true :=
  Position.isValid_iff.symm

@[simp] theorem move_dest (P : Placement) (p q : Position) : P.move p q q = P p := by
  simp [Placement.move]

theorem move_origin (P : Placement) {p q : Position} (h : p ≠ q) : P.move p q p = none := by
  simp [Placement.move, Function.update_of_ne h]

theorem move_other (P : Placement) {p q r : Position} (hp : r ≠ p) (hq : r ≠ q) :
    P.move p q r = P r := by
  simp [Placement.move, Function.update_of_ne hp, Function.update_of_ne hq]

/-- Kings alone on their file face each other, when their points differ. -/
theorem KingsAloneOnFile.kingsFacing {P : Placement} (h : KingsAloneOnFile P) :
    KingsFacing P := by
  obtain ⟨k, k', hk, hk', hx, hall⟩ := h
  refine ⟨k, k', hk, hk', hx, fun y hlo hhi => ?_⟩
  cases hy : P ⟨k.x, y⟩ with
  | none => rfl
  | some m =>
    rcases hall _ m hy rfl with h | h
    · have := congrArg Position.y h
      simp only at this
      omega
    · have := congrArg Position.y h
      simp only at this
      omega

theorem FacingWithManBehind.kingsFacing {P : Placement} (h : FacingWithManBehind P) :
    KingsFacing P := by
  obtain ⟨k, k', hk, hk', hx, hbetween, -⟩ := h
  exact ⟨k, k', hk, hk', hx, hbetween⟩

/-- Where each side has one king, a man behind keeps them from being alone. -/
theorem FacingWithManBehind.not_kingsAloneOnFile {P : Placement} (h : FacingWithManBehind P)
    (hunique : ∀ c p q, P p = some ⟨.king, c⟩ → P q = some ⟨.king, c⟩ → p = q) :
    ¬ KingsAloneOnFile P := by
  obtain ⟨k, k', hk, hk', hx, -, p, m, hp, hpx, hbehind⟩ := h
  rintro ⟨j, j', hj, hj', -, hall⟩
  rw [hunique _ _ _ hj hk, hunique _ _ _ hj' hk'] at hall
  rcases hall p m hp hpx with rfl | rfl <;> omega

/-- Facing kings are alone on their file or have a man behind them. -/
theorem KingsFacing.cases {P : Placement} (h : KingsFacing P) :
    KingsAloneOnFile P ∨ FacingWithManBehind P := by
  obtain ⟨k, k', hk, hk', hx, hbetween⟩ := h
  by_cases hall : ∀ p m, P p = some m → p.x = k.x → p = k ∨ p = k'
  · exact Or.inl ⟨k, k', hk, hk', hx, hall⟩
  · push Not at hall
    obtain ⟨p, m, hp, hpx, hpk, hpk'⟩ := hall
    refine Or.inr ⟨k, k', hk, hk', hx, hbetween, p, m, hp, hpx, ?_⟩
    have hy : p.y ≠ k.y := fun e => hpk (Position.ext hpx e)
    have hy' : p.y ≠ k'.y := fun e => hpk' (Position.ext (hpx.trans hx) e)
    by_contra hnot
    have hnone := hbetween p.y (by omega) (by omega)
    rw [← hpx, hp] at hnone
    cases hnone

end HoxServer.Xiangqi
