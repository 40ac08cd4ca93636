/-
HoxServer.Referee.Kings — the invariant of the referee, and the two tests
made after a move.

Nothing in the code keeps a piece from capturing a king. That it does
not happen is an invariant over turns (`Lawful`): after every accepted
move the king of the side that moved is not attacked, and it is that
king the other side would have to capture next.
-/
import HoxServer.Referee.Referee
import HoxServer.Referee.WellFormed

namespace HoxServer

open Xiangqi

/-- The object of the king of a side: the first piece of its half of the
list in `_CreateNewGame`. -/
def kingRef (c : Color) : PieceRef := if c = .black then 0 else 16

theorem firstMan_eq_king_iff {c : Color} (hc : c.IsSide) :
    ∀ r < 32, firstMan r = ⟨.king, c⟩ ↔ r = kingRef c := by
  rcases hc with rfl | rfl <;> decide

theorem kingRef_lt (c : Color) : kingRef c < 32 := by
  unfold kingRef; split <;> decide

namespace Board

/-- A well-formed board with both kings active. -/
structure HasKings (b : Board) : Prop extends b.WellFormed where
  king : ∀ c, c.IsSide → kingRef c ∈ b.pieces

/-- The invariant of the referee. -/
structure Lawful (b : Board) : Prop extends b.HasKings where
  turn : b.nextColor.IsSide
  palace : ∀ c, c.IsSide → Palace c (b.positionOf (kingRef c))
  notExposed : ¬ InCheck b.placement b.nextColor.opposite

/-- What the search for a next move relies on: the side to move cannot take
the king of the other. -/
structure Settled (b : Board) : Prop extends b.HasKings where
  notExposed : ¬ InCheck b.placement b.nextColor.opposite

variable {b b' : Board} {r : PieceRef} {p q : Position} {c : Color}

theorem Lawful.settled (h : b.Lawful) : b.Settled := ⟨h.toHasKings, h.notExposed⟩

/-! ## The kings of a board -/

theorem HasKings.man_eq_king_iff (h : b.HasKings) (hc : c.IsSide) (hr : r ∈ b.pieces) :
    b.man r = ⟨.king, c⟩ ↔ r = kingRef c := by
  rw [h.identity r (h.lt hr), firstMan_eq_king_iff hc r (h.lt hr)]

theorem HasKings.placement_king_iff (h : b.HasKings) (hc : c.IsSide) :
    b.placement p = some ⟨.king, c⟩ ↔ p = b.positionOf (kingRef c) := by
  rw [h.placement_iff]
  constructor
  · rintro ⟨r, hr, rfl, hman⟩
    rw [(h.man_eq_king_iff hc hr).mp hman]
  · rintro rfl
    exact ⟨kingRef c, h.king c hc, rfl, (h.man_eq_king_iff hc (h.king c hc)).mpr rfl⟩

/-- Each side has one king on the board. -/
theorem HasKings.king_unique (h : b.HasKings) (hp : b.placement p = some ⟨.king, c⟩)
    (hq : b.placement q = some ⟨.king, c⟩) : p = q := by
  obtain ⟨k, hk, -, hman⟩ := h.placement_iff.mp hp
  have hside := h.isSide hk
  have hcolor : (b.info k).color = c := congrArg Man.color hman
  rw [hcolor] at hside
  rw [(h.placement_king_iff hside).mp hp, (h.placement_king_iff hside).mp hq]

/-- `_GetKing` finds the king. -/
theorem HasKings.getKing_eq (h : b.HasKings) (hc : c.IsSide) : b.getKing c = .ok (kingRef c) := by
  have hiff : ∀ r ∈ b.pieces,
      (decide ((b.info r).type = .king) && b.hasColor r c) = true ↔ r = kingRef c := by
    intro r hr
    rw [← h.man_eq_king_iff hc hr]
    simp [man, hasColor]
  unfold getKing
  cases hfind : b.pieces.find? (fun r => decide ((b.info r).type = .king) && b.hasColor r c) with
  | none =>
    rw [List.find?_eq_none] at hfind
    exact absurd ((hiff _ (h.king c hc)).mpr rfl) (hfind _ (h.king c hc))
  | some r =>
    have hr := List.find?_some hfind
    rw [(hiff r (List.mem_of_find?_eq_some hfind)).mp hr]

/-! ## The two tests -/

theorem HasKings.isKingBeingChecked_spec (h : b.HasKings) (hc : c.IsSide) :
    ∃ v, b.isKingBeingChecked c = .ok v ∧ (v = true ↔ InCheck b.placement c) := by
  refine ⟨_, by rw [isKingBeingChecked, h.getKing_eq hc]; rfl, ?_⟩
  have hking := h.onBoard _ (h.king c hc)
  simp only [List.any_eq_true, Bool.and_eq_true, Bool.not_eq_true', hasColor, decide_eq_false_iff_not]
  constructor
  · rintro ⟨r, hr, hcolor, hvalid⟩
    exact ⟨_, _, _, (h.placement_king_iff hc).mpr rfl, h.placement_positionOf hr, hcolor,
      (h.isValidMove_iff hr hking).mp hvalid⟩
  · rintro ⟨k, p, m, hk, hp, hcolor, hlegal⟩
    obtain ⟨r, hr, rfl, rfl⟩ := h.placement_iff.mp hp
    rw [(h.placement_king_iff hc).mp hk] at hlegal
    exact ⟨r, hr, hcolor, (h.isValidMove_iff hr hking).mpr hlegal⟩

/-- Whether the two kings see each other, computed from where they stand. -/
def kingsFacing (b : Board) : Bool :=
  let k := b.positionOf (kingRef .black)
  let k' := b.positionOf (kingRef .red)
  decide (k.x = k'.x) &&
    (Int.range (min k.y k'.y + 1) (max k.y k'.y)).all fun y => (b.placement ⟨k.x, y⟩).isNone

theorem HasKings.kingsFacing_iff (h : b.HasKings) :
    b.kingsFacing = true ↔ KingsFacing b.placement := by
  simp only [kingsFacing, KingsFacing, Bool.and_eq_true, decide_eq_true_eq, List.all_eq_true,
    Int.mem_range_iff, Option.isNone_iff_eq_none]
  constructor
  · rintro ⟨hx, hbetween⟩
    exact ⟨_, _, (h.placement_king_iff (Or.inr rfl)).mpr rfl,
      (h.placement_king_iff (Or.inl rfl)).mpr rfl, hx, fun y hlo hhi => hbetween y ⟨by omega, hhi⟩⟩
  · rintro ⟨k, k', hk, hk', hx, hbetween⟩
    obtain rfl := (h.placement_king_iff (Or.inr rfl)).mp hk
    obtain rfl := (h.placement_king_iff (Or.inl rfl)).mp hk'
    exact ⟨hx, fun y hy => hbetween y (by omega) hy.2⟩

theorem HasKings.isKingFaceKing_spec (h : b.HasKings) :
    ∃ v, b.isKingFaceKing = .ok v ∧ (v = true ↔ KingsAloneOnFile b.placement) := by
  have hblack : Color.black.IsSide := Or.inr rfl
  have hred : Color.red.IsSide := Or.inl rfl
  have halone : KingsAloneOnFile b.placement ↔
      (b.positionOf (kingRef .black)).x = (b.positionOf (kingRef .red)).x ∧
        ∀ r ∈ b.pieces, (b.positionOf r).x = (b.positionOf (kingRef .red)).x →
          r = kingRef .black ∨ r = kingRef .red := by
    constructor
    · rintro ⟨k, k', hk, hk', hx, hall⟩
      rw [h.placement_king_iff hblack] at hk
      rw [h.placement_king_iff hred] at hk'
      subst hk hk'
      refine ⟨hx, fun r hr hcol => ?_⟩
      exact (hall _ _ (h.placement_positionOf hr) (by rw [hcol, hx])).imp
        (h.positionOf_inj hr (h.king _ hblack)) (h.positionOf_inj hr (h.king _ hred))
    · rintro ⟨hx, hall⟩
      refine ⟨_, _, (h.placement_king_iff hblack).mpr rfl, (h.placement_king_iff hred).mpr rfl, hx,
        fun p m hp hcol => ?_⟩
      obtain ⟨r, hr, rfl, -⟩ := h.placement_iff.mp hp
      exact (hall r hr (hcol.trans hx)).imp (congrArg _) (congrArg _)
  unfold isKingFaceKing
  rw [h.getKing_eq hblack, h.getKing_eq hred, halone]
  by_cases hx : (b.positionOf (kingRef .black)).x = (b.positionOf (kingRef .red)).x
  · refine ⟨_, by
      simp only [bind, Except.bind, hasSameColumnAs, hx, decide_true, if_true]
      rfl, ?_⟩
    simp only [Bool.not_eq_true', List.any_eq_false, hx, true_and, Bool.and_eq_true,
      decide_eq_true_eq, not_and]
    refine forall₂_congr (fun r _ => ?_)
    tauto
  · refine ⟨false, by simp [bind, Except.bind, hasSameColumnAs, hx], ?_⟩
    simp [hx]

end Board

end HoxServer
