/-
HoxServer.Referee.Placement — the movement code against the rules of the
game.

`Board.placement` forgets everything of a board but which man stands
where. `isValidMove_iff` says that on a piece standing on the board and
a destination on the board, `Piece::IsValidMove` decides the movement
relation of `Xiangqi.Rules`, for each of the seven types.

The work is in the chariot and the cannon: the code collects the
positions between origin and destination and counts the pieces on them,
the rule walks a ray. `mem_ray_split` connects the two: the part of the
ray before the destination is a permutation of the collected positions.
-/
import HoxServer.Referee.Piece
import HoxServer.Xiangqi.Rules

namespace HoxServer

open Xiangqi

/-! ## The placement of a board -/

def Board.man (b : Board) (r : PieceRef) : Man := ⟨(b.info r).type, (b.info r).color⟩

/-- Which man stands where. -/
def Board.placement (b : Board) : Placement := fun p => (b.getPieceAt p).map b.man

theorem occupied_placement (b : Board) : occupied b.placement = b.hasPieceAt := by
  funext p
  simp [occupied, Board.placement, Board.hasPieceAt]

theorem placement_eq_none {b : Board} {p : Position} :
    b.placement p = none ↔ b.hasPieceAt p = false := by
  simp [Board.placement, Board.hasPieceAt]

/-! ## Rays -/

theorem shift_iterate (d : Int × Int) (p : Position) (k : Nat) :
    (shift d)^[k] p = ⟨p.x + k * d.1, p.y + k * d.2⟩ := by
  induction k with
  | zero => simp
  | succ k ih =>
    rw [Function.iterate_succ_apply', ih]
    simp only [shift, Position.mk.injEq, Nat.cast_succ]
    constructor <;> ring

theorem mem_orthogonals {d : Int × Int} (h : d ∈ orthogonals) :
    d = (0, -1) ∨ d = (1, 0) ∨ d = (0, 1) ∨ d = (-1, 0) := by
  simpa [orthogonals] using h

theorem ray_nodup {p : Position} {d : Int × Int} (hd : d ∈ orthogonals) : (ray p d).Nodup := by
  refine Lib.walk_nodup (fun i _ j _ h => ?_)
  simp only [shift_iterate, Position.mk.injEq] at h
  rcases mem_orthogonals hd with rfl | rfl | rfl | rfl <;> simp at h <;> omega

theorem middlePositions_nodup (p q : Position) : (middlePositions p q).Nodup := by
  have hrange : ∀ a b : Int, (Int.range a b).Nodup := fun a b =>
    List.Nodup.map (fun i j h => by simpa using h) List.nodup_range
  unfold middlePositions
  split_ifs
  all_goals first
    | exact List.nodup_nil
    | exact List.Nodup.map (fun i j h => by simpa using h) (hrange _ _)

theorem mem_column {x a b : Int} {r : Position} :
    r ∈ (Int.range a b).map (fun i => (⟨x, i⟩ : Position)) ↔ r.x = x ∧ a ≤ r.y ∧ r.y < b := by
  simp only [List.mem_map, Int.mem_range_iff]
  constructor
  · rintro ⟨i, hi, rfl⟩
    exact ⟨rfl, hi⟩
  · rintro ⟨hx, hy⟩
    exact ⟨r.y, hy, Position.ext hx.symm rfl⟩

theorem mem_row {y a b : Int} {r : Position} :
    r ∈ (Int.range a b).map (fun i => (⟨i, y⟩ : Position)) ↔ r.y = y ∧ a ≤ r.x ∧ r.x < b := by
  simp only [List.mem_map, Int.mem_range_iff]
  constructor
  · rintro ⟨i, hi, rfl⟩
    exact ⟨rfl, hi⟩
  · rintro ⟨hy, hx⟩
    exact ⟨r.x, hx, Position.ext rfl hy.symm⟩

/-- What lies between two positions of one row or column. -/
theorem mem_middlePositions {p q r : Position} (h : isStraight p q = true) :
    r ∈ middlePositions p q ↔
      (r.x = p.x ∧ p.x = q.x ∧ (q.y < r.y ∧ r.y < p.y ∨ p.y < r.y ∧ r.y < q.y)) ∨
      (r.y = p.y ∧ p.y = q.y ∧ (q.x < r.x ∧ r.x < p.x ∨ p.x < r.x ∧ r.x < q.x)) := by
  simp only [isStraight, decide_eq_true_eq] at h
  unfold middlePositions
  split_ifs <;> simp only [mem_column, mem_row, List.not_mem_nil] <;> omega

/-- A destination in a row or a column of the origin is on one of the
four rays. -/
theorem exists_mem_ray {p q : Position} (hp : p.isValid = true) (hq : q.isValid = true)
    (h : isStraight p q = true) : ∃ d ∈ orthogonals, q ∈ ray p d := by
  rw [Position.isValid_iff] at hp hq
  simp only [isStraight, decide_eq_true_eq] at h
  have hmem : ∀ d ∈ orthogonals, ∀ k : Nat, k < 9 → q = ⟨p.x + (k + 1) * d.1, p.y + (k + 1) * d.2⟩ →
      q ∈ ray p d := by
    intro d hd k hk hqk
    have hall : ∀ i ≤ k, Position.isValid ((shift d)^[i + 1] p) = true := by
      intro i hi
      rw [shift_iterate, Position.isValid_iff]
      subst hqk
      rcases mem_orthogonals hd with rfl | rfl | rfl | rfl <;>
        simp at hq ⊢ <;> omega
    obtain ⟨post, hpost⟩ := Lib.walk_split hk hall
    rw [ray, hpost, hqk, shift_iterate]
    simp
  obtain ⟨px, py⟩ := p
  obtain ⟨qx, qy⟩ := q
  simp only at h hp hq hmem
  rcases lt_trichotomy qy py with hy | hy | hy
  · exact ⟨(0, -1), by decide, hmem _ (by decide) (py - qy - 1).toNat (by omega)
      (by simp; omega)⟩
  · rcases lt_or_gt_of_ne (show qx ≠ px by omega) with hx | hx
    · exact ⟨(-1, 0), by decide, hmem _ (by decide) (px - qx - 1).toNat (by omega)
        (by simp; omega)⟩
    · exact ⟨(1, 0), by decide, hmem _ (by decide) (qx - px - 1).toNat (by omega)
        (by simp; omega)⟩
  · exact ⟨(0, 1), by decide, hmem _ (by decide) (qy - py - 1).toNat (by omega)
      (by simp; omega)⟩

/-- A point of a ray: what the ray meets before it is what lies between. -/
theorem mem_ray_split {p q : Position} {d : Int × Int} (hd : d ∈ orthogonals)
    (hq : q ∈ ray p d) : isStraight p q = true ∧
      ∃ pre post, ray p d = pre ++ q :: post ∧ q ∉ pre ∧ q ∉ post ∧
        pre.Perm (middlePositions p q) := by
  obtain ⟨k, hk, hqk, hall⟩ := Lib.mem_walk hq
  obtain ⟨post, hpost⟩ := Lib.walk_split hk hall
  rw [← hqk] at hpost
  rw [shift_iterate] at hqk
  have hstraight : isStraight p q = true := by
    subst hqk
    simp only [isStraight, decide_eq_true_eq]
    rcases mem_orthogonals hd with rfl | rfl | rfl | rfl <;> simp <;> omega
  have hnodup := ray_nodup (p := p) hd
  rw [ray, hpost] at hnodup
  obtain ⟨hpre, hpost', hdisj⟩ := List.nodup_append.mp hnodup
  refine ⟨hstraight, _, post, hpost, fun h => hdisj q h q List.mem_cons_self rfl,
    (List.nodup_cons.mp hpost').1, ?_⟩
  refine (List.perm_ext_iff_of_nodup hpre (middlePositions_nodup p q)).mpr (fun r => ?_)
  rw [mem_middlePositions hstraight]
  simp only [List.mem_map, List.mem_range, shift_iterate]
  obtain ⟨rx, ry⟩ := r
  subst hqk
  constructor
  · rintro ⟨i, hi, hr⟩
    simp only [Position.mk.injEq] at hr
    rcases mem_orthogonals hd with rfl | rfl | rfl | rfl <;> simp at hr ⊢ <;> omega
  · intro hr
    rcases mem_orthogonals hd with rfl | rfl | rfl | rfl <;> simp at hr ⊢
    · exact ⟨(p.y - ry - 1).toNat, by omega, by omega, by omega⟩
    · exact ⟨(rx - p.x - 1).toNat, by omega, by omega, by omega⟩
    · exact ⟨(ry - p.y - 1).toNat, by omega, by omega, by omega⟩
    · exact ⟨(p.x - rx - 1).toNat, by omega, by omega, by omega⟩

/-! ## The seven movement rules -/

variable {b : Board} {me : PieceInfo} {q : Position}

theorem chariot_canMoveTo_iff (hp : me.position.isValid = true) (hq : q.isValid = true) :
    ChariotPiece.canMoveTo b me q = true ↔
      ∃ d ∈ orthogonals, q ∈ Lib.upToFirst (occupied b.placement) (ray me.position d) := by
  have hiff : ∀ d ∈ orthogonals, q ∈ ray me.position d →
      (q ∈ Lib.upToFirst (occupied b.placement) (ray me.position d) ↔
        (middlePositions me.position q).any b.hasPieceAt = false) := by
    intro d hd hmem
    obtain ⟨-, pre, post, hsplit, hpre, -, hperm⟩ := mem_ray_split hd hmem
    rw [hsplit, Lib.mem_upToFirst_split hpre, occupied_placement, List.any_eq_false]
    exact ⟨fun h x hx => by rw [h x (hperm.mem_iff.mpr hx)]; exact Bool.false_ne_true,
      fun h x hx => Bool.eq_false_iff.mpr (h x (hperm.mem_iff.mp hx))⟩
  simp only [ChariotPiece.canMoveTo, Bool.and_eq_true, Bool.not_eq_true']
  constructor
  · rintro ⟨hstraight, hfree⟩
    obtain ⟨d, hd, hmem⟩ := exists_mem_ray hp hq hstraight
    exact ⟨d, hd, (hiff d hd hmem).mpr hfree⟩
  · rintro ⟨d, hd, h⟩
    have hmem := Lib.subset_of_upToFirst h
    exact ⟨(mem_ray_split hd hmem).1, (hiff d hd hmem).mp h⟩

/-- The cannon's rule, the capture of an own man apart: it reaches the
free points short of the first blocker and the second blocker. -/
theorem cannon_canMoveTo_iff (hp : me.position.isValid = true) (hq : q.isValid = true) :
    CannonPiece.canMoveTo b me q = true ↔
      (∃ d ∈ orthogonals,
        q ∈ (ray me.position d).takeWhile (fun r => !occupied b.placement r) ∨
          Lib.second? (occupied b.placement) (ray me.position d) = some q) ∧
      ∀ n, b.placement q = some n → n.color ≠ me.color := by
  have hcode : CannonPiece.canMoveTo b me q = true ↔ isStraight me.position q = true ∧
      (((middlePositions me.position q).countP b.hasPieceAt = 0 ∧ b.hasPieceAt q = false) ∨
        ((middlePositions me.position q).countP b.hasPieceAt = 1 ∧ b.hasPieceAt q = true)) ∧
      ∀ n, b.placement q = some n → n.color ≠ me.color := by
    unfold CannonPiece.canMoveTo
    dsimp only
    split_ifs with h₁ h₂ h₃
    · simp only [h₁, false_iff]
      omega
    · cases h : b.getPieceAt q <;>
        simp [h, h₁, h₃, Board.placement, Board.hasPieceAt, Board.hasColor, Board.man]
    · have h₀ : (middlePositions me.position q).countP b.hasPieceAt = 0 := by omega
      cases h : b.getPieceAt q <;> simp [h, h₁, h₀, Board.placement, Board.hasPieceAt]
    · simp [h₁]
  have hiff : ∀ d ∈ orthogonals, q ∈ ray me.position d →
      ((q ∈ (ray me.position d).takeWhile (fun r => !occupied b.placement r) ∨
          Lib.second? (occupied b.placement) (ray me.position d) = some q) ↔
        ((middlePositions me.position q).countP b.hasPieceAt = 0 ∧ b.hasPieceAt q = false) ∨
        ((middlePositions me.position q).countP b.hasPieceAt = 1 ∧ b.hasPieceAt q = true)) := by
    intro d hd hmem
    obtain ⟨-, pre, post, hsplit, hpre, hpost, hperm⟩ := mem_ray_split hd hmem
    rw [hsplit, Lib.mem_takeWhile_split hpre, Lib.second?_split hpre hpost, occupied_placement,
        hperm.countP_eq, ← hperm.countP_eq, List.countP_eq_zero]
    simp only [Bool.not_eq_true]
  rw [hcode]
  constructor
  · rintro ⟨hstraight, hcount, hown⟩
    obtain ⟨d, hd, hmem⟩ := exists_mem_ray hp hq hstraight
    exact ⟨⟨d, hd, (hiff d hd hmem).mpr hcount⟩, hown⟩
  · rintro ⟨⟨d, hd, h⟩, hown⟩
    have hmem : q ∈ ray me.position d := by
      rcases h with h | h
      · exact (List.takeWhile_sublist _).subset h
      · exact Lib.mem_of_second? h
    exact ⟨(mem_ray_split hd hmem).1, (hiff d hd hmem).mp h, hown⟩

theorem inside_palace_iff {c : Color} (hq : q.isValid = true) :
    q.isInsidePalace c = true ↔ Palace c q := by
  rw [Position.isValid_iff] at hq
  unfold Position.isInsidePalace Palace
  split <;> simp only [decide_eq_true_eq] <;> omega

theorem inside_country_iff {c : Color} (hq : q.isValid = true) :
    q.isInsideCountry c = true ↔ OwnHalf c q := by
  rw [Position.isValid_iff] at hq
  unfold Position.isInsideCountry OwnHalf
  split <;> simp only [decide_eq_true_eq] <;> omega

theorem king_canMoveTo_iff (hq : q.isValid = true) :
    KingPiece.canMoveTo me q = true ↔
      Palace me.color q ∧ ∃ d ∈ orthogonals, q = shift d me.position := by
  obtain ⟨t, c, px, py⟩ := me
  obtain ⟨qx, qy⟩ := q
  simp only [KingPiece.canMoveTo, Bool.and_eq_true, inside_palace_iff hq, decide_eq_true_eq,
    orthogonals, List.mem_cons, List.not_mem_nil, or_false, exists_eq_or_imp, exists_eq_left,
    shift, Position.mk.injEq]
  refine and_congr_right (fun _ => ?_)
  omega

theorem advisor_canMoveTo_iff (hq : q.isValid = true) :
    AdvisorPiece.canMoveTo me q = true ↔
      Palace me.color q ∧ ∃ d ∈ diagonals, q = shift d me.position := by
  obtain ⟨t, c, px, py⟩ := me
  obtain ⟨qx, qy⟩ := q
  simp only [AdvisorPiece.canMoveTo, Bool.and_eq_true, inside_palace_iff hq, decide_eq_true_eq,
    diagonals, List.mem_cons, List.not_mem_nil, or_false, exists_eq_or_imp, exists_eq_left,
    shift, Position.mk.injEq]
  refine and_congr_right (fun _ => ?_)
  omega

theorem elephant_canMoveTo_iff (hp : me.position.isValid = true) (hq : q.isValid = true) :
    ElephantPiece.canMoveTo b me q = true ↔ OwnHalf me.color q ∧
      ∃ d ∈ diagonals, b.placement (shift d me.position) = none ∧
        q = shift d (shift d me.position) := by
  have hmid : ∀ u v : Int, 0 ≤ u → 0 ≤ v → (u + v).tdiv 2 = (u + v) / 2 := fun u v hu hv =>
    Int.tdiv_eq_ediv_of_nonneg (by omega)
  obtain ⟨t, c, px, py⟩ := me
  obtain ⟨qx, qy⟩ := q
  simp only [ElephantPiece.canMoveTo, Bool.and_eq_true, inside_country_iff hq,
    decide_eq_true_eq, Bool.not_eq_true', and_assoc]
  rw [Position.isValid_iff] at hp hq
  dsimp only at hp hq
  rw [hmid px qx hp.1 hq.1, hmid py qy (by omega) (by omega)]
  refine and_congr_right (fun _ => ?_)
  simp only [placement_eq_none, diagonals, List.mem_cons, List.not_mem_nil, or_false,
    exists_eq_or_imp, exists_eq_left, shift, Position.mk.injEq]
  constructor
  · rintro ⟨hx, hy, hfree⟩
    have hcases : (qx = px - 2 ∨ qx = px + 2) ∧ (qy = py - 2 ∨ qy = py + 2) := by omega
    have hl : ∀ u : Int, (u + (u - 2)) / 2 = u + -1 := fun u => by omega
    have hr : ∀ u : Int, (u + (u + 2)) / 2 = u + 1 := fun u => by omega
    obtain ⟨rfl | rfl, rfl | rfl⟩ := hcases <;> simp only [hl, hr] at hfree <;>
      simp only [hfree, true_and] <;> omega
  · have hl : ∀ u : Int, (u + (u + -1 + -1)) / 2 = u + -1 := fun u => by omega
    have hr : ∀ u : Int, (u + (u + 1 + 1)) / 2 = u + 1 := fun u => by omega
    rintro (⟨hfree, rfl, rfl⟩ | ⟨hfree, rfl, rfl⟩ | ⟨hfree, rfl, rfl⟩ | ⟨hfree, rfl, rfl⟩) <;>
      refine ⟨by omega, by omega, ?_⟩ <;> simpa only [hl, hr] using hfree

theorem horse_canMoveTo_iff :
    HorsePiece.canMoveTo b me q = true ↔
      ∃ d ∈ orthogonals, b.placement (shift d me.position) = none ∧
        ∃ e ∈ diagonals, d.1 * e.1 + d.2 * e.2 = 1 ∧ q = shift e (shift d me.position) := by
  obtain ⟨t, c, px, py⟩ := me
  obtain ⟨qx, qy⟩ := q
  -- one line for each of the four neighbours
  have hrule : HorsePiece.canMoveTo b ⟨t, c, px, py⟩ ⟨qx, qy⟩ = true ↔
      (b.hasPieceAt ⟨px + 0, py + -1⟩ = false ∧ qy = py - 2 ∧ (qx = px - 1 ∨ qx = px + 1)) ∨
      (b.hasPieceAt ⟨px + 0, py + 1⟩ = false ∧ qy = py + 2 ∧ (qx = px - 1 ∨ qx = px + 1)) ∨
      (b.hasPieceAt ⟨px + 1, py + 0⟩ = false ∧ qx = px + 2 ∧ (qy = py - 1 ∨ qy = py + 1)) ∨
      (b.hasPieceAt ⟨px + -1, py + 0⟩ = false ∧ qx = px - 2 ∧ (qy = py - 1 ∨ qy = py + 1)) := by
    unfold HorsePiece.canMoveTo
    simp only [add_zero, ← sub_eq_add_neg]
    split_ifs with h₁ h₂ h₃ h₄
    · rw [Bool.not_eq_true']
      constructor
      · intro h
        exact Or.inl ⟨h, by omega, by omega⟩
      · rintro (⟨h, -, -⟩ | ⟨-, h, -⟩ | ⟨-, h, -⟩ | ⟨-, h, -⟩)
        · exact h
        all_goals omega
    · rw [Bool.not_eq_true']
      constructor
      · intro h
        exact Or.inr (Or.inl ⟨h, by omega, by omega⟩)
      · rintro (⟨-, h, -⟩ | ⟨h, -, -⟩ | ⟨-, h, -⟩ | ⟨-, h, -⟩)
        · omega
        · exact h
        all_goals omega
    · rw [Bool.not_eq_true']
      constructor
      · intro h
        exact Or.inr (Or.inr (Or.inl ⟨h, by omega, by omega⟩))
      · rintro (⟨-, h, -⟩ | ⟨-, h, -⟩ | ⟨h, -, -⟩ | ⟨-, h, -⟩)
        · omega
        · omega
        · exact h
        · omega
    · rw [Bool.not_eq_true']
      constructor
      · intro h
        exact Or.inr (Or.inr (Or.inr ⟨h, by omega, by omega⟩))
      · rintro (⟨-, h, -⟩ | ⟨-, h, -⟩ | ⟨-, h, -⟩ | ⟨h, -, -⟩)
        · omega
        · omega
        · omega
        · exact h
    · constructor
      · intro h
        cases h
      · omega
  rw [hrule]
  simp only [orthogonals, diagonals, placement_eq_none, List.mem_cons, List.not_mem_nil,
    or_false, exists_eq_or_imp, exists_eq_left, shift, Position.mk.injEq]
  constructor
  · rintro (⟨h, hx, hy⟩ | ⟨h, hx, hy⟩ | ⟨h, hx, hy⟩ | ⟨h, hx, hy⟩)
    · exact Or.inl ⟨h, by omega⟩
    · exact Or.inr (Or.inr (Or.inl ⟨h, by omega⟩))
    · exact Or.inr (Or.inl ⟨h, by omega⟩)
    · exact Or.inr (Or.inr (Or.inr ⟨h, by omega⟩))
  · rintro (⟨h, hq⟩ | ⟨h, hq⟩ | ⟨h, hq⟩ | ⟨h, hq⟩)
    · exact Or.inl ⟨h, by omega, by omega⟩
    · exact Or.inr (Or.inr (Or.inl ⟨h, by omega, by omega⟩))
    · exact Or.inr (Or.inl ⟨h, by omega, by omega⟩)
    · exact Or.inr (Or.inr (Or.inr ⟨h, by omega, by omega⟩))

theorem pawn_canMoveTo_iff (hside : me.color.IsSide) (hq : q.isValid = true) :
    PawnPiece.canMoveTo me q = true ↔
      q = shift (forward me.color) me.position ∨ (¬ OwnHalf me.color me.position ∧
        (q = shift (1, 0) me.position ∨ q = shift (-1, 0) me.position)) := by
  have hcountry := inside_country_iff (c := me.color) hq
  obtain ⟨t, c, px, py⟩ := me
  obtain ⟨qx, qy⟩ := q
  dsimp only at hcountry hside ⊢
  unfold PawnPiece.canMoveTo PawnPiece.isForward
  simp only [shift, Position.mk.injEq]
  by_cases hown : OwnHalf c ⟨qx, qy⟩
  · rw [if_pos (hcountry.mpr hown)]
    rcases hside with rfl | rfl <;>
      simp [OwnHalf, forward] at hown ⊢ <;> omega
  · rw [if_neg (fun h => hown (hcountry.mp h))]
    rcases hside with rfl | rfl <;>
      simp [OwnHalf, forward] at hown ⊢ <;> omega

/-! ## `IsValidMove` -/

theorem canMoveTo_of_reaches (hp : me.position.isValid = true) (hq : q.isValid = true)
    (hside : me.color.IsSide) :
    (b.canMoveTo me q = true ∧ ∀ n, b.placement q = some n → n.color ≠ me.color) ↔
      Reaches b.placement ⟨me.type, me.color⟩ me.position q ∧
        ∀ n, b.placement q = some n → n.color ≠ me.color := by
  unfold Board.canMoveTo Reaches
  cases htype : me.type with
  | king => rw [king_canMoveTo_iff hq]
  | advisor => rw [advisor_canMoveTo_iff hq]
  | elephant => rw [elephant_canMoveTo_iff hp hq]
  | chariot => rw [chariot_canMoveTo_iff hp hq]
  | horse => rw [horse_canMoveTo_iff]
  | cannon => rw [cannon_canMoveTo_iff hp hq, and_assoc, and_self]
  | pawn => rw [pawn_canMoveTo_iff hside hq]
  | invalid => simp

theorem isValidMove_iff_canMoveTo {r : PieceRef} :
    b.isValidMove r q = true ↔ b.canMoveTo (b.info r) q = true ∧
      ∀ n, b.placement q = some n → n.color ≠ (b.info r).color := by
  unfold Board.isValidMove Board.placement
  cases h : b.getPieceAt q with
  | none => simp
  | some c => simp [Board.hasColor, Board.man]

/-- **`Piece::IsValidMove` is the movement relation**, for a piece stored
in the cell of its own position and a destination on the board. -/
theorem isValidMove_iff {r : PieceRef} (hr : b.getPieceAt (b.positionOf r) = some r)
    (hside : (b.info r).color.IsSide) (hq : q.isValid = true) :
    b.isValidMove r q = true ↔ PseudoLegal b.placement (b.positionOf r) q := by
  have hman : b.placement (b.positionOf r) = some (b.man r) := by
    simp [Board.placement, hr]
  rw [isValidMove_iff_canMoveTo,
      canMoveTo_of_reaches (Board.isValid_of_getPieceAt hr) hq hside]
  unfold PseudoLegal
  rw [hman, onBoard_iff_isValid]
  constructor
  · rintro ⟨hreach, hown⟩
    exact ⟨hq, _, rfl, hreach, hown⟩
  · rintro ⟨-, m, hm, hreach, hown⟩
    cases hm
    exact ⟨hreach, hown⟩

end HoxServer
