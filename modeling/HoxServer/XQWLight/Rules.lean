/-
HoxServer.XQWLight.Rules — the moves of the engine against the rules of
the game.

`placement` forgets everything of a position but which man stands where,
on the points of the board instead of on squares.
-/
import HoxServer.XQWLight.MakeMove
import HoxServer.Referee.Placement
import Mathlib.Data.List.TakeWhile

namespace HoxServer.XQWLight

open Xiangqi

/-! ## Points and squares -/

/-- The square of a point of the board. -/
def square (q : Position) : Int := coordXY (3 + q.x) (3 + q.y)

theorem square_eq (q : Position) : square q = 3 + q.x + (3 + q.y) * 16 := rfl

/-- The entries of a table that is given by a formula. -/
theorem entry_map_range {α : Type} [Inhabited α] (n : Nat) (f : Nat → α) (sq : Int) :
    entry ((List.range n).map f) sq = if 0 ≤ sq ∧ sq < n then f sq.toNat else default := by
  unfold entry
  by_cases h0 : 0 ≤ sq
  · by_cases hn : sq < n
    · have hlt : sq.toNat < n := by omega
      simp [h0, hn, List.getD_eq_getElem?_getD, hlt]
    · have hge : ¬ sq.toNat < n := by omega
      simp [h0, hn, List.getD_eq_getElem?_getD, hge]
  · simp [h0]

/-- `ccInBoard`, as a formula. -/
def boardAt (n : Nat) : Nat :=
  if 3 ≤ n % 16 ∧ n % 16 ≤ 11 ∧ 3 ≤ n / 16 ∧ n / 16 ≤ 12 then 1 else 0

theorem ccInBoard_eq : ccInBoard = (List.range 256).map boardAt := by decide +kernel

/-- `ccInFort`, as a formula. -/
def fortAt (n : Nat) : Nat :=
  if 6 ≤ n % 16 ∧ n % 16 ≤ 8 ∧ (3 ≤ n / 16 ∧ n / 16 ≤ 5 ∨ 10 ≤ n / 16 ∧ n / 16 ≤ 12) then 1 else 0

theorem ccInFort_eq : ccInFort = (List.range 256).map fortAt := by decide +kernel

theorem inBoard_iff {sq : Int} : inBoard sq = true ↔
    3 ≤ sq % 16 ∧ sq % 16 ≤ 11 ∧ 3 ≤ sq / 16 ∧ sq / 16 ≤ 12 := by
  rw [inBoard, decide_eq_true_eq, ccInBoard_eq, entry_map_range, boardAt, Nat.default_eq_zero]
  split_ifs <;> simp only [ne_eq, one_ne_zero, not_true_eq_false, not_false_eq_true, true_iff,
    false_iff] <;> omega

theorem inFort_iff {sq : Int} : inFort sq = true ↔
    6 ≤ sq % 16 ∧ sq % 16 ≤ 8 ∧ (3 ≤ sq / 16 ∧ sq / 16 ≤ 5 ∨ 10 ≤ sq / 16 ∧ sq / 16 ≤ 12) := by
  rw [inFort, decide_eq_true_eq, ccInFort_eq, entry_map_range, fortAt, Nat.default_eq_zero]
  split_ifs <;> simp only [ne_eq, one_ne_zero, not_true_eq_false, not_false_eq_true, true_iff,
    false_iff] <;> omega

/-- A point whose square is not one of another row. -/
def Near (q : Position) : Prop := -3 ≤ q.x ∧ q.x ≤ 12

theorem inBoard_square {q : Position} (h : Near q) : inBoard (square q) = q.isValid := by
  obtain ⟨hlo, hhi⟩ := h
  rw [Bool.eq_iff_iff, inBoard_iff, Position.isValid_iff, square_eq]
  omega

theorem near_of_isValid {q : Position} (h : q.isValid = true) : Near q := by
  rw [Position.isValid_iff] at h
  exact ⟨by omega, by omega⟩

/-- A square of the board is that of a point. -/
theorem exists_square {sq : Int} (h : inBoard sq = true) :
    ∃ q : Position, q.isValid = true ∧ sq = square q := by
  rw [inBoard_iff] at h
  refine ⟨⟨sq % 16 - 3, sq / 16 - 3⟩, ?_, ?_⟩
  · rw [Position.isValid_iff]
    simp only
    omega
  · rw [square_eq]
    simp only
    omega

theorem square_inj {q r : Position} (hq : Near q) (hr : Near r) (h : square q = square r) :
    q = r := by
  obtain ⟨hq₁, hq₂⟩ := hq
  obtain ⟨hr₁, hr₂⟩ := hr
  rw [square_eq, square_eq] at h
  ext <;> omega

/-- The step of the squares for a step of the points. -/
def delta (d : Int × Int) : Int := d.1 + 16 * d.2

theorem square_shift (d : Int × Int) (q : Position) :
    square (shift d q) = square q + delta d := by
  simp only [square_eq, shift, delta]
  ring

theorem mem_ccKingDelta {n : Int} : n ∈ ccKingDelta ↔ ∃ d ∈ orthogonals, n = delta d := by
  simp only [ccKingDelta, orthogonals, delta, List.mem_cons, List.not_mem_nil, or_false,
    exists_eq_or_imp, exists_eq_left]
  omega

theorem mem_ccAdvisorDelta {n : Int} : n ∈ ccAdvisorDelta ↔ ∃ d ∈ diagonals, n = delta d := by
  simp only [ccAdvisorDelta, diagonals, delta, List.mem_cons, List.not_mem_nil, or_false,
    exists_eq_or_imp, exists_eq_left]
  omega

/-- The step of the directions is at most one in each coordinate. -/
theorem mem_directions {d : Int × Int} (h : d ∈ orthogonals ∨ d ∈ diagonals) :
    -1 ≤ d.1 ∧ d.1 ≤ 1 ∧ -1 ≤ d.2 ∧ d.2 ≤ 1 := by
  have hall : ∀ d ∈ orthogonals ++ diagonals, -1 ≤ d.1 ∧ d.1 ≤ 1 ∧ -1 ≤ d.2 ∧ d.2 ≤ 1 := by
    decide
  exact hall d (List.mem_append.mpr h)

theorem near_shift {d : Int × Int} {q : Position} (hq : q.isValid = true)
    (h : d ∈ orthogonals ∨ d ∈ diagonals) : Near (shift d q) := by
  rw [Position.isValid_iff] at hq
  obtain ⟨h₁, h₂, -⟩ := mem_directions h
  refine ⟨?_, ?_⟩ <;> simp only [shift] <;> omega

/-! ## Men -/

/-- `hoxColor` of a side. -/
def Side.color : Side → Color
  | .red => .red
  | .black => .black

theorem Side.isSide_color (sd : Side) : sd.color.IsSide := by
  cases sd
  · exact Or.inl rfl
  · exact Or.inr rfl

@[simp] theorem Side.color_opposite (sd : Side) : sd.opposite.color = sd.color.opposite := by
  cases sd <;> rfl

/-- The type of a piece. -/
def pieceType : Nat → PieceType
  | 0 => .king
  | 1 => .advisor
  | 2 => .elephant
  | 3 => .horse
  | 4 => .chariot
  | 5 => .cannon
  | 6 => .pawn
  | _ => .invalid

/-- The man that a piece stands for. -/
def man? (pc : Nat) : Option Man :=
  if 8 ≤ pc ∧ pc ≤ 14 then some ⟨pieceType (pc - 8), .red⟩
  else if 16 ≤ pc ∧ pc ≤ 22 then some ⟨pieceType (pc - 16), .black⟩
  else none

/-- The numbers that are pieces. -/
def IsPiece (pc : Nat) : Prop := 8 ≤ pc ∧ pc ≤ 14 ∨ 16 ≤ pc ∧ pc ≤ 22

theorem IsPiece.lt {pc : Nat} (h : IsPiece pc) : pc < 23 := by
  rcases h with h | h <;> omega

/-- A piece has one of the seven types and a side. -/
theorem man?_eq_some {pc : Nat} {m : Man} (h : man? pc = some m) :
    ∃ sd k, m.color = Side.color sd ∧ pc = sideTag sd + k ∧ k < 7 ∧ m.type = pieceType k := by
  unfold man? at h
  split at h
  · obtain rfl := Option.some.inj h
    exact ⟨.red, pc - 8, rfl, by simp only [sideTag]; omega, by omega, rfl⟩
  · split at h
    · obtain rfl := Option.some.inj h
      exact ⟨.black, pc - 16, rfl, by simp only [sideTag]; omega, by omega, rfl⟩
    · cases h

theorem man?_add (sd : Side) {k : Nat} (hk : k < 7) :
    man? (sideTag sd + k) = some ⟨pieceType k, sd.color⟩ := by
  cases sd <;> interval_cases k <;> rfl

theorem man?_isSome {pc : Nat} : (man? pc).isSome = true ↔ IsPiece pc := by
  unfold man? IsPiece
  split_ifs <;> simp <;> omega

theorem man?_zero : man? 0 = none := rfl

namespace PositionStruct

variable {p : PositionStruct} {a c : Position} {m : Man} {sq : Int}

/-- Which man stands where. -/
def placement (p : PositionStruct) : Placement := fun q =>
  if q.isValid then man? (p.ucpcSquares (square q)) else none

/-- There are pieces on the board, and nothing else anywhere. -/
def Clean (p : PositionStruct) : Prop :=
  ∀ sq, p.ucpcSquares sq ≠ 0 → inBoard sq = true ∧ IsPiece (p.ucpcSquares sq)

theorem isValid_of_placement (h : p.placement a = some m) : a.isValid = true := by
  unfold placement at h
  split at h
  · assumption
  · cases h

theorem placement_of_isValid (h : a.isValid = true) :
    p.placement a = man? (p.ucpcSquares (square a)) := if_pos h

/-- The piece of a man. -/
theorem piece_of_placement (h : p.placement a = some m) :
    ∃ sd k, m.color = Side.color sd ∧ p.ucpcSquares (square a) = sideTag sd + k ∧ k < 7 ∧
      m.type = pieceType k := by
  rw [placement_of_isValid (isValid_of_placement h)] at h
  exact man?_eq_some h

theorem Clean.occupied (h : p.Clean) (ha : Near a) :
    p.occupied (square a) = Xiangqi.occupied p.placement a := by
  unfold PositionStruct.occupied Xiangqi.occupied placement
  cases hvalid : a.isValid with
  | true =>
    simp only [if_true]
    by_cases hpc : p.ucpcSquares (square a) = 0
    · simp [hpc, man?_zero]
    · rw [man?_isSome.mpr (h _ hpc).2]
      simp [hpc]
  | false =>
    have hout : inBoard (square a) = false := (inBoard_square ha).trans hvalid
    have hpc : p.ucpcSquares (square a) = 0 := by
      by_contra hpc
      exact Bool.false_ne_true (hout.symm.trans (h _ hpc).1)
    simp [hpc]

theorem Clean.occupied_eq_false (h : p.Clean) (ha : Near a) :
    p.occupied (square a) = false ↔ p.placement a = none := by
  rw [h.occupied ha, Xiangqi.occupied, Option.isSome_eq_false_iff, Option.isNone_iff_eq_none]

/-- `pc & SIDE_TAG(sd)` says whether a piece is of the side. -/
theorem land_sideTag {pc : Nat} (hpc : IsPiece pc ∨ pc = 0) (sd : Side) :
    pc &&& sideTag sd ≠ 0 ↔ (man? pc).map Man.color = some sd.color := by
  have hall : ∀ pc < 23, (8 ≤ pc ∧ pc ≤ 14 ∨ 16 ≤ pc ∧ pc ≤ 22) ∨ pc = 0 →
      (pc &&& 8 ≠ 0 ↔ (man? pc).map Man.color = some .red) ∧
      (pc &&& 16 ≠ 0 ↔ (man? pc).map Man.color = some .black) := by
    decide
  have hlt : pc < 23 := hpc.elim IsPiece.lt fun h => h ▸ by decide
  cases sd
  · exact (hall pc hlt hpc).1
  · exact (hall pc hlt hpc).2

theorem Clean.isPiece_or (h : p.Clean) (sq : Int) :
    IsPiece (p.ucpcSquares sq) ∨ p.ucpcSquares sq = 0 := by
  by_cases hpc : p.ucpcSquares sq = 0
  · exact Or.inr hpc
  · exact Or.inl (h sq hpc).2

theorem oppSideTag_eq (sd : Side) : oppSideTag sd = sideTag sd.opposite := by
  cases sd <;> rfl

theorem Clean.isSelf (h : p.Clean) (hc : c.isValid = true) :
    p.isSelf (p.ucpcSquares (square c)) = true ↔
      ∃ n, p.placement c = some n ∧ n.color = p.sdPlayer.color := by
  rw [PositionStruct.isSelf, decide_eq_true_eq, land_sideTag (h.isPiece_or _),
    placement_of_isValid hc, Option.map_eq_some_iff]

theorem Clean.isOpp (h : p.Clean) (hc : c.isValid = true) :
    p.isOpp (p.ucpcSquares (square c)) = true ↔
      ∃ n, p.placement c = some n ∧ n.color ≠ p.sdPlayer.color := by
  rw [PositionStruct.isOpp, decide_eq_true_eq, oppSideTag_eq, land_sideTag (h.isPiece_or _),
    Side.color_opposite, ← placement_of_isValid hc, Option.map_eq_some_iff]
  constructor
  · rintro ⟨n, hn, hcolor⟩
    exact ⟨n, hn, hcolor ▸ p.sdPlayer.isSide_color.opposite_ne⟩
  · rintro ⟨n, hn, hcolor⟩
    obtain ⟨sd, _, hsd, -⟩ := piece_of_placement hn
    exact ⟨n, hn, p.sdPlayer.isSide_color.eq_opposite (hsd ▸ sd.isSide_color) hcolor⟩

/-- No own man stands on `c`. -/
def Open (p : PositionStruct) (c : Position) : Prop :=
  ∀ n, p.placement c = some n → n.color ≠ p.sdPlayer.color

theorem Clean.wanted (h : p.Clean) (hc : c.isValid = true) :
    p.wanted false (square c) = true ↔ p.Open c := by
  simp only [PositionStruct.wanted, Bool.false_eq_true, if_false, Bool.not_eq_true',
    Bool.eq_false_iff, ne_eq, h.isSelf hc, not_exists, not_and, Open]

/-! ## Where the men stand -/

/-- The points on which an elephant can stand. -/
def ElephantPoint (c : Color) (q : Position) : Prop :=
  OwnHalf c q ∧ q.x % 2 = 0 ∧ if c = .black then q.y % 2 = 0 else q.y % 2 = 1

/-- Kings and advisors are in their palace, elephants on their points. -/
structure Placed (P : Placement) : Prop where
  palace : ∀ q m, P q = some m → m.type = .king ∨ m.type = .advisor → Palace m.color q
  elephant : ∀ q m, P q = some m → m.type = .elephant → ElephantPoint m.color q

/-- The two halves of the board, on points. -/
theorem halfBit_square (hc : c.isValid = true) :
    halfBit (square c) = if c.y ≤ 4 then 0 else 1 := by
  rw [Position.isValid_iff] at hc
  rw [halfBit, square_eq]
  split <;> omega

theorem homeHalf_square (hc : c.isValid = true) (sd : Side) :
    homeHalf (square c) sd = true ↔ OwnHalf sd.color c := by
  cases sd
  · simp [homeHalf, halfBit_square hc, OwnHalf, Side.color]
    omega
  · simp [homeHalf, halfBit_square hc, OwnHalf, Side.color]

theorem awayHalf_square (hc : c.isValid = true) (sd : Side) :
    awayHalf (square c) sd = true ↔ ¬ OwnHalf sd.color c := by
  cases sd
  · simp [awayHalf, halfBit_square hc, OwnHalf, Side.color]
    omega
  · simp [awayHalf, halfBit_square hc, OwnHalf, Side.color]

/-! ## Generated moves, by the type of the piece -/

variable {sd : Side}

/-- One step inside the own palace. -/
theorem Clean.mem_fortSquares (h : p.Clean) {deltas : List Int} {dirs : List (Int × Int)}
    (hmem : ∀ n, n ∈ deltas ↔ ∃ d ∈ dirs, n = delta d)
    (hdirs : ∀ d ∈ dirs, d ∈ orthogonals ∨ d ∈ diagonals) (ha : a.isValid = true)
    (hpalace : Palace sd.color a) :
    sq ∈ p.fortSquares false deltas (square a) ↔ ∃ c, sq = square c ∧ OnBoard c ∧
      (Palace sd.color c ∧ ∃ d ∈ dirs, c = shift d a) ∧ p.Open c := by
  -- the palace that is entered is the own one
  have hown : ∀ d ∈ dirs, inFort (square (shift d a)) = true ↔
      OnBoard (shift d a) ∧ Palace sd.color (shift d a) := by
    intro d hd
    obtain ⟨h₁, h₂, h₃, h₄⟩ := mem_directions (hdirs d hd)
    rw [Position.isValid_iff] at ha
    rw [inFort_iff, square_eq]
    cases sd <;> simp only [Palace, Side.color, OnBoard, shift, reduceCtorEq, if_true, if_false]
      at hpalace ⊢ <;> omega
  simp only [fortSquares, List.mem_filter, List.mem_map, hmem, Bool.and_eq_true]
  constructor
  · rintro ⟨⟨_, ⟨d, hd, rfl⟩, rfl⟩, hfort, hwanted⟩
    rw [← square_shift] at hfort hwanted ⊢
    obtain ⟨hon, hp⟩ := (hown d hd).mp hfort
    exact ⟨_, rfl, hon, ⟨hp, d, hd, rfl⟩, (h.wanted (onBoard_iff_isValid.mp hon)).mp hwanted⟩
  · rintro ⟨_, rfl, hon, ⟨hp, d, hd, rfl⟩, hopen⟩
    exact ⟨⟨_, ⟨d, hd, rfl⟩, (square_shift d a).symm⟩, (hown d hd).mpr ⟨hon, hp⟩,
      (h.wanted (onBoard_iff_isValid.mp hon)).mpr hopen⟩

/-- Two diagonal steps over a free eye. -/
theorem Clean.mem_bishopSquares (h : p.Clean) (ha : a.isValid = true)
    (hpoint : ElephantPoint p.sdPlayer.color a) :
    sq ∈ p.bishopSquares false (square a) ↔ ∃ c, sq = square c ∧ OnBoard c ∧
      (OwnHalf p.sdPlayer.color c ∧ ∃ d ∈ diagonals, p.placement (shift d a) = none ∧
        c = shift d (shift d a)) ∧ p.Open c := by
  -- the eye is on the own side exactly when the destination is
  have hown : ∀ d ∈ diagonals, inBoard (square (shift d a)) = true ∧
      homeHalf (square (shift d a)) p.sdPlayer = true ↔
        OnBoard (shift d (shift d a)) ∧ OwnHalf p.sdPlayer.color (shift d (shift d a)) := by
    intro d hd
    have hd' : d = (-1, -1) ∨ d = (-1, 1) ∨ d = (1, -1) ∨ d = (1, 1) := by
      simpa [diagonals] using hd
    have heye : OnBoard (shift d a) ∧ OwnHalf p.sdPlayer.color (shift d a) ↔
        OnBoard (shift d (shift d a)) ∧ OwnHalf p.sdPlayer.color (shift d (shift d a)) := by
      rw [Position.isValid_iff] at ha
      cases hsd : p.sdPlayer <;>
        simp only [hsd, OwnHalf, OnBoard, Side.color, ElephantPoint, shift, reduceCtorEq, if_true,
          if_false] at hpoint ⊢ <;>
        rcases hd' with rfl | rfl | rfl | rfl <;> simp only <;> omega
    rw [inBoard_square (near_shift ha (.inr hd)), ← heye, onBoard_iff_isValid]
    exact and_congr_right fun hvalid => homeHalf_square hvalid _
  simp only [bishopSquares, List.mem_filter, List.mem_map, mem_ccAdvisorDelta, Bool.and_eq_true,
    Bool.not_eq_true']
  constructor
  · rintro ⟨⟨_, ⟨⟨d, hd, rfl⟩, ⟨hin, hhome⟩, hfree⟩, rfl⟩, hwanted⟩
    rw [← square_shift] at hin hhome hfree hwanted ⊢
    rw [← square_shift] at hwanted ⊢
    obtain ⟨hon, hhalf⟩ := (hown d hd).mp ⟨hin, hhome⟩
    exact ⟨_, rfl, hon, ⟨hhalf, d, hd, (h.occupied_eq_false (near_shift ha (.inr hd))).mp hfree,
      rfl⟩, (h.wanted (onBoard_iff_isValid.mp hon)).mp hwanted⟩
  · rintro ⟨_, rfl, hon, ⟨hhalf, d, hd, hfree, rfl⟩, hopen⟩
    obtain ⟨hin, hhome⟩ := (hown d hd).mpr ⟨hon, hhalf⟩
    have hfree' := (h.occupied_eq_false (near_shift ha (.inr hd))).mpr hfree
    rw [square_shift] at hin hhome hfree'
    refine ⟨⟨_, ⟨⟨d, hd, rfl⟩, ⟨hin, hhome⟩, hfree'⟩, ?_⟩,
      (h.wanted (onBoard_iff_isValid.mp hon)).mpr hopen⟩
    rw [square_shift, square_shift]

/-- The steps of a horse: the leg, and one diagonal step further out. -/
theorem mem_knightDelta {nPin n : Int} :
    (∃ nDeltas, (nPin, nDeltas) ∈ ccKingDelta.zip ccKnightDelta ∧ n ∈ nDeltas) ↔
      ∃ d ∈ orthogonals, ∃ e ∈ diagonals, d.1 * e.1 + d.2 * e.2 = 1 ∧ nPin = delta d ∧
        n = delta d + delta e := by
  constructor
  · rintro ⟨nDeltas, hpair, hn⟩
    have hall : ∀ x ∈ ccKingDelta.zip ccKnightDelta, ∀ n ∈ x.2, ∃ d ∈ orthogonals,
        ∃ e ∈ diagonals, d.1 * e.1 + d.2 * e.2 = 1 ∧ x.1 = delta d ∧ n = delta d + delta e := by
      decide
    exact hall _ hpair n hn
  · rintro ⟨d, hd, e, he, hde, rfl, rfl⟩
    have hall : ∀ d ∈ orthogonals, ∀ e ∈ diagonals, d.1 * e.1 + d.2 * e.2 = 1 →
        ∃ x ∈ ccKingDelta.zip ccKnightDelta, x.1 = delta d ∧ delta d + delta e ∈ x.2 := by
      decide
    obtain ⟨⟨_, nDeltas⟩, hpair, rfl, hn⟩ := hall d hd e he hde
    exact ⟨nDeltas, hpair, hn⟩

theorem near_shift_shift {d e : Int × Int} (ha : a.isValid = true)
    (hd : d ∈ orthogonals ∨ d ∈ diagonals) (he : e ∈ orthogonals ∨ e ∈ diagonals) :
    Near (shift e (shift d a)) := by
  obtain ⟨h₁, h₂, -⟩ := mem_directions hd
  obtain ⟨h₃, h₄, -⟩ := mem_directions he
  rw [Position.isValid_iff] at ha
  refine ⟨?_, ?_⟩ <;> simp only [shift] <;> omega

/-- Past a free leg. -/
theorem Clean.mem_knightSquares (h : p.Clean) (ha : a.isValid = true) :
    sq ∈ p.knightSquares false (square a) ↔ ∃ c, sq = square c ∧ OnBoard c ∧
      (∃ d ∈ orthogonals, p.placement (shift d a) = none ∧
        ∃ e ∈ diagonals, d.1 * e.1 + d.2 * e.2 = 1 ∧ c = shift e (shift d a)) ∧ p.Open c := by
  have hsquares : sq ∈ p.knightSquares false (square a) ↔ ∃ nPin n,
      (∃ nDeltas, (nPin, nDeltas) ∈ ccKingDelta.zip ccKnightDelta ∧ n ∈ nDeltas) ∧
      p.occupied (square a + nPin) = false ∧ sq = square a + n ∧ inBoard sq = true ∧
      p.wanted false sq = true := by
    simp only [knightSquares, List.mem_flatMap, Prod.exists]
    constructor
    · rintro ⟨nPin, nDeltas, hpair, hsq⟩
      split at hsq
      · cases hsq
      · rename_i hfree
        rw [List.mem_filter, List.mem_map, Bool.and_eq_true] at hsq
        obtain ⟨⟨n, hn, rfl⟩, hin, hwanted⟩ := hsq
        exact ⟨nPin, n, ⟨nDeltas, hpair, hn⟩, by simpa using hfree, rfl, hin, hwanted⟩
    · rintro ⟨nPin, n, ⟨nDeltas, hpair, hn⟩, hfree, rfl, hin, hwanted⟩
      refine ⟨nPin, nDeltas, hpair, ?_⟩
      rw [hfree, if_neg Bool.false_ne_true, List.mem_filter, List.mem_map, Bool.and_eq_true]
      exact ⟨⟨n, hn, rfl⟩, hin, hwanted⟩
  rw [hsquares]
  constructor
  · rintro ⟨nPin, n, hstep, hfree, rfl, hin, hwanted⟩
    obtain ⟨d, hd, e, he, hde, rfl, rfl⟩ := mem_knightDelta.mp hstep
    rw [← add_assoc, ← square_shift, ← square_shift] at hin hwanted
    rw [← square_shift] at hfree
    have hvalid := (inBoard_square (near_shift_shift ha (.inl hd) (.inr he))).symm.trans hin
    refine ⟨shift e (shift d a), ?_, onBoard_iff_isValid.mpr hvalid, ⟨d, hd, ?_, e, he, hde, rfl⟩,
      (h.wanted hvalid).mp hwanted⟩
    · rw [square_shift, square_shift, add_assoc]
    · exact (h.occupied_eq_false (near_shift ha (.inl hd))).mp hfree
  · rintro ⟨_, rfl, hon, ⟨d, hd, hfree, e, he, hde, rfl⟩, hopen⟩
    have hvalid := onBoard_iff_isValid.mp hon
    refine ⟨delta d, delta d + delta e, mem_knightDelta.mpr ⟨d, hd, e, he, hde, rfl, rfl⟩, ?_, ?_,
      (inBoard_square (near_of_isValid hvalid)).trans hvalid, (h.wanted hvalid).mpr hopen⟩
    · rw [← square_shift]
      exact (h.occupied_eq_false (near_shift ha (.inl hd))).mpr hfree
    · rw [square_shift, square_shift, add_assoc]

/-! ### Lines -/

theorem isValid_of_mem_ray {d : Int × Int} (hc : c ∈ ray a d) : c.isValid = true := by
  obtain ⟨k, -, rfl, hall⟩ := Lib.mem_walk hc
  exact hall k (Nat.le_refl k)

/-- The loop over a line visits the points of a ray. -/
theorem line_square {d : Int × Int} (hd : d ∈ orthogonals) (ha : a.isValid = true) :
    line (square a) (delta d) = (ray a d).map square := by
  show Lib.walk (· + delta d) inBoard 9 (square a) =
    (Lib.walk (shift d) Position.isValid 9 a).map square
  have hstep : ∀ q : Position, q.isValid = true → square q + delta d = square (shift d q) ∧
      inBoard (square (shift d q)) = (shift d q).isValid := fun q hq =>
    ⟨(square_shift d q).symm, inBoard_square (near_shift hq (.inl hd))⟩
  exact Lib.walk_map (· + delta d) inBoard hstep (fun _ _ h => h) 9 ha

theorem Clean.occupied_ray (h : p.Clean) {d : Int × Int} :
    ∀ c ∈ ray a d, p.occupied (square c) = Xiangqi.occupied p.placement c :=
  fun _ hc => h.occupied (near_of_isValid (isValid_of_mem_ray hc))

/-- Free points, and an enemy on the point `o` behind them. -/
theorem Clean.mem_line (h : p.Clean) {l : List Position} {o : Option Position}
    (hl : ∀ c ∈ l, c.isValid = true)
    (ho : ∀ c, o = some c → c ∈ l ∧ Xiangqi.occupied p.placement c = true) :
    sq ∈ (l.takeWhile fun c => !Xiangqi.occupied p.placement c).map square ++
        (o.map square).toList.filter (fun sqDst => p.isOpp (p.ucpcSquares sqDst)) ↔
      ∃ c, sq = square c ∧ OnBoard c ∧
        ((c ∈ l.takeWhile fun c => !Xiangqi.occupied p.placement c) ∨ o = some c) ∧ p.Open c := by
  rw [List.mem_append, List.mem_map, List.mem_filter, Option.mem_toList, Option.map_eq_some_iff]
  constructor
  · rintro (⟨c, hc, rfl⟩ | ⟨⟨c, hc, rfl⟩, hopp⟩)
    · have hfree := List.mem_takeWhile_imp hc
      have hvalid := hl c ((List.takeWhile_sublist _).subset hc)
      refine ⟨c, rfl, onBoard_iff_isValid.mpr hvalid, .inl hc, fun n hn => ?_⟩
      simp [Xiangqi.occupied, hn] at hfree
    · have hvalid := hl c (ho c hc).1
      obtain ⟨n, hn, hcolor⟩ := (h.isOpp hvalid).mp hopp
      refine ⟨c, rfl, onBoard_iff_isValid.mpr hvalid, .inr hc, fun n' hn' => ?_⟩
      obtain rfl := Option.some.inj (hn.symm.trans hn')
      exact hcolor
  · rintro ⟨c, rfl, hon, hc | hc, hopen⟩
    · exact .inl ⟨c, hc, rfl⟩
    · obtain ⟨n, hn⟩ := Option.isSome_iff_exists.mp (ho c hc).2
      exact .inr ⟨⟨c, hc, rfl⟩, (h.isOpp (onBoard_iff_isValid.mp hon)).mpr ⟨n, hn, hopen n hn⟩⟩

theorem Clean.mem_rookLine (h : p.Clean) {d : Int × Int} (hd : d ∈ orthogonals)
    (ha : a.isValid = true) :
    sq ∈ p.rookLine false (line (square a) (delta d)) ↔ ∃ c, sq = square c ∧ OnBoard c ∧
      c ∈ Lib.upToFirst (Xiangqi.occupied p.placement) (ray a d) ∧ p.Open c := by
  rw [line_square hd ha, rookLine, freeSquares, if_neg Bool.false_ne_true,
    Lib.takeWhile_map_of h.occupied_ray, Lib.find?_map_of h.occupied_ray,
    h.mem_line (fun c hc => isValid_of_mem_ray hc)
      fun c hc => ⟨List.mem_of_find?_eq_some hc, List.find?_some hc⟩]
  simp only [Lib.upToFirst_eq, List.mem_append, Option.mem_toList]

theorem Clean.mem_cannonLine (h : p.Clean) {d : Int × Int} (hd : d ∈ orthogonals)
    (ha : a.isValid = true) :
    sq ∈ p.cannonLine false (line (square a) (delta d)) ↔ ∃ c, sq = square c ∧ OnBoard c ∧
      ((c ∈ (ray a d).takeWhile fun r => !Xiangqi.occupied p.placement r) ∨
        Lib.second? (Xiangqi.occupied p.placement) (ray a d) = some c) ∧ p.Open c := by
  rw [line_square hd ha, cannonLine, freeSquares, if_neg Bool.false_ne_true,
    Lib.takeWhile_map_of h.occupied_ray, Lib.second?_map_of h.occupied_ray,
    h.mem_line (fun c hc => isValid_of_mem_ray hc)
      fun c hc => ⟨Lib.mem_of_second? hc, Lib.obstacle_of_second? hc⟩]

/-! ### Pawns -/

theorem squareForward_square (c : Position) (sd : Side) :
    squareForward (square c) sd = square (shift (forward sd.color) c) := by
  cases sd
  · simp [squareForward, forward, Side.color, square_shift, delta]
    ring
  · simp [squareForward, forward, Side.color, square_shift, delta]

theorem forward_mem (sd : Side) : forward sd.color ∈ orthogonals := by
  cases sd <;> decide

/-- Forward, and sideways beyond the river. -/
theorem Clean.mem_pawnSquares (h : p.Clean) (ha : a.isValid = true) :
    sq ∈ p.pawnSquares false (square a) ↔ ∃ c, sq = square c ∧ OnBoard c ∧
      (c = shift (forward p.sdPlayer.color) a ∨
        ¬ OwnHalf p.sdPlayer.color a ∧ (c = shift (1, 0) a ∨ c = shift (-1, 0) a)) ∧ p.Open c := by
  have hsteps : sq ∈ (squareForward (square a) p.sdPlayer ::
      if awayHalf (square a) p.sdPlayer then [square a - 1, square a + 1] else []) ↔
      ∃ d ∈ orthogonals, (d = forward p.sdPlayer.color ∨
        ¬ OwnHalf p.sdPlayer.color a ∧ (d = (1, 0) ∨ d = (-1, 0))) ∧ sq = square (shift d a) := by
    rw [← awayHalf_square ha, List.mem_cons, squareForward_square]
    have hleft : square a - 1 = square (shift (-1, 0) a) := by
      rw [square_shift]
      rfl
    have hright : square a + 1 = square (shift (1, 0) a) := by
      rw [square_shift]
      rfl
    constructor
    · rintro (rfl | hside)
      · exact ⟨_, forward_mem _, .inl rfl, rfl⟩
      · split at hside
        · rename_i haway
          rw [hleft, hright] at hside
          simp only [List.mem_cons, List.not_mem_nil, or_false] at hside
          rcases hside with rfl | rfl
          · exact ⟨(-1, 0), by decide, .inr ⟨haway, .inr rfl⟩, rfl⟩
          · exact ⟨(1, 0), by decide, .inr ⟨haway, .inl rfl⟩, rfl⟩
        · cases hside
    · rintro ⟨d, -, rfl | ⟨haway, rfl | rfl⟩, rfl⟩
      · exact .inl rfl
      · rw [if_pos haway, ← hright]
        simp
      · rw [if_pos haway, ← hleft]
        simp
  rw [pawnSquares, List.mem_filter, hsteps, Bool.and_eq_true]
  constructor
  · rintro ⟨⟨d, hd, hstep, rfl⟩, hin, hwanted⟩
    have hvalid := (inBoard_square (near_shift ha (.inl hd))).symm.trans hin
    refine ⟨_, rfl, onBoard_iff_isValid.mpr hvalid, ?_, (h.wanted hvalid).mp hwanted⟩
    rcases hstep with rfl | ⟨haway, rfl | rfl⟩
    · exact .inl rfl
    · exact .inr ⟨haway, .inl rfl⟩
    · exact .inr ⟨haway, .inr rfl⟩
  · rintro ⟨c, rfl, hon, hstep, hopen⟩
    have hvalid := onBoard_iff_isValid.mp hon
    refine ⟨?_, (inBoard_square (near_of_isValid hvalid)).trans hvalid, (h.wanted hvalid).mpr hopen⟩
    rcases hstep with rfl | ⟨haway, rfl | rfl⟩
    · exact ⟨_, forward_mem _, .inl rfl, rfl⟩
    · exact ⟨_, by decide, .inr ⟨haway, .inl rfl⟩, rfl⟩
    · exact ⟨_, by decide, .inr ⟨haway, .inr rfl⟩, rfl⟩

/-! ## The generator and the rules -/

/-- **Generated from one square**: the moves of the rules. -/
theorem Clean.mem_destinations (h : p.Clean) (hplaced : Placed p.placement)
    (hm : p.placement a = some m) (hown : m.color = p.sdPlayer.color) :
    sq ∈ p.destinations false (square a) ↔
      ∃ c, sq = square c ∧ PseudoLegal p.placement a c := by
  have ha := isValid_of_placement hm
  have hreach : ∀ c, PseudoLegal p.placement a c ↔
      OnBoard c ∧ Reaches p.placement m a c ∧ p.Open c := by
    intro c
    simp only [PseudoLegal, hm, Option.some.injEq, exists_eq_left', hown, Open]
  simp only [hreach]
  obtain ⟨sd, k, hcolor, hpc, hk, htype⟩ := piece_of_placement hm
  obtain rfl : sd = p.sdPlayer := by
    have hsame : sd.color = p.sdPlayer.color := hcolor.symm.trans hown
    revert hsame
    cases sd <;> cases p.sdPlayer <;> simp [Side.color]
  have hswitch : p.ucpcSquares (square a) - sideTag p.sdPlayer = k := by omega
  have hpalace := hplaced.palace a m hm
  have helephant := hplaced.elephant a m hm
  rw [htype, hcolor] at hpalace helephant
  unfold destinations Reaches
  rw [hswitch, htype, hcolor]
  interval_cases k
  · exact h.mem_fortSquares (fun _ => mem_ccKingDelta) (fun d hd => .inl hd) ha
      (hpalace (.inl rfl))
  · exact h.mem_fortSquares (fun _ => mem_ccAdvisorDelta) (fun d hd => .inr hd) ha
      (hpalace (.inr rfl))
  · exact h.mem_bishopSquares ha (helephant rfl)
  · exact h.mem_knightSquares ha
  · simp only [List.mem_flatMap, mem_ccKingDelta, pieceType]
    constructor
    · rintro ⟨_, ⟨d, hd, rfl⟩, hsq⟩
      obtain ⟨c, rfl, hon, hc, hopen⟩ := (h.mem_rookLine hd ha).mp hsq
      exact ⟨c, rfl, hon, ⟨d, hd, hc⟩, hopen⟩
    · rintro ⟨c, rfl, hon, ⟨d, hd, hc⟩, hopen⟩
      exact ⟨_, ⟨d, hd, rfl⟩, (h.mem_rookLine hd ha).mpr ⟨c, rfl, hon, hc, hopen⟩⟩
  · simp only [List.mem_flatMap, mem_ccKingDelta, pieceType]
    constructor
    · rintro ⟨_, ⟨d, hd, rfl⟩, hsq⟩
      obtain ⟨c, rfl, hon, hc, hopen⟩ := (h.mem_cannonLine hd ha).mp hsq
      exact ⟨c, rfl, hon, ⟨d, hd, hc⟩, hopen⟩
    · rintro ⟨c, rfl, hon, ⟨d, hd, hc⟩, hopen⟩
      exact ⟨_, ⟨d, hd, rfl⟩, (h.mem_cannonLine hd ha).mpr ⟨c, rfl, hon, hc, hopen⟩⟩
  · exact h.mem_pawnSquares ha

theorem Clean.not_isSelf_of_isOpp (h : p.Clean) (hopp : p.isOpp (p.ucpcSquares sq) = true) :
    p.isSelf (p.ucpcSquares sq) = false := by
  rw [PositionStruct.isOpp, decide_eq_true_eq, oppSideTag_eq, land_sideTag (h.isPiece_or _)] at hopp
  rw [Bool.eq_false_iff, ne_eq, PositionStruct.isSelf, decide_eq_true_eq,
    land_sideTag (h.isPiece_or _), hopp]
  cases p.sdPlayer <;> simp [Side.opposite, Side.color]

theorem Clean.wanted_true (h : p.Clean) :
    p.wanted true sq = true ↔ p.wanted false sq = true ∧ p.isOpp (p.ucpcSquares sq) = true := by
  simp only [PositionStruct.wanted, if_true, Bool.false_eq_true, if_false, Bool.not_eq_true']
  exact ⟨fun hopp => ⟨h.not_isSelf_of_isOpp hopp, hopp⟩, fun hboth => hboth.2⟩

theorem mem_freeSquares_append {l : List Int} {o : Option Int} :
    sq ∈ p.freeSquares true l ++ o.toList.filter (fun sqDst => p.isOpp (p.ucpcSquares sqDst)) ↔
      sq ∈ p.freeSquares false l ++
        o.toList.filter (fun sqDst => p.isOpp (p.ucpcSquares sqDst)) ∧
      p.isOpp (p.ucpcSquares sq) = true := by
  simp only [freeSquares, if_true, Bool.false_eq_true, if_false, List.nil_append, List.mem_append,
    List.mem_filter]
  constructor
  · rintro ⟨ho, hopp⟩
    exact ⟨.inr ⟨ho, hopp⟩, hopp⟩
  · rintro ⟨hfree | hline, hopp⟩
    · -- a free square is no enemy's
      have hfree := List.mem_takeWhile_imp hfree
      simp only [PositionStruct.occupied, ne_eq, decide_not, Bool.not_not, decide_eq_true_eq]
        at hfree
      simp [hfree, PositionStruct.isOpp] at hopp
    · exact hline

/-- **Captures alone**: the same squares, where an enemy stands. -/
theorem Clean.mem_destinations_capture (h : p.Clean) {sqSrc : Int} :
    sq ∈ p.destinations true sqSrc ↔
      sq ∈ p.destinations false sqSrc ∧ p.isOpp (p.ucpcSquares sq) = true := by
  unfold destinations
  split
  · simp only [fortSquares, List.mem_filter, Bool.and_eq_true, h.wanted_true, and_assoc]
  · simp only [fortSquares, List.mem_filter, Bool.and_eq_true, h.wanted_true, and_assoc]
  · simp only [bishopSquares, List.mem_filter, h.wanted_true, and_assoc]
  · simp only [knightSquares, List.mem_flatMap]
    constructor
    · rintro ⟨x, hx, hsq⟩
      split at hsq
      · cases hsq
      · rename_i hfree
        rw [List.mem_filter, Bool.and_eq_true, h.wanted_true] at hsq
        refine ⟨⟨x, hx, ?_⟩, hsq.2.2.2⟩
        rw [if_neg hfree, List.mem_filter, Bool.and_eq_true]
        exact ⟨hsq.1, hsq.2.1, hsq.2.2.1⟩
    · rintro ⟨⟨x, hx, hsq⟩, hopp⟩
      split at hsq
      · cases hsq
      · rename_i hfree
        rw [List.mem_filter, Bool.and_eq_true] at hsq
        refine ⟨x, hx, ?_⟩
        rw [if_neg hfree, List.mem_filter, Bool.and_eq_true, h.wanted_true]
        exact ⟨hsq.1, hsq.2.1, hsq.2.2, hopp⟩
  · simp only [List.mem_flatMap, rookLine, mem_freeSquares_append]
    exact ⟨fun ⟨n, hn, hsq, hopp⟩ => ⟨⟨n, hn, hsq⟩, hopp⟩,
      fun ⟨⟨n, hn, hsq⟩, hopp⟩ => ⟨n, hn, hsq, hopp⟩⟩
  · simp only [List.mem_flatMap, cannonLine, mem_freeSquares_append]
    exact ⟨fun ⟨n, hn, hsq, hopp⟩ => ⟨⟨n, hn, hsq⟩, hopp⟩,
      fun ⟨⟨n, hn, hsq⟩, hopp⟩ => ⟨n, hn, hsq, hopp⟩⟩
  · simp only [pawnSquares, List.mem_filter, Bool.and_eq_true, h.wanted_true, and_assoc]
  · simp

/-- The squares of a move between two points. -/
@[simp] theorem src_move (ha : a.isValid = true) : src (move (square a) (square c)) = square a := by
  rw [Position.isValid_iff] at ha
  simp only [src, move, square_eq]
  omega

@[simp] theorem dst_move (ha : a.isValid = true) : dst (move (square a) (square c)) = square c := by
  rw [Position.isValid_iff] at ha
  simp only [dst, move, square_eq]
  omega

theorem square_mem_squares (ha : a.isValid = true) : square a ∈ squares := by
  rw [Position.isValid_iff] at ha
  rw [mem_squares, square_eq]
  omega

/-- An own man stands on `a`. -/
def Own (p : PositionStruct) (a : Position) : Prop :=
  ∃ m, p.placement a = some m ∧ m.color = p.sdPlayer.color

/-- **Generated moves** are those of the rules, from and to the board. -/
theorem Clean.mem_generated (h : p.Clean) (hplaced : Placed p.placement) {mv : Int} :
    mv ∈ p.generated false ↔
      ∃ a c, mv = move (square a) (square c) ∧ p.Own a ∧ PseudoLegal p.placement a c := by
  simp only [generated, List.mem_flatMap]
  constructor
  · rintro ⟨sqSrc, -, hmv⟩
    split at hmv
    · rename_i hself
      obtain ⟨sqDst, hdst, rfl⟩ := List.mem_map.mp hmv
      have hpc : p.ucpcSquares sqSrc ≠ 0 := by
        intro h0
        simp [PositionStruct.isSelf, h0] at hself
      obtain ⟨a, ha, rfl⟩ := exists_square (h _ hpc).1
      obtain ⟨m, hm, hown⟩ := (h.isSelf ha).mp hself
      obtain ⟨c, rfl, hlegal⟩ := (h.mem_destinations hplaced hm hown).mp hdst
      exact ⟨a, c, rfl, ⟨m, hm, hown⟩, hlegal⟩
    · cases hmv
  · rintro ⟨a, c, rfl, ⟨m, hm, hown⟩, hlegal⟩
    have ha := isValid_of_placement hm
    refine ⟨square a, square_mem_squares ha, ?_⟩
    rw [if_pos ((h.isSelf ha).mpr ⟨m, hm, hown⟩), List.mem_map]
    exact ⟨square c, (h.mem_destinations hplaced hm hown).mpr ⟨c, rfl, hlegal⟩, rfl⟩

end PositionStruct

end HoxServer.XQWLight
