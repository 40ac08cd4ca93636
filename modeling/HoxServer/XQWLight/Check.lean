/-
HoxServer.XQWLight.Check — `Checked` against the rules of the game.

The engine looks from the king: a pawn in front of or beside it, a knight
past a free leg that is next to the king, and on each of the four lines
the first piece and the second. `checked_iff` says that this finds an
attack of the rules, or two kings that face each other.

The work is in turning the attacks around: what a rook reaches from its
point reaches the rook's point from there (`upToFirst_iff`, `find?_iff`),
and the same for the cannon (`second?_iff`).
-/
import HoxServer.XQWLight.Rules

namespace HoxServer.XQWLight

open Xiangqi PositionStruct

variable {occ : Position → Bool} {a b : Position}

/-! ## Lines, from both ends -/

theorem middlePositions_perm (h : isStraight a b = true) :
    (middlePositions a b).Perm (middlePositions b a) := by
  have h' : isStraight b a = true := by
    simp only [isStraight, decide_eq_true_eq] at h ⊢
    omega
  refine (List.perm_ext_iff_of_nodup (middlePositions_nodup a b) (middlePositions_nodup b a)).mpr
    fun r => ?_
  rw [mem_middlePositions h, mem_middlePositions h']
  omega

/-- The number of men between two points. -/
def between (occ : Position → Bool) (a b : Position) : Nat := (middlePositions a b).countP occ

theorem between_comm (h : isStraight a b = true) : between occ a b = between occ b a :=
  (middlePositions_perm h).countP_eq _

theorem isStraight_comm : isStraight a b = isStraight b a := by
  simp only [isStraight, decide_eq_decide]
  omega

variable (occ)

theorem exists_split (ha : a.isValid = true) (hb : b.isValid = true) (h : isStraight a b = true) :
    ∃ d ∈ orthogonals, ∃ pre post, ray a d = pre ++ b :: post ∧ b ∉ pre ∧ b ∉ post ∧
      pre.countP occ = between occ a b := by
  obtain ⟨d, hd, hmem⟩ := exists_mem_ray ha hb h
  obtain ⟨-, pre, post, hsplit, hpre, hpost, hperm⟩ := mem_ray_split hd hmem
  exact ⟨d, hd, pre, post, hsplit, hpre, hpost, hperm.countP_eq _⟩

theorem split_of_mem {d : Int × Int} (hd : d ∈ orthogonals) (h : b ∈ ray a d) :
    isStraight a b = true ∧ ∃ pre post, ray a d = pre ++ b :: post ∧ b ∉ pre ∧ b ∉ post ∧
      pre.countP occ = between occ a b := by
  obtain ⟨hstraight, pre, post, hsplit, hpre, hpost, hperm⟩ := mem_ray_split hd h
  exact ⟨hstraight, pre, post, hsplit, hpre, hpost, hperm.countP_eq _⟩

/-- The first on a line. -/
theorem find?_iff (ha : a.isValid = true) (hb : b.isValid = true) :
    (∃ d ∈ orthogonals, (ray a d).find? occ = some b) ↔
      isStraight a b = true ∧ between occ a b = 0 ∧ occ b = true := by
  constructor
  · rintro ⟨d, hd, hfind⟩
    obtain ⟨hstraight, pre, post, hsplit, hpre, -, hcount⟩ :=
      split_of_mem occ hd (List.mem_of_find?_eq_some hfind)
    rw [hsplit, Lib.find?_split hpre] at hfind
    exact ⟨hstraight, hcount ▸ hfind.1, hfind.2⟩
  · rintro ⟨hstraight, hcount, hocc⟩
    obtain ⟨d, hd, pre, post, hsplit, hpre, -, hpc⟩ := exists_split occ ha hb hstraight
    refine ⟨d, hd, ?_⟩
    rw [hsplit, Lib.find?_split hpre]
    exact ⟨hpc.trans hcount, hocc⟩

/-- The second on a line. -/
theorem second?_iff (ha : a.isValid = true) (hb : b.isValid = true) :
    (∃ d ∈ orthogonals, Lib.second? occ (ray a d) = some b) ↔
      isStraight a b = true ∧ between occ a b = 1 ∧ occ b = true := by
  constructor
  · rintro ⟨d, hd, hsecond⟩
    obtain ⟨hstraight, pre, post, hsplit, hpre, hpost, hcount⟩ :=
      split_of_mem occ hd (Lib.mem_of_second? hsecond)
    rw [hsplit, Lib.second?_split hpre hpost] at hsecond
    exact ⟨hstraight, hcount ▸ hsecond.1, hsecond.2⟩
  · rintro ⟨hstraight, hcount, hocc⟩
    obtain ⟨d, hd, pre, post, hsplit, hpre, hpost, hpc⟩ := exists_split occ ha hb hstraight
    refine ⟨d, hd, ?_⟩
    rw [hsplit, Lib.second?_split hpre hpost]
    exact ⟨hpc.trans hcount, hocc⟩

/-- Up to the first on a line. -/
theorem upToFirst_iff (ha : a.isValid = true) (hb : b.isValid = true) :
    (∃ d ∈ orthogonals, b ∈ Lib.upToFirst occ (ray a d)) ↔
      isStraight a b = true ∧ between occ a b = 0 := by
  have hzero : ∀ l : List Position, (∀ x ∈ l, occ x = false) ↔ l.countP occ = 0 := by
    intro l
    rw [List.countP_eq_zero]
    exact forall₂_congr fun _ _ => (Bool.not_eq_true _).symm.to_iff
  constructor
  · rintro ⟨d, hd, hmem⟩
    obtain ⟨hstraight, pre, post, hsplit, hpre, -, hcount⟩ :=
      split_of_mem occ hd (Lib.subset_of_upToFirst hmem)
    rw [hsplit, Lib.mem_upToFirst_split hpre, hzero, hcount] at hmem
    exact ⟨hstraight, hmem⟩
  · rintro ⟨hstraight, hcount⟩
    obtain ⟨d, hd, pre, post, hsplit, hpre, -, hpc⟩ := exists_split occ ha hb hstraight
    refine ⟨d, hd, ?_⟩
    rw [hsplit, Lib.mem_upToFirst_split hpre, hzero, hpc]
    exact hcount

/-! ## Attacks, seen from the king -/

/-- The attacks on the point `k` of a king of `c`, from the king. -/
inductive AttackedFrom (P : Placement) (c : Color) (k : Position) : Prop
  | pawn (a : Position) (ha : P a = some ⟨.pawn, c.opposite⟩)
      (hstep : a = shift (forward c) k ∨ a = shift (1, 0) k ∨ a = shift (-1, 0) k)
  | horse (a : Position) (ha : P a = some ⟨.horse, c.opposite⟩) {e : Int × Int}
      (he : e ∈ diagonals) (hfree : P (shift e k) = none) {d : Int × Int} (hd : d ∈ orthogonals)
      (hde : d.1 * e.1 + d.2 * e.2 = 1) (hstep : a = shift d (shift e k))
  | chariot (a : Position) (ha : P a = some ⟨.chariot, c.opposite⟩) {d : Int × Int}
      (hd : d ∈ orthogonals) (hfirst : (ray k d).find? (occupied P) = some a)
  | cannon (a : Position) (ha : P a = some ⟨.cannon, c.opposite⟩) {d : Int × Int}
      (hd : d ∈ orthogonals) (hsecond : Lib.second? (occupied P) (ray k d) = some a)

/-- A placement in which the men stand on the board and are of a side. -/
structure OfMen (P : Placement) : Prop where
  onBoard : ∀ q m, P q = some m → q.isValid = true
  side : ∀ q m, P q = some m → m.color.IsSide

variable {P : Placement} {c : Color} {k : Position}

theorem occupied_of_some {q : Position} {m : Man} (h : P q = some m) : occupied P q = true := by
  simp [Xiangqi.occupied, h]

theorem forward_opposite (hc : c.IsSide) : forward c.opposite = (-(forward c).1, -(forward c).2) := by
  rcases hc with rfl | rfl <;> rfl

/-- **Attacks of the rules** are those that are seen from the king. -/
theorem inCheck_iff (hmen : OfMen P) (hplaced : Placed P) (hc : c.IsSide)
    (hk : P k = some ⟨.king, c⟩) (hunique : ∀ k', P k' = some ⟨.king, c⟩ → k' = k) :
    InCheck P c ↔ AttackedFrom P c k := by
  have hvalid := hmen.onBoard _ _ hk
  have hpalace : Palace c k := hplaced.palace _ _ hk (.inl rfl)
  have hon := onBoard_iff_isValid.mpr hvalid
  -- an enemy attacks if he reaches the king
  have hreach : InCheck P c ↔ ∃ a type, P a = some ⟨type, c.opposite⟩ ∧
      Reaches P ⟨type, c.opposite⟩ a k := by
    constructor
    · rintro ⟨k', a, m, hk', ha, hm, -, m', hm', hreach, -⟩
      obtain rfl := hunique k' hk'
      obtain rfl := Option.some.inj (ha.symm.trans hm')
      obtain ⟨type, color⟩ := m
      obtain rfl : color = c.opposite := hc.eq_opposite (hmen.side _ _ ha) hm
      exact ⟨a, type, ha, hreach⟩
    · rintro ⟨a, type, ha, hreach⟩
      refine ⟨k, a, _, hk, ha, hc.opposite_ne, hon, _, ha, hreach, fun n hn => ?_⟩
      obtain rfl := Option.some.inj (hk.symm.trans hn)
      exact hc.opposite_ne.symm
  rw [hreach]
  constructor
  · rintro ⟨a, type, ha, hr⟩
    have hva := hmen.onBoard _ _ ha
    have hocc := occupied_of_some ha
    cases type with
    | invalid => exact hr.elim
    | king =>
      have hfar : Palace c.opposite k := hr.1
      rcases hc with rfl | rfl <;> simp [Palace] at hpalace hfar <;> omega
    | advisor =>
      have hfar : Palace c.opposite k := hr.1
      rcases hc with rfl | rfl <;> simp [Palace] at hpalace hfar <;> omega
    | elephant =>
      have hfar : OwnHalf c.opposite k := hr.1
      rcases hc with rfl | rfl <;> simp [Palace, OwnHalf] at hpalace hfar <;> omega
    | chariot =>
      obtain ⟨hstraight, hnone⟩ := (upToFirst_iff _ hva hvalid).mp hr
      obtain ⟨d, hd, hfirst⟩ := (find?_iff (occupied P) hvalid hva).mpr
        ⟨isStraight_comm.trans hstraight, (between_comm hstraight).symm.trans hnone, hocc⟩
      exact .chariot a ha hd hfirst
    | horse =>
      obtain ⟨d, hd, hfree, e, he, hde, rfl⟩ := hr
      have hback : shift (-e.1, -e.2) (shift e (shift d a)) = shift d a := by
        simp [shift]
      refine .horse a ha (e := (-e.1, -e.2)) ?_ (by rw [hback]; exact hfree)
        (d := (-d.1, -d.2)) ?_ (by simpa using hde) ?_
      · rcases (show e = (-1, -1) ∨ e = (-1, 1) ∨ e = (1, -1) ∨ e = (1, 1) by
          simpa [diagonals] using he) with rfl | rfl | rfl | rfl <;> decide
      · rcases mem_orthogonals hd with rfl | rfl | rfl | rfl <;> decide
      · rw [hback]
        simp [shift]
    | cannon =>
      obtain ⟨d, hd, hfree | hsecond⟩ := hr
      · have hnot := List.mem_takeWhile_imp hfree
        simp [Xiangqi.occupied, hk] at hnot
      · obtain ⟨hstraight, hone, -⟩ :=
          (second?_iff (occupied P) hva hvalid).mp ⟨d, hd, hsecond⟩
        obtain ⟨d', hd', hsecond'⟩ := (second?_iff (occupied P) hvalid hva).mpr
          ⟨isStraight_comm.trans hstraight, (between_comm hstraight).symm.trans hone, hocc⟩
        exact .cannon a ha hd' hsecond'
    | pawn =>
      refine .pawn a ha ?_
      have hr' : k = shift (forward c.opposite) a ∨
          ¬ OwnHalf c.opposite a ∧ (k = shift (1, 0) a ∨ k = shift (-1, 0) a) := hr
      rw [forward_opposite hc] at hr'
      rcases hr' with rfl | ⟨-, rfl | rfl⟩
      · exact .inl (by simp [shift])
      · exact .inr (.inr (by simp [shift]))
      · exact .inr (.inl (by simp [shift]))
  · intro h
    cases h with
    | pawn a ha hstep =>
      refine ⟨a, .pawn, ha, ?_⟩
      show k = shift (forward c.opposite) a ∨
          ¬ OwnHalf c.opposite a ∧ (k = shift (1, 0) a ∨ k = shift (-1, 0) a)
      rw [forward_opposite hc]
      have hbeyond : ∀ x, ¬ OwnHalf c.opposite (shift (x, 0) k) := by
        intro x hown
        rcases hc with rfl | rfl <;> simp [Palace, OwnHalf, shift] at hpalace hown <;> omega
      rcases hstep with rfl | rfl | rfl
      · exact .inl (by simp [shift])
      · exact .inr ⟨hbeyond 1, .inr (by simp [shift])⟩
      · exact .inr ⟨hbeyond (-1), .inl (by simp [shift])⟩
    | horse a ha he hfree hd hde hstep =>
      rename_i e d
      refine ⟨a, .horse, ha, ?_⟩
      have hback : shift (-d.1, -d.2) a = shift e k := by
        rw [hstep]
        simp [shift]
      refine ⟨(-d.1, -d.2), ?_, by rw [hback]; exact hfree, (-e.1, -e.2), ?_, by simpa using hde, ?_⟩
      · rcases mem_orthogonals hd with rfl | rfl | rfl | rfl <;> decide
      · rcases (show e = (-1, -1) ∨ e = (-1, 1) ∨ e = (1, -1) ∨ e = (1, 1) by
          simpa [diagonals] using he) with rfl | rfl | rfl | rfl <;> decide
      · rw [hback]
        simp [shift]
    | chariot a ha hd hfirst =>
      have hva := hmen.onBoard _ _ ha
      obtain ⟨hstraight, hnone, -⟩ := (find?_iff (occupied P) hvalid hva).mp ⟨_, hd, hfirst⟩
      refine ⟨a, .chariot, ha, ?_⟩
      exact (upToFirst_iff _ hva hvalid).mpr
        ⟨isStraight_comm.trans hstraight, (between_comm hstraight).symm.trans hnone⟩
    | cannon a ha hd hsecond =>
      have hva := hmen.onBoard _ _ ha
      obtain ⟨hstraight, hone, -⟩ :=
        (second?_iff (occupied P) hvalid hva).mp ⟨_, hd, hsecond⟩
      obtain ⟨d', hd', hsecond'⟩ := (second?_iff (occupied P) hva hvalid).mpr
        ⟨isStraight_comm.trans hstraight, (between_comm hstraight).symm.trans hone,
          occupied_of_some hk⟩
      exact ⟨a, .cannon, ha, d', hd', .inr hsecond'⟩

/-! ## Kings that face each other -/

theorem between_eq_zero (h : isStraight a b = true) : between (Xiangqi.occupied P) a b = 0 ↔
    ∀ r, (r.x = a.x ∧ a.x = b.x ∧ (b.y < r.y ∧ r.y < a.y ∨ a.y < r.y ∧ r.y < b.y)) ∨
      (r.y = a.y ∧ a.y = b.y ∧ (b.x < r.x ∧ r.x < a.x ∨ a.x < r.x ∧ r.x < b.x)) → P r = none := by
  rw [between, List.countP_eq_zero]
  simp only [mem_middlePositions h, Xiangqi.occupied, Bool.not_eq_true, Option.isSome_eq_false_iff,
    Option.isNone_iff_eq_none]

/-- **Kings that face each other**, seen from one of them. -/
theorem kingsFacing_iff (hmen : OfMen P) (hplaced : Placed P) (hc : c.IsSide)
    (hk : P k = some ⟨.king, c⟩) (hunique : ∀ k', P k' = some ⟨.king, c⟩ → k' = k) :
    KingsFacing P ↔ ∃ a, P a = some ⟨.king, c.opposite⟩ ∧
      ∃ d ∈ orthogonals, (ray k d).find? (Xiangqi.occupied P) = some a := by
  have hvalid := hmen.onBoard _ _ hk
  have hpalace : Palace c k := hplaced.palace _ _ hk (.inl rfl)
  -- the other king is on another rank, so the line is a file
  have hrank : ∀ a, P a = some ⟨.king, c.opposite⟩ → a.y ≠ k.y := by
    intro a ha heq
    have hfar : Palace c.opposite a := hplaced.palace _ _ ha (.inl rfl)
    rcases hc with rfl | rfl <;> simp [Palace] at hpalace hfar <;> omega
  have hfile : ∀ a, P a = some ⟨.king, c.opposite⟩ →
      ((∃ d ∈ orthogonals, (ray k d).find? (Xiangqi.occupied P) = some a) ↔
        k.x = a.x ∧ ∀ y, min k.y a.y < y → y < max k.y a.y → P ⟨k.x, y⟩ = none) := by
    intro a ha
    have hy := hrank a ha
    rw [find?_iff _ hvalid (hmen.onBoard _ _ ha)]
    constructor
    · rintro ⟨hstraight, hnone, -⟩
      have hx : k.x = a.x := by
        simp only [isStraight, decide_eq_true_eq] at hstraight
        omega
      refine ⟨hx, fun y hlo hhi => (between_eq_zero hstraight).mp hnone ⟨k.x, y⟩ (.inl ?_)⟩
      exact ⟨rfl, hx, by simp only; omega⟩
    · rintro ⟨hx, hnone⟩
      have hstraight : isStraight k a = true := by
        simp only [isStraight, decide_eq_true_eq]
        omega
      refine ⟨hstraight, (between_eq_zero hstraight).mpr fun r hr => ?_, occupied_of_some ha⟩
      rcases hr with ⟨hrx, -, hry⟩ | ⟨-, hky, -⟩
      · have hr : r = ⟨k.x, r.y⟩ := Position.ext hrx rfl
        rw [hr]
        exact hnone r.y (by omega) (by omega)
      · exact absurd hky.symm hy
  constructor
  · rintro ⟨b, r, hb, hr, hx, hnone⟩
    rcases hc with rfl | rfl
    · obtain rfl := hunique r hr
      refine ⟨b, hb, (hfile b hb).mpr ⟨hx.symm, fun y hlo hhi => ?_⟩⟩
      rw [← hx]
      exact hnone y (by omega) (by omega)
    · obtain rfl := hunique b hb
      exact ⟨r, hr, (hfile r hr).mpr ⟨hx, hnone⟩⟩
  · rintro ⟨a, ha, hline⟩
    obtain ⟨hx, hnone⟩ := (hfile a ha).mp hline
    rcases hc with rfl | rfl
    · refine ⟨a, k, ha, hk, hx.symm, fun y hlo hhi => ?_⟩
      rw [← hx]
      exact hnone y (by omega) (by omega)
    · exact ⟨k, a, hk, ha, hx, hnone⟩

/-! ## `Checked` -/

namespace PositionStruct

variable {p : PositionStruct}

theorem ofMen_placement : OfMen p.placement where
  onBoard _ _ h := isValid_of_placement h
  side q m h := by
    obtain ⟨sd, -, hsd, -⟩ := piece_of_placement h
    exact hsd ▸ sd.isSide_color

/-- A piece of a side on a square, as a man on a point. -/
theorem Clean.piece_iff (h : p.Clean) {q : Position} (hq : Near q) (sd : Side) {n : Nat}
    (hn : n < 7) : p.ucpcSquares (square q) = sideTag sd + n ↔
      p.placement q = some ⟨pieceType n, sd.color⟩ := by
  constructor
  · intro hpc
    have hne : p.ucpcSquares (square q) ≠ 0 := by
      rw [hpc]
      cases sd <;> simp [sideTag]
    have hvalid : q.isValid = true := (inBoard_square hq).symm.trans (h _ hne).1
    rw [placement_of_isValid hvalid, hpc, man?_add sd hn]
  · intro hman
    obtain ⟨sd', n', hsd, hpc, hn', htype⟩ := piece_of_placement hman
    have hside : sd' = sd := by
      revert hsd
      cases sd <;> cases sd' <;> simp [Side.color]
    have htype' : n' = n := by
      revert htype
      simp only
      interval_cases n <;> interval_cases n' <;> simp [pieceType]
    rw [hpc, hside, htype']

theorem Clean.hasOpp_iff (h : p.Clean) {q : Position} (hq : Near q) {n : Nat} (hn : n < 7) :
    p.hasOpp n (square q) = true ↔
      p.placement q = some ⟨pieceType n, p.sdPlayer.color.opposite⟩ := by
  rw [hasOpp, decide_eq_true_eq, oppSideTag_eq, h.piece_iff hq _ hn, Side.color_opposite]

/-- The steps to the legs of knights that attack, and to the knights. -/
theorem mem_knightCheckDelta {nPin n : Int} :
    (∃ nDeltas, (nPin, nDeltas) ∈ ccAdvisorDelta.zip ccKnightCheckDelta ∧ n ∈ nDeltas) ↔
      ∃ e ∈ diagonals, ∃ d ∈ orthogonals, d.1 * e.1 + d.2 * e.2 = 1 ∧ nPin = delta e ∧
        n = delta e + delta d := by
  constructor
  · rintro ⟨nDeltas, hpair, hn⟩
    have hall : ∀ x ∈ ccAdvisorDelta.zip ccKnightCheckDelta, ∀ n ∈ x.2, ∃ e ∈ diagonals,
        ∃ d ∈ orthogonals, d.1 * e.1 + d.2 * e.2 = 1 ∧ x.1 = delta e ∧ n = delta e + delta d := by
      decide
    exact hall _ hpair n hn
  · rintro ⟨e, he, d, hd, hde, rfl, rfl⟩
    have hall : ∀ e ∈ diagonals, ∀ d ∈ orthogonals, d.1 * e.1 + d.2 * e.2 = 1 →
        ∃ x ∈ ccAdvisorDelta.zip ccKnightCheckDelta, x.1 = delta e ∧ delta e + delta d ∈ x.2 := by
      decide
    obtain ⟨⟨_, nDeltas⟩, hpair, rfl, hn⟩ := hall e he d hd hde
    exact ⟨nDeltas, hpair, hn⟩

/-- **`Checked`**: the king is attacked, or faces the other one. -/
theorem Clean.checked_iff (h : p.Clean) (hplaced : Placed p.placement)
    (hk : p.placement k = some ⟨.king, p.sdPlayer.color⟩)
    (hunique : ∀ k', p.placement k' = some ⟨.king, p.sdPlayer.color⟩ → k' = k) :
    p.checked = true ↔ InCheck p.placement p.sdPlayer.color ∨ KingsFacing p.placement := by
  have hvalid := isValid_of_placement hk
  have hside := p.sdPlayer.isSide_color
  -- the loop finds the king
  have hfind : squares.find? (fun sq => p.ucpcSquares sq = sideTag p.sdPlayer + pieceKing) =
      some (square k) := by
    have hking : p.ucpcSquares (square k) = sideTag p.sdPlayer + pieceKing :=
      (h.piece_iff (near_of_isValid hvalid) _ (by decide)).mpr hk
    have hmem : ∃ sq ∈ squares, decide (p.ucpcSquares sq = sideTag p.sdPlayer + pieceKing) = true :=
      ⟨square k, square_mem_squares hvalid, decide_eq_true hking⟩
    obtain ⟨sq, hsq⟩ := Option.isSome_iff_exists.mp (List.find?_isSome.mpr hmem)
    have hpc : p.ucpcSquares sq = sideTag p.sdPlayer + pieceKing := by
      simpa using List.find?_some hsq
    have hne : p.ucpcSquares sq ≠ 0 := by
      rw [hpc]
      cases p.sdPlayer <;> decide
    obtain ⟨q, hq, rfl⟩ := exists_square (h sq hne).1
    rw [hsq, hunique q ((h.piece_iff (near_of_isValid hq) _ (by decide)).mp hpc)]
  -- a line
  have hline : ∀ d ∈ orthogonals, p.checkedOnLine (line (square k) (delta d)) = true ↔
      (∃ a, (ray k d).find? (Xiangqi.occupied p.placement) = some a ∧
        (p.placement a = some ⟨.chariot, p.sdPlayer.color.opposite⟩ ∨
          p.placement a = some ⟨.king, p.sdPlayer.color.opposite⟩)) ∨
      ∃ a, Lib.second? (Xiangqi.occupied p.placement) (ray k d) = some a ∧
        p.placement a = some ⟨.cannon, p.sdPlayer.color.opposite⟩ := by
    intro d hd
    rw [checkedOnLine, line_square hd hvalid, Lib.find?_map_of h.occupied_ray,
      Lib.second?_map_of h.occupied_ray, Bool.or_eq_true]
    simp only [Option.any_map, Option.any_eq_true, Bool.or_eq_true]
    refine or_congr (exists_congr fun a => and_congr_right fun ha => ?_)
      (exists_congr fun a => and_congr_right fun ha => ?_)
    · have hnear := near_of_isValid (isValid_of_mem_ray (List.mem_of_find?_eq_some ha))
      rw [h.hasOpp_iff hnear (by decide), h.hasOpp_iff hnear (by decide)]
      rfl
    · have hnear := near_of_isValid (isValid_of_mem_ray (Lib.mem_of_second? ha))
      rw [h.hasOpp_iff hnear (by decide)]
      rfl
  rw [inCheck_iff ofMen_placement hplaced hside hk hunique,
    kingsFacing_iff ofMen_placement hplaced hside hk hunique, checked, hfind]
  simp only [Bool.or_eq_true]
  have hpawn : ∀ d ∈ orthogonals, p.hasOpp piecePawn (square (shift d k)) = true ↔
      p.placement (shift d k) = some ⟨.pawn, p.sdPlayer.color.opposite⟩ := fun d hd =>
    h.hasOpp_iff (near_shift hvalid (.inl hd)) (by decide)
  have hright : square k + 1 = square (shift (1, 0) k) := by
    rw [square_shift]
    rfl
  have hleft : square k + -1 = square (shift (-1, 0) k) := by
    rw [square_shift]
    rfl
  constructor
  · rintro (((hahead | hbeside) | hhorse) | hlines)
    · rw [squareForward_square, hpawn _ (forward_mem _)] at hahead
      exact .inl (.pawn _ hahead (.inl rfl))
    · simp only [List.any_cons, List.any_nil, Bool.or_false, Bool.or_eq_true, hleft, hright] at hbeside
      rcases hbeside with hpc | hpc
      · exact .inl (.pawn _ ((hpawn (-1, 0) (by decide)).mp hpc) (.inr (.inr rfl)))
      · exact .inl (.pawn _ ((hpawn (1, 0) (by decide)).mp hpc) (.inr (.inl rfl)))
    · obtain ⟨⟨nPin, nDeltas⟩, hpair, hfound⟩ := List.any_eq_true.mp hhorse
      rw [Bool.and_eq_true, Bool.not_eq_true'] at hfound
      obtain ⟨hfree, hfound⟩ := hfound
      obtain ⟨n, hn, hpc⟩ := List.any_eq_true.mp hfound
      obtain ⟨e, he, d, hd, hde, rfl, rfl⟩ := mem_knightCheckDelta.mp ⟨nDeltas, hpair, hn⟩
      rw [← square_shift, h.occupied_eq_false (near_shift hvalid (.inr he))] at hfree
      rw [← add_assoc, ← square_shift, ← square_shift,
        h.hasOpp_iff (near_shift_shift hvalid (.inr he) (.inl hd)) (by decide)] at hpc
      exact .inl (.horse _ hpc he hfree hd hde rfl)
    · obtain ⟨n, hn, hfound⟩ := List.any_eq_true.mp hlines
      obtain ⟨d, hd, rfl⟩ := mem_ccKingDelta.mp hn
      rcases (hline d hd).mp hfound with ⟨a, hfirst, ha | ha⟩ | ⟨a, hsecond, ha⟩
      · exact .inl (.chariot a ha hd hfirst)
      · exact .inr ⟨a, ha, d, hd, hfirst⟩
      · exact .inl (.cannon a ha hd hsecond)
  · have hlines : ∀ d ∈ orthogonals, p.checkedOnLine (line (square k) (delta d)) = true →
        (ccKingDelta.any fun nDelta => p.checkedOnLine (line (square k) nDelta)) = true :=
      fun d hd hfound => List.any_eq_true.mpr ⟨_, mem_ccKingDelta.mpr ⟨d, hd, rfl⟩, hfound⟩
    rintro (hattack | ⟨a, ha, d, hd, hfirst⟩)
    · cases hattack with
      | pawn a ha hstep =>
        rcases hstep with rfl | rfl | rfl
        · rw [squareForward_square]
          exact .inl (.inl (.inl ((hpawn _ (forward_mem _)).mpr ha)))
        · refine .inl (.inl (.inr ?_))
          simp [hright, (hpawn (1, 0) (by decide)).mpr ha]
        · refine .inl (.inl (.inr ?_))
          simp [hleft, (hpawn (-1, 0) (by decide)).mpr ha]
      | horse a ha he hfree hd hde hstep =>
        subst hstep
        obtain ⟨nDeltas, hpair, hn⟩ := mem_knightCheckDelta.mpr ⟨_, he, _, hd, hde, rfl, rfl⟩
        refine .inl (.inr (List.any_eq_true.mpr ⟨_, hpair, ?_⟩))
        rw [Bool.and_eq_true, Bool.not_eq_true', ← square_shift,
          h.occupied_eq_false (near_shift hvalid (.inr he))]
        refine ⟨hfree, List.any_eq_true.mpr ⟨_, hn, ?_⟩⟩
        rw [← add_assoc, ← square_shift, ← square_shift,
          h.hasOpp_iff (near_shift_shift hvalid (.inr he) (.inl hd)) (by decide)]
        exact ha
      | chariot a ha hd hfirst =>
        exact .inr (hlines _ hd ((hline _ hd).mpr (.inl ⟨a, hfirst, .inl ha⟩)))
      | cannon a ha hd hsecond =>
        exact .inr (hlines _ hd ((hline _ hd).mpr (.inr ⟨a, hsecond, ha⟩)))
    · exact .inr (hlines _ hd ((hline _ hd).mpr (.inl ⟨a, hfirst, .inr ha⟩)))

end PositionStruct

end HoxServer.XQWLight
