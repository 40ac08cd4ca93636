/-
HoxServer.XQWLight.Sound — what holds of every position of a game.

`Sound` says that the squares hold men on the board and nothing else, that
kings, advisors and elephants are where they can be, that each side has
one king and at most the men of a game, and that the side which has moved
is not attacked. The moves that the engine makes keep this (`Sound.made`,
`Sound.passed`), so the arrays of generated moves never overflow: there
are at most 119 of them (`Sound.length_generated_le`).
-/
import HoxServer.XQWLight.LegalMove
import HoxServer.XQWLight.Check

namespace HoxServer.XQWLight

open Xiangqi

namespace PositionStruct

variable {Z : Zobrist} {p q : PositionStruct} {a c : Position} {m : Man}

/-! ## How many men there are -/

/-- The number of squares with the piece `pc`. -/
def count (p : PositionStruct) (pc : Nat) : Nat :=
  (allSquares.filter fun sq => p.ucpcSquares sq = pc).card

theorem count_eq (p : PositionStruct) (pc : Nat) :
    p.count pc = squares.countP fun sq => p.ucpcSquares sq = pc := by
  have hfilter : allSquares.filter (fun sq => p.ucpcSquares sq = pc) =
      (squares.filter fun sq => p.ucpcSquares sq = pc).toFinset := by
    ext sq
    simp [allSquares]
  rw [count, hfilter, List.toFinset_card_of_nodup (squares_nodup.filter _),
    List.countP_eq_length_filter]

/-- The men of a type that a side has at most. -/
def allowed : Nat → Nat
  | 0 => 1
  | 6 => 5
  | _ => 2

/-- The moves that a piece of a type has at most. -/
def mobility : Nat → Nat
  | 3 => 8
  | 4 => 17
  | 5 => 17
  | 6 => 3
  | _ => 4

theorem count_moved_le {mv : Int} {pc : Nat} (hpc : pc ≠ 0) (hmv : OnSquares mv) :
    (p.moved Z mv).count pc ≤ p.count pc := by
  unfold count
  rw [moved_ucpcSquares]
  by_cases hsame : p.ucpcSquares (src mv) = pc
  · -- the piece leaves its square
    have hsubset : (allSquares.filter fun sq => Function.update (Function.update p.ucpcSquares
        (src mv) 0) (dst mv) (p.ucpcSquares (src mv)) sq = pc) ⊆
        insert (dst mv) ((allSquares.filter fun sq => p.ucpcSquares sq = pc).erase (src mv)) := by
      intro sq hsq
      rw [Finset.mem_filter] at hsq
      rw [Finset.mem_insert, Finset.mem_erase, Finset.mem_filter]
      by_cases hd : sq = dst mv
      · exact .inl hd
      · refine .inr ?_
        by_cases hs : sq = src mv
        · simp [hs, Function.update_apply] at hsq
          have : src mv ≠ dst mv := fun h => hd (hs.trans h)
          simp [this] at hsq
          exact absurd hsq.2.symm hpc
        · simp only [Function.update_of_ne hd, Function.update_of_ne hs] at hsq
          exact ⟨hs, hsq⟩
    have hmem : src mv ∈ allSquares.filter fun sq => p.ucpcSquares sq = pc :=
      Finset.mem_filter.mpr ⟨hmv.src_mem, hsame⟩
    refine (Finset.card_le_card hsubset).trans ((Finset.card_insert_le _ _).trans ?_)
    rw [Finset.card_erase_of_mem hmem]
    have := Finset.card_pos.mpr ⟨_, hmem⟩
    omega
  · refine Finset.card_le_card fun sq hsq => ?_
    rw [Finset.mem_filter] at hsq ⊢
    refine ⟨hsq.1, ?_⟩
    by_cases hd : sq = dst mv
    · simp [hd] at hsq
      exact absurd hsq.2 hsame
    · by_cases hs : sq = src mv
      · have hne : src mv ≠ dst mv := fun h => hd (hs.trans h)
        simp [hs, Function.update_of_ne hne] at hsq
        exact absurd hsq.2.symm hpc
      · simpa [Function.update_of_ne hd, Function.update_of_ne hs] using hsq.2

/-! ## How many moves there are -/

/-- The lengths of the four rays of a point. -/
def rayLength (a : Position) (d : Int × Int) : Int :=
  if d = (0, -1) then a.y else if d = (1, 0) then 8 - a.x
  else if d = (0, 1) then 9 - a.y else a.x

theorem length_line_le {d : Int × Int} (hd : d ∈ orthogonals) (ha : a.isValid = true) :
    (line (square a) (delta d)).length ≤ (rayLength a d).toNat := by
  rw [line_square hd ha, List.length_map]
  refine Lib.length_walk_le ?_
  rw [Position.isValid_iff] at ha
  rw [shift_iterate, Bool.eq_false_iff, ne_eq, Position.isValid_iff]
  rcases mem_orthogonals hd with rfl | rfl | rfl | rfl <;> simp [rayLength] <;> omega

theorem length_freeSquares_le (bCapture : Bool) (l : List Int) :
    (p.freeSquares bCapture l).length ≤ (l.takeWhile fun sq => !p.occupied sq).length := by
  unfold freeSquares
  split <;> simp

theorem length_rookLine_le (bCapture : Bool) (l : List Int) :
    (p.rookLine bCapture l).length ≤ l.length := by
  have hall : (Lib.upToFirst p.occupied l).length ≤ l.length := Lib.length_upToFirst_le l
  rw [Lib.upToFirst_eq, List.length_append] at hall
  have hfree := p.length_freeSquares_le bCapture l
  have hlast := List.length_filter_le (fun sq => p.isOpp (p.ucpcSquares sq))
    (l.find? p.occupied).toList
  rw [rookLine, List.length_append]
  omega

theorem length_cannonLine_le (bCapture : Bool) (l : List Int) :
    (p.cannonLine bCapture l).length ≤ l.length := by
  have hall : (l.takeWhile fun sq => !p.occupied sq).length +
      (Lib.second? p.occupied l).toList.length ≤ l.length :=
    Lib.length_takeWhile_add_second?_le l
  have hfree := p.length_freeSquares_le bCapture l
  have hlast := List.length_filter_le (fun sq => p.isOpp (p.ucpcSquares sq))
    (Lib.second? p.occupied l).toList
  rw [cannonLine, List.length_append]
  omega

/-- The four lines together. -/
theorem length_lines_le {f : Int → List Int}
    (hf : ∀ n, (f n).length ≤ (line (square a) n).length) (ha : a.isValid = true) :
    (ccKingDelta.flatMap f).length ≤ 17 := by
  have hline : ∀ d ∈ orthogonals, (f (delta d)).length ≤ (rayLength a d).toNat := fun d hd =>
    (hf _).trans (length_line_le hd ha)
  have hup := hline (0, -1) (by decide)
  have hright := hline (1, 0) (by decide)
  have hdown := hline (0, 1) (by decide)
  have hleft := hline (-1, 0) (by decide)
  rw [Position.isValid_iff] at ha
  simp only [rayLength, delta, Prod.mk.injEq, if_true] at hup hright hdown hleft
  simp only [ccKingDelta, List.flatMap_cons, List.flatMap_nil, List.length_append,
    List.length_nil]
  norm_num at hup hright hdown hleft
  omega

/-- **At most** so many moves of one piece. -/
theorem length_destinations_le (bCapture : Bool) (ha : a.isValid = true) {n : Nat}
    (hn : p.ucpcSquares (square a) - sideTag p.sdPlayer = n) (hlt : n < 7) :
    (p.destinations bCapture (square a)).length ≤ mobility n := by
  have hfort : ∀ deltas : List Int, deltas.length = 4 →
      (p.fortSquares bCapture deltas (square a)).length ≤ 4 := by
    intro deltas hlength
    refine (List.length_filter_le _ _).trans ?_
    rw [List.length_map, hlength]
  unfold destinations
  rw [hn]
  interval_cases n
  · exact hfort _ rfl
  · exact hfort _ rfl
  · refine (List.length_filter_le _ _).trans ?_
    rw [List.length_map]
    exact List.length_filter_le _ _
  · have hpair : ∀ x ∈ ccKingDelta.zip ccKnightDelta,
        (if p.occupied (square a + x.1) then [] else (x.2.map (square a + ·)).filter
          fun sqDst => inBoard sqDst && p.wanted bCapture sqDst).length ≤ 2 := by
      intro x hx
      have hlength : x.2.length = 2 := by
        have hall : ∀ x ∈ ccKingDelta.zip ccKnightDelta, x.2.length = 2 := by decide
        exact hall x hx
      split
      · exact Nat.zero_le 2
      · refine (List.length_filter_le _ _).trans ?_
        rw [List.length_map, hlength]
    have hsum : ∀ l : List (Int × List Int), (∀ x ∈ l, x ∈ ccKingDelta.zip ccKnightDelta) →
        (l.flatMap fun x => if p.occupied (square a + x.1) then [] else
          (x.2.map (square a + ·)).filter
            fun sqDst => inBoard sqDst && p.wanted bCapture sqDst).length ≤ 2 * l.length := by
      intro l
      induction l with
      | nil => intro _; exact Nat.le_refl 0
      | cons x l ih =>
        intro hl
        have hx := hpair x (hl x List.mem_cons_self)
        have hrest := ih fun y hy => hl y (List.mem_cons_of_mem x hy)
        rw [List.flatMap_cons, List.length_append, List.length_cons]
        omega
    exact hsum _ fun x hx => hx
  · exact length_lines_le (fun n => p.length_rookLine_le bCapture _) ha
  · exact length_lines_le (fun n => p.length_cannonLine_le bCapture _) ha
  · refine (List.length_filter_le _ _).trans ?_
    rw [List.length_cons]
    split <;> simp [mobility]

/-- The numbers of own men of each type, on some squares. -/
def weight (p : PositionStruct) (l : List Int) : Nat :=
  ((List.range 7).map fun n =>
    mobility n * l.countP fun sq => p.ucpcSquares sq = sideTag p.sdPlayer + n).sum

theorem Clean.length_generated_le (h : p.Clean) (bCapture : Bool) :
    (p.generated bCapture).length ≤ p.weight squares := by
  unfold generated
  generalize squares = l
  induction l with
  | nil => simp
  | cons sq l ih =>
    have hcons : p.weight (sq :: l) = p.weight l + p.weight [sq] := by
      simp only [weight, List.countP_cons, List.countP_nil, List.range, List.range.loop,
        List.map_cons, List.map_nil, List.sum_cons, List.sum_nil]
      ring
    have hone : (if p.isSelf (p.ucpcSquares sq) then
        (p.destinations bCapture sq).map (move sq) else []).length ≤ p.weight [sq] := by
      split
      · rename_i hself
        have hpc : p.ucpcSquares sq ≠ 0 := by
          intro h0
          simp [PositionStruct.isSelf, h0] at hself
        obtain ⟨a, ha, rfl⟩ := exists_square (h sq hpc).1
        obtain ⟨m, hm, hown⟩ := (h.isSelf ha).mp hself
        obtain ⟨sd, n, hsd, hpc, hlt, -⟩ := piece_of_placement hm
        obtain rfl : sd = p.sdPlayer := by
          have hsame : sd.color = p.sdPlayer.color := hsd.symm.trans hown
          revert hsame
          cases sd <;> cases p.sdPlayer <;> simp [Side.color]
        rw [List.length_map]
        refine (length_destinations_le bCapture ha (n := n) (by omega) hlt).trans ?_
        simp only [weight, hpc, List.countP_cons, List.countP_nil, List.range, List.range.loop,
          List.map_cons, List.map_nil, List.sum_cons, List.sum_nil, Nat.add_left_cancel_iff]
        interval_cases n <;> simp
      · exact Nat.zero_le _
    rw [List.flatMap_cons, List.length_append, hcons]
    omega

/-! ## Sound positions -/

/-- A position with the men of a game, where they can be. -/
structure Manned (p : PositionStruct) : Prop where
  clean : p.Clean
  placed : Placed p.placement
  king : ∀ sd : Side, ∃ k, p.placement k = some ⟨.king, sd.color⟩
  men : ∀ sd, ∀ n < 7, p.count (sideTag sd + n) ≤ allowed n

/-- What holds of every position of a game: the side that has moved is not
attacked, and the kings do not face each other. -/
structure Sound (p : PositionStruct) : Prop extends p.Manned where
  quiet : ¬ InCheck p.placement p.sdPlayer.opposite.color
  notFacing : ¬ KingsFacing p.placement

theorem placement_congr (hboard : q.ucpcSquares = p.ucpcSquares) : q.placement = p.placement := by
  unfold placement
  rw [hboard]

theorem Manned.congr (h : p.Manned) (hboard : q.ucpcSquares = p.ucpcSquares) : q.Manned := by
  have hplacement := placement_congr hboard
  refine ⟨?_, ?_, ?_, ?_⟩
  · unfold Clean
    rw [hboard]
    exact h.clean
  · rw [hplacement]
    exact h.placed
  · rw [hplacement]
    exact h.king
  · unfold count
    rw [hboard]
    exact h.men

/-- A side has one king. -/
theorem Manned.king_unique (h : p.Manned) (sd : Side)
    (ha : p.placement a = some ⟨.king, sd.color⟩) (hc : p.placement c = some ⟨.king, sd.color⟩) :
    a = c := by
  have hmem : ∀ q, p.placement q = some ⟨.king, sd.color⟩ →
      square q ∈ allSquares.filter fun sq => p.ucpcSquares sq = sideTag sd + 0 := by
    intro q hq
    have hvalid := isValid_of_placement hq
    rw [Finset.mem_filter, mem_allSquares, ← mem_squares]
    exact ⟨square_mem_squares hvalid, (h.clean.piece_iff (near_of_isValid hvalid) sd
      (by decide)).mpr hq⟩
  have hone := Finset.card_le_one.mp (h.men sd 0 (by decide)) _ (hmem a ha) _ (hmem c hc)
  exact square_inj (near_of_isValid (isValid_of_placement ha))
    (near_of_isValid (isValid_of_placement hc)) hone

/-- **`Checked`** on the men of a game. -/
theorem Manned.checked_iff (h : p.Manned) : p.checked = true ↔
    InCheck p.placement p.sdPlayer.color ∨ KingsFacing p.placement := by
  obtain ⟨k, hk⟩ := h.king p.sdPlayer
  exact h.clean.checked_iff h.placed hk fun k' hk' => h.king_unique p.sdPlayer hk' hk

/-- **At most** 119 moves. -/
theorem Manned.length_generated_le (h : p.Manned) (bCapture : Bool) :
    (p.generated bCapture).length ≤ 119 := by
  refine (h.clean.length_generated_le bCapture).trans ?_
  have hmen : ∀ n < 7, (squares.countP fun sq => p.ucpcSquares sq = sideTag p.sdPlayer + n) ≤
      allowed n := fun n hn => (p.count_eq _).symm.trans_le (h.men p.sdPlayer n hn)
  have h0 := hmen 0 (by decide)
  have h1 := hmen 1 (by decide)
  have h2 := hmen 2 (by decide)
  have h3 := hmen 3 (by decide)
  have h4 := hmen 4 (by decide)
  have h5 := hmen 5 (by decide)
  have h6 := hmen 6 (by decide)
  simp only [allowed] at h0 h1 h2 h3 h4 h5 h6
  simp only [weight, mobility, List.range, List.range.loop, List.map_cons, List.map_nil,
    List.sum_cons, List.sum_nil]
  omega

/-- **`GenerateMoves`** writes inside of its array. -/
theorem Manned.generateMoves_eq (h : p.Manned) (bCapture : Bool) :
    p.generateMoves bCapture = .ok (p.generated bCapture) := by
  have hlength := h.length_generated_le bCapture
  exact if_pos (hlength.trans (by decide))

/-! ### Moves -/

theorem placement_moved (ha : a.isValid = true) (hc : c.isValid = true) :
    (p.moved Z (move (square a) (square c))).placement = p.placement.move a c := by
  funext q
  unfold placement
  rw [moved_ucpcSquares, src_move ha, dst_move ha]
  by_cases hq : q.isValid = true
  · have hsquare : ∀ r : Position, r.isValid = true → (square q = square r ↔ q = r) := fun r hr =>
      ⟨square_inj (near_of_isValid hq) (near_of_isValid hr), congrArg square⟩
    by_cases hqc : q = c
    · subst hqc
      simp [Placement.move, hq, ha]
    · by_cases hqa : q = a
      · subst hqa
        have hne := (hsquare c hc).not.mpr hqc
        simp [Placement.move, hq, Function.update_of_ne hne, Function.update_of_ne hqc, man?_zero]
      · simp [Placement.move, hq, Function.update_of_ne hqc, Function.update_of_ne hqa,
          Function.update_of_ne ((hsquare c hc).not.mpr hqc),
          Function.update_of_ne ((hsquare a ha).not.mpr hqa)]
  · have hqc : q ≠ c := fun h => hq (h ▸ hc)
    have hqa : q ≠ a := fun h => hq (h ▸ ha)
    simp [Placement.move, hq, Function.update_of_ne hqc, Function.update_of_ne hqa]

theorem Clean.moved (h : p.Clean) (ha : a.isValid = true) (hc : c.isValid = true) :
    (p.moved Z (move (square a) (square c))).Clean := by
  intro sq hpc
  rw [moved_ucpcSquares, src_move ha, dst_move ha] at hpc ⊢
  by_cases hd : sq = square c
  · subst hd
    simp only [Function.update_self] at hpc ⊢
    exact ⟨(inBoard_square (near_of_isValid hc)).trans hc, (h _ hpc).2⟩
  · rw [Function.update_of_ne hd] at hpc ⊢
    by_cases hs : sq = square a
    · exact absurd (by simp [hs]) hpc
    · rw [Function.update_of_ne hs] at hpc ⊢
      exact h sq hpc

/-- Moves keep to the palaces and to the points of the elephants. -/
theorem placed_move {P : Placement} (h : Placed P) (hlegal : PseudoLegal P a c) :
    Placed (P.move a c) := by
  obtain ⟨-, m, hm, hreach, -⟩ := hlegal
  have hcases : ∀ q n, (P.move a c) q = some n → q = c ∧ n = m ∨ P q = some n := by
    intro q n hn
    by_cases hqc : q = c
    · subst hqc
      rw [move_dest, hm] at hn
      exact .inl ⟨rfl, (Option.some.inj hn).symm⟩
    · by_cases hqa : q = a
      · subst hqa
        rw [move_origin _ hqc] at hn
        cases hn
      · exact .inr ((move_other P hqa hqc).symm.trans hn)
  refine ⟨?_, ?_⟩
  · intro q n hn htype
    rcases hcases q n hn with ⟨rfl, rfl⟩ | hn
    · unfold Reaches at hreach
      rcases htype with htype | htype
      · rw [htype] at hreach
        exact hreach.1
      · rw [htype] at hreach
        exact hreach.1
    · exact h.palace q n hn htype
  · intro q n hn htype
    rcases hcases q n hn with ⟨rfl, rfl⟩ | hn
    · unfold Reaches at hreach
      rw [htype] at hreach
      obtain ⟨hhalf, d, hd, -, rfl⟩ := hreach
      obtain ⟨-, hx, hy⟩ := h.elephant a n hm htype
      have hd' : d = (-1, -1) ∨ d = (-1, 1) ∨ d = (1, -1) ∨ d = (1, 1) := by
        simpa [diagonals] using hd
      refine ⟨hhalf, ?_, ?_⟩
      · rcases hd' with rfl | rfl | rfl | rfl <;> simp only [shift] <;> omega
      · split at hy <;> rcases hd' with rfl | rfl | rfl | rfl <;>
          simp only [shift, *, if_true, if_false] <;> omega
    · exact h.elephant q n hn htype

/-- The king of the other side is not captured. -/
theorem Sound.not_king (h : p.Sound) (hown : p.Own a) (hlegal : PseudoLegal p.placement a c)
    (sd : Side) : p.placement c ≠ some ⟨.king, sd.color⟩ := by
  intro hking
  obtain ⟨m, hm, hcolor⟩ := hown
  have hother : ∀ n, p.placement c = some n → n.color ≠ m.color := by
    obtain ⟨-, m', hm', -, hother⟩ := hlegal
    obtain rfl := Option.some.inj (hm.symm.trans hm')
    exact hother
  have hne : sd.color ≠ m.color := hother _ hking
  obtain rfl : sd = p.sdPlayer.opposite := by
    rw [hcolor] at hne
    revert hne
    cases sd <;> cases p.sdPlayer <;> simp [Side.color, Side.opposite]
  exact h.quiet ⟨c, a, m, hking, hm, hne.symm, hlegal⟩

theorem onSquares_move (ha : a.isValid = true) (hc : c.isValid = true) :
    OnSquares (move (square a) (square c)) := by
  rw [Position.isValid_iff] at ha hc
  simp only [OnSquares, move, square_eq]
  omega

/-- The men after a move. -/
theorem Sound.moved (h : p.Sound) (hown : p.Own a) (hlegal : PseudoLegal p.placement a c) :
    (p.moved Z (move (square a) (square c))).Manned := by
  have ha : a.isValid = true := isValid_of_placement hown.choose_spec.1
  have hc := onBoard_iff_isValid.mp hlegal.1
  refine ⟨h.clean.moved ha hc, ?_, ?_, ?_⟩
  · rw [placement_moved ha hc]
    exact placed_move h.placed hlegal
  · intro sd
    obtain ⟨k, hk⟩ := h.king sd
    rw [placement_moved ha hc]
    by_cases hka : k = a
    · exact ⟨c, by rw [move_dest, ← hka, hk]⟩
    · have hkc : k ≠ c := fun e => h.not_king hown hlegal sd (e ▸ hk)
      exact ⟨k, by rw [move_other _ hka hkc, hk]⟩
  · intro sd n hn
    refine (count_moved_le ?_ (onSquares_move ha hc)).trans (h.men sd n hn)
    cases sd <;> simp [sideTag]

theorem Own.movable (h : p.Own a) (hlegal : PseudoLegal p.placement a c) :
    p.Movable (move (square a) (square c)) := by
  obtain ⟨m, hm, -⟩ := h
  have ha := isValid_of_placement hm
  have hc := onBoard_iff_isValid.mp hlegal.1
  obtain ⟨sd, n, -, hpc, -⟩ := piece_of_placement hm
  unfold Movable
  rw [src_move ha, dst_move ha]
  refine ⟨?_, fun hsame => ?_⟩
  · rw [hpc]
    cases sd <;> simp [sideTag]
  · obtain rfl := square_inj (near_of_isValid ha) (near_of_isValid hc) hsame
    obtain ⟨-, m', hm', -, hother⟩ := hlegal
    exact hother m' hm' rfl

theorem placement_made {mv : Int} : (p.made Z mv).placement = (p.moved Z mv).placement := rfl

theorem Sound.made (h : p.Sound) (hown : p.Own a) (hlegal : PseudoLegal p.placement a c)
    (hsafe : (p.moved Z (move (square a) (square c))).checked = false) :
    (p.made Z (move (square a) (square c))).Sound := by
  have hmanned := h.moved (Z := Z) hown hlegal
  have hnot := (hmanned.checked_iff.not).mp (by simp [hsafe])
  rw [moved_sdPlayer, not_or] at hnot
  refine ⟨hmanned.congr rfl, ?_, ?_⟩
  · rw [made_sdPlayer, Side.opposite_opposite, placement_made]
    exact hnot.1
  · rw [placement_made]
    exact hnot.2

theorem Sound.passed (h : p.Sound) (hsafe : p.checked = false) : (p.passed Z).Sound := by
  have hnot := (h.checked_iff.not).mp (by simp [hsafe])
  refine ⟨h.toManned.congr rfl, ?_, h.notFacing⟩
  show ¬ InCheck p.placement p.sdPlayer.opposite.opposite.color
  rw [Side.opposite_opposite]
  exact fun hin => hnot (.inl hin)

/-! ### The start -/

theorem addPieces_map (p : PositionStruct) (f : Int → Nat) (l : List Int) (sq : Int) :
    (p.addPieces Z (l.map fun sq => (sq, f sq))).ucpcSquares sq =
      if sq ∈ l ∧ f sq ≠ 0 then f sq else p.ucpcSquares sq := by
  induction l generalizing p with
  | nil => simp [addPieces]
  | cons x l ih =>
    show ((if f x ≠ 0 then p.addPiece Z x (f x) else p).addPieces Z
      (l.map fun sq => (sq, f sq))).ucpcSquares sq = _
    rw [ih]
    by_cases hx : f x = 0
    · by_cases hsq : sq = x
      · simp [hsq, hx]
      · simp [hsq, hx]
    · by_cases hsq : sq = x
      · simp [hsq, hx, addPiece]
      · simp [hsq, hx, addPiece]

/-- `cucpcStartup`, as a formula: the men by their distance to the middle
file. -/
def startAt (n : Nat) : Nat :=
  let away := (n % 16 - 7) + (7 - n % 16)
  if 4 < away then 0
  else if n / 16 = 3 then 16 + away
  else if n / 16 = 5 ∧ away = 3 then 21
  else if n / 16 = 6 ∧ away % 2 = 0 then 22
  else if n / 16 = 9 ∧ away % 2 = 0 then 14
  else if n / 16 = 10 ∧ away = 3 then 13
  else if n / 16 = 12 then 8 + away
  else 0

theorem cucpcStartup_eq : cucpcStartup = (List.range 256).map startAt := by decide +kernel

/-- The squares of a new game. -/
def startSquares (sq : Int) : Nat := if 0 ≤ sq ∧ sq < 256 then startAt sq.toNat else 0

theorem startup_ucpcSquares : (startup Z none).ucpcSquares = startSquares := by
  funext sq
  simp only [startup, setIrrev]
  have hentry : entry cucpcStartup sq = startSquares sq := by
    rw [cucpcStartup_eq, entry_map_range]
    rfl
  rw [addPieces_map, hentry]
  by_cases hin : 0 ≤ sq ∧ sq < 256
  · by_cases hzero : startSquares sq = 0
    · simp [hzero]
    · simp [mem_squares, hin, hzero]
  · simp [startSquares, hin]

/-- The board of a new game, with the side `sd` to move. -/
def starting (sd : Side) : PositionStruct := { sdPlayer := sd, ucpcSquares := startSquares }

theorem clean_starting (sd : Side) : (starting sd).Clean := by
  have hall : ∀ n < 256, startAt n ≠ 0 →
      (3 ≤ n % 16 ∧ n % 16 ≤ 11 ∧ 3 ≤ n / 16 ∧ n / 16 ≤ 12) ∧
      (8 ≤ startAt n ∧ startAt n ≤ 14 ∨ 16 ≤ startAt n ∧ startAt n ≤ 22) := by
    decide +kernel
  intro sq hpc
  change startSquares sq ≠ 0 at hpc
  show inBoard sq = true ∧ IsPiece (startSquares sq)
  unfold startSquares at hpc ⊢
  split at hpc
  · rename_i hin
    obtain ⟨hboard, hpiece⟩ := hall sq.toNat (by omega) hpc
    rw [if_pos hin, inBoard_iff]
    exact ⟨by omega, hpiece⟩
  · exact absurd rfl hpc

/-- What holds of the points of the rows and columns holds of the board. -/
theorem forall_points {motive : Position → Prop}
    (h : ∀ x < 9, ∀ y < 10, motive ⟨Int.ofNat x, Int.ofNat y⟩) (hc : c.isValid = true) :
    motive c := by
  rw [Position.isValid_iff] at hc
  have hpoint := h c.x.toNat (by omega) c.y.toNat (by omega)
  rwa [Int.ofNat_eq_natCast, Int.ofNat_eq_natCast, Int.toNat_of_nonneg (by omega),
    Int.toNat_of_nonneg (by omega)] at hpoint

theorem placed_starting (sd : Side) : Placed (starting sd).placement := by
  have hall : ∀ x < 9, ∀ y < 10,
      ((starting .red).placement ⟨Int.ofNat x, Int.ofNat y⟩).all (fun m =>
        (m.type = .king ∨ m.type = .advisor →
          3 ≤ x ∧ x ≤ 5 ∧ if m.color = .black then y ≤ 2 else 7 ≤ y) ∧
        (m.type = .elephant → x % 2 = 0 ∧
          if m.color = .black then y ≤ 4 ∧ y % 2 = 0 else 5 ≤ y ∧ y % 2 = 1)) = true := by
    decide +kernel
  have hpoint : ∀ q m, (starting sd).placement q = some m →
      (m.type = .king ∨ m.type = .advisor → Palace m.color q) ∧
      (m.type = .elephant → ElephantPoint m.color q) := by
    intro q m hm
    refine forall_points (motive := fun q => (starting sd).placement q = some m →
      (m.type = .king ∨ m.type = .advisor → Palace m.color q) ∧
      (m.type = .elephant → ElephantPoint m.color q)) ?_ (isValid_of_placement hm) hm
    intro x hx y hy hm
    have hman := hall x hx y hy
    rw [show (starting .red).placement ⟨Int.ofNat x, Int.ofNat y⟩ = some m from hm,
      Option.all_some, decide_eq_true_eq] at hman
    obtain ⟨hpalace, helephant⟩ := hman
    refine ⟨fun htype => ?_, fun htype => ?_⟩
    · have hxy := hpalace htype
      unfold Palace
      simp only [Int.ofNat_eq_natCast]
      split at hxy <;> simp only [*, if_true, if_false] <;> omega
    · have hxy := helephant htype
      unfold ElephantPoint OwnHalf
      simp only [Int.ofNat_eq_natCast]
      split at hxy <;> simp only [*, if_true, if_false] <;> omega
  exact ⟨fun q m hm => (hpoint q m hm).1, fun q m hm => (hpoint q m hm).2⟩

theorem manned_starting (sd : Side) : (starting sd).Manned where
  clean := clean_starting sd
  placed := placed_starting sd
  king side := by
    have hred : (starting .red).placement ⟨4, 9⟩ = some ⟨.king, .red⟩ := by decide +kernel
    have hblack : (starting .red).placement ⟨4, 0⟩ = some ⟨.king, .black⟩ := by decide +kernel
    cases side
    · exact ⟨_, hred⟩
    · exact ⟨_, hblack⟩
  men := by
    have hall : ∀ side, ∀ n < 7,
        (squares.countP fun sq => startSquares sq = sideTag side + n) ≤ allowed n := by
      intro side
      cases side <;> decide +kernel
    intro side n hn
    rw [count_eq]
    exact hall side n hn

theorem sound_starting (sd : Side) : (starting sd).Sound := by
  have hchecked : ∀ side, (starting side).checked = false := by
    intro side
    cases side <;> decide +kernel
  have hquiet := (manned_starting sd.opposite).checked_iff.not.mp (by simp [hchecked])
  rw [not_or] at hquiet
  exact ⟨manned_starting sd, hquiet.1, hquiet.2⟩

theorem Sound.congr (h : p.Sound) (hboard : q.ucpcSquares = p.ucpcSquares)
    (hside : q.sdPlayer = p.sdPlayer) : q.Sound := by
  have hplacement := placement_congr hboard
  refine ⟨h.toManned.congr hboard, ?_, ?_⟩
  · rw [hplacement, hside]
    exact h.quiet
  · rw [hplacement]
    exact h.notFacing

theorem addPieces_sdPlayer (p : PositionStruct) (l : List (Int × Nat)) :
    (p.addPieces Z l).sdPlayer = p.sdPlayer := by
  induction l generalizing p with
  | nil => rfl
  | cons x l ih =>
    show ((if x.2 ≠ 0 then p.addPiece Z x.1 x.2 else p).addPieces Z l).sdPlayer = _
    rw [ih]
    split <;> rfl

theorem startup_sdPlayer (board : Option (Nat → Nat → Nat)) :
    (startup Z board).sdPlayer = .red := by
  cases board <;> simp only [startup, setIrrev, addPieces_sdPlayer]

theorem changeSide_ucpcSquares : (p.changeSide Z).ucpcSquares = p.ucpcSquares := rfl

theorem changeSide_sdPlayer : (p.changeSide Z).sdPlayer = p.sdPlayer.opposite := rfl

/-- A new game. -/
theorem sound_startup : (startup Z none).Sound :=
  (sound_starting .red).congr startup_ucpcSquares (startup_sdPlayer none)

/-- A new game with BLACK to move. -/
theorem sound_startup_changeSide : ((startup Z none).changeSide Z).Sound :=
  (sound_starting .black).congr (changeSide_ucpcSquares.trans startup_ucpcSquares)
    (by rw [changeSide_sdPlayer, startup_sdPlayer]; rfl)

end PositionStruct

end HoxServer.XQWLight
