/-
HoxServer.Referee.Validation — what `ValidateMove` decides and does, on a
lawful board.

One record/undo pair is behind both callers: `ValidateMove` plays the
move and takes it back when a test fails, `Simulation_IsValidMove` plays
it, asks both tests and always takes it back. `landed` is the board in
between, `Passes` says that the tests made on it let the move through.

The end of the game is searched by simulating every potential move of
the side to move. The search reorders the list it runs over; that it ends
and misses no piece is `Lib.traverse_spec`, since a simulated capture
moves an enemy piece only.
-/
import HoxServer.Referee.Kings

namespace HoxServer

open Xiangqi

namespace Board

/-- The board between `_RecordMove` and `_UndoMove`. -/
def landed (b : Board) (r : PieceRef) (q : Position) : Board :=
  if q.isValid then b.afterMove r q else b

/-- The board of the other side's turn. -/
def played (b : Board) (r : PieceRef) (q : Position) : Board :=
  { b.landed r q with nextColor := b.nextColor.opposite }

/-- The piece `r` has the turn, may go to `q`, and the two tests on the
board after it find nothing. -/
structure Passes (b : Board) (r : PieceRef) (q : Position) : Prop where
  turn : (b.info r).color = b.nextColor
  valid : b.isValidMove r q = true
  safe : ¬ InCheck (b.landed r q).placement b.nextColor
  notAlone : ¬ KingsAloneOnFile (b.landed r q).placement

/-- A verdict that turns the move down. -/
structure Rejected (b : Board) (move : Move) (status : GameStatus) (v : Verdict) : Prop where
  accepted : v.accepted = false
  board : b.SameUpToOrder v.board
  move : v.move = move
  status : v.status = status

/-- A verdict that accepts the move of the piece `r`. -/
structure Played (b : Board) (r : PieceRef) (move : Move) (v : Verdict) : Prop where
  accepted : v.accepted = true
  board : (b.played r move.newPosition).SameUpToOrder v.board
  move : v.move =
    { move with capturedPiece := (b.getPieceAtPosition move.newPosition).getD {} }
  goesOn : (∃ p q, Accepted v.board.placement v.board.nextColor p q) → v.status = .inProgress
  ends : (¬ ∃ p q, Accepted v.board.placement v.board.nextColor p q) →
    v.status = if v.board.nextColor = .black then .redWin else .blackWin

variable {b b' : Board} {r : PieceRef} {p q : Position} {c : Color} {move : Move}

theorem placement_played : (b.played r q).placement = (b.landed r q).placement := rfl

/-! ## Lawful boards -/

theorem SameUpToOrder.lawful (h : b.SameUpToOrder b') (hb : b.Lawful) : b'.Lawful := by
  have hwf := h.wellFormed hb.toWellFormed
  obtain ⟨l, hl, rfl⟩ := h
  exact {
    hwf with
    king := fun c hc => hl.mem_iff.mpr (hb.king c hc)
    turn := hb.turn
    palace := hb.palace
    notExposed := hb.notExposed }

theorem SameUpToOrder.settled (h : b.SameUpToOrder b') (hb : b.Settled) : b'.Settled := by
  have hwf := h.wellFormed hb.toWellFormed
  obtain ⟨l, hl, rfl⟩ := h
  exact {
    hwf with
    king := fun c hc => hl.mem_iff.mpr (hb.king c hc)
    notExposed := hb.notExposed }

theorem WellFormed.withNextColor (h : b.WellFormed) (c : Color) :
    { b with nextColor := c }.WellFormed :=
  { h with }

theorem hasKings_new : (Board.new .red).HasKings :=
  ⟨wellFormed_new, fun c _ => by rw [new_pieces]; exact List.mem_range.mpr (kingRef_lt c)⟩

theorem new_palace : ∀ c ∈ [Color.red, Color.black],
    ((Board.new .red).positionOf (kingRef c)).isInsidePalace c = true := by decide +kernel

theorem new_notChecked : (Board.new .red).isKingBeingChecked .black = .ok false := by
  decide +kernel

theorem new_nextColor : (Board.new .red).nextColor = .red := by decide +kernel

theorem lawful_new : (Board.new .red).Lawful where
  toHasKings := hasKings_new
  turn := Or.inl new_nextColor
  palace := by
    intro c hc
    have h := new_palace c (by rcases hc with rfl | rfl <;> decide)
    exact (inside_palace_iff (Position.isValid_of_isInsidePalace h)).mp h
  notExposed := by
    obtain ⟨v, hv, hiff⟩ := hasKings_new.isKingBeingChecked_spec (c := .black) (Or.inr rfl)
    rw [new_notChecked] at hv
    cases hv
    rw [new_nextColor]
    exact fun h => Bool.false_ne_true (hiff.mpr h)

/-! ## Playing and taking back -/

theorem WellFormed.recordMove_eq_landed (h : b.WellFormed) (hr : r ∈ b.pieces)
    (hvalid : b.isValidMove r move.newPosition = true)
    (hpos : move.piece.position = b.positionOf r) :
    b.recordMove move = (b.landed r move.newPosition, b.getPieceAt move.newPosition) := by
  unfold landed
  cases hq : move.newPosition.isValid with
  | true =>
    rw [if_pos rfl, h.recordMove_eq hr hq (getPieceAt_ne_of_isValidMove hvalid) hpos rfl]
  | false =>
    rw [if_neg Bool.false_ne_true, recordMove_of_not_isValid hq, getPieceAt_of_not_isValid hq]

theorem WellFormed.undoMove_landed (h : b.WellFormed) (hr : r ∈ b.pieces)
    (hvalid : b.isValidMove r move.newPosition = true)
    (hpos : move.piece.position = b.positionOf r) :
    (b.landed r move.newPosition).undoMove move (b.getPieceAt move.newPosition)
      = { b with pieces := b.undonePieces move.newPosition } := by
  unfold landed
  cases hq : move.newPosition.isValid with
  | true =>
    rw [if_pos rfl, h.undoMove_afterMove hr hq (getPieceAt_ne_of_isValidMove hvalid) hpos rfl]
  | false =>
    rw [if_neg Bool.false_ne_true, undoMove_of_not_isValid hq, undonePieces,
      getPieceAt_of_not_isValid hq]

/-- A move that the movement rules allow captures no king. -/
theorem Settled.not_king_captured (h : b.Settled) (hr : r ∈ b.pieces)
    (hcolor : (b.info r).color = b.nextColor) (hvalid : b.isValidMove r q = true)
    (hc : c.IsSide) : b.getPieceAt q ≠ some (kingRef c) := by
  intro hcap
  have hturn : b.nextColor.IsSide := hcolor ▸ h.isSide hr
  have hq := isValid_of_getPieceAt hcap
  have hking := (h.man_eq_king_iff hc (h.king c hc)).mpr rfl
  have hmanq : b.placement q = some ⟨.king, c⟩ := by rw [placement, hcap, ← hking]; rfl
  have hlegal := (h.isValidMove_iff hr hq).mp hvalid
  have hcne : c ≠ b.nextColor := by
    obtain ⟨-, m, hm, -, hown⟩ := hlegal
    rw [h.placement_positionOf hr] at hm
    cases hm
    intro e
    exact hown _ hmanq (by rw [e, ← hcolor]; rfl)
  refine h.notExposed ⟨q, _, _, ?_, h.placement_positionOf hr, ?_, hlegal⟩
  · rw [hmanq, Color.IsSide.eq_opposite hturn hc hcne]
  · show (b.info r).color ≠ _
    rw [hcolor]
    exact hturn.opposite_ne.symm

/-- Both kings are there between `_RecordMove` and `_UndoMove`. -/
theorem Settled.hasKings_landed (h : b.Settled) (hr : r ∈ b.pieces)
    (hcolor : (b.info r).color = b.nextColor) (hvalid : b.isValidMove r q = true) :
    (b.landed r q).HasKings := by
  unfold landed
  split
  · rename_i hq
    refine ⟨h.toWellFormed.afterMove hr hq (getPieceAt_ne_of_isValidMove hvalid), fun c hc => ?_⟩
    rw [mem_pieces_afterMove]
    exact ⟨h.king c hc, h.not_king_captured hr hcolor hvalid hc⟩
  · exact h.toHasKings

theorem Lawful.palace_landed (h : b.Lawful) (hr : r ∈ b.pieces)
    (hvalid : b.isValidMove r q = true) (hc : c.IsSide) :
    Palace c ((b.landed r q).positionOf (kingRef c)) := by
  unfold landed
  split
  · rename_i hq
    by_cases hk : kingRef c = r
    · subst hk
      rw [positionOf_afterMove_self]
      obtain ⟨-, m, hm, hreach, -⟩ := (h.isValidMove_iff hr hq).mp hvalid
      rw [(h.placement_king_iff hc).mpr rfl] at hm
      cases hm
      exact hreach.1
    · rw [positionOf_afterMove_of_ne hk]
      exact h.palace c hc
  · exact h.palace c hc

/-- A move that passes hands a lawful board to the other side. -/
theorem Lawful.played (h : b.Lawful) (hr : r ∈ b.pieces) (hpass : b.Passes r q) :
    (b.played r q).Lawful := by
  have hkings := h.settled.hasKings_landed hr hpass.turn hpass.valid
  exact {
    hkings.toWellFormed.withNextColor _ with
    king := hkings.king
    turn := h.turn.opposite
    palace := fun c hc => h.palace_landed hr hpass.valid hc
    notExposed := by
      show ¬ InCheck (b.landed r q).placement b.nextColor.opposite.opposite
      rw [h.turn.opposite_opposite]
      exact hpass.safe }

theorem WellFormed.placement_landed (h : b.WellFormed) (hr : r ∈ b.pieces) (hq : q.isValid = true) :
    (b.landed r q).placement = b.placement.move (b.positionOf r) q := by
  rw [landed, if_pos hq, h.placement_afterMove hr hq]

/-- On the board, passing is being acceptable on the placement. -/
theorem WellFormed.passes_iff (h : b.WellFormed) (hr : r ∈ b.pieces) (hq : q.isValid = true) :
    b.Passes r q ↔ Accepted b.placement b.nextColor (b.positionOf r) q := by
  have hplace := h.placement_landed hr hq
  constructor
  · rintro ⟨hturn, hvalid, hsafe, halone⟩
    rw [hplace] at hsafe halone
    exact ⟨(h.isValidMove_iff hr hq).mp hvalid, ⟨_, h.placement_positionOf hr, hturn⟩, hsafe,
      halone⟩
  · rintro ⟨hlegal, ⟨m, hm, hcolor⟩, hsafe, halone⟩
    rw [h.placement_positionOf hr] at hm
    cases hm
    exact ⟨hcolor, (h.isValidMove_iff hr hq).mpr hlegal, by rwa [hplace], by rwa [hplace]⟩

/-! ## The two tests after a move -/

theorem man_landed {x : PieceRef} : (b.landed r q).man x = b.man x := by
  unfold landed
  split
  · exact man_afterMove
  · rfl

theorem Settled.tests (h : b.Settled) (hr : r ∈ b.pieces) (hcolor : (b.info r).color = b.nextColor)
    (hvalid : b.isValidMove r q = true) :
    ∃ v w, (b.landed r q).isKingBeingChecked b.nextColor = .ok v ∧
      (b.landed r q).isKingFaceKing = .ok w ∧ (b.Passes r q ↔ v = false ∧ w = false) := by
  have hkings := h.hasKings_landed hr hcolor hvalid
  obtain ⟨v, hv, hcheck⟩ := hkings.isKingBeingChecked_spec (hcolor ▸ h.isSide hr)
  obtain ⟨w, hw, hface⟩ := hkings.isKingFaceKing_spec
  refine ⟨v, w, hv, hw, ?_⟩
  rw [← Bool.not_eq_true, ← Bool.not_eq_true, hcheck, hface]
  exact ⟨fun h => ⟨h.safe, h.notAlone⟩, fun h => ⟨hcolor, hvalid, h.1, h.2⟩⟩

/-- A captured piece is an enemy of the piece that moves. -/
theorem color_of_captured {x : PieceRef} (hvalid : b.isValidMove r q = true)
    (hcap : b.getPieceAt q = some x) : (b.info x).color ≠ (b.info r).color := by
  simp only [isValidMove, hcap, hasColor, Bool.and_eq_true, Bool.not_eq_true',
    decide_eq_false_iff_not] at hvalid
  exact hvalid.2

/-! ## Searching for a next move -/

/-- The pieces of the side to move. -/
def ownPieces (b : Board) (r : PieceRef) : Bool := b.hasColor r b.nextColor

/-- `Simulation_IsValidMove` answers what `ValidateMove` would. -/
theorem Settled.simulation_spec (h : b.Settled) (move : Move) (hr : r ∈ b.pieces)
    (hcolor : (b.info r).color = b.nextColor) (hpos : move.piece.position = b.positionOf r) :
    ∃ b' v, b.simulationIsValidMove move = .ok (b', v) ∧ b.SameUpToOrder b' ∧
      Lib.Reordered b.ownPieces b.pieces b'.pieces ∧
      (v = true ↔ b.Passes r move.newPosition) := by
  unfold simulationIsValidMove
  rw [hpos, h.getPieceAt_positionOf hr]
  cases hvalid : b.isValidMove r move.newPosition with
  | false =>
    refine ⟨b, false, by simp [hvalid], .refl b, .refl _ _, ?_⟩
    exact ⟨fun h => (Bool.false_ne_true h).elim,
      fun h => (Bool.false_ne_true (hvalid.symm.trans h.valid)).elim⟩
  | true =>
    obtain ⟨v, w, hv, hw, hpass⟩ := h.tests hr hcolor hvalid
    have hland : ((b.landed r move.newPosition).info r).color = b.nextColor := by
      rw [← hcolor]
      exact congrArg Man.color man_landed
    simp only [hvalid, if_true, h.recordMove_eq_landed hr hvalid hpos, hland, hv, hw, bind, Except.bind,
      h.undoMove_landed hr hvalid hpos]
    refine ⟨_, _, rfl, h.sameUpToOrder_undone, h.reordered_undonePieces _ ?_, ?_⟩
    · intro x hx
      have hx' := color_of_captured hvalid hx
      rw [hcolor] at hx'
      exact decide_eq_false hx'
    · rw [hpass]
      cases v <;> cases w <;> simp

theorem SameUpToOrder.landed_placement (h : b.SameUpToOrder b') :
    (b'.landed r q).placement = (b.landed r q).placement := by
  obtain ⟨l, hl, rfl⟩ := h
  unfold landed
  split <;> rfl

/-- The order of the active list does not matter to what passes. -/
theorem SameUpToOrder.passes_iff (h : b.SameUpToOrder b') : b'.Passes r q ↔ b.Passes r q := by
  have hland := h.landed_placement (r := r) (q := q)
  obtain ⟨l, hl, rfl⟩ := h
  constructor
  · intro hp
    exact ⟨hp.turn, hp.valid, by rw [← hland]; exact hp.safe, by rw [← hland]; exact hp.notAlone⟩
  · intro hp
    exact ⟨hp.turn, hp.valid, by rw [hland]; exact hp.safe, by rw [hland]; exact hp.notAlone⟩

theorem SameUpToOrder.ownPieces (h : b.SameUpToOrder b') : b'.ownPieces = b.ownPieces := by
  obtain ⟨l, -, rfl⟩ := h
  rfl

/-- Searching among the positions `ps` for the piece `r`. -/
theorem Settled.simulatePositions_spec (h : b.Settled) (hr : r ∈ b.pieces)
    (hcolor : (b.info r).color = b.nextColor) (ps : List Position) :
    ∃ b' v, b.simulatePositions (b.info r) ps = .ok (b', v) ∧ b.SameUpToOrder b' ∧
      Lib.Reordered b.ownPieces b.pieces b'.pieces ∧
      (v = true ↔ ∃ q ∈ ps, q.isValid = true ∧ b.Passes r q) := by
  induction ps generalizing b with
  | nil => exact ⟨b, false, rfl, .refl b, .refl _ _, by simp⟩
  | cons p ps ih =>
    unfold simulatePositions
    cases hp : p.isValid with
    | false =>
      obtain ⟨b', v, hrun, hsame, hre, hiff⟩ := ih h hr hcolor
      refine ⟨b', v, by rw [if_neg Bool.false_ne_true]; exact hrun, hsame, hre, ?_⟩
      simp [hiff, hp]
    | true =>
      obtain ⟨b', v, hsim, hsame, hre, hiff⟩ :=
        h.simulation_spec ⟨b.info r, p, {}⟩ hr hcolor rfl
      rw [if_pos rfl, hsim]
      cases v with
      | true =>
        exact ⟨b', true, rfl, hsame, hre,
          fun _ => ⟨p, List.mem_cons_self, hp, hiff.mp rfl⟩, fun _ => rfl⟩
      | false =>
        have hfail : ¬ b.Passes r p := fun hpass => Bool.false_ne_true (hiff.mpr hpass)
        obtain ⟨b'', v, hrun, hsame', hre', hiff'⟩ := ih (hsame.settled h)
          (hsame.mem_pieces.mpr hr) (by rw [hsame.info, hsame.nextColor, hcolor])
        rw [hsame.info] at hrun
        rw [hsame.ownPieces] at hre'
        refine ⟨b'', v, hrun, hsame.trans hsame', hre.trans hre', hiff'.trans ?_⟩
        constructor
        · rintro ⟨q, hq, hqv, hpass⟩
          exact ⟨q, List.mem_cons_of_mem _ hq, hqv, hsame.passes_iff.mp hpass⟩
        · rintro ⟨q, hq, hqv, hpass⟩
          rcases List.mem_cons.mp hq with rfl | hq
          · exact absurd hpass hfail
          · exact ⟨q, hq, hqv, hsame.passes_iff.mpr hpass⟩

/-- **The potential positions are enough**: what a piece can reach on the
board is among them. -/
theorem mem_getPotentialNextPositions {P : Placement} {me : PieceInfo}
    (hq : q.isValid = true) (h : Reaches P ⟨me.type, me.color⟩ me.position q) :
    q ∈ me.getPotentialNextPositions := by
  have hcross : ∀ d ∈ orthogonals, q ∈ ray me.position d → q ∈ crossPositions me.position := by
    intro d hd hmem
    have hstraight := (mem_ray_split hd hmem).1
    rw [Position.isValid_iff] at hq
    simp only [isStraight, decide_eq_true_eq] at hstraight
    simp only [crossPositions, List.mem_append, List.mem_map, List.mem_filter, Int.mem_range_iff,
      decide_eq_true_eq]
    rcases hstraight with ⟨hx, hy⟩ | ⟨hx, hy⟩
    · exact Or.inl ⟨q.x, ⟨by omega, hx⟩, Position.ext rfl hy.symm⟩
    · exact Or.inr ⟨q.y, ⟨by omega, hy⟩, Position.ext hx.symm rfl⟩
  obtain ⟨t, c, px, py⟩ := me
  obtain ⟨qx, qy⟩ := q
  unfold PieceInfo.getPotentialNextPositions
  cases t with
  | king =>
    obtain ⟨-, d, hd, he⟩ := h
    simp only [shift, Position.mk.injEq] at he
    simp only [KingPiece.getPotentialNextPositions, neighbourPositions, List.mem_cons,
      Position.mk.injEq, List.not_mem_nil, or_false]
    rcases mem_orthogonals hd with rfl | rfl | rfl | rfl <;> omega
  | advisor =>
    obtain ⟨-, d, hd, he⟩ := h
    simp only [shift, Position.mk.injEq] at he
    simp only [AdvisorPiece.getPotentialNextPositions, diagonalPositions, List.mem_cons,
      Position.mk.injEq, List.not_mem_nil, or_false]
    simp only [diagonals, List.mem_cons, List.not_mem_nil, or_false] at hd
    rcases hd with rfl | rfl | rfl | rfl <;> omega
  | elephant =>
    obtain ⟨-, d, hd, -, he⟩ := h
    simp only [shift, Position.mk.injEq] at he
    simp only [ElephantPiece.getPotentialNextPositions, diagonalPositions, List.mem_cons,
      Position.mk.injEq, List.not_mem_nil, or_false]
    simp only [diagonals, List.mem_cons, List.not_mem_nil, or_false] at hd
    rcases hd with rfl | rfl | rfl | rfl <;> omega
  | chariot =>
    obtain ⟨d, hd, hmem⟩ := h
    exact hcross d hd (Lib.subset_of_upToFirst hmem)
  | horse =>
    obtain ⟨d, hd, -, e, he, hdot, hqe⟩ := h
    simp only [shift, Position.mk.injEq] at hqe
    simp only [HorsePiece.getPotentialNextPositions, List.mem_cons,
      Position.mk.injEq, List.not_mem_nil, or_false]
    simp only [diagonals, List.mem_cons, List.not_mem_nil, or_false] at he
    rcases mem_orthogonals hd with rfl | rfl | rfl | rfl <;>
      rcases he with rfl | rfl | rfl | rfl <;> omega
  | cannon =>
    obtain ⟨d, hd, hmem | hmem⟩ := h
    · exact hcross d hd ((List.takeWhile_sublist _).subset hmem)
    · exact hcross d hd (Lib.mem_of_second? hmem)
  | pawn =>
    have hforward : forward c = (0, 1) ∨ forward c = (0, -1) := by
      unfold forward
      split
      · exact Or.inl rfl
      · exact Or.inr rfl
    simp only [Reaches, shift, Position.mk.injEq] at h
    simp only [PawnPiece.getPotentialNextPositions, neighbourPositions, List.mem_cons,
      Position.mk.injEq, List.not_mem_nil, or_false]
    rcases hforward with hf | hf <;> simp only [hf] at h <;> omega
  | invalid => exact h.elim

/-- `Piece::DoesNextMoveExist`. -/
theorem Settled.pieceDoesNextMoveExist_spec (h : b.Settled) (hr : r ∈ b.pieces)
    (hcolor : (b.info r).color = b.nextColor) :
    ∃ b' v, b.pieceDoesNextMoveExist r = .ok (b', v) ∧ b.SameUpToOrder b' ∧
      Lib.Reordered b.ownPieces b.pieces b'.pieces ∧
      (v = true ↔ ∃ q, Accepted b.placement b.nextColor (b.positionOf r) q) := by
  obtain ⟨b', v, hrun, hsame, hre, hiff⟩ :=
    h.simulatePositions_spec hr hcolor (b.info r).getPotentialNextPositions
  refine ⟨b', v, hrun, hsame, hre, hiff.trans ?_⟩
  constructor
  · rintro ⟨q, -, hq, hpass⟩
    exact ⟨q, (h.passes_iff hr hq).mp hpass⟩
  · rintro ⟨q, hacc⟩
    obtain ⟨hq, m, hm, hreach, -⟩ := hacc.pseudoLegal
    rw [onBoard_iff_isValid] at hq
    rw [h.placement_positionOf hr] at hm
    cases hm
    exact ⟨q, mem_getPotentialNextPositions hq hreach, hq, (h.passes_iff hr hq).mpr hacc⟩

theorem Settled.nextMoveBody (h : b.Settled) :
    Lib.Body Board.pieces nextMoveBody b.SameUpToOrder b.ownPieces
      (fun r => ∃ q, Accepted b.placement b.nextColor (b.positionOf r) q) where
  nodup := fun hs => (hs.wellFormed h.toWellFormed).nodup
  skip := by
    intro s x hs _ hx
    rw [← hs.ownPieces] at hx
    show (if s.ownPieces x = true then _ else _) = _
    rw [hx]
    rfl
  visit := by
    intro s x hs hmem hx
    rw [← hs.ownPieces] at hx
    obtain ⟨s', v, hrun, hsame, hre, hiff⟩ :=
      (hs.settled h).pieceDoesNextMoveExist_spec hmem (of_decide_eq_true hx)
    refine ⟨s', v, ?_, hs.trans hsame, hs.ownPieces ▸ hre, ?_⟩
    · show (if s.ownPieces x = true then _ else _) = _
      rw [if_pos hx, hrun]
    · rw [hiff, hs.placement, hs.nextColor, positionOf, hs.info]
      rfl

/-- **`_DoesNextMoveExist` decides whether the side to move can move**, and
it ends. -/
theorem Settled.doesNextMoveExist_spec (h : b.Settled) :
    ∃ b' v, b.doesNextMoveExist = .ok (b', v) ∧ b.SameUpToOrder b' ∧
      (v = true ↔ ∃ p q, Accepted b.placement b.nextColor p q) := by
  obtain ⟨b', v, hrun, hsame, -, hiff, -⟩ :=
    Lib.traverse_spec Fault.endlessLoop h.nextMoveBody (.refl b) (Nat.le_refl b.loopBound)
  refine ⟨b', v, hrun, hsame, hiff.trans ?_⟩
  constructor
  · rintro ⟨r, -, -, q, hacc⟩
    exact ⟨_, q, hacc⟩
  · rintro ⟨p, q, hacc⟩
    obtain ⟨m, hm, hcolor⟩ := hacc.own
    obtain ⟨r, hr, rfl, rfl⟩ := h.placement_iff.mp hm
    exact ⟨r, hr, decide_eq_true hcolor, q, hacc⟩

/-! ## `ValidateMove` -/

/-- The end of `ValidateMove`, for a move that passes. -/
theorem Lawful.concludeMove_spec (h : b.Lawful) (hr : r ∈ b.pieces)
    (hpass : b.Passes r move.newPosition) :
    ∃ v, (b.landed r move.newPosition).concludeMove move (b.getPieceAt move.newPosition) = .ok v ∧
      b.Played r move v := by
  have hnext : (b.landed r move.newPosition).nextColor = b.nextColor := by
    unfold landed
    split <;> rfl
  have hcapinfo : ∀ x, b.getPieceAt move.newPosition = some x →
      (b.landed r move.newPosition).info x = b.info x := by
    intro x hx
    have hne : x ≠ r := fun e => getPieceAt_ne_of_isValidMove hpass.valid (e ▸ hx)
    unfold landed
    split
    · simp [afterMove, Function.update_of_ne hne]
    · rfl
  obtain ⟨b', v, hrun, hsame, hiff⟩ := (h.played hr hpass).settled.doesNextMoveExist_spec
  unfold Board.played at hrun
  unfold concludeMove
  simp only [hnext, hrun, bind, Except.bind]
  rw [← hsame.placement, ← hsame.nextColor] at hiff
  refine ⟨_, rfl, rfl, hsame, ?_, ?_, ?_⟩
  · simp only [getPieceAtPosition]
    cases hcap : b.getPieceAt move.newPosition with
    | none => rfl
    | some x => simp [hcapinfo x hcap]
  · intro hex
    rw [hiff.mpr hex]
    rfl
  · intro hnone
    rw [Bool.eq_false_iff.mpr (fun hv => hnone (hiff.mp hv))]
    rfl

/-- **`ValidateMove` on a lawful board**: it accepts the moves that pass
and leaves no trace of the others. -/
theorem Lawful.validateMove_spec (h : b.Lawful) (move : Move) (hr : r ∈ b.pieces)
    (hpiece : move.piece = b.info r) (status : GameStatus) :
    ∃ v, b.validateMove move status = .ok v ∧
      (b.Passes r move.newPosition ∧ b.Played r move v ∨
        ¬ b.Passes r move.newPosition ∧ b.Rejected move status v) := by
  have hpos : move.piece.position = b.positionOf r := by rw [hpiece]; rfl
  unfold validateMove
  rw [hpos, h.getPieceAt_positionOf hr, hpiece]
  by_cases hcolor : (b.info r).color = b.nextColor
  · rw [if_neg (not_not_intro hcolor)]
    cases hvalid : b.isValidMove r move.newPosition with
    | false =>
      refine ⟨⟨false, b, move, status⟩, by simp [hvalid], Or.inr ⟨?_, ?_⟩⟩
      · exact fun hpass => Bool.false_ne_true (hvalid.symm.trans hpass.valid)
      · exact ⟨rfl, .refl b, rfl, rfl⟩
    | true =>
      obtain ⟨v, w, hv, hw, hpass⟩ := h.settled.tests hr hcolor hvalid
      simp only [hvalid, if_true, h.recordMove_eq_landed hr hvalid hpos, hcolor, hv, hw, bind,
        Except.bind, pure, Except.pure]
      cases v with
      | true =>
        refine ⟨_, rfl, Or.inr ⟨fun hp => by simpa using hpass.mp hp, ?_⟩⟩
        exact ⟨rfl, by rw [h.undoMove_landed hr hvalid hpos]; exact h.sameUpToOrder_undone,
          rfl, rfl⟩
      | false =>
        cases w with
        | true =>
          refine ⟨_, rfl, Or.inr ⟨fun hp => by simpa using hpass.mp hp, ?_⟩⟩
          exact ⟨rfl, by rw [h.undoMove_landed hr hvalid hpos]; exact h.sameUpToOrder_undone,
            rfl, rfl⟩
        | false =>
          have hp := hpass.mpr ⟨rfl, rfl⟩
          obtain ⟨v, hrun, hplayed⟩ := h.concludeMove_spec hr hp
          exact ⟨v, hrun, Or.inl ⟨hp, hplayed⟩⟩
  · rw [if_pos hcolor]
    exact ⟨_, rfl, Or.inr ⟨fun hpass => hcolor hpass.turn, rfl, .refl b, rfl, rfl⟩⟩

end Board

end HoxServer
