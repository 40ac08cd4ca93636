/-
HoxServer.Referee.WellFormed — the three structures of a board agree, and
what `_RecordMove` and `_UndoMove` do to a board where they do.

A piece that is moved or captured is written in four places: its own
position, the cells, the active list and the dead list. The helpers of
`Board` bail out silently when a check fails, so what a record does can
only be said on a board whose structures agree (`WellFormed`).

There `recordMove` is `afterMove`, written without any check, and
`undoMove` takes it back up to one thing: a captured piece returns at
the tail of the active list (`undoMove_afterMove`). A destination off the
board is recorded and undone by doing nothing.
-/
import HoxServer.Referee.Placement
import HoxServer.Lib.Traversal

namespace HoxServer

open Xiangqi

/-- The type and the colour that the piece `r` is created with. -/
def firstMan (r : PieceRef) : Man :=
  let i : PieceInfo := Board.newGamePieces.getD r {}
  ⟨i.type, i.color⟩

namespace Board

/-- The structures of a board agree and hold the 32 pieces of the game. -/
structure WellFormed (b : Board) : Prop where
  nodup : b.pieces.Nodup
  deadNodup : b.deadPieces.Nodup
  disjoint : ∀ r ∈ b.pieces, r ∉ b.deadPieces
  all : ∀ r, r ∈ b.pieces ∨ r ∈ b.deadPieces ↔ r < 32
  identity : ∀ r < 32, b.man r = firstMan r
  onBoard : ∀ r ∈ b.pieces, (b.positionOf r).isValid = true
  stored : ∀ r ∈ b.pieces, (b.cells (b.positionOf r)).piece = some r
  active : ∀ p r, p.isValid = true → (b.cells p).piece = some r →
    r ∈ b.pieces ∧ b.positionOf r = p
  cellPosition : ∀ p, p.isValid = true →
    (b.cells p).position = if (b.cells p).piece = none then ⟨-1, -1⟩ else p

/-- The two boards differ in the order of the active list only. -/
def SameUpToOrder (b b' : Board) : Prop := ∃ l, l.Perm b.pieces ∧ b' = { b with pieces := l }

/-- The board after the piece `r` has gone to `q`. -/
def afterMove (b : Board) (r : PieceRef) (q : Position) : Board where
  info := Function.update b.info r { b.info r with position := q }
  pieces := match b.getPieceAt q with
    | some c => listRemove b.pieces c
    | none => b.pieces
  deadPieces := match b.getPieceAt q with
    | some c => b.deadPieces ++ [c]
    | none => b.deadPieces
  cells := Function.update (Function.update b.cells (b.positionOf r) {}) q ⟨q, some r⟩
  nextColor := b.nextColor

/-- The active list after a move to `q` has been played and taken back. -/
def undonePieces (b : Board) (q : Position) : List PieceRef :=
  match b.getPieceAt q with
  | some c => listRemove b.pieces c ++ [c]
  | none => b.pieces

variable {b b' : Board} {r c : PieceRef} {p q : Position}

/-! ## Reading a well-formed board -/

theorem WellFormed.getPieceAt_iff (h : b.WellFormed) :
    b.getPieceAt p = some r ↔ r ∈ b.pieces ∧ b.positionOf r = p := by
  constructor
  · intro hp
    have hv := isValid_of_getPieceAt hp
    rw [getPieceAt_of_isValid hv] at hp
    exact h.active p r hv hp
  · rintro ⟨hr, rfl⟩
    rw [getPieceAt_of_isValid (h.onBoard r hr), h.stored r hr]

theorem WellFormed.getPieceAt_positionOf (h : b.WellFormed) (hr : r ∈ b.pieces) :
    b.getPieceAt (b.positionOf r) = some r :=
  h.getPieceAt_iff.mpr ⟨hr, rfl⟩

theorem WellFormed.positionOf_inj (h : b.WellFormed) (hr : r ∈ b.pieces) (hc : c ∈ b.pieces)
    (heq : b.positionOf r = b.positionOf c) : r = c := by
  have hr' := h.stored r hr
  rw [heq, h.stored c hc] at hr'
  exact (Option.some.inj hr').symm

theorem WellFormed.lt (h : b.WellFormed) (hr : r ∈ b.pieces) : r < 32 :=
  (h.all r).mp (Or.inl hr)

theorem WellFormed.placement_iff (h : b.WellFormed) {m : Man} :
    b.placement p = some m ↔ ∃ r ∈ b.pieces, b.positionOf r = p ∧ b.man r = m := by
  simp only [placement, Option.map_eq_some_iff, h.getPieceAt_iff, and_assoc]

theorem WellFormed.placement_positionOf (h : b.WellFormed) (hr : r ∈ b.pieces) :
    b.placement (b.positionOf r) = some (b.man r) :=
  h.placement_iff.mpr ⟨r, hr, rfl, rfl⟩

theorem firstMan_isSide : ∀ r < 32, (firstMan r).color.IsSide := by decide

theorem firstMan_type_ne : ∀ r < 32, (firstMan r).type ≠ .invalid := by decide

theorem WellFormed.type_ne_invalid (h : b.WellFormed) (hr : r ∈ b.pieces) :
    (b.info r).type ≠ .invalid := by
  have hman := h.identity r (h.lt hr)
  have htype := firstMan_type_ne r (h.lt hr)
  rw [← hman] at htype
  exact htype

theorem WellFormed.isSide (h : b.WellFormed) (hr : r ∈ b.pieces) : (b.info r).color.IsSide := by
  have hman := h.identity r (h.lt hr)
  have hside := firstMan_isSide r (h.lt hr)
  rw [← hman] at hside
  exact hside

/-- `Piece::IsValidMove` of an active piece is the movement relation. -/
theorem WellFormed.isValidMove_iff (h : b.WellFormed) (hr : r ∈ b.pieces)
    (hq : q.isValid = true) :
    b.isValidMove r q = true ↔ PseudoLegal b.placement (b.positionOf r) q :=
  HoxServer.isValidMove_iff (h.getPieceAt_positionOf hr) (h.isSide hr) hq

/-- A piece does not move to where it stands. -/
theorem getPieceAt_ne_of_isValidMove (hv : b.isValidMove r q = true) :
    b.getPieceAt q ≠ some r := by
  intro hq
  simp [isValidMove, hq, hasColor] at hv

/-! ## Cells that agree -/

theorem WellFormed.cell_of_piece (h : b.WellFormed) (hp : p.isValid = true)
    (hr : (b.cells p).piece = some r) : b.cells p = ⟨p, some r⟩ := by
  have hpos := h.cellPosition p hp
  rw [hr, if_neg (by simp)] at hpos
  cases hc : b.cells p with
  | mk position piece => rw [hc] at hpos hr; rw [← hpos, ← hr]

theorem WellFormed.cell_of_empty (h : b.WellFormed) (hp : p.isValid = true)
    (hr : (b.cells p).piece = none) : b.cells p = {} := by
  have hpos := h.cellPosition p hp
  rw [if_pos hr] at hpos
  cases hc : b.cells p with
  | mk position piece => rw [hc] at hpos hr; rw [← hpos, ← hr]

/-! ## The helpers, where their checks pass -/

theorem unsetPiece_eq (hp : (b.positionOf r).isValid = true)
    (hc : (b.cells (b.positionOf r)).piece = some r) :
    b.unsetPiece r = { b with cells := Function.update b.cells (b.positionOf r) {} } := by
  simp [unsetPiece, hp, hc]

theorem setPiece_eq (hp : (b.positionOf r).isValid = true)
    (hc : (b.cells (b.positionOf r)).piece = none) :
    b.setPiece r =
      { b with cells := Function.update b.cells (b.positionOf r) ⟨b.positionOf r, some r⟩ } := by
  simp [setPiece, hp, hc]

theorem movePieceTo_eq (hp : (b.positionOf r).isValid = true) (hq : q.isValid = true)
    (hc : (b.cells (b.positionOf r)).piece = some r) (hfree : (b.cells q).piece = none) :
    b.movePieceTo (some r) q =
      { b with
        info := Function.update b.info r { b.info r with position := q }
        cells := Function.update (Function.update b.cells (b.positionOf r) {}) q ⟨q, some r⟩ } := by
  have hne : q ≠ b.positionOf r := by
    rintro rfl
    rw [hc] at hfree
    cases hfree
  simp only [movePieceTo, hp, hq, if_true, unsetPiece_eq hp hc]
  have hpos : ∀ b : Board, (b.setPosition r q).positionOf r = q := by
    intro b
    simp [positionOf, setPosition]
  rw [setPiece_eq (by rw [hpos]; exact hq) (by simp [hpos, Function.update_of_ne hne, hfree]),
      hpos]
  rfl

theorem capturePiece_eq (hp : (b.positionOf c).isValid = true)
    (hc : (b.cells (b.positionOf c)).piece = some c) (hact : c ∈ b.pieces)
    (hdead : c ∉ b.deadPieces) :
    b.capturePiece c =
      { b with
        pieces := listRemove b.pieces c
        deadPieces := b.deadPieces ++ [c]
        cells := Function.update b.cells (b.positionOf c) {} } := by
  simp [capturePiece, unsetPiece_eq hp hc, hact, hdead]

theorem putbackPiece_eq (hdead : c ∈ b.deadPieces) (hp : (b.positionOf c).isValid = true)
    (hfree : (b.cells (b.positionOf c)).piece = none) :
    b.putbackPiece c =
      { b with
        pieces := b.pieces ++ [c]
        deadPieces := listRemove b.deadPieces c
        cells := Function.update b.cells (b.positionOf c) ⟨b.positionOf c, some c⟩ } := by
  rw [putbackPiece, if_pos hdead, addPiece, setPiece_eq (by exact hp) (by exact hfree)]
  rfl

/-! ## Recording and undoing -/

/-- Recording a move to a position of the board. -/
theorem WellFormed.recordMove_eq (h : b.WellFormed) (hr : r ∈ b.pieces) (hq : q.isValid = true)
    (hne : b.getPieceAt q ≠ some r) {move : Move} (hpos : move.piece.position = b.positionOf r)
    (hdest : move.newPosition = q) :
    b.recordMove move = (b.afterMove r q, b.getPieceAt q) := by
  have hp := h.onBoard r hr
  have hstored := h.stored r hr
  unfold recordMove afterMove
  rw [hpos, hdest]
  cases hcap : b.getPieceAt q with
  | none =>
    rw [getPieceAt_of_isValid hq] at hcap
    simp only [h.getPieceAt_positionOf hr, movePieceTo_eq hp hq hstored hcap]
  | some c =>
    obtain ⟨hact, hcpos⟩ := h.getPieceAt_iff.mp hcap
    have hpq : b.positionOf r ≠ b.positionOf c := fun e =>
      hne (by rw [hcap, h.positionOf_inj hr hact e])
    have hcapture := capturePiece_eq (h.onBoard c hact) (h.stored c hact) hact (h.disjoint c hact)
    have hstored' : (Function.update b.cells (b.positionOf c) {} (b.positionOf r)).piece = some r := by
      rw [Function.update_of_ne hpq, hstored]
    have hget : (b.capturePiece c).getPieceAt (b.positionOf r) = some r := by
      rw [getPieceAt_of_isValid hp, hcapture]
      exact hstored'
    have hmove := movePieceTo_eq (b := b.capturePiece c) (r := r) (q := q)
      (by rw [hcapture]; exact hp) hq (by rw [hcapture]; exact hstored')
      (by rw [hcapture]; simp [hcpos])
    have hswap : Function.update (Function.update (Function.update b.cells q {}) (b.positionOf r) {})
        q ⟨q, some r⟩
        = Function.update (Function.update b.cells (b.positionOf r) {}) q ⟨q, some r⟩ := by
      rw [← hcpos, Function.update_comm hpq.symm, Function.update_idem]
    show ((b.capturePiece c).movePieceTo ((b.capturePiece c).getPieceAt (b.positionOf r)) q, _) = _
    rw [hget, hmove, hcapture, hcpos]
    simp only [positionOf] at hswap ⊢
    rw [hswap]

/-- Recording a move to a position off the board does nothing. -/
theorem recordMove_of_not_isValid {move : Move} (hq : move.newPosition.isValid = false) :
    b.recordMove move = (b, none) := by
  simp only [recordMove, getPieceAt_of_not_isValid hq]
  cases b.getPieceAt move.piece.position with
  | none => rfl
  | some r => simp [movePieceTo, hq]

theorem undoMove_of_not_isValid {move : Move} {captured : Option PieceRef}
    (hq : move.newPosition.isValid = false) : b.undoMove move captured = b := by
  simp [undoMove, getPieceAt_of_not_isValid hq]

/-- **A recorded move that is undone leaves the board as it was**, the
place of the captured piece in the active list apart. -/
theorem WellFormed.undoMove_afterMove (h : b.WellFormed) (hr : r ∈ b.pieces)
    (hq : q.isValid = true) (hne : b.getPieceAt q ≠ some r) {move : Move}
    (hpos : move.piece.position = b.positionOf r) (hdest : move.newPosition = q) :
    (b.afterMove r q).undoMove move (b.getPieceAt q) = { b with pieces := b.undonePieces q } := by
  have hp := h.onBoard r hr
  have hpq : b.positionOf r ≠ q := fun e => hne (h.getPieceAt_iff.mpr ⟨hr, e⟩)
  have hcell := h.cell_of_piece hp (h.stored r hr)
  have hposition : (b.afterMove r q).positionOf r = q := by simp [positionOf, afterMove]
  have hget : (b.afterMove r q).getPieceAt q = some r := by
    rw [getPieceAt_of_isValid hq]
    simp [afterMove]
  -- the piece goes back to where it came from
  have hback := movePieceTo_eq (b := b.afterMove r q) (r := r) (q := b.positionOf r)
    (by rw [hposition]; exact hq) hp (by rw [hposition]; simp [afterMove])
    (by simp [afterMove, Function.update_of_ne hpq])
  rw [hposition] at hback
  have hinfo : Function.update (b.afterMove r q).info r
      { (b.afterMove r q).info r with position := b.positionOf r } = b.info := by
    simp [afterMove, positionOf]
  have hcells : Function.update (Function.update (b.afterMove r q).cells q {}) (b.positionOf r)
      ⟨b.positionOf r, some r⟩ = Function.update b.cells q {} := by
    funext x
    by_cases hx : x = b.positionOf r
    · subst hx
      rw [Function.update_self, Function.update_of_ne hpq, hcell]
    · by_cases hxq : x = q
      · subst hxq
        rw [Function.update_of_ne hx, Function.update_self, Function.update_self]
      · simp [afterMove, Function.update_of_ne hx, Function.update_of_ne hxq]
  rw [hinfo, hcells] at hback
  unfold undoMove
  rw [hdest, hpos, hget]
  simp only [hposition, if_true, hback]
  unfold undonePieces
  cases hcap : b.getPieceAt q with
  | none =>
    rw [getPieceAt_of_isValid hq] at hcap
    rw [← h.cell_of_empty hq hcap, Function.update_eq_self]
    simp [afterMove, getPieceAt_of_isValid hq, hcap]
  | some c =>
    obtain ⟨hact, hcpos⟩ := h.getPieceAt_iff.mp hcap
    have hcq := h.cell_of_piece hq (r := c) (by rw [← getPieceAt_of_isValid hq, hcap])
    have hkeep : Function.update b.info c { b.info c with position := q } = b.info := by
      rw [← hcpos, positionOf, Function.update_eq_self]
    have hdead : listRemove (b.deadPieces ++ [c]) c = b.deadPieces := by
      rw [listRemove, List.filter_append, List.filter_eq_self.mpr]
      · simp
      · intro x hx
        simpa using fun e : x = c => h.disjoint c hact (e ▸ hx)
    simp only [setPosition, hkeep]
    rw [putbackPiece_eq (by simp [afterMove, hcap])
      (by simp only [positionOf] at hcpos ⊢; rw [hcpos]; exact hq)
      (by simp only [positionOf] at hcpos ⊢; rw [hcpos]; simp)]
    simp only [positionOf] at hcpos ⊢
    simp only [hcpos, Function.update_idem]
    rw [← hcq, Function.update_eq_self]
    simp [afterMove, hcap, hdead]

/-! ## Reading the board after a move -/

@[simp] theorem mem_listRemove {l : List PieceRef} {x : PieceRef} :
    x ∈ listRemove l r ↔ x ∈ l ∧ x ≠ r := by
  simp [listRemove]

@[simp] theorem man_afterMove {x : PieceRef} : (b.afterMove r q).man x = b.man x := by
  by_cases hx : x = r
  · subst hx
    simp [man, afterMove]
  · simp [man, afterMove, Function.update_of_ne hx]

theorem positionOf_afterMove_self : (b.afterMove r q).positionOf r = q := by
  simp [positionOf, afterMove]

theorem positionOf_afterMove_of_ne {x : PieceRef} (hx : x ≠ r) :
    (b.afterMove r q).positionOf x = b.positionOf x := by
  simp [positionOf, afterMove, Function.update_of_ne hx]

theorem pieces_afterMove :
    (b.afterMove r q).pieces = (b.getPieceAt q).elim b.pieces (listRemove b.pieces) := by
  unfold afterMove
  cases b.getPieceAt q with
  | none => rfl
  | some c => rfl

theorem mem_pieces_afterMove {x : PieceRef} :
    x ∈ (b.afterMove r q).pieces ↔ x ∈ b.pieces ∧ b.getPieceAt q ≠ some x := by
  unfold afterMove
  cases b.getPieceAt q with
  | none => simp
  | some c => simp [eq_comm]

theorem mem_deadPieces_afterMove {x : PieceRef} :
    x ∈ (b.afterMove r q).deadPieces ↔ x ∈ b.deadPieces ∨ b.getPieceAt q = some x := by
  unfold afterMove
  cases b.getPieceAt q with
  | none => simp
  | some c => simp [eq_comm]

/-- What stands on each position after the move. -/
theorem WellFormed.getPieceAt_afterMove (h : b.WellFormed) (hr : r ∈ b.pieces)
    (hq : q.isValid = true) :
    (b.afterMove r q).getPieceAt p =
      if p = q then some r else if p = b.positionOf r then none else b.getPieceAt p := by
  by_cases hpq : p = q
  · subst hpq
    rw [if_pos rfl, getPieceAt_of_isValid hq]
    simp [Board.afterMove]
  · rw [if_neg hpq]
    by_cases hp : p = b.positionOf r
    · subst hp
      rw [if_pos rfl, getPieceAt_of_isValid (h.onBoard r hr)]
      simp [Board.afterMove, Function.update_of_ne hpq]
    · simp [getPieceAt, Board.afterMove, Function.update_of_ne hpq, Function.update_of_ne hp,
        if_neg hp]

/-- **Recording a move is moving a man on the placement.** -/
theorem WellFormed.placement_afterMove (h : b.WellFormed) (hr : r ∈ b.pieces)
    (hq : q.isValid = true) :
    (b.afterMove r q).placement = b.placement.move (b.positionOf r) q := by
  funext p
  have hman : (b.afterMove r q).man = b.man := funext fun x => man_afterMove
  rw [placement, h.getPieceAt_afterMove hr hq, hman]
  by_cases hpq : p = q
  · subst hpq
    rw [if_pos rfl, move_dest, h.placement_positionOf hr]
    rfl
  · rw [if_neg hpq]
    by_cases hp : p = b.positionOf r
    · subst hp
      rw [if_pos rfl, move_origin _ hpq]
      rfl
    · rw [if_neg hp, move_other _ hp hpq]
      rfl

/-! ## The structures go on agreeing -/

theorem WellFormed.afterMove (h : b.WellFormed) (hr : r ∈ b.pieces) (hq : q.isValid = true)
    (hne : b.getPieceAt q ≠ some r) : (b.afterMove r q).WellFormed where
  nodup := by
    unfold Board.afterMove
    cases b.getPieceAt q with
    | none => exact h.nodup
    | some c => exact h.nodup.filter _
  deadNodup := by
    unfold Board.afterMove
    cases hcap : b.getPieceAt q with
    | none => exact h.deadNodup
    | some c =>
      have hc := h.disjoint c (h.getPieceAt_iff.mp hcap).1
      exact List.nodup_append.mpr ⟨h.deadNodup, List.nodup_singleton c, by
        intro x hx y hy
        rw [List.mem_singleton.mp hy]
        exact fun e => hc (e ▸ hx)⟩
  disjoint := by
    intro x hx
    rw [mem_pieces_afterMove] at hx
    rw [mem_deadPieces_afterMove, not_or]
    exact ⟨h.disjoint x hx.1, hx.2⟩
  all := by
    intro x
    rw [mem_pieces_afterMove, mem_deadPieces_afterMove, ← h.all x]
    constructor
    · rintro (hx | hx | hx)
      · exact Or.inl hx.1
      · exact Or.inr hx
      · exact Or.inl (h.getPieceAt_iff.mp hx).1
    · rintro (hx | hx)
      · by_cases hcap : b.getPieceAt q = some x
        · exact Or.inr (Or.inr hcap)
        · exact Or.inl ⟨hx, hcap⟩
      · exact Or.inr (Or.inl hx)
  identity := fun x hx => by rw [man_afterMove, h.identity x hx]
  onBoard := by
    intro x hx
    rw [mem_pieces_afterMove] at hx
    by_cases hxr : x = r
    · rw [hxr, positionOf_afterMove_self]
      exact hq
    · rw [positionOf_afterMove_of_ne hxr]
      exact h.onBoard x hx.1
  stored := by
    intro x hx
    rw [mem_pieces_afterMove] at hx
    by_cases hxr : x = r
    · rw [hxr, positionOf_afterMove_self]
      simp [Board.afterMove]
    · rw [positionOf_afterMove_of_ne hxr]
      have h₁ : b.positionOf x ≠ q := fun e => hx.2 (h.getPieceAt_iff.mpr ⟨hx.1, e⟩)
      have h₂ : b.positionOf x ≠ b.positionOf r := fun e => hxr (h.positionOf_inj hx.1 hr e)
      simp [Board.afterMove, Function.update_of_ne h₁, Function.update_of_ne h₂, h.stored x hx.1]
  active := by
    intro p x hp hx
    rw [← getPieceAt_of_isValid hp, h.getPieceAt_afterMove hr hq] at hx
    rw [mem_pieces_afterMove]
    split_ifs at hx with h₁ h₂
    · cases hx
      exact ⟨⟨hr, hne⟩, by rw [positionOf_afterMove_self, h₁]⟩
    · obtain ⟨hmem, rfl⟩ := h.getPieceAt_iff.mp hx
      have hxr : x ≠ r := fun e => h₂ (by rw [e])
      refine ⟨⟨hmem, fun hcap => h₁ (h.getPieceAt_iff.mp hcap).2⟩, ?_⟩
      rw [positionOf_afterMove_of_ne hxr]
  cellPosition := by
    intro p hp
    by_cases hpq : p = q
    · subst hpq
      simp [Board.afterMove]
    · by_cases hpr : p = b.positionOf r
      · subst hpr
        simp [Board.afterMove, Function.update_of_ne hpq]
      · simp only [Board.afterMove, Function.update_of_ne hpq, Function.update_of_ne hpr]
        exact h.cellPosition p hp

/-! ## Boards up to the order of the active list -/

theorem SameUpToOrder.refl (b : Board) : b.SameUpToOrder b := ⟨b.pieces, .refl _, rfl⟩

theorem SameUpToOrder.trans {b'' : Board} (h : b.SameUpToOrder b') (h' : b'.SameUpToOrder b'') :
    b.SameUpToOrder b'' := by
  obtain ⟨l, hl, rfl⟩ := h
  obtain ⟨l', hl', rfl⟩ := h'
  exact ⟨l', hl'.trans hl, rfl⟩

theorem SameUpToOrder.wellFormed (h : b.SameUpToOrder b') (hb : b.WellFormed) :
    b'.WellFormed := by
  obtain ⟨l, hl, rfl⟩ := h
  exact {
    nodup := hl.nodup_iff.mpr hb.nodup
    deadNodup := hb.deadNodup
    disjoint := fun r hr => hb.disjoint r (hl.mem_iff.mp hr)
    all := fun r => by rw [← hb.all r, hl.mem_iff]
    identity := hb.identity
    onBoard := fun r hr => hb.onBoard r (hl.mem_iff.mp hr)
    stored := fun r hr => hb.stored r (hl.mem_iff.mp hr)
    active := fun p r hp hr => (hb.active p r hp hr).imp_left hl.mem_iff.mpr
    cellPosition := hb.cellPosition }

theorem SameUpToOrder.mem_pieces (h : b.SameUpToOrder b') : r ∈ b'.pieces ↔ r ∈ b.pieces := by
  obtain ⟨l, hl, rfl⟩ := h
  exact hl.mem_iff

theorem SameUpToOrder.placement (h : b.SameUpToOrder b') : b'.placement = b.placement := by
  obtain ⟨l, hl, rfl⟩ := h
  rfl

theorem SameUpToOrder.info (h : b.SameUpToOrder b') : b'.info = b.info := by
  obtain ⟨l, hl, rfl⟩ := h
  rfl

theorem SameUpToOrder.nextColor (h : b.SameUpToOrder b') : b'.nextColor = b.nextColor := by
  obtain ⟨l, hl, rfl⟩ := h
  rfl

/-- Taking a move back moves the captured piece within the list. -/
theorem WellFormed.reordered_undonePieces (h : b.WellFormed) (own : PieceRef → Bool)
    (hown : ∀ c, b.getPieceAt q = some c → own c = false) :
    Lib.Reordered own b.pieces (b.undonePieces q) := by
  unfold undonePieces
  cases hcap : b.getPieceAt q with
  | none => exact .refl _ _
  | some c =>
    exact Lib.reordered_moveToTail (hown c hcap) (h.getPieceAt_iff.mp hcap).1 h.nodup

theorem WellFormed.sameUpToOrder_undone (h : b.WellFormed) :
    b.SameUpToOrder { b with pieces := b.undonePieces q } :=
  ⟨_, (h.reordered_undonePieces (fun _ => false) (fun _ _ => rfl)).1, rfl⟩

/-! ## The board of a new game -/

theorem new_pieces : (Board.new .red).pieces = List.range 32 := by decide +kernel

theorem new_deadPieces : (Board.new .red).deadPieces = [] := by decide +kernel

theorem new_info : ∀ r < 32, (Board.new .red).man r = firstMan r ∧
    ((Board.new .red).positionOf r).isValid = true ∧
    ((Board.new .red).cells ((Board.new .red).positionOf r)).piece = some r := by
  decide +kernel

theorem new_cells : ∀ x ∈ Int.range 0 9, ∀ y ∈ Int.range 0 10,
    (Board.new .red).cells ⟨x, y⟩ = {} ∨
      ∃ r < 32, (Board.new .red).cells ⟨x, y⟩ = ⟨⟨x, y⟩, some r⟩ ∧
        (Board.new .red).positionOf r = ⟨x, y⟩ := by
  decide +kernel

theorem new_cell {p : Position} (hp : p.isValid = true) :
    (Board.new .red).cells p = {} ∨
      ∃ r < 32, (Board.new .red).cells p = ⟨p, some r⟩ ∧ (Board.new .red).positionOf r = p := by
  obtain ⟨x, y⟩ := p
  obtain ⟨hx, hx', hy, hy'⟩ := Position.isValid_iff.mp hp
  exact new_cells x (Int.mem_range_iff.mpr ⟨hx, Int.lt_add_one_of_le hx'⟩)
    y (Int.mem_range_iff.mpr ⟨hy, Int.lt_add_one_of_le hy'⟩)

theorem wellFormed_new : (Board.new .red).WellFormed where
  nodup := by rw [new_pieces]; exact List.nodup_range
  deadNodup := by rw [new_deadPieces]; exact List.nodup_nil
  disjoint := fun r _ => by rw [new_deadPieces]; exact List.not_mem_nil
  all := fun r => by rw [new_pieces, new_deadPieces]; simp
  identity := fun r hr => (new_info r hr).1
  onBoard := fun r hr => (new_info r (by rw [new_pieces] at hr; simpa using hr)).2.1
  stored := fun r hr => (new_info r (by rw [new_pieces] at hr; simpa using hr)).2.2
  active := by
    intro p r hp hr
    rcases new_cell hp with hc | ⟨c, hlt, hc, hpos⟩
    · rw [hc] at hr
      cases hr
    · rw [hc] at hr
      cases hr
      exact ⟨by rw [new_pieces]; simpa using hlt, hpos⟩
  cellPosition := by
    intro p hp
    rcases new_cell hp with hc | ⟨c, -, hc, -⟩ <;> rw [hc] <;> simp

end Board

end HoxServer
