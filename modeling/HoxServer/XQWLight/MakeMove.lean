/-
HoxServer.XQWLight.MakeMove — what a move does to the position of the
engine, and that undoing it brings every field back.

* `makeMove_eq` — `MakeMove` in one line: the move is refused without a
  trace, or leads to `made`.
* `undo_made`, `undo_null` — a move or a null move, undone.
* `values_kept` — in every run of moves made and undone, the worth of each
  side and the Zobrist key are those of the board, and the position is the
  one to which the moves on its list lead.
-/
import HoxServer.XQWLight.Position
import HoxServer.Lib.Incremental
import HoxServer.Lib.Machine

namespace HoxServer.XQWLight

/-! ## The group of the keys -/

namespace ZobristStruct

instance : Add ZobristStruct := ⟨xor⟩

instance : Zero ZobristStruct := ⟨{}⟩

instance : Neg ZobristStruct := ⟨id⟩

/-- Keys are added by `Xor`, and each is its own inverse. -/
instance : AddCommGroup ZobristStruct where
  add_assoc a b c := by ext1 <;> exact UInt32.xor_assoc _ _ _
  zero_add a := by ext1 <;> exact UInt32.zero_xor
  add_zero a := by ext1 <;> exact UInt32.xor_zero
  add_comm a b := by ext1 <;> exact UInt32.xor_comm _ _
  neg_add_cancel a := by ext1 <;> exact UInt32.xor_self
  nsmul := nsmulRec
  zsmul := zsmulRec

theorem xor_eq_add (a b : ZobristStruct) : a.xor b = a + b := rfl

theorem add_self (a : ZobristStruct) : a + a = 0 := neg_add_cancel a

theorem sub_eq_add (a b : ZobristStruct) : a - b = a + b := sub_eq_add_neg a b

theorem add_add_cancel (a b : ZobristStruct) : a + b + b = a := by
  rw [add_assoc, add_self, add_zero]

end ZobristStruct

@[simp] theorem Side.opposite_opposite (sd : Side) : sd.opposite.opposite = sd := by
  cases sd <;> rfl

namespace PositionStruct

variable {Z : Zobrist} {p q : PositionStruct} {mv : Int}

/-! ## Making and undoing -/

@[simp] theorem changeSide_changeSide : (p.changeSide Z).changeSide Z = p := by
  ext1 <;> simp [changeSide, ZobristStruct.xor_eq_add, ZobristStruct.add_add_cancel]

/-- The position after `MovePiece`. -/
def moved (Z : Zobrist) (p : PositionStruct) (mv : Int) : PositionStruct :=
  let pcCaptured := p.ucpcSquares (dst mv)
  ((if pcCaptured ≠ 0 then p.delPiece Z (dst mv) pcCaptured else p).delPiece Z (src mv)
    (p.ucpcSquares (src mv))).addPiece Z (dst mv) (p.ucpcSquares (src mv))

/-- The moves that `MovePiece` can do: there is a piece, and it goes away. -/
def Movable (p : PositionStruct) (mv : Int) : Prop :=
  p.ucpcSquares (src mv) ≠ 0 ∧ src mv ≠ dst mv

instance : Decidable (p.Movable mv) := inferInstanceAs (Decidable (_ ∧ _))

theorem movePiece_eq : p.movePiece Z mv =
    if p.Movable mv then .ok (p.moved Z mv, p.ucpcSquares (dst mv)) else .error .noPiece := by
  unfold movePiece moved Movable
  by_cases hcap : p.ucpcSquares (dst mv) = 0
  · simp only [hcap, ne_eq, not_true_eq_false, if_false]
    by_cases hsrc : p.ucpcSquares (src mv) = 0
    · simp [hsrc]
    · have hne : src mv ≠ dst mv := fun h => hsrc (h ▸ hcap)
      simp [hsrc, hne]
  · simp only [ne_eq, hcap, not_false_eq_true, if_true]
    by_cases hne : src mv = dst mv
    · simp [delPiece, hne]
    · by_cases hsrc : p.ucpcSquares (src mv) = 0
      · simp [delPiece, Function.update_of_ne hne, hsrc]
      · simp [delPiece, hsrc, hne]

/-- The board after a move. -/
theorem moved_ucpcSquares : (p.moved Z mv).ucpcSquares =
    Function.update (Function.update p.ucpcSquares (src mv) 0) (dst mv)
      (p.ucpcSquares (src mv)) := by
  unfold moved
  by_cases hcap : p.ucpcSquares (dst mv) = 0
  · simp [hcap, addPiece, delPiece]
  · simp only [ne_eq, hcap, not_false_eq_true, if_true, addPiece, delPiece]
    funext sq
    by_cases hd : sq = dst mv
    · simp [hd]
    · by_cases hs : sq = src mv <;> simp [Function.update_apply, hd, hs]

@[simp] theorem moved_sdPlayer : (p.moved Z mv).sdPlayer = p.sdPlayer := by
  dsimp only [moved, addPiece, delPiece]
  split <;> rfl

@[simp] theorem moved_mvsList : (p.moved Z mv).mvsList = p.mvsList := by
  dsimp only [moved, addPiece, delPiece]
  split <;> rfl

@[simp] theorem moved_nDistance : (p.moved Z mv).nDistance = p.nDistance := by
  dsimp only [moved, addPiece, delPiece]
  split <;> rfl

theorem undoMovePiece_moved (h : p.Movable mv) :
    (p.moved Z mv).undoMovePiece Z mv (p.ucpcSquares (dst mv)) = .ok p := by
  obtain ⟨hsrc, hne⟩ := h
  have hdst : (p.moved Z mv).ucpcSquares (dst mv) = p.ucpcSquares (src mv) := by
    simp [moved_ucpcSquares]
  -- the board
  have hboard : Function.update (Function.update (Function.update (p.moved Z mv).ucpcSquares
      (dst mv) 0) (src mv) (p.ucpcSquares (src mv))) (dst mv) (p.ucpcSquares (dst mv)) =
      p.ucpcSquares := by
    rw [moved_ucpcSquares]
    funext sq
    by_cases hd : sq = dst mv
    · simp [hd]
    · by_cases hs : sq = src mv
      · simp [hs, hne]
      · simp [hd, hs]
  unfold undoMovePiece
  rw [hdst]
  simp only [hsrc, if_false]
  by_cases hcap : p.ucpcSquares (dst mv) = 0
  · simp only [hcap, ne_eq, not_true_eq_false, if_false]
    rw [hcap, Function.update_comm hne.symm, Function.update_idem, Function.update_comm hne]
      at hboard
    congr 1
    ext1
    · simp [addPiece, delPiece]
    · exact hboard
    · simp [addPiece, delPiece, moved, hcap]
    · simp [addPiece, delPiece, moved, hcap]
    · simp [addPiece, delPiece]
    · simp [addPiece, delPiece]
    · simp only [addPiece, delPiece, moved, hcap, ne_eq, not_true_eq_false, if_false,
        ZobristStruct.xor_eq_add]
      rw [ZobristStruct.add_add_cancel, ZobristStruct.add_add_cancel]
  · simp only [ne_eq, hcap, not_false_eq_true, if_true]
    congr 1
    ext1
    · simp [addPiece, delPiece]
    · exact hboard
    · simp [addPiece, delPiece, moved, hcap]
    · simp [addPiece, delPiece, moved, hcap]
    · simp [addPiece, delPiece]
    · simp [addPiece, delPiece]
    · simp only [addPiece, delPiece, moved, hcap, ne_eq, not_false_eq_true, if_true,
        ZobristStruct.xor_eq_add]
      rw [ZobristStruct.add_add_cancel, ZobristStruct.add_add_cancel,
        ZobristStruct.add_add_cancel]

/-- The position after a move that is not refused. -/
def made (Z : Zobrist) (p : PositionStruct) (mv : Int) : PositionStruct :=
  let q := (p.moved Z mv).changeSide Z
  { q with
    mvsList := ⟨mv, p.ucpcSquares (dst mv), q.checked, p.zobr.dwKey⟩ :: p.mvsList
    nDistance := p.nDistance + 1 }

/-- **`MakeMove`.** -/
theorem makeMove_eq : p.makeMove Z mv =
    if p.Movable mv then
      if (p.moved Z mv).checked then .ok (false, p)
      else if p.mvsList.length < maxMoves then .ok (true, p.made Z mv)
      else .error .historyFull
    else .error .noPiece := by
  unfold makeMove
  rw [movePiece_eq]
  by_cases hmov : p.Movable mv
  · simp only [hmov, if_true, bind, Except.bind]
    by_cases hchecked : (p.moved Z mv).checked
    · simp [hchecked, undoMovePiece_moved hmov]
    · simp only [hchecked, Bool.false_eq_true, if_false, pushMove]
      rw [show ((p.moved Z mv).changeSide Z).mvsList = p.mvsList by simp [changeSide]]
      by_cases hroom : p.mvsList.length < maxMoves
      · simp only [hroom, if_true, made]
        congr 3
        simp [changeSide]
      · simp [hroom]
  · simp [hmov, bind, Except.bind]

@[simp] theorem made_mvsList : (p.made Z mv).mvsList =
    ⟨mv, p.ucpcSquares (dst mv), (p.made Z mv).checked, p.zobr.dwKey⟩ :: p.mvsList := rfl

@[simp] theorem made_nDistance : (p.made Z mv).nDistance = p.nDistance + 1 := rfl

@[simp] theorem made_sdPlayer : (p.made Z mv).sdPlayer = p.sdPlayer.opposite := by
  simp [made, changeSide]

@[simp] theorem made_ucpcSquares : (p.made Z mv).ucpcSquares = (p.moved Z mv).ucpcSquares := rfl

/-- **A move, undone.** -/
theorem undo_made (h : p.Movable mv) : (p.made Z mv).undoMakeMove Z = .ok p := by
  have hback : PositionStruct.changeSide Z
      { p.made Z mv with nDistance := (p.made Z mv).nDistance - 1, mvsList := p.mvsList } =
      p.moved Z mv := by
    ext1
    · simp [changeSide]
    · simp [changeSide]
    · simp [changeSide, made]
    · simp [changeSide, made]
    · simp [changeSide, made]
    · simp [changeSide]
    · simp only [changeSide, made, ZobristStruct.xor_eq_add]
      rw [ZobristStruct.add_add_cancel]
  unfold undoMakeMove
  rw [made_mvsList]
  simp only
  rw [hback]
  exact undoMovePiece_moved h

/-- The position after a null move. -/
def passed (Z : Zobrist) (p : PositionStruct) : PositionStruct :=
  { p.changeSide Z with
    mvsList := ⟨0, 0, false, p.zobr.dwKey⟩ :: p.mvsList
    nDistance := p.nDistance + 1 }

theorem nullMove_eq : p.nullMove Z =
    if p.mvsList.length < maxMoves then .ok (p.passed Z) else .error .historyFull := by
  unfold nullMove pushMove
  by_cases hroom : p.mvsList.length < maxMoves
  · simp only [changeSide, hroom, if_true, bind, Except.bind, passed]
  · simp [changeSide, hroom, bind, Except.bind]

/-- **A null move, undone.** -/
theorem undo_null : (p.passed Z).undoNullMove Z = p := by
  ext1
  · simp [undoNullMove, passed, changeSide]
  · rfl
  · rfl
  · rfl
  · simp [undoNullMove, passed, changeSide]
  · simp [undoNullMove, passed, changeSide]
  · simp only [undoNullMove, passed, changeSide, ZobristStruct.xor_eq_add]
    rw [ZobristStruct.add_add_cancel]

/-! ## The values of the board -/

/-- The squares of the arrays. -/
def allSquares : Finset Int := squares.toFinset

theorem mem_squares {sq : Int} : sq ∈ squares ↔ 0 ≤ sq ∧ sq < 256 := by
  simp only [squares, List.mem_map, List.mem_range, Int.ofNat_eq_natCast]
  constructor
  · rintro ⟨n, hn, rfl⟩
    omega
  · rintro ⟨hlo, hhi⟩
    exact ⟨sq.toNat, by omega, by omega⟩

theorem mem_allSquares {sq : Int} : sq ∈ allSquares ↔ 0 ≤ sq ∧ sq < 256 := by
  rw [allSquares, List.mem_toFinset, mem_squares]

/-- The worth of what is on a square; nothing is worth nothing. -/
def worth {A : Type} [Zero A] (value : Nat → Int → A) (sq : Int) (pc : Nat) : A :=
  if pc = 0 then 0 else value pc sq

theorem worth_zero {A : Type} [Zero A] (value : Nat → Int → A) (sq : Int) :
    worth value sq 0 = 0 := rfl

theorem worth_of_ne {A : Type} [Zero A] (value : Nat → Int → A) (sq : Int) {pc : Nat}
    (h : pc ≠ 0) : worth value sq pc = value pc sq := if_neg h

/-- The key of the side to move. -/
def sideKey (Z : Zobrist) : Side → ZobristStruct
  | .red => 0
  | .black => Z.player

/-- The numbers that are kept up to date are those of the board. -/
structure Kept (Z : Zobrist) (p : PositionStruct) : Prop where
  white : p.vlWhite = Lib.total (worth whiteValue) allSquares p.ucpcSquares
  black : p.vlBlack = Lib.total (worth blackValue) allSquares p.ucpcSquares
  zobr : p.zobr = sideKey Z p.sdPlayer + Lib.total (worth (pieceKey Z)) allSquares p.ucpcSquares

theorem Kept.changeSide (h : p.Kept Z) : (p.changeSide Z).Kept Z where
  white := h.white
  black := h.black
  zobr := by
    have hside : sideKey Z p.sdPlayer.opposite = sideKey Z p.sdPlayer + Z.player := by
      cases p.sdPlayer
      · exact (zero_add _).symm
      · exact (ZobristStruct.add_self _).symm
    show p.zobr + Z.player = sideKey Z p.sdPlayer.opposite + _
    rw [h.zobr, hside]
    exact add_right_comm _ _ _

/-- A piece is put on a free square. -/
theorem Kept.addPiece (h : p.Kept Z) {sq : Int} {pc : Nat} (hsq : sq ∈ allSquares)
    (hfree : p.ucpcSquares sq = 0) (hpc : pc ≠ 0) : (p.addPiece Z sq pc).Kept Z where
  white := by
    show p.vlWhite + whiteValue pc sq = _
    rw [show (p.addPiece Z sq pc).ucpcSquares = Function.update p.ucpcSquares sq pc from rfl,
      Lib.total_put hsq (worth_zero _) hfree, worth_of_ne _ _ hpc, h.white]
  black := by
    show p.vlBlack + blackValue pc sq = _
    rw [show (p.addPiece Z sq pc).ucpcSquares = Function.update p.ucpcSquares sq pc from rfl,
      Lib.total_put hsq (worth_zero _) hfree, worth_of_ne _ _ hpc, h.black]
  zobr := by
    show p.zobr + pieceKey Z pc sq = _
    rw [show (p.addPiece Z sq pc).ucpcSquares = Function.update p.ucpcSquares sq pc from rfl,
      Lib.total_put hsq (worth_zero _) hfree, worth_of_ne _ _ hpc, h.zobr]
    exact add_assoc _ _ _

/-- The piece on a square is taken away. -/
theorem Kept.delPiece (h : p.Kept Z) {sq : Int} (hsq : sq ∈ allSquares)
    (hpc : p.ucpcSquares sq ≠ 0) : (p.delPiece Z sq (p.ucpcSquares sq)).Kept Z where
  white := by
    show p.vlWhite - whiteValue (p.ucpcSquares sq) sq =
      Lib.total _ _ (Function.update p.ucpcSquares sq 0)
    rw [Lib.total_take hsq (worth_zero _), worth_of_ne _ _ hpc, h.white]
  black := by
    show p.vlBlack - blackValue (p.ucpcSquares sq) sq =
      Lib.total _ _ (Function.update p.ucpcSquares sq 0)
    rw [Lib.total_take hsq (worth_zero _), worth_of_ne _ _ hpc, h.black]
  zobr := by
    show p.zobr + pieceKey Z (p.ucpcSquares sq) sq =
      _ + Lib.total _ _ (Function.update p.ucpcSquares sq 0)
    rw [Lib.total_take hsq (worth_zero _), worth_of_ne _ _ hpc, h.zobr,
      ZobristStruct.sub_eq_add]
    exact add_assoc _ _ _

/-- Two squares of the board, as one number. -/
def OnSquares (mv : Int) : Prop := 0 ≤ mv ∧ mv < 65536

instance : Decidable (OnSquares mv) := inferInstanceAs (Decidable (_ ∧ _))

theorem OnSquares.src_mem (_ : OnSquares mv) : src mv ∈ allSquares := by
  have : src mv = mv % 256 := rfl
  rw [mem_allSquares]
  omega

theorem OnSquares.dst_mem (h : OnSquares mv) : dst mv ∈ allSquares := by
  have : dst mv = mv / 256 := rfl
  obtain ⟨hlo, hhi⟩ := h
  rw [mem_allSquares]
  omega

theorem Kept.moved (h : p.Kept Z) (hmv : OnSquares mv) (hmov : p.Movable mv) :
    (p.moved Z mv).Kept Z := by
  obtain ⟨hsrc, hne⟩ := hmov
  -- the captured piece comes off the board
  have hcap : ∀ q : PositionStruct, q = (if p.ucpcSquares (dst mv) ≠ 0 then
      p.delPiece Z (dst mv) (p.ucpcSquares (dst mv)) else p) →
      q.Kept Z ∧ q.ucpcSquares (dst mv) = 0 ∧ q.ucpcSquares (src mv) = p.ucpcSquares (src mv) := by
    rintro q rfl
    by_cases hcap : p.ucpcSquares (dst mv) = 0
    · simp [hcap, h]
    · simp only [ne_eq, hcap, not_false_eq_true, if_true]
      refine ⟨h.delPiece hmv.dst_mem hcap, ?_, ?_⟩
      · simp [PositionStruct.delPiece]
      · simp [PositionStruct.delPiece, Function.update_of_ne hne]
  obtain ⟨hkept, hdst, hsame⟩ := hcap _ rfl
  unfold PositionStruct.moved
  rw [← hsame]
  refine (hkept.delPiece hmv.src_mem (hsame ▸ hsrc)).addPiece hmv.dst_mem ?_ (hsame ▸ hsrc)
  show Function.update _ (src mv) 0 (dst mv) = 0
  rw [Function.update_of_ne hne.symm, hdst]

/-- `mvsList` and `nDistance` are not among the values. -/
theorem Kept.congr (h : p.Kept Z) (hside : q.sdPlayer = p.sdPlayer)
    (hboard : q.ucpcSquares = p.ucpcSquares) (hwhite : q.vlWhite = p.vlWhite)
    (hblack : q.vlBlack = p.vlBlack) (hzobr : q.zobr = p.zobr) : q.Kept Z where
  white := by rw [hwhite, hboard, h.white]
  black := by rw [hblack, hboard, h.black]
  zobr := by rw [hzobr, hside, hboard, h.zobr]

theorem Kept.made (h : p.Kept Z) (hmv : OnSquares mv) (hmov : p.Movable mv) :
    (p.made Z mv).Kept Z :=
  (h.moved hmv hmov).changeSide.congr rfl rfl rfl rfl rfl

theorem Kept.passed (h : p.Kept Z) : (p.passed Z).Kept Z :=
  h.changeSide.congr rfl rfl rfl rfl rfl

/-! ### The board at the start -/

theorem kept_empty : ({} : PositionStruct).Kept Z where
  white := (Lib.total_blank (worth_zero _) fun _ _ => rfl).symm
  black := (Lib.total_blank (worth_zero _) fun _ _ => rfl).symm
  zobr := by
    rw [Lib.total_blank (worth_zero _) fun _ _ => rfl, add_zero]
    rfl

/-- Pieces are put on squares that are free and different. -/
theorem Kept.addPieces {l : List (Int × Nat)} (hl : ∀ x ∈ l, x.1 ∈ allSquares)
    (hnodup : (l.map Prod.fst).Nodup) {p : PositionStruct} (h : p.Kept Z)
    (hfree : ∀ x ∈ l, p.ucpcSquares x.1 = 0) : (p.addPieces Z l).Kept Z := by
  induction l generalizing p with
  | nil => exact h
  | cons x l ih =>
    obtain ⟨hnotin, hnodup⟩ := List.nodup_cons.mp hnodup
    have hx := hfree x List.mem_cons_self
    have hl' := fun y hy => hl y (List.mem_cons_of_mem x hy)
    have hfree' := fun y hy => hfree y (List.mem_cons_of_mem x hy)
    show ((if x.2 ≠ 0 then p.addPiece Z x.1 x.2 else p).addPieces Z l).Kept Z
    split
    · rename_i hpc
      refine ih hl' hnodup (h.addPiece (hl x List.mem_cons_self) hx hpc) fun y hy => ?_
      have hne : y.1 ≠ x.1 := fun e => hnotin (e ▸ List.mem_map_of_mem hy)
      simp [PositionStruct.addPiece, Function.update_of_ne hne, hfree' y hy]
    · exact ih hl' hnodup h hfree'

theorem Kept.setIrrev (h : p.Kept Z) : p.setIrrev.Kept Z := h.congr rfl rfl rfl rfl rfl

theorem squares_nodup : squares.Nodup := List.nodup_range.map fun _ _ h => Int.ofNat.inj h

theorem kept_startup (board : Option (Nat → Nat → Nat)) : (startup Z board).Kept Z := by
  cases board with
  | none =>
    refine (kept_empty.addPieces ?_ ?_ fun _ _ => rfl).setIrrev
    · intro x hx
      obtain ⟨sq, hsq, rfl⟩ := List.mem_map.mp hx
      exact mem_allSquares.mpr (mem_squares.mp hsq)
    · rw [List.map_map]
      exact squares_nodup.map fun _ _ h => h
  | some board =>
    refine (kept_empty.addPieces ?_ ?_ fun _ _ => rfl).setIrrev
    · simp only [boardSquares, List.mem_flatMap, List.mem_map, List.mem_range, forall_exists_index,
        and_imp]
      rintro _ i hi j hj rfl
      simp only [mem_allSquares, Int.ofNat_eq_natCast]
      omega
    · have hsquares : (boardSquares board).map Prod.fst =
          (boardSquares fun _ _ => 0).map Prod.fst := by
        simp only [boardSquares, List.map_flatMap, List.map_map]
        rfl
      rw [hsquares]
      decide +kernel

/-! ## Runs -/

/-- What is done to a position: a move, a null move, or the undoing of the
last of them. -/
inductive Turn where
  | make (mv : Int)
  | null
  | undo
  deriving DecidableEq, Repr

/-- A null move is undone by `UndoNullMove`, a move by `UndoMakeMove`; the
entry of `SetIrrev` stays. -/
def turn (Z : Zobrist) (p : PositionStruct) : Turn → Except Fault PositionStruct
  | .make mv => (p.makeMove Z mv).map Prod.snd
  | .null => p.nullMove Z
  | .undo =>
    match p.mvsList with
    | m :: _ :: _ => if m.wmv = 0 then .ok (p.undoNullMove Z) else p.undoMakeMove Z
    | _ => .error .noMove

/-- The board of a new game, with either side to move. -/
def Started (Z : Zobrist) (p : PositionStruct) : Prop :=
  ∃ board, p = startup Z board ∨ p = (startup Z board).changeSide Z

def machine (Z : Zobrist) : Lib.Machine PositionStruct Turn Fault where
  init := Started Z
  step := turn Z

/-- The moves on the list of a position, the oldest first. -/
def turns (p : PositionStruct) : List Turn :=
  p.mvsList.dropLast.reverse.map fun m => if m.wmv = 0 then .null else .make m.wmv

/-- The positions to which moves lead from `p₀` that are not undone, where
every step is one of `C`. -/
inductive Leads (Z : Zobrist) (C : PositionStruct → Turn → Prop) (p₀ : PositionStruct) :
    PositionStruct → Prop
  | start : Leads Z C p₀ p₀
  | made {p : PositionStruct} {mv : Int} (h : Leads Z C p₀ p) (hC : C p (.make mv))
      (hmov : p.Movable mv) (hmade : p.makeMove Z mv = .ok (true, p.made Z mv)) :
      Leads Z C p₀ (p.made Z mv)
  | passed {p : PositionStruct} (h : Leads Z C p₀ p) (hC : C p .null)
      (hpass : p.nullMove Z = .ok (p.passed Z)) : Leads Z C p₀ (p.passed Z)

theorem Movable.ne_zero (h : p.Movable mv) : mv ≠ 0 := by
  rintro rfl
  exact h.2 rfl

/-- What `MakeMove` can do. -/
theorem makeMove_cases {b : Bool} (h : p.makeMove Z mv = .ok (b, q)) :
    p.Movable mv ∧ (b = false ∧ q = p ∨ b = true ∧ q = p.made Z mv) := by
  rw [makeMove_eq] at h
  split at h
  · rename_i hmov
    refine ⟨hmov, ?_⟩
    split at h
    · obtain ⟨rfl, rfl⟩ := Prod.mk.inj (Except.ok.inj h)
      exact Or.inl ⟨rfl, rfl⟩
    · split at h
      · obtain ⟨rfl, rfl⟩ := Prod.mk.inj (Except.ok.inj h)
        exact Or.inr ⟨rfl, rfl⟩
      · cases h
  · cases h

theorem started_kept (h : Started Z p) : p.Kept Z ∧ p.mvsList.length = 1 := by
  obtain ⟨board, rfl | rfl⟩ := h
  · exact ⟨kept_startup board, by cases board <;> rfl⟩
  · exact ⟨(kept_startup board).changeSide, by cases board <;> rfl⟩

variable {C : PositionStruct → Turn → Prop} {p₀ : PositionStruct}

theorem Leads.kept (hC : ∀ p mv, C p (.make mv) → OnSquares mv) (h₀ : Started Z p₀)
    (h : Leads Z C p₀ p) : p.Kept Z := by
  induction h with
  | start => exact (started_kept h₀).1
  | made _ hmv hmov _ ih => exact ih.made (hC _ _ hmv) hmov
  | passed _ _ _ ih => exact ih.passed

theorem Leads.mvsList_ne_nil (h₀ : Started Z p₀) (h : Leads Z C p₀ p) : p.mvsList ≠ [] := by
  cases h with
  | start =>
    rw [← List.length_pos_iff, (started_kept h₀).2]
    exact Nat.one_pos
  | made => simp
  | passed => simp [PositionStruct.passed]

/-- A position is the one to which the moves on its list lead. -/
theorem Leads.run_turns (h₀ : Started Z p₀) (h : Leads Z C p₀ p) :
    (machine Z).run p₀ p.turns = .ok p := by
  induction h with
  | start =>
    obtain ⟨m, hm⟩ := List.length_eq_one_iff.mp (started_kept h₀).2
    simp [turns, hm]
  | @made p mv h _ hmov hmade ih =>
    have hturns : (p.made Z mv).turns = p.turns ++ [.make mv] := by
      simp [turns, List.dropLast_cons_of_ne_nil (h.mvsList_ne_nil h₀), hmov.ne_zero]
    rw [hturns, Lib.Machine.run_append ih]
    simp [Lib.Machine.run, machine, turn, hmade, Except.map]
  | @passed p h _ hpass ih =>
    have hturns : (p.passed Z).turns = p.turns ++ [.null] := by
      simp [turns, PositionStruct.passed, List.dropLast_cons_of_ne_nil (h.mvsList_ne_nil h₀)]
    rw [hturns, Lib.Machine.run_append ih]
    simp [Lib.Machine.run, machine, turn, hpass]

/-- What undoing brings back is a position that was there before. -/
theorem Leads.undo (h₀ : Started Z p₀) (h : Leads Z C p₀ p) (hs : p.turn Z .undo = .ok q) :
    Leads Z C p₀ q := by
  cases h with
  | start =>
    obtain ⟨m, hm⟩ := List.length_eq_one_iff.mp (started_kept h₀).2
    simp [turn, hm] at hs
  | @made p mv h _ hmov hmade =>
    obtain ⟨m, l, hl⟩ := List.exists_cons_of_ne_nil (h.mvsList_ne_nil h₀)
    rw [turn, made_mvsList, hl] at hs
    simp only [hmov.ne_zero, if_false, undo_made hmov] at hs
    cases hs
    exact h
  | @passed p h _ hpass =>
    obtain ⟨m, l, hl⟩ := List.exists_cons_of_ne_nil (h.mvsList_ne_nil h₀)
    rw [turn, show (p.passed Z).mvsList = ⟨0, 0, false, p.zobr.dwKey⟩ :: p.mvsList from rfl,
      hl] at hs
    simp only [if_true, undo_null] at hs
    cases hs
    exact h

theorem Leads.step (h₀ : Started Z p₀) (h : Leads Z C p₀ p) {t : Turn} (ht : C p t)
    (hs : p.turn Z t = .ok q) : Leads Z C p₀ q := by
  cases t with
  | make mv =>
    obtain ⟨⟨b, q'⟩, hmake, rfl⟩ := Lib.map_eq_ok.mp hs
    obtain ⟨hmov, ⟨rfl, rfl⟩ | ⟨rfl, rfl⟩⟩ := makeMove_cases hmake
    · exact h
    · exact h.made ht hmov hmake
  | null =>
    have hs' : p.nullMove Z = .ok q := hs
    have hpass := hs'
    rw [nullMove_eq] at hs'
    split at hs'
    · cases hs'
      exact h.passed ht hpass
    · cases hs'
  | undo => exact h.undo h₀ hs

theorem leads_of_run {es : List Turn} (h₀ : Started Z p₀) (hmeets : (machine Z).Meets C p₀ es)
    (hrun : (machine Z).run p₀ es = .ok p) : Leads Z C p₀ p := by
  have hleads : ∀ {es : List Turn} {q : PositionStruct}, Leads Z C p₀ q →
      (machine Z).Meets C q es → (machine Z).run q es = .ok p → Leads Z C p₀ p := by
    intro es
    induction es with
    | nil =>
      intro q hq _ hr
      cases hr
      exact hq
    | cons e es ih =>
      intro q hq hes hr
      obtain ⟨q', hs, hr⟩ := Lib.Machine.run_cons_eq_ok.mp hr
      exact ih (hq.step h₀ hes.1 hs) (hes.2 q' hs) hr
  exact hleads .start hmeets hrun

/-- **The values are those of the board.** After every run of moves, null
moves and undone ones from a new game, the worth of each side and the key
are what they would be if they were computed from the board and the side
to move, and the position is in every field the one to which the moves on
its list lead: no move that was refused or undone has left a trace. -/
theorem values_kept {es : List Turn} (h₀ : Started Z p₀)
    (hes : ∀ mv, Turn.make mv ∈ es → OnSquares mv) (hrun : (machine Z).run p₀ es = .ok p) :
    p.Kept Z ∧ (machine Z).run p₀ p.turns = .ok p := by
  have hmeets : (machine Z).Meets (fun _ t => ∀ mv, t = .make mv → OnSquares mv) p₀ es := by
    refine Lib.Machine.meets_of_forall fun _ t ht => ?_
    rintro mv rfl
    exact hes mv ht
  have h := leads_of_run h₀ hmeets hrun
  exact ⟨h.kept (fun _ mv hmv => hmv mv rfl) h₀, h.run_turns h₀⟩

/-- RED's cannon takes a horse, with check, after a null move that is undone.
BLACK's cannon may not take a horse in turn, and his chariot takes the cannon,
which is undone too. -/
def cannonGame : List Turn :=
  [.make (move 149 133), .null, .undo, .make (move 56 71), .make (move 170 58),
    .make (move 84 196), .make (move 59 58), .undo]

theorem cannonGame_run : ∃ p : PositionStruct,
    (machine initZobrist).run (startup initZobrist none) cannonGame = .ok p ∧
      p.mvsList.length = 4 ∧ p.inCheck = true ∧ p.sdPlayer = .black := by
  have hrun : ((machine initZobrist).run (startup initZobrist none) cannonGame).map
      (fun p => (p.mvsList.length, p.inCheck, p.sdPlayer)) = .ok (4, true, .black) := by
    decide +kernel
  obtain ⟨p, hp, hval⟩ := Lib.map_eq_ok.mp hrun
  simp only [Prod.mk.injEq] at hval
  exact ⟨p, hp, hval⟩

theorem values_kept_cannon : ∃ p : PositionStruct,
    (machine initZobrist).run (startup initZobrist none) cannonGame = .ok p ∧
      p.mvsList.length = 4 ∧ p.Kept initZobrist ∧
      (machine initZobrist).run (startup initZobrist none) p.turns = .ok p := by
  obtain ⟨p, hp, hlength, -⟩ := cannonGame_run
  refine ⟨p, hp, hlength, values_kept ⟨none, .inl rfl⟩ ?_ hp⟩
  intro mv hmv
  simp only [cannonGame, List.mem_cons, Turn.make.injEq, reduceCtorEq, or_false, false_or,
    List.not_mem_nil] at hmv
  rcases hmv with rfl | rfl | rfl | rfl | rfl <;> decide

end PositionStruct

end HoxServer.XQWLight
