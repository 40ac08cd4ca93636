/-
HoxServer.XQWLight.Opponent — the engine at a table.

The engine is told the moves of a game as strings (`on_human_move`) and
plays each on its own position; whether that worked is not asked. The
referee of the table has another board and other tests. `agrees_iff` says
when the two stay in step: exactly as long as no move that the referee
accepts leaves the board or the kings facing each other, which the engine
refuses without a word, and there is room on its list of moves, which it
never clears.
-/
import HoxServer.XQWLight.Play
import HoxServer.Referee.RefereeTheorems

namespace HoxServer.XQWLight

open Xiangqi Referee PositionStruct

/-! ## Strings of moves -/

/-- `sMove[i] - '0'`, as an `unsigned int`. -/
def hoxDigit (sMove : Bytes) (i : Nat) : Nat :=
  ((toChar (sMove.getD i 0).toNat - 48) % 4294967296).toNat

/-- `_hox2xqwlight`. -/
def hox2xqwlight (sMove : Bytes) : Nat :=
  let src := ((3 + hoxDigit sMove 0) + (3 + hoxDigit sMove 1) * 16) % 4294967296
  let dst := ((3 + hoxDigit sMove 2) + (3 + hoxDigit sMove 3) * 16) % 4294967296
  src ||| (dst <<< 8) % 4294967296

/-- `on_human_move`: the answer of `MakeMove` is not looked at. -/
def PositionStruct.onHumanMove (Z : Zobrist) (p : PositionStruct) (sMove : Bytes) :
    Except Fault PositionStruct :=
  (p.makeMove Z (hox2xqwlight sMove)).map Prod.snd

/-- A digit of the referee is one of the engine. -/
theorem digit_eq {c : UInt8} (hlo : 0 ≤ coordinate c) (hhi : coordinate c ≤ 9) :
    (((toChar c.toNat - 48) % 4294967296).toNat : Int) = coordinate c := by
  have hlt := c.toNat_lt
  unfold coordinate toChar at *
  omega

theorem or_shiftLeft {a : Nat} (ha : a < 256) (d : Nat) :
    a ||| (d <<< 8) % 4294967296 = a + d % 16777216 * 256 := by
  have hmod : (d <<< 8) % 4294967296 = (d % 16777216) <<< 8 := by
    rw [Nat.shiftLeft_eq, Nat.shiftLeft_eq]
    omega
  rw [hmod, Nat.or_comm, ← Nat.shiftLeft_add_eq_or_of_lt ha, Nat.shiftLeft_eq]
  omega

variable {x y X Y : UInt8}

theorem src_hox2xqwlight (ho : (charPosition x y).isValid = true) :
    src (hox2xqwlight [x, y, X, Y]) = square (charPosition x y) := by
  rw [Position.isValid_iff] at ho
  simp only [charPosition] at ho
  have hx := digit_eq (c := x) (by omega) (by omega)
  have hy := digit_eq (c := y) (by omega) (by omega)
  simp only [hox2xqwlight, hoxDigit, List.getD_cons_zero, List.getD_cons_succ]
  rw [or_shiftLeft (by omega), square_eq, src]
  simp only [charPosition]
  omega

theorem dst_hox2xqwlight (ho : (charPosition x y).isValid = true)
    (hd : (charPosition X Y).isValid = true) :
    dst (hox2xqwlight [x, y, X, Y]) = square (charPosition X Y) := by
  rw [Position.isValid_iff] at ho hd
  simp only [charPosition] at ho hd
  have hx := digit_eq (c := x) (by omega) (by omega)
  have hy := digit_eq (c := y) (by omega) (by omega)
  have hX := digit_eq (c := X) (by omega) (by omega)
  have hY := digit_eq (c := Y) (by omega) (by omega)
  simp only [hox2xqwlight, hoxDigit, List.getD_cons_zero, List.getD_cons_succ]
  rw [or_shiftLeft (by omega), square_eq, dst]
  simp only [charPosition]
  omega

/-- **`_hox2xqwlight`** reads what the referee reads. -/
theorem hox2xqwlight_eq (ho : (charPosition x y).isValid = true)
    (hd : (charPosition X Y).isValid = true) :
    (hox2xqwlight [x, y, X, Y] : Int) =
      move (square (charPosition x y)) (square (charPosition X Y)) := by
  rw [← src_hox2xqwlight (X := X) (Y := Y) ho, ← dst_hox2xqwlight ho hd, move_src_dst]

/-! ## The two boards of a game -/

/-- The board of the referee and the position of the engine. -/
structure Match where
  board : Board
  pos : PositionStruct

namespace Match

/-- A string goes to the referee, and if it is accepted to the engine. -/
def step (Z : Zobrist) (g : Match) (s : Bytes) : Except (HoxServer.Fault ⊕ Fault) Match :=
  match validateString g.board s with
  | .error e => .error (.inl e)
  | .ok v =>
    if v.accepted then
      match g.pos.onHumanMove Z s with
      | .error e => .error (.inr e)
      | .ok pos => .ok ⟨v.board, pos⟩
    else .ok { g with board := v.board }

/-- A new game. -/
def machine (Z : Zobrist) : Lib.Machine Match Bytes (HoxServer.Fault ⊕ Fault) where
  init g := g = ⟨resetGame, startup Z none⟩
  step := step Z

/-- The same men stand where, and the same side is to move. -/
structure Agrees (g : Match) : Prop where
  placement : g.pos.placement = g.board.placement
  turn : g.pos.sdPlayer.color = g.board.nextColor

/-- If the referee accepts the string, then it goes to a point of the board,
the kings do not face each other after it, and there is room on the list of
the engine. -/
def Playable (g : Match) (s : Bytes) : Prop :=
  ∀ v, validateString g.board s = .ok v → v.accepted = true →
    g.pos.mvsList.length < maxMoves ∧ ¬ KingsFacing v.board.placement ∧
      ∃ x y X Y, s = [x, y, X, Y] ∧ (charPosition X Y).isValid = true

/-- The invariant of a game in step. -/
structure InStep (g : Match) : Prop extends g.Agrees where
  lawful : g.board.Lawful
  inPlay : g.pos.InPlay

variable {Z : Zobrist} {g g' : Match} {s : Bytes} {v : Board.Verdict}

theorem InStep.isValid_origin (h : g.InStep) {r : PieceRef}
    (hr : g.board.getPieceAt (charPosition x y) = some r) :
    (charPosition x y).isValid = true := by
  have hman : g.pos.placement (charPosition x y) = some (g.board.man r) := by
    rw [h.placement, Board.placement, hr]
    rfl
  exact isValid_of_placement hman

/-- An accepted move to a point of the board, as a move of the engine. -/
theorem InStep.accepted (h : g.InStep) (hd : (charPosition X Y).isValid = true)
    (hv : validateString g.board [x, y, X, Y] = .ok v) (hacc : v.accepted = true) :
    g.pos.Own (charPosition x y) ∧
      PseudoLegal g.pos.placement (charPosition x y) (charPosition X Y) ∧
      ¬ InCheck v.board.placement g.pos.sdPlayer.color ∧
      v.board.placement = g.pos.placement.move (charPosition x y) (charPosition X Y) ∧
      v.board.nextColor = g.board.nextColor.opposite := by
  obtain ⟨r, q, ⟨_, _, _, _, hs, hr, rfl⟩, hpass, hplayed⟩ := accepted_cases h.lawful hv hacc
  cases hs
  obtain ⟨hmem, hpos⟩ := h.lawful.getPieceAt_iff.mp hr
  have hplace : v.board.placement =
      g.board.placement.move (charPosition x y) (charPosition X Y) := by
    rw [hplayed.board.placement, ← hpos, ← h.lawful.placement_landed hmem hd,
      Board.placement_played]
  have hrules := (h.lawful.passes_iff hmem hd).mp hpass
  rw [hpos] at hrules
  refine ⟨?_, ?_, ?_, ?_, ?_⟩
  · obtain ⟨m, hm, hcolor⟩ := hrules.own
    exact ⟨m, by rw [h.placement, hm], by rw [hcolor, h.turn]⟩
  · rw [h.placement]
    exact hrules.pseudoLegal
  · rw [hplace, h.turn]
    exact hrules.safe
  · rw [hplace, h.placement]
  · exact hplayed.board.nextColor

theorem step_accepted (hv : validateString g.board s = .ok v) (hacc : v.accepted = true) :
    g.step Z s = match g.pos.makeMove Z (hox2xqwlight s) with
      | .error e => .error (.inr e)
      | .ok (_, pos) => .ok ⟨v.board, pos⟩ := by
  simp only [step, hv, hacc, if_true, onHumanMove]
  cases g.pos.makeMove Z (hox2xqwlight s) with
  | error e => rfl
  | ok a => rfl

/-- A string that is turned down leaves the men and the turn. -/
theorem InStep.rejected (h : g.InStep) (hv : validateString g.board s = .ok v)
    (hrej : v.accepted = false) : g.step Z s = .ok { g with board := v.board } ∧
      InStep { g with board := v.board } := by
  have hsame := rejected_board h.lawful hv hrej
  refine ⟨by simp [step, hv, hrej], ⟨?_, ?_⟩, validateString_lawful h.lawful hv, h.inPlay⟩
  · exact h.placement.trans hsame.placement.symm
  · exact h.turn.trans hsame.nextColor.symm

/-- **A playable string** keeps the two in step. -/
theorem InStep.step_playable (h : g.InStep) (hplay : g.Playable s) :
    ∃ g', g.step Z s = .ok g' ∧ g'.InStep := by
  obtain ⟨v, hv, -⟩ := validateString_spec h.lawful s
  cases hacc : v.accepted with
  | false =>
    obtain ⟨hstep, hin⟩ := h.rejected (Z := Z) hv hacc
    exact ⟨_, hstep, hin⟩
  | true =>
    obtain ⟨hroom, hapart, x, y, X, Y, rfl, hd⟩ := hplay v hv hacc
    obtain ⟨hown, hlegal, hsafe, hplace, hturn⟩ := h.accepted hd hv hacc
    have ho : (charPosition x y).isValid = true := isValid_of_placement hown.choose_spec.1
    -- the engine finds nothing against the move
    have hfree : (g.pos.moved Z
        (move (square (charPosition x y)) (square (charPosition X Y)))).checked = false := by
      rw [h.inPlay.checked_moved_iff hown hlegal, Safe, ← hplace]
      exact ⟨hsafe, hapart⟩
    have hmake : g.pos.makeMove Z (hox2xqwlight [x, y, X, Y]) = .ok (true,
        g.pos.made Z (move (square (charPosition x y)) (square (charPosition X Y)))) := by
      rw [hox2xqwlight_eq ho hd, makeMove_eq, if_pos (hown.movable hlegal), hfree,
        if_neg Bool.false_ne_true, if_pos hroom]
    have hstep : g.step Z [x, y, X, Y] = .ok ⟨v.board,
        g.pos.made Z (move (square (charPosition x y)) (square (charPosition X Y)))⟩ := by
      simp only [step_accepted hv hacc, hmake]
    refine ⟨_, hstep, ⟨?_, ?_⟩, validateString_lawful h.lawful hv,
      h.inPlay.made ⟨_, _, rfl, hown, hlegal⟩ hfree⟩
    · show (g.pos.made Z _).placement = v.board.placement
      rw [placement_made, placement_moved ho hd, hplace]
    · show (g.pos.made Z _).sdPlayer.color = v.board.nextColor
      rw [made_sdPlayer, Side.color_opposite, h.turn, hturn]

/-- **Any other string** brings the two out of step, or the engine out of its
list. -/
theorem InStep.step_not_playable (h : g.InStep) (hplay : ¬ g.Playable s)
    (hstep : g.step Z s = .ok g') : ¬ g'.Agrees := by
  intro hagree
  unfold Playable at hplay
  push Not at hplay
  obtain ⟨v, hv, hacc, hnot⟩ := hplay
  rw [step_accepted hv hacc] at hstep
  obtain ⟨r, q, ⟨x, y, X, Y, rfl, hr, rfl⟩, hpass, hplayed⟩ := accepted_cases h.lawful hv hacc
  have ho := h.isValid_origin hr
  split at hstep
  · cases hstep
  · rename_i b pos hmake
    obtain rfl : g' = ⟨v.board, pos⟩ := (Except.ok.inj hstep).symm
    obtain ⟨hmov, ⟨rfl, rfl⟩ | ⟨rfl, rfl⟩⟩ := makeMove_cases hmake
    · -- refused: the side to move has not changed
      have hturn : g.pos.sdPlayer.color = v.board.nextColor := hagree.turn
      rw [hplayed.board.nextColor, h.turn] at hturn
      exact h.lawful.turn.opposite_ne hturn.symm
    · rw [makeMove_eq, if_pos hmov] at hmake
      split at hmake
      · cases hmake
      · rename_i hfree
        split at hmake
        · rename_i hroom
          by_cases hd : (charPosition X Y).isValid = true
          · -- played on the board, so the kings do not face each other
            obtain ⟨hown, hlegal, -, hplace, -⟩ := h.accepted hd hv hacc
            rw [hox2xqwlight_eq ho hd, Bool.not_eq_true,
              h.inPlay.checked_moved_iff hown hlegal, Safe, ← hplace] at hfree
            exact hnot hroom hfree.2 x y X Y rfl hd
          · -- the referee's piece has not moved, the engine's has
            have hland : g.board.landed r (charPosition X Y) = g.board :=
              if_neg hd
            have hplace : v.board.placement = g.board.placement := by
              rw [hplayed.board.placement, Board.placement_played, hland]
            have hman : v.board.placement (charPosition x y) = some (g.board.man r) := by
              rw [hplace, Board.placement, hr]
              rfl
            have hgone : (g.pos.made Z (hox2xqwlight [x, y, X, Y])).placement
                (charPosition x y) = none := by
              rw [placement_of_isValid ho, made_ucpcSquares, moved_ucpcSquares,
                ← src_hox2xqwlight (X := X) (Y := Y) ho, Function.update_of_ne hmov.2,
                Function.update_self, man?_zero]
            have hsame : (g.pos.made Z (hox2xqwlight [x, y, X, Y])).placement =
                v.board.placement := hagree.placement
            rw [hsame, hman] at hgone
            cases hgone
        · cases hmake

/-- The two boards of a new game are the same. -/
theorem placement_startup : (startup Z none).placement = resetGame.placement := by
  have hall : ∀ x < 9, ∀ y < 10, (starting .red).placement ⟨Int.ofNat x, Int.ofNat y⟩ =
      resetGame.placement ⟨Int.ofNat x, Int.ofNat y⟩ := by
    decide +kernel
  have hstart : (startup Z none).placement = (starting .red).placement := by
    unfold placement
    rw [startup_ucpcSquares]
    rfl
  rw [hstart]
  funext q
  by_cases hq : q.isValid = true
  · exact forall_points (motive := fun q => (starting .red).placement q = resetGame.placement q)
      hall hq
  · rw [PositionStruct.placement, if_neg hq, Board.placement,
      Board.getPieceAt_of_not_isValid (Bool.eq_false_iff.mpr hq)]
    rfl

theorem inStep_start (h : (machine Z).init g) : g.InStep := by
  have hg : g = ⟨resetGame, startup Z none⟩ := h
  have hpos : g.pos = startup Z none := by simp only [hg]
  have hboard : g.board = resetGame := by simp only [hg]
  have hturn : resetGame.nextColor = .red := by decide +kernel
  refine ⟨⟨?_, ?_⟩, ?_, ?_⟩
  · rw [hpos, hboard, placement_startup]
  · rw [hpos, hboard, startup_sdPlayer, hturn]
    rfl
  · rw [hboard]
    exact reachable_lawful reachable_resetGame
  · rw [hpos]
    exact NewGame.inPlay (Z := Z) (.inl rfl)

/-- **When the engine and the referee agree.** Whatever strings are sent in
a game: the engine has the men of the referee and his turn after every
string, and nothing outside of its arrays has happened, exactly when every
string is playable. -/
theorem agrees_iff (h : (machine Z).init g) (strings : List Bytes) :
    (machine Z).Along Agrees g strings ↔ (machine Z).Meets Playable g strings :=
  Lib.Machine.along_iff_meets (I := InStep) (fun _ hin => hin.toAgrees)
    (fun _ _ hin hplay => hin.step_playable hplay)
    (fun _ _ _ hin hplay hstep => hin.step_not_playable hplay hstep) (inStep_start h) strings

/-- A string of four characters with its destination on the board. -/
def goesToBoard : Bytes → Bool
  | [_, _, X, Y] => (charPosition X Y).isValid
  | _ => false

theorem goesToBoard_iff : goesToBoard s = true ↔
    ∃ x y X Y, s = [x, y, X, Y] ∧ (charPosition X Y).isValid = true := by
  unfold goesToBoard
  split
  · rename_i x y X Y
    constructor
    · exact fun hvalid => ⟨x, y, X, Y, rfl, hvalid⟩
    · rintro ⟨_, _, _, _, ⟨⟩, hvalid⟩
      exact hvalid
  · rename_i hother
    exact ⟨fun hfalse => absurd hfalse Bool.false_ne_true,
      fun ⟨x, y, X, Y, hs, _⟩ => absurd hs (hother x y X Y)⟩

/-- `Playable`, computed on boards in step. -/
def playable (g : Match) (s : Bytes) : Bool :=
  match validateString g.board s with
  | .error _ => true
  | .ok v => !v.accepted || decide (g.pos.mvsList.length < maxMoves) && !v.board.kingsFacing &&
      goesToBoard s

theorem InStep.playable_iff (h : g.InStep) : g.playable s = true ↔ g.Playable s := by
  obtain ⟨v, hv, -⟩ := validateString_spec h.lawful s
  have hfacing := (validateString_lawful h.lawful hv).toHasKings.kingsFacing_iff
  simp only [playable, hv, Bool.or_eq_true, Bool.not_eq_true', Bool.and_eq_true,
    decide_eq_true_eq, goesToBoard_iff, Bool.eq_false_iff, ne_eq, hfacing]
  constructor
  · intro hplay v' hv' hacc
    obtain rfl := Except.ok.inj (hv.symm.trans hv')
    obtain ⟨⟨hroom, hnot⟩, hboard⟩ := hplay.resolve_left (fun hrej => hrej hacc)
    exact ⟨hroom, hnot, hboard⟩
  · intro hplay
    by_cases hacc : v.accepted = true
    · obtain ⟨hroom, hnot, hboard⟩ := hplay v hv hacc
      exact Or.inr ⟨⟨hroom, hnot⟩, hboard⟩
    · exact Or.inl hacc

/-- The engine stays in step when RED's cannon takes a horse, with check, and
BLACK's cannon may not take one in turn. It does not when RED's horse jumps
off the board. -/
theorem agrees_iff_check :
    (machine initZobrist).Along Agrees ⟨resetGame, startup initZobrist none⟩
        [bytes "2625", bytes "5041", bytes "7770", bytes "1219"] ∧
      ¬ (machine initZobrist).Along Agrees ⟨resetGame, startup initZobrist none⟩
        [bytes "190;"] := by
  have hstart : (⟨resetGame, startup initZobrist none⟩ : Match).InStep :=
    inStep_start (Z := initZobrist) rfl
  constructor
  · have hrun : ((machine initZobrist).run ⟨resetGame, startup initZobrist none⟩
        [bytes "2625", bytes "5041", bytes "7770", bytes "1219"]).map
          (fun g => (g.board.deadPieces.length, g.pos.mvsList.length)) = .ok (1, 4) := by
      decide +kernel
    obtain ⟨g, hg, -⟩ := Lib.map_eq_ok.mp hrun
    refine (agrees_iff rfl _).mpr ((Lib.Machine.meets_iff_meets (I := InStep)
      (C := fun g s => g.playable s = true) (fun _ _ _ hin _ => hin.playable_iff)
      (fun _ _ _ hin hplay hstep => ?_) hstart hg).mp (by decide +kernel))
    obtain ⟨g', hstep', hin'⟩ := hin.step_playable (hin.playable_iff.mp hplay)
    exact Except.ok.inj (hstep'.symm.trans hstep) ▸ hin'
  · intro halong
    have hplay := ((agrees_iff rfl _).mp halong).1
    have hnot : (⟨resetGame, startup initZobrist none⟩ : Match).playable (bytes "190;") =
        false := by
      decide +kernel
    exact Bool.false_ne_true (hnot.symm.trans (hstart.playable_iff.mpr hplay))

end Match

end HoxServer.XQWLight
