/-
HoxServer.Referee.RefereeTheorems — the laws of `hoxReferee`, over every
state that move-strings lead to from `resetGame`.

`machine` takes any bytes as a move-string. Every reachable board is
lawful, so `validateMove_spec` applies to every step, and a string is
accepted exactly when its origin holds a piece that `Passes`.

Two laws a reader expects do not hold without a condition. `CanMoveTo`
does not ask for a destination on the board, and `_MovePieceTo` then
moves nothing, but the turn is passed. And `_IsKingFaceKing` looks for a
third piece anywhere on the file of the kings, also behind them. Both
are stated with the exact condition under which they hold.
-/
import HoxServer.Referee.Validation
import HoxServer.Lib.Machine

namespace HoxServer

open Xiangqi

namespace Referee

/-! ## Move-strings as steps -/

/-- A referee that is given move-strings. -/
def machine : Lib.Machine Board Bytes Fault where
  init b := b = resetGame
  step b s := (validateString b s).map Board.Verdict.board

/-- The position written by two characters. -/
def charPosition (x y : UInt8) : Position := ⟨coordinate x, coordinate y⟩

variable {b b' : Board} {r : PieceRef} {s : Bytes} {x y X Y : UInt8} {v : Board.Verdict}

theorem stringToMove_of_getPieceAt (hr : b.getPieceAt (charPosition x y) = some r) :
    stringToMove b [x, y, X, Y] = { piece := b.info r, newPosition := charPosition X Y } := by
  unfold charPosition at hr
  simp [stringToMove, Board.getPieceAtPosition, hr, charPosition]

/-- A string of another length, or without a piece at its origin, gives
the invalid move. -/
theorem stringToMove_eq_default
    (h : ∀ x y X Y, s = [x, y, X, Y] → b.getPieceAt (charPosition x y) = none) :
    stringToMove b s = {} := by
  unfold stringToMove
  split
  · rename_i x y X Y
    have hnone := h x y X Y rfl
    unfold charPosition at hnone
    simp [Board.getPieceAtPosition, hnone]
  · rfl

/-- What a string that is accepted says and does. -/
structure AcceptedString (b : Board) (s : Bytes) (r : PieceRef) (q : Position)
    (v : Board.Verdict) : Prop where
  string : ∃ x y X Y, s = [x, y, X, Y] ∧ b.getPieceAt (charPosition x y) = some r ∧
    charPosition X Y = q
  passes : b.Passes r q
  played : b.Played r { piece := b.info r, newPosition := q } v

/-- **Every string gets a verdict on a lawful board.** -/
theorem validateString_spec (h : b.Lawful) (s : Bytes) :
    ∃ v, validateString b s = .ok v ∧
      ((∃ r q, AcceptedString b s r q v) ∨
        b.Rejected (stringToMove b s) .unknown v ∧ ∀ x y X Y r, s = [x, y, X, Y] →
          b.getPieceAt (charPosition x y) = some r → ¬ b.Passes r (charPosition X Y)) := by
  by_cases hex : ∃ x y X Y r, s = [x, y, X, Y] ∧ b.getPieceAt (charPosition x y) = some r
  · obtain ⟨x, y, X, Y, r, rfl, hr⟩ := hex
    have hmove := stringToMove_of_getPieceAt (X := X) (Y := Y) hr
    obtain ⟨v, hv, hcases⟩ := h.validateMove_spec (stringToMove b [x, y, X, Y])
      (h.getPieceAt_iff.mp hr).1 (by rw [hmove]) .unknown
    refine ⟨v, hv, ?_⟩
    rw [hmove] at hcases ⊢
    rcases hcases with ⟨hpass, hplayed⟩ | ⟨hpass, hrej⟩
    · exact Or.inl ⟨r, _, ⟨x, y, X, Y, rfl, hr, rfl⟩, hpass, hplayed⟩
    · refine Or.inr ⟨hrej, ?_⟩
      rintro x' y' X' Y' r' hs hr'
      cases hs
      rw [hr] at hr'
      cases hr'
      exact hpass
  · have hnone : ∀ x y X Y, s = [x, y, X, Y] → b.getPieceAt (charPosition x y) = none := by
      intro x y X Y hs
      cases hr : b.getPieceAt (charPosition x y) with
      | none => rfl
      | some r => exact absurd ⟨x, y, X, Y, r, hs, hr⟩ hex
    have hmove := stringToMove_eq_default hnone
    have hturn : ({} : Move).piece.color ≠ b.nextColor := by
      rcases h.turn with ht | ht <;> rw [ht] <;> decide
    refine ⟨⟨false, b, stringToMove b s, .unknown⟩, ?_, Or.inr ⟨⟨rfl, .refl b, rfl, rfl⟩, ?_⟩⟩
    · rw [validateString, hmove, Board.validateMove, if_pos hturn]
    · intro x y X Y r hs hr
      exact absurd ⟨x, y, X, Y, r, hs, hr⟩ hex

/-! ## Reachable boards -/

theorem Played.lawful {move : Move} (h : b.Lawful) (hr : r ∈ b.pieces)
    (hpass : b.Passes r move.newPosition) (hplayed : b.Played r move v) : v.board.Lawful :=
  hplayed.board.lawful (h.played hr hpass)

theorem validateString_lawful (h : b.Lawful) (hv : validateString b s = .ok v) :
    v.board.Lawful := by
  obtain ⟨v', hv', hcases⟩ := validateString_spec h s
  rw [hv] at hv'
  cases hv'
  rcases hcases with ⟨r, q, hacc⟩ | ⟨hrej, -⟩
  · obtain ⟨x, y, X, Y, -, hr, -⟩ := hacc.string
    exact Played.lawful h (h.getPieceAt_iff.mp hr).1 hacc.passes hacc.played
  · exact hrej.board.lawful h

theorem machine_step_eq : machine.step b s = .ok b' ↔
    ∃ v, validateString b s = .ok v ∧ v.board = b' := by
  show (validateString b s).map _ = _ ↔ _
  cases validateString b s with
  | error e => simp [Except.map]
  | ok v => simp [Except.map]

/-- **Every reachable board is lawful.** -/
theorem reachable_lawful (h : machine.Reachable b) : b.Lawful := by
  refine h.invariant ?_ ?_
  · intro b hb
    rw [show b = resetGame from hb, resetGame]
    exact Board.lawful_new
  · intro b s b' hb hstep
    obtain ⟨v, hv, rfl⟩ := machine_step_eq.mp hstep
    exact validateString_lawful hb hv

/-- What an accepted string of a reachable board says and does. -/
theorem accepted_cases (h : b.Lawful) (hv : validateString b s = .ok v)
    (hacc : v.accepted = true) : ∃ r q, AcceptedString b s r q v := by
  obtain ⟨v', hv', hcases⟩ := validateString_spec h s
  rw [hv] at hv'
  cases hv'
  rcases hcases with hex | ⟨hrej, -⟩
  · exact hex
  · rw [hrej.accepted] at hacc
    cases hacc

/-- A piece of the board makes the move valid. -/
theorem stringToMove_isValid (h : b.Lawful) (hr : b.getPieceAt (charPosition x y) = some r) :
    (stringToMove b [x, y, X, Y]).isValid = true := by
  rw [stringToMove_of_getPieceAt hr, Move.isValid, PieceInfo.isValid, decide_eq_true_eq]
  exact h.type_ne_invalid (h.getPieceAt_iff.mp hr).1

theorem accepted_isValid (h : b.Lawful) (hv : validateString b s = .ok v)
    (hacc : v.accepted = true) : (stringToMove b s).isValid = true := by
  obtain ⟨r, q, haccepted⟩ := accepted_cases h hv hacc
  obtain ⟨x, y, X, Y, rfl, hr, -⟩ := haccepted.string
  exact stringToMove_isValid h hr

/-- A rejected string leaves no trace but the order of the active list. -/
theorem rejected_board (h : b.Lawful) (hv : validateString b s = .ok v)
    (hrej : v.accepted = false) : b.SameUpToOrder v.board := by
  obtain ⟨v', hv', hcases⟩ := validateString_spec h s
  rw [hv] at hv'
  cases hv'
  rcases hcases with ⟨r, q, hacc⟩ | ⟨hrejected, -⟩
  · rw [hacc.played.accepted] at hrej
    cases hrej
  · exact hrejected.board

/-- A string is accepted exactly when the piece at its origin passes. -/
theorem accepted_iff (h : b.Lawful) (hv : validateString b [x, y, X, Y] = .ok v) :
    v.accepted = true ↔
      ∃ r, b.getPieceAt (charPosition x y) = some r ∧ b.Passes r (charPosition X Y) := by
  constructor
  · intro hacc
    obtain ⟨r, q, ⟨_, _, _, _, hs, hr, rfl⟩, hpass, -⟩ := accepted_cases h hv hacc
    cases hs
    exact ⟨r, hr, hpass⟩
  · rintro ⟨r, hr, hpass⟩
    obtain ⟨v', hv', hcases⟩ := validateString_spec h [x, y, X, Y]
    rw [hv] at hv'
    cases hv'
    rcases hcases with ⟨r, q, hacc⟩ | ⟨-, hnone⟩
    · exact hacc.played.accepted
    · exact absurd hpass (hnone x y X Y r rfl hr)

/-! ## An accepted move moves a piece -/

/-- The piece on `o` has left it and stands on `q`, a position of the board. -/
structure HasMoved (b b' : Board) (o q : Position) : Prop where
  dest : q.isValid = true
  origin : b'.getPieceAt o = none
  piece : ∃ r, b.getPieceAt o = some r ∧ b'.getPieceAt q = some r ∧ b'.man r = b.man r

/-- A piece of the side to move may go to `q` by its `CanMoveTo`, and the
board as it stands passes the two tests that follow a move. -/
structure MayPass (b : Board) (o q : Position) : Prop where
  piece : ∃ r, b.getPieceAt o = some r ∧ (b.info r).color = b.nextColor ∧
    b.canMoveTo (b.info r) q = true
  safe : b.isKingBeingChecked b.nextColor = .ok false
  notFacing : b.isKingFaceKing = .ok false

theorem SameUpToOrder.getPieceAt (h : b.SameUpToOrder b') (p : Position) :
    b'.getPieceAt p = b.getPieceAt p := by
  obtain ⟨l, -, rfl⟩ := h
  rfl

theorem reachable_resetGame : machine.Reachable resetGame := .init rfl

/-- Reading a verdict through a function of it. -/
theorem verdict_of_map {α : Type} {f : Board.Verdict → α} {a : α}
    (h : (validateString b s).map f = .ok a) : ∃ v, validateString b s = .ok v ∧ f v = a := by
  cases hv : validateString b s with
  | error e => rw [hv] at h; cases h
  | ok v => rw [hv] at h; exact ⟨v, rfl, Except.ok.inj h⟩

theorem hasMoved_of_played {o q : Position} (h : b.Lawful) (hr : b.getPieceAt o = some r)
    (hq : q.isValid = true) (hpass : b.Passes r q) {move : Move} (hdest : move.newPosition = q)
    (hplayed : b.Played r move v) : HasMoved b v.board o q := by
  obtain ⟨hmem, rfl⟩ := h.getPieceAt_iff.mp hr
  have hne := Board.getPieceAt_ne_of_isValidMove hpass.valid
  have hoq : b.positionOf r ≠ q := fun e => hne (by rw [← e, hr])
  have hland : b.landed r q = b.afterMove r q := if_pos hq
  have hsame := hplayed.board
  rw [hdest] at hsame
  have hget : ∀ p, v.board.getPieceAt p = (b.afterMove r q).getPieceAt p := by
    intro p
    rw [SameUpToOrder.getPieceAt hsame, ← hland]
    rfl
  refine ⟨hq, ?_, r, hr, ?_, ?_⟩
  · rw [hget, h.getPieceAt_afterMove hmem hq, if_neg hoq, if_pos rfl]
  · rw [hget, h.getPieceAt_afterMove hmem hq, if_pos rfl]
  · rw [Board.man, hsame.info]
    exact Board.man_landed

/-- Off the board, passing is `MayPass`. -/
theorem passes_iff_mayPass {q : Position} (h : b.Lawful)
    (hq : q.isValid = false) :
    (∃ r, b.getPieceAt (charPosition x y) = some r ∧ b.Passes r q) ↔
      MayPass b (charPosition x y) q := by
  have hland : ∀ r, b.landed r q = b := fun r => if_neg (by rw [hq]; exact Bool.false_ne_true)
  have hvalid : ∀ r, b.isValidMove r q = b.canMoveTo (b.info r) q := by
    intro r
    rw [Board.isValidMove, Board.getPieceAt_of_not_isValid hq, Bool.and_true]
  obtain ⟨u, hu, hcheck⟩ := h.isKingBeingChecked_spec h.turn
  obtain ⟨w, hw, hface⟩ := h.isKingFaceKing_spec
  constructor
  · rintro ⟨r, hr, hturn, hv, hsafe, halone⟩
    rw [hland] at hsafe halone
    rw [hvalid] at hv
    refine ⟨⟨r, hr, hturn, hv⟩, ?_, ?_⟩
    · rw [hu, Bool.eq_false_iff.mpr (fun e => hsafe (hcheck.mp e))]
    · rw [hw, Bool.eq_false_iff.mpr (fun e => halone (hface.mp e))]
  · rintro ⟨⟨r, hr, hturn, hv⟩, hsafe, halone⟩
    rw [hu] at hsafe
    rw [hw] at halone
    cases hsafe
    cases halone
    refine ⟨r, hr, hturn, by rw [hvalid, hv], ?_, ?_⟩
    · rw [hland]
      exact fun hc => Bool.false_ne_true (hcheck.mpr hc)
    · rw [hland]
      exact fun hc => Bool.false_ne_true (hface.mpr hc)

/-- **When an accepted move moves a piece**: for a destination on the
board always, for one off the board only if no such move may pass. -/
theorem accepted_move_moves_iff (hb : machine.Reachable b) (x y X Y : UInt8) :
    ((stringToMove b [x, y, X, Y]).isValid = true →
      ∀ v, validateString b [x, y, X, Y] = .ok v → v.accepted = true →
        HasMoved b v.board (charPosition x y) (charPosition X Y)) ↔
      ((charPosition X Y).isValid = true ∨ ¬ MayPass b (charPosition x y) (charPosition X Y)) := by
  have h := reachable_lawful hb
  constructor
  · intro hmoves
    cases hq : (charPosition X Y).isValid with
    | true => exact Or.inl rfl
    | false =>
      refine Or.inr (fun hmay => ?_)
      obtain ⟨v, hv, -⟩ := validateString_spec h [x, y, X, Y]
      obtain ⟨r, hr, hpass⟩ := (passes_iff_mayPass h hq).mpr hmay
      have hmoved := hmoves (stringToMove_isValid h hr) v hv
        ((accepted_iff h hv).mpr ⟨r, hr, hpass⟩)
      exact Bool.false_ne_true (hq.symm.trans hmoved.dest)
  · rintro hcond - v hv hacc
    obtain ⟨r, hr, hpass⟩ := (accepted_iff h hv).mp hacc
    have hq : (charPosition X Y).isValid = true := by
      rcases hcond with hq | hmay
      · exact hq
      · by_contra hq
        exact hmay ((passes_iff_mayPass h (by simpa using hq)).mp ⟨r, hr, hpass⟩)
    obtain ⟨r', q, ⟨_, _, _, _, hs, hr', rfl⟩, hpass', hplayed⟩ := accepted_cases h hv hacc
    cases hs
    exact hasMoved_of_played h hr' hq hpass' rfl hplayed

/-- RED's horse moves to a point of the board, and may pass off it. -/
theorem accepted_move_moves_iff_horse :
    (∃ v, validateString resetGame (bytes "1927") = .ok v ∧ v.accepted = true ∧
      HasMoved resetGame v.board (charPosition 49 57) (charPosition 50 55)) ∧
    MayPass resetGame (charPosition 49 57) (charPosition 48 59) := by
  constructor
  · have hrun : (validateString resetGame (bytes "1927")).map Board.Verdict.accepted =
        .ok true := by
      decide +kernel
    obtain ⟨v, hv, hacc⟩ := verdict_of_map hrun
    refine ⟨v, hv, hacc, ?_⟩
    exact (accepted_move_moves_iff reachable_resetGame 49 57 50 55).mpr (Or.inl (by decide))
      (by decide +kernel) v hv hacc
  · have hrun : (validateString resetGame (bytes "190;")).map Board.Verdict.accepted =
        .ok true := by
      decide +kernel
    obtain ⟨v, hv, hacc⟩ := verdict_of_map hrun
    by_contra hmay
    have hmoved := (accepted_move_moves_iff reachable_resetGame 49 57 48 59).mpr (Or.inr hmay)
      (by decide +kernel) v hv hacc
    exact absurd hmoved.dest (by decide)

/-- The horse of "190;" jumps off the board: RED passes the turn. -/
theorem start_passes_the_turn : machine.Reachable resetGame ∧
    ∃ v, validateString resetGame (bytes "190;") = .ok v ∧ v.accepted = true ∧
      v.board.nextColor = .black ∧
      ¬ HasMoved resetGame v.board (charPosition 49 57) (charPosition 48 59) := by
  refine ⟨reachable_resetGame, ?_⟩
  have hrun : (validateString resetGame (bytes "190;")).map
      (fun v => (v.accepted, v.board.nextColor)) = .ok (true, .black) := by decide +kernel
  obtain ⟨v, hv, hval⟩ := verdict_of_map hrun
  refine ⟨v, hv, congrArg Prod.fst hval, congrArg Prod.snd hval, fun hmoved => ?_⟩
  exact absurd hmoved.dest (by decide)

/-! ## The validator and the rules of the game -/

/-- **Sound and complete on destinations of the board.** -/
theorem validate_sound_complete (hb : machine.Reachable b) (x y X Y : UInt8)
    (hr : b.getPieceAt (charPosition x y) = some r) (hq : (charPosition X Y).isValid = true) :
    ∃ v, validateString b [x, y, X, Y] = .ok v ∧
      (v.accepted = true → (b.info r).color = b.nextColor ∧
        PseudoLegal b.placement (charPosition x y) (charPosition X Y) ∧
        v.board.placement = b.placement.move (charPosition x y) (charPosition X Y) ∧
        ¬ InCheck v.board.placement b.nextColor) ∧
      ((b.info r).color = b.nextColor →
        PseudoLegal b.placement (charPosition x y) (charPosition X Y) →
        ¬ InCheck (b.placement.move (charPosition x y) (charPosition X Y)) b.nextColor →
        ¬ KingsFacing (b.placement.move (charPosition x y) (charPosition X Y)) →
        v.accepted = true) := by
  have h := reachable_lawful hb
  obtain ⟨hmem, hpos⟩ := h.getPieceAt_iff.mp hr
  obtain ⟨v, hv, -⟩ := validateString_spec h [x, y, X, Y]
  refine ⟨v, hv, fun hacc => ?_, fun hcolor hlegal hsafe hfacing => ?_⟩
  · obtain ⟨r', q, ⟨_, _, _, _, hs, hr', rfl⟩, hpass, hplayed⟩ := accepted_cases h hv hacc
    cases hs
    rw [hr] at hr'
    cases hr'
    have hplace : v.board.placement = b.placement.move (charPosition x y) (charPosition X Y) := by
      rw [hplayed.board.placement, ← hpos, ← h.placement_landed hmem hq, Board.placement_played]
    have hacc' := (h.passes_iff hmem hq).mp hpass
    rw [hpos] at hacc'
    exact ⟨hpass.turn, hacc'.pseudoLegal, hplace, by rw [hplace]; exact hacc'.safe⟩
  · refine (accepted_iff h hv).mpr ⟨r, hr, (h.passes_iff hmem hq).mpr ?_⟩
    rw [hpos]
    refine ⟨hlegal, ⟨b.man r, ?_, hcolor⟩, hsafe, fun halone => hfacing halone.kingsFacing⟩
    rw [← hpos, h.placement_positionOf hmem]

/-- The cannon from (1,7) takes the horse on (1,0). -/
theorem validate_sound_complete_cannon :
    ∃ v, validateString resetGame (bytes "1710") = .ok v ∧ v.accepted = true ∧
      (resetGame.info 25).color = resetGame.nextColor ∧
      PseudoLegal resetGame.placement (charPosition 49 55) (charPosition 49 48) ∧
      v.board.placement
        = resetGame.placement.move (charPosition 49 55) (charPosition 49 48) ∧
      ¬ InCheck v.board.placement resetGame.nextColor := by
  have hrun : (validateString resetGame (bytes "1710")).map Board.Verdict.accepted = .ok true := by
    decide +kernel
  obtain ⟨v, hv, hacc⟩ := verdict_of_map hrun
  obtain ⟨v', hv', hsound, -⟩ := validate_sound_complete reachable_resetGame 49 55 49 48 (r := 25)
    (by decide +kernel) (by decide)
  obtain rfl := Except.ok.inj (hv.symm.trans hv')
  exact ⟨v, hv, hacc, hsound hacc⟩

/-! ## Facing kings -/

/-- A piece of the side to move makes a move that its rule allows and that
leaves its king unattacked, to a board whose kings face each other with
a man behind one of them. -/
def FacesWithManBehind (b : Board) (s : Bytes) : Prop :=
  ∃ x y X Y r, s = [x, y, X, Y] ∧ b.getPieceAt (charPosition x y) = some r ∧
    (b.info r).color = b.nextColor ∧ b.isValidMove r (charPosition X Y) = true ∧
    ¬ InCheck (b.landed r (charPosition X Y)).placement b.nextColor ∧
    FacingWithManBehind (b.landed r (charPosition X Y)).placement

/-- **When an accepted move keeps the kings from facing each other**:
unless a man stands behind one of them. -/
theorem accepted_not_facing_iff (hb : machine.Reachable b) (s : Bytes) :
    (∀ v, validateString b s = .ok v → v.accepted = true → ¬ KingsFacing v.board.placement) ↔
      ¬ FacesWithManBehind b s := by
  have h := reachable_lawful hb
  constructor
  · rintro hlaw ⟨x, y, X, Y, r, rfl, hr, hturn, hvalid, hsafe, hfacing⟩
    have hmem := (h.getPieceAt_iff.mp hr).1
    have hkings := h.settled.hasKings_landed hmem hturn hvalid
    have hpass : b.Passes r (charPosition X Y) :=
      ⟨hturn, hvalid, hsafe, hfacing.not_kingsAloneOnFile (fun _ _ _ => hkings.king_unique)⟩
    obtain ⟨v, hv, -⟩ := validateString_spec h [x, y, X, Y]
    have hacc := (accepted_iff h hv).mpr ⟨r, hr, hpass⟩
    obtain ⟨r', q, ⟨_, _, _, _, hs, hr', rfl⟩, -, hplayed⟩ := accepted_cases h hv hacc
    cases hs
    rw [hr] at hr'
    cases hr'
    refine hlaw v hv hacc ?_
    rw [hplayed.board.placement]
    exact hfacing.kingsFacing
  · intro hcond v hv hacc hfacing
    obtain ⟨r, q, ⟨x, y, X, Y, hs, hr, rfl⟩, hpass, hplayed⟩ := accepted_cases h hv hacc
    rw [hplayed.board.placement] at hfacing
    rcases hfacing.cases with halone | hbehind
    · exact hpass.notAlone halone
    · exact hcond ⟨x, y, X, Y, r, hs, hr, hpass.turn, hpass.valid, hpass.safe, hbehind⟩

/-- The kings, computed after the string. -/
theorem kingsFacing_of_map (facing : Bool) (h : b.Lawful)
    (hrun : (validateString b s).map (fun v => (v.accepted, v.board.kingsFacing)) =
      .ok (true, facing)) :
    ∃ v, validateString b s = .ok v ∧ v.accepted = true ∧
      (facing = true ↔ KingsFacing v.board.placement) := by
  obtain ⟨v, hv, hval⟩ := verdict_of_map hrun
  obtain ⟨hacc, rfl⟩ := Prod.mk.inj hval
  exact ⟨v, hv, hacc, (validateString_lawful h hv).toHasKings.kingsFacing_iff⟩

/-- The two kings step to the file of two of their advisors, which stay
behind them. -/
def kingsSteppedAside : List Bytes := [bytes "4948", bytes "4041", bytes "4838"]

theorem kingsSteppedAside_run : ∃ b, machine.run resetGame kingsSteppedAside = .ok b ∧
    ∃ v, validateString b (bytes "4131") = .ok v ∧ v.accepted = true ∧
      KingsFacing v.board.placement := by
  have hrun : (machine.run resetGame kingsSteppedAside).map (fun b =>
      (validateString b (bytes "4131")).map fun v => (v.accepted, v.board.kingsFacing)) =
      .ok (.ok (true, true)) := by decide +kernel
  obtain ⟨b, hb, hfacing⟩ := Lib.map_eq_ok.mp hrun
  obtain ⟨v, hv, hacc, hiff⟩ :=
    kingsFacing_of_map true (reachable_lawful (reachable_resetGame.run hb)) hfacing
  exact ⟨b, hb, v, hv, hacc, hiff.mp rfl⟩

theorem accepted_not_facing_iff_aside : ¬ FacesWithManBehind resetGame (bytes "4948") ∧
    ∃ b, machine.run resetGame kingsSteppedAside = .ok b ∧
      FacesWithManBehind b (bytes "4131") := by
  constructor
  · obtain ⟨v, hv, -, hiff⟩ := kingsFacing_of_map (s := bytes "4948") false
      (reachable_lawful reachable_resetGame) (by decide +kernel)
    refine (accepted_not_facing_iff reachable_resetGame (bytes "4948")).mp ?_
    intro v' hv' _ hfacing
    obtain rfl := Except.ok.inj (hv.symm.trans hv')
    exact Bool.false_ne_true (hiff.mpr hfacing)
  · obtain ⟨b, hb, v, hv, hacc, hfacing⟩ := kingsSteppedAside_run
    refine ⟨b, hb, ?_⟩
    by_contra hnot
    exact (accepted_not_facing_iff (reachable_resetGame.run hb) (bytes "4131")).mpr hnot v hv hacc
      hfacing

theorem kings_face_each_other : ∃ b, machine.Reachable b ∧
    ∃ v, validateString b (bytes "4131") = .ok v ∧ v.accepted = true ∧
      KingsFacing v.board.placement := by
  obtain ⟨b, hb, hfacing⟩ := kingsSteppedAside_run
  exact ⟨b, reachable_resetGame.run hb, hfacing⟩

/-! ## No king is lost -/

/-- An active king of the side `c`, inside its palace. -/
def KingAtHome (b : Board) (c : Color) : Prop :=
  ∃ k ∈ b.pieces, b.man k = ⟨.king, c⟩ ∧ (b.positionOf k).isInsidePalace c = true

/-- **No king is lost, and `_GetKing` never fails**: on every reachable
board both kings are at home, no enemy may capture the king of the side
that has just moved, and neither a string, nor a simulated move, nor the
test for a check runs into a fault. -/
theorem no_king_is_lost (hb : machine.Reachable b) :
    KingAtHome b .red ∧ KingAtHome b .black ∧
    (∀ k ∈ b.pieces, b.man k = ⟨.king, b.nextColor.opposite⟩ → ∀ r ∈ b.pieces,
      (b.info r).color ≠ b.nextColor.opposite → b.isValidMove r (b.positionOf k) = false) ∧
    (∀ c, c.IsSide → ∃ k, b.getKing c = .ok k) ∧
    (∀ s, ∃ v, validateString b s = .ok v) ∧
    (∀ r ∈ b.pieces, (b.info r).color = b.nextColor → ∀ q,
      ∃ res, b.simulationIsValidMove { piece := b.info r, newPosition := q } = .ok res) ∧
    ∃ check, b.isLastMoveCheck = .ok check := by
  have h := reachable_lawful hb
  have hhome : ∀ c, c.IsSide → KingAtHome b c := by
    intro c hc
    have hking := h.king c hc
    refine ⟨kingRef c, hking, (h.man_eq_king_iff hc hking).mpr rfl, ?_⟩
    exact (inside_palace_iff (h.onBoard _ hking)).mpr (h.palace c hc)
  refine ⟨hhome _ (Or.inl rfl), hhome _ (Or.inr rfl), ?_, ?_, ?_, ?_, ?_⟩
  · intro k hk hman r hr hcolor
    by_contra hvalid
    rw [Bool.not_eq_false, h.isValidMove_iff hr (h.onBoard k hk)] at hvalid
    refine h.notExposed ⟨_, _, _, ?_, h.placement_positionOf hr, hcolor, hvalid⟩
    rw [h.placement_positionOf hk, hman]
  · exact fun c hc => ⟨_, h.getKing_eq hc⟩
  · intro s
    obtain ⟨v, hv, -⟩ := validateString_spec h s
    exact ⟨v, hv⟩
  · intro r hr hcolor q
    obtain ⟨b', v, hrun, -⟩ := h.settled.simulation_spec ⟨b.info r, q, {}⟩ hr hcolor rfl
    exact ⟨_, hrun⟩
  · obtain ⟨v, hv, -⟩ := h.isKingBeingChecked_spec h.turn
    exact ⟨v, hv⟩

/-- RED's cannon takes a horse, with check. -/
def horseTaken : List Bytes := [bytes "1757", bytes "5041", bytes "7770"]

theorem horseTaken_run : ∃ b, machine.run resetGame horseTaken = .ok b ∧
    b.deadPieces.length = 1 ∧ b.isLastMoveCheck = .ok true := by
  have hrun : (machine.run resetGame horseTaken).map
      (fun b => (b.deadPieces.length, b.isLastMoveCheck)) = .ok (1, .ok true) := by decide +kernel
  obtain ⟨b, hb, hval⟩ := Lib.map_eq_ok.mp hrun
  exact ⟨b, hb, congrArg Prod.fst hval, congrArg Prod.snd hval⟩

theorem no_king_is_lost_in_check : ∃ b, machine.run resetGame horseTaken = .ok b ∧
    b.isLastMoveCheck = .ok true ∧ KingAtHome b .red ∧ KingAtHome b .black ∧
    (∀ k ∈ b.pieces, b.man k = ⟨.king, b.nextColor.opposite⟩ →
      ∀ r ∈ b.pieces, (b.info r).color ≠ b.nextColor.opposite →
        b.isValidMove r (b.positionOf k) = false) ∧
    (∀ c, c.IsSide → ∃ k, b.getKing c = .ok k) ∧
    (∀ s, ∃ v, validateString b s = .ok v) ∧
    (∀ r ∈ b.pieces, (b.info r).color = b.nextColor → ∀ q, ∃ res,
      b.simulationIsValidMove { piece := b.info r, newPosition := q } = .ok res) := by
  obtain ⟨b, hb, -, hcheck⟩ := horseTaken_run
  obtain ⟨hred, hblack, hsafe, hking, hverdict, hsimulation, -⟩ :=
    no_king_is_lost (reachable_resetGame.run hb)
  exact ⟨b, hb, hcheck, hred, hblack, hsafe, hking, hverdict, hsimulation⟩

/-! ## The end of the game -/

theorem coordinate_ofNat : ∀ n < 10, coordinate (UInt8.ofNat (48 + n)) = n := by decide

/-- Every position of the board is written by two characters. -/
theorem exists_charPosition {p : Position} (hp : p.isValid = true) :
    ∃ x y, charPosition x y = p := by
  obtain ⟨hx, hx', hy, hy'⟩ := Position.isValid_iff.mp hp
  refine ⟨UInt8.ofNat (48 + p.x.toNat), UInt8.ofNat (48 + p.y.toNat), ?_⟩
  rw [charPosition, coordinate_ofNat _ (by omega), coordinate_ofNat _ (by omega)]
  exact Position.ext (Int.toNat_of_nonneg hx) (Int.toNat_of_nonneg hy)

/-- On a lawful board some string to the board is accepted exactly when
some move is acceptable on the placement. -/
theorem exists_accepted_iff (h : b.Lawful) :
    (∃ p q, Accepted b.placement b.nextColor p q) ↔
      ∃ x y X Y v, (charPosition X Y).isValid = true ∧
        validateString b [x, y, X, Y] = .ok v ∧ v.accepted = true := by
  constructor
  · rintro ⟨p, q, hacc⟩
    obtain ⟨m, hm, hcolor⟩ := hacc.own
    obtain ⟨r, hr, rfl, rfl⟩ := h.placement_iff.mp hm
    have hq := onBoard_iff_isValid.mp hacc.pseudoLegal.1
    obtain ⟨x, y, hxy⟩ := exists_charPosition (h.onBoard r hr)
    obtain ⟨X, Y, rfl⟩ := exists_charPosition hq
    obtain ⟨v, hv, -⟩ := validateString_spec h [x, y, X, Y]
    refine ⟨x, y, X, Y, v, hq, hv, (accepted_iff h hv).mpr ⟨r, ?_, ?_⟩⟩
    · rw [hxy, h.getPieceAt_positionOf hr]
    · exact (h.passes_iff hr hq).mpr hacc
  · rintro ⟨x, y, X, Y, v, hq, hv, hacc⟩
    obtain ⟨r, hr, hpass⟩ := (accepted_iff h hv).mp hacc
    exact ⟨_, _, (h.passes_iff (h.getPieceAt_iff.mp hr).1 hq).mp hpass⟩

/-- The status that says that the side `c` has won. -/
def winOf (c : Color) : GameStatus := if c = .red then .redWin else .blackWin

/-- **The mover has won exactly when no answer would be accepted.** -/
theorem win_iff_no_answer (hb : machine.Reachable b) (s : Bytes) :
    ∃ v, validateString b s = .ok v ∧ (v.accepted = true →
      (v.status = winOf b.nextColor ↔ ∀ x y X Y, (charPosition X Y).isValid = true →
        ∃ w, validateString v.board [x, y, X, Y] = .ok w ∧ w.accepted = false) ∧
      (v.status ≠ winOf b.nextColor → v.status = .inProgress)) := by
  have h := reachable_lawful hb
  obtain ⟨v, hv, -⟩ := validateString_spec h s
  refine ⟨v, hv, fun hacc => ?_⟩
  obtain ⟨r, q, -, -, hplayed⟩ := accepted_cases h hv hacc
  have h' := validateString_lawful h hv
  have hnext : v.board.nextColor = b.nextColor.opposite := hplayed.board.nextColor
  have hwin : (if v.board.nextColor = .black then GameStatus.redWin else .blackWin)
      = winOf b.nextColor := by
    rw [hnext]
    rcases h.turn with ht | ht <;> rw [ht] <;> rfl
  have hne : GameStatus.inProgress ≠ winOf b.nextColor := by
    rcases h.turn with ht | ht <;> rw [ht] <;> decide
  have hanswer : (∀ x y X Y, (charPosition X Y).isValid = true →
      ∃ w, validateString v.board [x, y, X, Y] = .ok w ∧ w.accepted = false) ↔
      ¬ ∃ p q, Accepted v.board.placement v.board.nextColor p q := by
    rw [exists_accepted_iff h']
    constructor
    · rintro hnone ⟨x, y, X, Y, w, hq, hw, hacc⟩
      obtain ⟨w', hw', hrej⟩ := hnone x y X Y hq
      rw [hw] at hw'
      cases hw'
      exact Bool.false_ne_true (hrej.symm.trans hacc)
    · intro hnone x y X Y hq
      obtain ⟨w, hw, -⟩ := validateString_spec h' [x, y, X, Y]
      exact ⟨w, hw, Bool.eq_false_iff.mpr fun hacc => hnone ⟨x, y, X, Y, w, hq, hw, hacc⟩⟩
  rw [hanswer]
  by_cases hex : ∃ p q, Accepted v.board.placement v.board.nextColor p q
  · rw [hplayed.goesOn hex]
    exact ⟨⟨fun he => absurd he hne, fun hn => absurd hex hn⟩, fun _ => rfl⟩
  · rw [hplayed.ends hex, hwin]
    exact ⟨⟨fun _ => hex, fun _ => rfl⟩, fun hn => absurd rfl hn⟩

/-- RED's cannon takes an elephant and mates. -/
theorem win_iff_no_answer_mate : ∃ b v,
    machine.run resetGame [bytes "1714", bytes "5041", bytes "1424", bytes "1262"] = .ok b ∧
    validateString b (bytes "2420") = .ok v ∧ v.accepted = true ∧ v.status = winOf b.nextColor ∧
    ∀ x y X Y, (charPosition X Y).isValid = true →
      ∃ w, validateString v.board [x, y, X, Y] = .ok w ∧ w.accepted = false := by
  have hrun : (machine.run resetGame
      [bytes "1714", bytes "5041", bytes "1424", bytes "1262"]).map (fun b =>
        (b.nextColor, (validateString b (bytes "2420")).map fun v => (v.accepted, v.status))) =
      .ok (.red, .ok (true, .redWin)) := by decide +kernel
  obtain ⟨b, hb, hval⟩ := Lib.map_eq_ok.mp hrun
  obtain ⟨hturn, hmove⟩ := Prod.mk.inj hval
  obtain ⟨v, hv, hverdict⟩ := verdict_of_map hmove
  obtain ⟨hacc, hstatus⟩ := Prod.mk.inj hverdict
  have hwin : v.status = winOf b.nextColor := by rw [hstatus, hturn]; rfl
  obtain ⟨v', hv', hlaw⟩ := win_iff_no_answer (reachable_resetGame.run hb) (bytes "2420")
  obtain rfl := Except.ok.inj (hv.symm.trans hv')
  exact ⟨b, v, hb, hv, hacc, hwin, (hlaw hacc).1.mp hwin⟩

/-! ## The representation of the board -/

/-- The active list after a verdict: the same pieces, or all but one, an
enemy of the mover that the move reports. -/
def CapturesAtMostOne (b : Board) (v : Board.Verdict) : Prop :=
  v.board.pieces.Perm b.pieces ∧ v.move.capturedPiece = {} ∨
    ∃ c, b.pieces.Perm (c :: v.board.pieces) ∧ (b.info c).color = b.nextColor.opposite ∧
      v.move.capturedPiece = b.info c

theorem capturesAtMostOne {q : Position} (h : b.Lawful) (hpass : b.Passes r q)
    (hplayed : b.Played r { piece := b.info r, newPosition := q } v) : CapturesAtMostOne b v := by
  have hperm : v.board.pieces.Perm (b.landed r q).pieces := by
    obtain ⟨l, hl, hboard⟩ := hplayed.board
    rw [hboard]
    exact hl
  have hland : (b.landed r q).pieces
      = (b.getPieceAt q).elim b.pieces (Board.listRemove b.pieces) := by
    unfold Board.landed
    cases hq : q.isValid with
    | true => exact Board.pieces_afterMove
    | false => simp [Board.getPieceAt_of_not_isValid hq]
  rw [hland] at hperm
  unfold CapturesAtMostOne
  rw [hplayed.move, Board.getPieceAtPosition]
  cases hcap : b.getPieceAt q with
  | none =>
    rw [hcap] at hperm
    exact Or.inl ⟨hperm, rfl⟩
  | some c =>
    rw [hcap] at hperm
    obtain ⟨hc, -⟩ := h.getPieceAt_iff.mp hcap
    have hcolor := Board.color_of_captured hpass.valid hcap
    rw [hpass.turn] at hcolor
    refine Or.inr ⟨c, ?_, Color.IsSide.eq_opposite h.turn (h.isSide hc) hcolor, rfl⟩
    have herase : Board.listRemove b.pieces c = b.pieces.erase c := by
      rw [h.nodup.erase_eq_filter]
      exact List.filter_congr (fun y _ => decide_not)
    rw [Option.elim_some, herase] at hperm
    exact (List.perm_cons_erase hc).trans (hperm.symm.cons c)

/-- **The representation invariant.** -/
theorem board_representation (hb : machine.Reachable b) :
    b.pieces.Nodup ∧
    (∀ r ∈ b.pieces, (b.positionOf r).isValid = true ∧
      (b.cells (b.positionOf r)).piece = some r) ∧
    (∀ p, p.isValid = true → ∀ r, (b.cells p).piece = some r → r ∈ b.pieces) ∧
    (∀ r ∈ b.pieces, r ∉ b.deadPieces) ∧
    (b.pieces ++ b.deadPieces).Perm resetGame.pieces ∧ resetGame.pieces.length = 32 ∧
    (∀ r ∈ resetGame.pieces, b.man r = resetGame.man r) ∧
    ∀ s, ∃ v, validateString b s = .ok v ∧ (v.accepted = true → CapturesAtMostOne b v) := by
  have h := reachable_lawful hb
  refine ⟨h.nodup, fun r hr => ⟨h.onBoard r hr, h.stored r hr⟩,
    fun p hp r hr => (h.active p r hp hr).1, h.disjoint, ?_, ?_, ?_, ?_⟩
  · rw [resetGame, Board.new_pieces]
    have hnodup : (b.pieces ++ b.deadPieces).Nodup := by
      refine List.nodup_append.mpr ⟨h.nodup, h.deadNodup, ?_⟩
      intro r hr d hd he
      exact h.disjoint r hr (he ▸ hd)
    refine (List.perm_ext_iff_of_nodup hnodup List.nodup_range).mpr (fun r => ?_)
    rw [List.mem_append, h.all r, List.mem_range]
  · rw [resetGame, Board.new_pieces, List.length_range]
  · intro r hr
    rw [resetGame, Board.new_pieces, List.mem_range] at hr
    rw [h.identity r hr, resetGame, (Board.new_info r hr).1]
  · intro s
    obtain ⟨v, hv, -⟩ := validateString_spec h s
    refine ⟨v, hv, fun hacc => ?_⟩
    obtain ⟨r, q, -, hpass, hplayed⟩ := accepted_cases h hv hacc
    exact capturesAtMostOne h hpass hplayed

theorem board_representation_horse : ∃ b, machine.run resetGame horseTaken = .ok b ∧
    b.deadPieces.length = 1 ∧ b.pieces.Nodup ∧
    (∀ r ∈ b.pieces, (b.positionOf r).isValid = true ∧
      (b.cells (b.positionOf r)).piece = some r) ∧
    (∀ p, p.isValid = true → ∀ r, (b.cells p).piece = some r → r ∈ b.pieces) ∧
    (∀ r ∈ b.pieces, r ∉ b.deadPieces) ∧
    (b.pieces ++ b.deadPieces).Perm resetGame.pieces ∧ resetGame.pieces.length = 32 ∧
    (∀ r ∈ resetGame.pieces, b.man r = resetGame.man r) ∧
    ∀ s, ∃ v, validateString b s = .ok v ∧ (v.accepted = true → CapturesAtMostOne b v) := by
  obtain ⟨b, hb, hdead, -⟩ := horseTaken_run
  exact ⟨b, hb, hdead, board_representation (reachable_resetGame.run hb)⟩

end Referee

end HoxServer
