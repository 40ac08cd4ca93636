/-
HoxServer.Referee.Replay — replaying a list of move-strings.

The referee of a table has a history: rejected moves and simulations
reorder its list of pieces. `validateString_congr` says that the order
decides nothing, so two boards that differ in it accept the same strings
and go on differing in it only. A game is then determined by its moves,
and whose turn it is by their number.
-/
import HoxServer.Referee.RefereeTheorems

namespace HoxServer

namespace Board

variable {b b' : Board} {r : PieceRef} {q : Position}

theorem SameUpToOrder.symm (h : b.SameUpToOrder b') : b'.SameUpToOrder b := by
  obtain ⟨l, hl, rfl⟩ := h
  exact ⟨b.pieces, hl.symm, rfl⟩

theorem SameUpToOrder.played (h : b.SameUpToOrder b') :
    (b.played r q).SameUpToOrder (b'.played r q) := by
  obtain ⟨l, hl, rfl⟩ := h
  unfold Board.played landed
  split
  · refine ⟨_, ?_, rfl⟩
    show (afterMove { b with pieces := l } r q).pieces.Perm (b.afterMove r q).pieces
    rw [pieces_afterMove, pieces_afterMove]
    show ((b.getPieceAt q).elim l (listRemove l)).Perm _
    cases b.getPieceAt q with
    | none => exact hl
    | some c => exact hl.filter _
  · exact ⟨l, hl, rfl⟩

end Board

namespace Referee

variable {b b' : Board} {s : Bytes} {v : Board.Verdict}

theorem charPosition_unique {x y X Y x' y' X' Y' : UInt8} (h : [x, y, X, Y] = [x', y', X', Y']) :
    charPosition x y = charPosition x' y' ∧ charPosition X Y = charPosition X' Y' := by
  cases h
  exact ⟨rfl, rfl⟩

/-- **The order of the active list decides nothing.** -/
theorem validateString_congr (h : b.Lawful) (hsame : b.SameUpToOrder b')
    (hv : validateString b s = .ok v) :
    ∃ v', validateString b' s = .ok v' ∧ v'.accepted = v.accepted ∧
      v.board.SameUpToOrder v'.board := by
  have h' := hsame.lawful h
  obtain ⟨v', hv', hcases'⟩ := validateString_spec h' s
  refine ⟨v', hv', ?_⟩
  obtain ⟨w, hw, hcases⟩ := validateString_spec h s
  rw [hv] at hw
  cases hw
  rcases hcases with ⟨r, q, ⟨x, y, X, Y, hs, hr, hq⟩, hpass, hplayed⟩ | ⟨hrej, hnone⟩
  · rcases hcases' with ⟨r', q', ⟨x', y', X', Y', hs', hr', hq'⟩, hpass', hplayed'⟩ | ⟨-, hnone'⟩
    · obtain ⟨horigin, hdest⟩ := charPosition_unique (hs.symm.trans hs')
      rw [SameUpToOrder.getPieceAt hsame, ← horigin, hr] at hr'
      rw [← hdest, hq] at hq'
      cases hr'
      subst hq'
      rw [hplayed.accepted, hplayed'.accepted]
      exact ⟨rfl, hplayed.board.symm.trans (hsame.played.trans hplayed'.board)⟩
    · subst hq
      refine absurd (hsame.passes_iff.mpr hpass) (hnone' x y X Y r hs ?_)
      rw [SameUpToOrder.getPieceAt hsame, hr]
  · rcases hcases' with ⟨r', q', ⟨x', y', X', Y', hs', hr', hq'⟩, hpass', -⟩ | ⟨hrej', -⟩
    · subst hq'
      rw [SameUpToOrder.getPieceAt hsame] at hr'
      exact absurd (hsame.passes_iff.mp hpass') (hnone x' y' X' Y' r' hs' hr')
    · rw [hrej.accepted, hrej'.accepted]
      exact ⟨rfl, hrej.board.symm.trans (hsame.trans hrej'.board)⟩

/-- The board that a list of strings leads to, if all are accepted. -/
def replay (b : Board) : List Bytes → Option Board
  | [] => some b
  | s :: moves =>
    match validateString b s with
    | .ok v => if v.accepted then replay v.board moves else none
    | .error _ => none

theorem replay_cons_of_accepted {moves : List Bytes} (hv : validateString b s = .ok v)
    (hacc : v.accepted = true) : replay b (s :: moves) = replay v.board moves := by
  simp [replay, hv, hacc]

theorem replay_cons {moves : List Bytes} (h : replay b (s :: moves) = some b') :
    ∃ v, validateString b s = .ok v ∧ v.accepted = true ∧ replay v.board moves = some b' := by
  unfold replay at h
  cases hv : validateString b s with
  | error e => simp [hv] at h
  | ok v =>
    rw [hv] at h
    simp only [Option.ite_none_right_eq_some] at h
    exact ⟨v, rfl, h⟩

theorem replay_append {moves : List Bytes} {b'' : Board} (h : replay b moves = some b')
    (h' : replay b' [s] = some b'') : replay b (moves ++ [s]) = some b'' := by
  induction moves generalizing b with
  | nil =>
    cases h
    exact h'
  | cons m moves ih =>
    obtain ⟨v, hv, hacc, hrest⟩ := replay_cons h
    rw [List.cons_append, replay_cons_of_accepted hv hacc]
    exact ih hrest

theorem replay_reachable {moves : List Bytes} (hb : machine.Reachable b)
    (h : replay b moves = some b') : machine.Reachable b' := by
  induction moves generalizing b with
  | nil =>
    cases h
    exact hb
  | cons m moves ih =>
    obtain ⟨v, hv, -, hrest⟩ := replay_cons h
    exact ih (hb.step (machine_step_eq.mpr ⟨v, hv, rfl⟩)) hrest

/-- Each accepted string passes the turn. -/
theorem replay_nextColor {moves : List Bytes} (hl : b.Lawful) (h : replay b moves = some b') :
    b'.nextColor = if Even moves.length then b.nextColor else b.nextColor.opposite := by
  induction moves generalizing b with
  | nil =>
    cases h
    simp
  | cons m moves ih =>
    obtain ⟨v, hv, hacc, hrest⟩ := replay_cons h
    obtain ⟨r, q, -, -, hplayed⟩ := accepted_cases hl hv hacc
    have hnext : v.board.nextColor = b.nextColor.opposite := hplayed.board.nextColor
    rw [ih (validateString_lawful hl hv) hrest, hnext, hl.turn.opposite_opposite,
        List.length_cons]
    by_cases heven : Even moves.length
    · simp [heven, Nat.even_add_one]
    · simp [heven, Nat.even_add_one]

end Referee

end HoxServer
