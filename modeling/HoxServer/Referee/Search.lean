/-
HoxServer.Referee.Search — a simulated move leaves no trace, and the
search for a next move runs through the pieces of the side to move in
spite of it.

The search is `_DoesNextMoveExist`, a loop over the active pieces. Every
capture that it simulates takes an enemy piece out of the list of the
loop and puts it back at the end, before or after the piece that the loop
is at. The pieces of the side to move keep their order, and that is what
`Lib.Covers` needs.
-/
import HoxServer.Referee.RefereeTheorems

namespace HoxServer

open Xiangqi

namespace Board

/-- The pieces that the loop of `_DoesNextMoveExist` comes to, one after the
other. -/
def visitedPieces (b : Board) : List PieceRef :=
  Lib.visited Board.pieces nextMoveBody b.loopBound b b.pieces.head?

/-- The search comes to each piece of the side to move once, or it stops at
one that has a legal move. -/
structure Searched (b : Board) (v : Bool) : Prop where
  atMostOnce : ∀ r, b.ownPieces r = true → b.visitedPieces.count r ≤ 1
  all : v = false → ∀ r ∈ b.pieces, b.ownPieces r = true → b.visitedPieces.count r = 1
  stopped : v = true → ∃ r, b.visitedPieces.getLast? = some r ∧ b.ownPieces r = true ∧
    ∃ q, Accepted b.placement b.nextColor (b.positionOf r) q

variable {b b' : Board} {move : Move} {v : Bool}

/-- **A simulated move is taken back**, of whatever piece and to wherever, and
whatever the answer. -/
theorem WellFormed.simulation_restores (h : b.WellFormed)
    (hrun : b.simulationIsValidMove move = .ok (b', v)) : b.SameUpToOrder b' := by
  unfold simulationIsValidMove at hrun
  cases hpiece : b.getPieceAt move.piece.position with
  | none =>
    rw [hpiece] at hrun
    cases hrun
    exact .refl b
  | some r =>
    obtain ⟨hr, hpos⟩ := h.getPieceAt_iff.mp hpiece
    rw [hpiece] at hrun
    cases hvalid : b.isValidMove r move.newPosition with
    | false =>
      simp only [hvalid, Bool.false_eq_true, if_false] at hrun
      cases hrun
      exact .refl b
    | true =>
      simp only [hvalid, if_true, h.recordMove_eq_landed hr hvalid hpos.symm,
        h.undoMove_landed hr hvalid hpos.symm] at hrun
      obtain ⟨beingChecked, -, hrun⟩ := Lib.bind_eq_ok.mp hrun
      obtain ⟨areKingsFacing, -, hrun⟩ := Lib.bind_eq_ok.mp hrun
      cases hrun
      exact h.sameUpToOrder_undone

/-- **The search ends**, having come to every piece that it has to. -/
theorem Settled.searched (h : b.Settled) :
    ∃ b' v, b.doesNextMoveExist = .ok (b', v) ∧ b.SameUpToOrder b' ∧ b.Searched v := by
  obtain ⟨b', v, hrun, hsame, -, -, hcovers⟩ :=
    Lib.traverse_spec Fault.endlessLoop h.nextMoveBody (.refl b) (Nat.le_refl b.loopBound)
  refine ⟨b', v, hrun, hsame, fun r hr => ?_, fun hv r hmem hr => ?_, hcovers.last⟩
  · exact (hcovers.count h.nodup hr).1
  · exact (hcovers.count h.nodup hr).2 hv hmem

/-- **Simulation is invisible, and the search is exhaustive in spite of it.**
On a board whose structures agree, with both kings on it and the king of
the other side safe, a simulated move leaves the board as it was up to
the order of the active list; the simulated moves of the side to move
come to an answer; and so does the search. -/
theorem search_leaves_no_trace (h : b.Settled) :
    (∀ move b' v, b.simulationIsValidMove move = .ok (b', v) → b.SameUpToOrder b') ∧
      (∀ r ∈ b.pieces, b.ownPieces r = true → ∀ q, ∃ b' v,
        b.simulationIsValidMove { piece := b.info r, newPosition := q } = .ok (b', v)) ∧
      ∃ b' v, b.doesNextMoveExist = .ok (b', v) ∧ b.SameUpToOrder b' ∧ b.Searched v := by
  refine ⟨fun move b' v hrun => h.simulation_restores hrun, fun r hr hown q => ?_, h.searched⟩
  obtain ⟨b', v, hrun, -⟩ := h.simulation_spec { piece := b.info r, newPosition := q } hr
    (of_decide_eq_true hown) rfl
  exact ⟨b', v, hrun⟩

/-- BLACK is in check and a horse behind. -/
theorem search_leaves_no_trace_horse : ∃ b,
    Referee.machine.run Referee.resetGame Referee.horseTaken = .ok b ∧
    b.deadPieces.length = 1 ∧ b.isLastMoveCheck = .ok true ∧
    (∀ move b' v, b.simulationIsValidMove move = .ok (b', v) → b.SameUpToOrder b') ∧
    (∀ r ∈ b.pieces, b.ownPieces r = true → ∀ q, ∃ b' v,
      b.simulationIsValidMove { piece := b.info r, newPosition := q } = .ok (b', v)) ∧
    ∃ b' v, b.doesNextMoveExist = .ok (b', v) ∧ b.SameUpToOrder b' ∧ b.Searched v := by
  obtain ⟨b, hb, hdead, hcheck⟩ := Referee.horseTaken_run
  have hlawful := Referee.reachable_lawful (Referee.reachable_resetGame.run hb)
  exact ⟨b, hb, hdead, hcheck, search_leaves_no_trace hlawful.settled⟩

end Board

end HoxServer
