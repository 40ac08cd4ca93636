/-
HoxServer.Table.TableTheorems — the laws of a table, over all runs of
calls by any players at any times.

`Replays` is the invariant that ties the list of moves to the board of
the referee; every effect keeps it, also those that break the seats.
From it come the replay law and, with the referee's own law, that a
rejected move leaves no trace.

Both seats are taken while moves can be made (`TakenInPlay`), but two
calls break this (`LeavesSeatInPlay`): a seated player may leave before
the second move, or join again as an observer while the game is on, and
`_updateStatus` looks at the seats only while the status is OPEN or
READY. The law is stated for a run exactly as far as it holds: along a
run both seats stay taken while the game is on if and only if no step is
one of these two calls.
-/
import HoxServer.Referee.Replay
import HoxServer.Table.Effects

namespace HoxServer

namespace Table

variable {t t' : Table} {player : PlayerRef} {c : Color}

/-! ## What the seat functions leave alone -/

/-- The moves and the board. -/
def SameGame (t t' : Table) : Prop := t'.moves = t.moves ∧ t'.referee = t.referee

theorem sameGame_updateStatus (t : Table) : t.SameGame t.updateStatus := by
  unfold updateStatus
  split
  · split <;> exact ⟨rfl, rfl⟩
  · split <;> exact ⟨rfl, rfl⟩
  · exact ⟨rfl, rfl⟩

theorem sameGame_addPlayer (t : Table) (player : PlayerRef) (c : Color) :
    t.SameGame (t.addPlayer player c).1 := by
  unfold addPlayer
  cases c <;> simp only <;> split <;> exact ⟨rfl, rfl⟩

theorem sameGame_removePlayer (t : Table) (player : PlayerRef) :
    t.SameGame (t.removePlayer player) := by
  unfold removePlayer
  simp only
  split
  · exact ⟨rfl, rfl⟩
  · split <;> exact ⟨rfl, rfl⟩

theorem SameGame.trans {t'' : Table} (h : t.SameGame t') (h' : t'.SameGame t'') :
    t.SameGame t'' :=
  ⟨h'.1.trans h.1, h'.2.trans h.2⟩

/-! ## The moves and the board -/

/-- Replaying the moves on a new board gives the referee's board. -/
def Replays (t : Table) : Prop :=
  ∃ b, Referee.replay Referee.resetGame t.moves = some b ∧ b.SameUpToOrder t.referee

theorem Replays.lawful (h : t.Replays) : t.referee.Lawful := by
  obtain ⟨b, hb, hsame⟩ := h
  exact hsame.lawful
    (Referee.reachable_lawful (Referee.replay_reachable Referee.reachable_resetGame hb))

theorem Replays.of_sameGame (h : t.Replays) (hsame : t.SameGame t') : t'.Replays := by
  obtain ⟨b, hb, hb'⟩ := h
  exact ⟨b, by rw [hsame.1, hb], by rw [hsame.2]; exact hb'⟩

theorem replays_of_nil (hmoves : t.moves = []) (hreferee : t.referee = Referee.resetGame) :
    t.Replays := by
  refine ⟨Referee.resetGame, ?_, ?_⟩
  · rw [hmoves, Referee.replay]
  · rw [hreferee]
    exact .refl _

theorem restarted_moves (t : Table) : t.restarted.moves = [] := rfl

theorem restarted_referee (t : Table) : t.restarted.referee = Referee.resetGame := by
  simp only [restarted]

/-- All that recording a move writes. -/
theorem recorded_eq (t : Table) (now : Int) (sMove : Bytes) (c : Color) (s : GameStatus) :
    ∃ redTime blackTime lastMoveTime nextMoveExpiry, t.recorded now sMove c s =
      { t with
        status := s, moves := t.moves ++ [sMove], redTime, blackTime, lastMoveTime
        nextMoveExpiry } := by
  obtain ⟨redTime, blackTime, lastMoveTime, nextMoveExpiry, hframe⟩ :=
    World.resetMoveTimers_frame { t with status := s, moves := t.moves ++ [sMove] } now c
  exact ⟨redTime, blackTime, lastMoveTime, nextMoveExpiry, hframe⟩

theorem recorded_frame (t : Table) (now : Int) (sMove : Bytes) (c : Color) (s : GameStatus) :
    (t.recorded now sMove c s).moves = t.moves ++ [sMove] ∧
      (t.recorded now sMove c s).referee = t.referee ∧
      (t.recorded now sMove c s).status = s ∧
      (t.recorded now sMove c s).redPlayer = t.redPlayer ∧
      (t.recorded now sMove c s).blackPlayer = t.blackPlayer := by
  obtain ⟨_, _, _, _, hrecorded⟩ := t.recorded_eq now sMove c s
  rw [hrecorded]
  exact ⟨rfl, rfl, rfl, rfl, rfl⟩

/-- All that counting a move writes. -/
theorem MoveMade.eq {sMove : Bytes} {v : Board.Verdict} {s : GameStatus}
    (h : t.MoveMade player sMove v t' s) :
    ∃ isPrevMoveCheck effectiveMoves redChecks blackChecks, t' =
      { t with
        referee := v.board, isPrevMoveCheck, effectiveMoves, redChecks, blackChecks } := by
  obtain ⟨sReason, hcount⟩ := h.counted
  exact World.countMove_frame hcount

/-- What a move that is made leaves of the table. -/
theorem MoveMade.frame {sMove : Bytes} {v : Board.Verdict} {s : GameStatus}
    (h : t.MoveMade player sMove v t' s) :
    t'.moves = t.moves ∧ t'.referee = v.board ∧ t'.redPlayer = t.redPlayer ∧
      t'.blackPlayer = t.blackPlayer := by
  obtain ⟨_, _, _, _, hmade⟩ := h.eq
  rw [hmade]
  exact ⟨rfl, rfl, rfl, rfl⟩

/-- All that a move that is made writes. -/
theorem MoveMade.recorded_eq {sMove : Bytes} {v : Board.Verdict} {s : GameStatus}
    (h : t.MoveMade player sMove v t' s) (now : Int) (c : Color) :
    ∃ redTime blackTime lastMoveTime nextMoveExpiry isPrevMoveCheck effectiveMoves redChecks
      blackChecks, t'.recorded now sMove c s =
        { t with
          referee := v.board, status := s, moves := t.moves ++ [sMove], redTime, blackTime
          lastMoveTime, nextMoveExpiry, isPrevMoveCheck, effectiveMoves, redChecks
          blackChecks } := by
  obtain ⟨_, _, _, _, rfl⟩ := h.eq
  obtain ⟨_, _, _, _, hrecorded⟩ := recorded_eq _ now sMove c s
  rw [hrecorded]
  exact ⟨_, _, _, _, _, _, _, _, rfl⟩

theorem Replays.recorded {now : Int} {sMove : Bytes} {v : Board.Verdict} {s : GameStatus}
    (h : t.Replays) (hmade : t.MoveMade player sMove v t' s) :
    (t'.recorded now sMove c s).Replays := by
  obtain ⟨hmoves, hreferee, -, -⟩ := hmade.frame
  obtain ⟨hmoves', hreferee', -⟩ := t'.recorded_frame now sMove c s
  obtain ⟨b, hb, hsame⟩ := h
  have hlawful := Referee.reachable_lawful
    (Referee.replay_reachable Referee.reachable_resetGame hb)
  -- the replaying referee accepts the move too
  obtain ⟨v', hv', hacc, hboard⟩ := Referee.validateString_congr (hsame.lawful hlawful) hsame.symm
    hmade.verdict
  rw [hmade.accepted] at hacc
  refine ⟨v'.board, ?_, ?_⟩
  · rw [hmoves', hmoves]
    exact Referee.replay_append hb (Referee.replay_cons_of_accepted hv' hacc)
  · rw [hreferee', hreferee]
    exact hboard.symm

/-- Every effect keeps the moves and the board together. -/
theorem Replays.effect {ids : PlayerRef → Bytes} {now : Int} {op : TableOp} {res : Result}
    {e : Option GameStatus} (h : t.Replays) (heffect : t.Effect ids now op t' res e) :
    t'.Replays := by
  cases heffect with
  | refused => exact h
  | informed => exact h
  | joined => exact h.of_sameGame ((t.sameGame_addPlayer _ _).trans (sameGame_updateStatus _))
  | left => exact h.of_sameGame ((t.sameGame_removePlayer _).trans (sameGame_updateStatus _))
  | @leftGame player =>
    have hended : t.SameGame (t.ended (t.lossOf player)) := ⟨rfl, rfl⟩
    exact h.of_sameGame (hended.trans ((sameGame_removePlayer _ _).trans (sameGame_updateStatus _)))
  | moveRejected hboard =>
    obtain ⟨b, hb, hsame⟩ := h
    exact ⟨b, hb, hsame.trans hboard⟩
  | moved hmade => exact h.recorded hmade
  | movedLast hmade => exact (h.recorded hmade).of_sameGame ⟨rfl, rfl⟩
  | resigned => exact h.of_sameGame ⟨rfl, rfl⟩
  | drawOffered => exact h.of_sameGame ⟨rfl, rfl⟩
  | drawRepeated => exact h
  | drawAgreed => exact h.of_sameGame ⟨rfl, rfl⟩
  | switched => exact h.of_sameGame ⟨rfl, rfl⟩
  | notReset => exact h
  | restarted => exact replays_of_nil t.restarted_moves t.restarted_referee
  | updated => exact h.of_sameGame ⟨rfl, rfl⟩
  | notFlagged => exact h
  | flagged => exact h.of_sameGame ⟨rfl, rfl⟩

/-! ## The seats -/

/-- Both seats are taken while moves can be made. -/
def TakenInPlay (t : Table) : Prop := t.status = .ready ∨ t.status = .inProgress → t.SeatsTaken

/-- The call takes a player off his seat while the game is on: he joins
again as an observer, or leaves when fewer than two moves are made. -/
def LeavesSeatInPlay (t : Table) : TableOp → Prop
  | .assignPlayerAs player requestColor =>
    t.status = .inProgress ∧ requestColor = .none ∧ t.isSeated player = true
  | .onLeaveFromPlayer player =>
    t.status = .inProgress ∧ t.moves.length < 2 ∧ t.isSeated player = true
  | _ => False

theorem not_isSeated_iff :
    t.isSeated player = false ↔ t.redPlayer ≠ some player ∧ t.blackPlayer ≠ some player := by
  simp [isSeated]

@[simp] theorem updateStatus_redPlayer (t : Table) :
    t.updateStatus.redPlayer = t.redPlayer := by
  unfold updateStatus
  split
  · split <;> rfl
  · split <;> rfl
  · rfl

@[simp] theorem updateStatus_blackPlayer (t : Table) :
    t.updateStatus.blackPlayer = t.blackPlayer := by
  unfold updateStatus
  split
  · split <;> rfl
  · split <;> rfl
  · rfl

/-- A game that is on goes on, whoever leaves. -/
theorem updateStatus_inProgress_iff (t : Table) :
    t.updateStatus.status = .inProgress ↔ t.status = .inProgress := by
  unfold updateStatus
  split
  · rename_i h
    split <;> simp [h]
  · rename_i h
    split <;> simp [h]
  · exact Iff.rfl

theorem seatsTaken_iff (t : Table) :
    t.SeatsTaken ↔ t.redPlayer ≠ none ∧ t.blackPlayer ≠ none := by
  simp [SeatsTaken, Option.ne_none_iff_exists']

/-- A table that is READY has both seats taken. -/
theorem updateStatus_ready {t : Table} (h : t.updateStatus.status = .ready) :
    t.SeatsTaken := by
  rw [seatsTaken_iff]
  unfold updateStatus at h
  split at h
  · rename_i hopen
    split at h
    · assumption
    · rw [hopen] at h
      cases h
  · split at h
    · cases h
    · rename_i hseats
      exact not_or.mp hseats
  · rename_i hready
    exact absurd h hready

/-- When `_updateStatus` ends a call, only a game that is on is left to
look at. -/
theorem takenInPlay_updateStatus {t : Table} (htaken : t.status = .inProgress → t.SeatsTaken) :
    t.updateStatus.TakenInPlay := by
  intro hstatus
  have hseats : t.SeatsTaken := by
    rcases hstatus with hready | hplaying
    · exact updateStatus_ready hready
    · exact htaken ((updateStatus_inProgress_iff t).mp hplaying)
  obtain ⟨red, black, hr, hb⟩ := hseats
  exact ⟨red, black, by simpa using hr, by simpa using hb⟩

theorem addPlayer_status (t : Table) (player : PlayerRef) (c : Color) :
    (t.addPlayer player c).1.status = t.status := by
  unfold addPlayer
  cases c <;> simp only <;> split <;> rfl

theorem SeatsDistinct.addPlayer (h : t.SeatsDistinct) (player : PlayerRef) (c : Color) :
    (t.addPlayer player c).1.SeatsDistinct := by
  unfold SeatsDistinct at *
  unfold Table.addPlayer
  cases c <;> simp only <;> split <;> grind

/-- An observer who joins again changes no seat. -/
theorem addPlayer_observer (h : t.isSeated player = false) :
    (t.addPlayer player .none).1.redPlayer = t.redPlayer ∧
      (t.addPlayer player .none).1.blackPlayer = t.blackPlayer := by
  rw [not_isSeated_iff] at h
  unfold addPlayer
  simp only
  split <;> simp [h.1, h.2]

/-- A player who joins again as an observer empties his seat. -/
theorem addPlayer_seated (h : t.isSeated player = true) :
    (t.addPlayer player .none).1.redPlayer = none ∨
      (t.addPlayer player .none).1.blackPlayer = none := by
  rw [isSeated_iff] at h
  unfold addPlayer
  simp only
  split <;> exact h.imp (fun h => if_pos h) (fun h => if_pos h)

theorem SeatsDistinct.removePlayer (h : t.SeatsDistinct) (player : PlayerRef) :
    (t.removePlayer player).SeatsDistinct := by
  intro p
  have hp := h p
  unfold Table.removePlayer
  simp only
  split_ifs <;> simp_all

theorem removePlayer_status (t : Table) (player : PlayerRef) :
    (t.removePlayer player).status = t.status := by
  unfold removePlayer
  simp only
  split_ifs <;> rfl

/-- An observer who leaves changes no seat. -/
theorem removePlayer_observer (h : t.isSeated player = false) :
    (t.removePlayer player).redPlayer = t.redPlayer ∧
      (t.removePlayer player).blackPlayer = t.blackPlayer := by
  rw [not_isSeated_iff] at h
  unfold removePlayer
  simp [h.1, h.2]

/-- A player who leaves empties his seat. -/
theorem removePlayer_seated (h : t.isSeated player = true) :
    (t.removePlayer player).redPlayer = none ∨ (t.removePlayer player).blackPlayer = none := by
  rw [isSeated_iff] at h
  unfold removePlayer
  by_cases hred : t.redPlayer = some player
  · simp [hred]
  · simp [hred, h.resolve_left hred]

theorem restarted_redPlayer (t : Table) : t.restarted.redPlayer = t.redPlayer :=
  updateStatus_redPlayer { t with status := .open, drawPlayerId := [] }

theorem restarted_blackPlayer (t : Table) : t.restarted.blackPlayer = t.blackPlayer :=
  updateStatus_blackPlayer { t with status := .open, drawPlayerId := [] }

theorem MoveMade.recorded_seats {sMove : Bytes} {v : Board.Verdict} {s : GameStatus}
    (h : t.MoveMade player sMove v t' s) (now : Int) (c : Color) :
    (t'.recorded now sMove c s).redPlayer = t.redPlayer ∧
      (t'.recorded now sMove c s).blackPlayer = t.blackPlayer := by
  obtain ⟨-, -, hred, hblack⟩ := h.frame
  obtain ⟨-, -, -, hred', hblack'⟩ := t'.recorded_frame now sMove c s
  exact ⟨hred'.trans hred, hblack'.trans hblack⟩

theorem SeatsDistinct.recorded {sMove : Bytes} {v : Board.Verdict} {s : GameStatus}
    (h : t.SeatsDistinct) (hmade : t.MoveMade player sMove v t' s) (now : Int) (c : Color) :
    (t'.recorded now sMove c s).SeatsDistinct := by
  obtain ⟨hred, hblack⟩ := hmade.recorded_seats now c
  exact h.of_seats hred hblack

theorem SeatsDistinct.updateStatus (h : t.SeatsDistinct) : t.updateStatus.SeatsDistinct :=
  h.of_seats t.updateStatus_redPlayer t.updateStatus_blackPlayer

/-- Every call keeps the seats distinct. -/
theorem SeatsDistinct.effect {ids : PlayerRef → Bytes} {now : Int} {op : TableOp} {res : Result}
    {e : Option GameStatus} (h : t.SeatsDistinct) (heffect : t.Effect ids now op t' res e) :
    t'.SeatsDistinct := by
  cases heffect with
  | refused => exact h
  | informed => exact h
  | joined => exact (h.addPlayer _ _).updateStatus
  | left => exact (h.removePlayer _).updateStatus
  | @leftGame player =>
    have hended : (t.ended (t.lossOf player)).SeatsDistinct := h
    exact (hended.removePlayer player).updateStatus
  | moveRejected => exact h
  | moved hmade => exact h.recorded hmade _ _
  | movedLast hmade => exact h.recorded hmade _ _
  | resigned => exact h
  | drawOffered => exact h
  | drawRepeated => exact h
  | drawAgreed => exact h
  | @switched player red hready hr hb =>
    intro p hp hq
    refine h p ?_ hp
    rw [hr]
    exact hq
  | notReset => exact h
  | restarted => exact h.of_seats t.restarted_redPlayer t.restarted_blackPlayer
  | updated => exact h
  | notFlagged => exact h
  | flagged => exact h

theorem TakenInPlay.distinctSeats (h : t.TakenInPlay) (hdistinct : t.SeatsDistinct)
    (hs : t.status = .ready ∨ t.status = .inProgress) :
    ∃ red black, t.redPlayer = some red ∧ t.blackPlayer = some black ∧ red ≠ black := by
  obtain ⟨red, black, hr, hb⟩ := h hs
  exact ⟨red, black, hr, hb, hdistinct.ne hr hb⟩

theorem TakenInPlay.of_seats (h : t.TakenInPlay) (hred : t'.redPlayer = t.redPlayer)
    (hblack : t'.blackPlayer = t.blackPlayer)
    (hstatus : t'.status = .ready ∨ t'.status = .inProgress →
      t.status = .ready ∨ t.status = .inProgress) : t'.TakenInPlay := by
  intro hs
  obtain ⟨red, black, hr, hb⟩ := h (hstatus hs)
  exact ⟨red, black, hred.trans hr, hblack.trans hb⟩

theorem isOver_lossOf (t : Table) (player : PlayerRef) : IsOver (t.lossOf player) := by
  rcases World.lossOf_cases t player with hloss | hloss
  · exact Or.inr (Or.inl hloss)
  · exact Or.inl hloss

theorem not_playable_of_isOver {s : GameStatus} (h : IsOver s) :
    ¬ (s = .ready ∨ s = .inProgress) := by
  rcases h with h | h | h <;> simp [h]

theorem takenInPlay_ended (t : Table) {s : GameStatus} (hover : IsOver s) :
    (t.ended s).TakenInPlay :=
  fun hs => absurd hs (not_playable_of_isOver hover)

/-- A new game starts from the seats as they are. -/
theorem takenInPlay_restarted (t : Table) : t.restarted.TakenInPlay := by
  have hopen : ({ t with status := .open, drawPlayerId := [] } : Table).updateStatus.TakenInPlay :=
    takenInPlay_updateStatus (fun hplaying => by cases hplaying)
  exact hopen.of_seats rfl rfl (fun hs => hs)

theorem TakenInPlay.recorded {now : Int} {sMove : Bytes} {v : Board.Verdict} {s : GameStatus}
    (h : t.TakenInPlay) (hmade : t.MoveMade player sMove v t' s) :
    (t'.recorded now sMove c s).TakenInPlay := by
  obtain ⟨hred, hblack⟩ := hmade.recorded_seats now c
  exact h.of_seats hred hblack (fun _ => hmade.status)

/-- A game ends only at a table where moves can be made. -/
theorem Effect.playable {ids : PlayerRef → Bytes} {now : Int} {op : TableOp} {res : Result}
    {s : GameStatus} (h : t.Effect ids now op t' res (some s)) :
    t.status = .ready ∨ t.status = .inProgress := by
  cases h with
  | leftGame hplaying => exact Or.inr hplaying
  | movedLast hmade => exact hmade.status
  | resigned hplaying => exact Or.inr hplaying
  | drawAgreed hplaying => exact Or.inr hplaying
  | flagged hplaying => exact Or.inr hplaying

/-- Every call but the two keeps the seats. -/
theorem TakenInPlay.effect {ids : PlayerRef → Bytes} {now : Int} {op : TableOp} {res : Result}
    {e : Option GameStatus} (h : t.TakenInPlay) (heffect : t.Effect ids now op t' res e)
    (hleaves : ¬ t.LeavesSeatInPlay op) : t'.TakenInPlay := by
  cases heffect with
  | refused => exact h
  | informed => exact h
  | @joined player c hcolor =>
    refine takenInPlay_updateStatus (fun hplaying => ?_)
    rw [addPlayer_status] at hplaying
    obtain ⟨red, black, hr, hb⟩ := h (Or.inr hplaying)
    -- with both seats taken only an observer may join
    rcases hcolor with hcolor | hcolor | hcolor
    · simp [hr] at hcolor
    · simp [hb] at hcolor
    · subst hcolor
      have hseat : t.isSeated player = false := by
        simpa using fun hseat => hleaves ⟨hplaying, rfl, hseat⟩
      obtain ⟨hred, hblack⟩ := addPlayer_observer hseat
      exact ⟨red, black, hred.trans hr, hblack.trans hb⟩
  | @left player hgame =>
    refine takenInPlay_updateStatus (fun hplaying => ?_)
    rw [removePlayer_status] at hplaying
    have hseat : t.isSeated player = false := by
      rw [Bool.eq_false_iff]
      intro hseat
      by_cases hmoves : 2 ≤ t.moves.length
      · exact hgame ⟨hplaying, hmoves, hseat⟩
      · exact hleaves ⟨hplaying, Nat.not_le.mp hmoves, hseat⟩
    obtain ⟨red, black, hr, hb⟩ := h (Or.inr hplaying)
    obtain ⟨hred, hblack⟩ := removePlayer_observer hseat
    exact ⟨red, black, hred.trans hr, hblack.trans hb⟩
  | @leftGame player =>
    refine takenInPlay_updateStatus (fun hplaying => ?_)
    rw [removePlayer_status] at hplaying
    exact absurd (Or.inr hplaying) (not_playable_of_isOver (isOver_lossOf t player))
  | moveRejected => exact h
  | moved hmade => exact h.recorded hmade
  | movedLast _ hover => exact takenInPlay_ended _ hover
  | resigned => exact takenInPlay_ended t (isOver_lossOf t _)
  | drawOffered => exact h
  | drawRepeated => exact h
  | drawAgreed => exact takenInPlay_ended t (Or.inr (Or.inr rfl))
  | @switched player red _ _ hb =>
    intro _
    exact ⟨red, player, hb, rfl⟩
  | notReset => exact h
  | restarted => exact takenInPlay_restarted t
  | updated => exact h
  | notFlagged => exact h
  | flagged => exact takenInPlay_ended t (isOver_timeout _)

end Table

namespace World

variable {w w' : World} {now : Int} {op : TableOp} {player : PlayerRef} {sMove : Bytes}
  {res : Result}

theorem step_eq : Table.machine.step w (now, op) = .ok w' ↔ ∃ res, w.call now op = .ok (w', res) := by
  show (w.call now op).map Prod.fst = .ok w' ↔ _
  rw [Lib.map_eq_ok]
  exact ⟨fun ⟨p, hp, he⟩ => ⟨p.2, by rw [hp, ← he]⟩, fun ⟨res, h⟩ => ⟨(w', res), h, rfl⟩⟩

theorem new_referee (id : Bytes) (initialTime : TimeInfo) (players : PlayerRef → Player) :
    (new id initialTime players).table.referee = Referee.resetGame := by
  simp only [new, Table.new]

/-- **The moves and the board stay together in every run.** -/
theorem reachable_replays (h : Table.machine.Reachable w) : w.table.Replays := by
  refine h.invariant (I := fun w => w.table.Replays) ?_ ?_
  · intro w hw
    obtain ⟨id, initialTime, players, hw⟩ := hw
    rw [hw]
    exact Table.replays_of_nil rfl (new_referee id initialTime players)
  · rintro w ⟨now, op⟩ w' hw hstep
    obtain ⟨res, hcall⟩ := step_eq.mp hstep
    obtain ⟨e, hcalled⟩ := call_called hw.lawful hcall
    exact hw.effect hcalled.effect

/-- Two players, for runs on fixed inputs. -/
def twoPlayers (player : PlayerRef) : Player :=
  { id := if player = 1 then bytes "red" else bytes "black" }

/-- Player 1 takes RED's seat, player 2 BLACK's, and RED moves. -/
def opening : List (Int × TableOp) :=
  [(0, .assignPlayerAs 1 .red), (0, .assignPlayerAs 2 .black), (0, .acceptMove 1 (bytes "4948"))]

/-- The two seats are taken, and RED's cannon takes a horse, with check. -/
def horseTaken : List (Int × TableOp) :=
  [(0, .assignPlayerAs 1 .red), (0, .assignPlayerAs 2 .black), (0, .acceptMove 1 (bytes "2625")),
    (0, .acceptMove 2 (bytes "5041")), (0, .acceptMove 1 (bytes "7770"))]

/-- BLACK's cannon takes a horse too, and is put back since the check stays.
He resigns, the table is reset, and the game is played again. -/
def playedAgain : List (Int × TableOp) :=
  [(0, .acceptMove 2 (bytes "1219")), (0, .handleResignRequest 2), (0, .handleResetRequest 1),
    (0, .acceptMove 1 (bytes "2625")), (0, .acceptMove 2 (bytes "5041")),
    (0, .acceptMove 1 (bytes "7770")), (0, .acceptMove 2 (bytes "1219"))]

theorem reachable_of_run {id : Bytes} {initialTime : TimeInfo} {players : PlayerRef → Player}
    {ops : List (Int × TableOp)} (h : Table.machine.run (new id initialTime players) ops = .ok w) :
    Table.machine.Reachable w :=
  Lib.Machine.Reachable.run (Lib.Machine.Reachable.init (M := Table.machine)
    ⟨id, initialTime, players, rfl⟩) h

/-- **Replay.** The moves of a table are accepted one by one by a new
referee, which ends with the table's board, every piece on its cell, and
its turn: RED's when the number of moves is even. -/
theorem replay_gives_board (h : Table.machine.Reachable w) :
    ∃ b, Referee.replay Referee.resetGame w.table.moves = some b ∧
      b.cells = w.table.referee.cells ∧ b.info = w.table.referee.info ∧
      b.nextColor = w.table.referee.nextColor ∧
      (w.table.referee.nextColor = .red ↔ Even w.table.moves.length) := by
  obtain ⟨b, hb, hsame⟩ := reachable_replays h
  have hnext := Referee.replay_nextColor Board.lawful_new hb
  rw [Board.new_nextColor] at hnext
  refine ⟨b, hb, ?_, hsame.info.symm, hsame.nextColor.symm, ?_⟩
  · obtain ⟨l, -, hl⟩ := hsame
    rw [hl]
  · rw [hsame.nextColor, hnext]
    by_cases heven : Even w.table.moves.length
    · simp [heven]
    · simp [heven]

theorem replay_gives_board_played_again : ∃ w b,
    Table.machine.run (new (bytes "t") {} twoPlayers) (horseTaken ++ playedAgain) = .ok w ∧
      w.table.moves = [bytes "2625", bytes "5041", bytes "7770"] ∧
      w.table.referee.deadPieces.length = 1 ∧
      Referee.replay Referee.resetGame w.table.moves = some b ∧
      b.cells = w.table.referee.cells ∧ b.info = w.table.referee.info ∧
      b.nextColor = w.table.referee.nextColor ∧
      (w.table.referee.nextColor = .red ↔ Even w.table.moves.length) := by
  have hrun : (Table.machine.run (new (bytes "t") {} twoPlayers) (horseTaken ++ playedAgain)).map
      (fun w => (w.table.moves, w.table.referee.deadPieces.length)) =
      .ok ([bytes "2625", bytes "5041", bytes "7770"], 1) := by decide +kernel
  obtain ⟨w, hw, hval⟩ := Lib.map_eq_ok.mp hrun
  obtain ⟨hmoves, hdead⟩ := Prod.mk.inj hval
  obtain ⟨b, hb⟩ := replay_gives_board (reachable_of_run hw)
  exact ⟨w, b, hw, hmoves, hdead, hb⟩

/-- **A refused move leaves no trace**: nothing is posted, and the table
differs in the order of the list of pieces only. -/
theorem refused_move_leaves_no_trace (h : Table.machine.Reachable w) (now : Int)
    (player : PlayerRef) (sMove : Bytes) (hcall : w.acceptMove now player sMove = .ok (w', res))
    (hres : res ≠ .ok) :
    ∃ board, w.table.referee.SameUpToOrder board ∧
      w' = w.setTable { w.table with referee := board } := by
  have hl := (reachable_replays h).lawful
  unfold acceptMove at hcall
  simp only at hcall
  split at hcall
  · cases hcall
    exact ⟨_, .refl _, rfl⟩
  split at hcall
  · cases hcall
    exact ⟨_, .refl _, rfl⟩
  split at hcall
  · cases hcall
    exact ⟨_, .refl _, rfl⟩
  obtain ⟨v, hv, hcall⟩ := Lib.bind_eq_ok.mp hcall
  split at hcall
  · rename_i hrej
    cases hcall
    exact ⟨v.board, Referee.rejected_board hl hv (by simpa using hrej), rfl⟩
  · obtain ⟨_, -, hcall⟩ := Lib.bind_eq_ok.mp hcall
    obtain ⟨_, -, hcall⟩ := Lib.bind_eq_ok.mp hcall
    cases hcall
    exact absurd rfl hres

/-- BLACK's cannon takes a horse and is put back: the horse is now the last
of the list. -/
theorem refused_move_leaves_no_trace_in_check : ∃ w w',
    Table.machine.run (new (bytes "t") {} twoPlayers) horseTaken = .ok w ∧
      w.acceptMove 0 2 (bytes "1219") = .ok (w', .notValid) ∧
      w'.table.referee.pieces ≠ w.table.referee.pieces ∧
      ∃ board, w.table.referee.SameUpToOrder board ∧
        w' = w.setTable { w.table with referee := board } := by
  have hrun : (Table.machine.run (new (bytes "t") {} twoPlayers) horseTaken).map
      (fun w => (w.acceptMove 0 2 (bytes "1219")).map fun r =>
        (r.2, decide (r.1.table.referee.pieces = w.table.referee.pieces))) =
      .ok (.ok (.notValid, false)) := by
    decide +kernel
  obtain ⟨w, hw, hmove⟩ := Lib.map_eq_ok.mp hrun
  obtain ⟨⟨w', res⟩, hw', hval⟩ := Lib.map_eq_ok.mp hmove
  obtain ⟨rfl, hpieces⟩ := Prod.mk.inj hval
  exact ⟨w, w', hw, hw', of_decide_eq_false hpieces,
    refused_move_leaves_no_trace (reachable_of_run hw) 0 2 (bytes "1219") hw' (by decide)⟩

/-! ## The law of the seats -/

/-- While the game is on two distinct players have the seats, and no game
has ended but with two distinct players in the seats. -/
structure SeatsKept (w : World) : Prop where
  playing : w.table.status = .inProgress →
    ∃ red black, w.table.redPlayer = some red ∧ w.table.blackPlayer = some black ∧ red ≠ black
  ended : ∀ e ∈ w.ends, ∃ red black, e.red = some red ∧ e.black = some black ∧ red ≠ black

/-- What every call but the two of `LeavesSeatInPlay` keeps. -/
structure Seated (w : World) : Prop where
  replays : w.table.Replays
  distinct : w.table.SeatsDistinct
  taken : w.table.TakenInPlay
  ended : ∀ e ∈ w.ends, ∃ red black, e.red = some red ∧ e.black = some black ∧ red ≠ black

theorem Seated.seatsKept (h : w.Seated) : w.SeatsKept := by
  refine ⟨fun hplaying => ?_, h.ended⟩
  exact h.taken.distinctSeats h.distinct (Or.inr hplaying)

theorem seated_new (id : Bytes) (initialTime : TimeInfo) (players : PlayerRef → Player) :
    (new id initialTime players).Seated := by
  refine ⟨Table.replays_of_nil rfl (new_referee id initialTime players), ?_, ?_, ?_⟩
  · intro p hp
    cases hp
  · intro hs
    rcases hs with hs | hs <;> cases hs
  · intro e he
    cases he

theorem Seated.called {e : Option GameStatus} (h : w.Seated) (hcalled : w.Called now op w' res e)
    (hleaves : ¬ w.table.LeavesSeatInPlay op) : w'.Seated := by
  refine ⟨h.replays.effect hcalled.effect, h.distinct.effect hcalled.effect,
    h.taken.effect hcalled.effect hleaves, ?_⟩
  intro g hg
  rw [hcalled.ends, List.mem_append] at hg
  rcases hg with hg | hg
  · exact h.ended g hg
  · cases e with
    | none => cases hg
    | some s =>
      rw [Option.toList_some, List.map_singleton, List.mem_singleton] at hg
      rw [hg]
      exact h.taken.distinctSeats h.distinct hcalled.effect.playable

/-- Each of the two calls leaves a game without one of its players. -/
theorem not_seatsKept_of_leaves (hl : w.table.referee.Lawful)
    (hcall : w.call now op = .ok (w', res)) (hleaves : w.table.LeavesSeatInPlay op) :
    ¬ w'.SeatsKept := by
  obtain ⟨e, hcalled⟩ := call_called hl hcall
  have heffect := hcalled.effect
  have hempty : w'.table.status = .inProgress ∧
      (w'.table.redPlayer = none ∨ w'.table.blackPlayer = none) := by
    generalize w'.table = t' at heffect ⊢
    cases op with
    | assignPlayerAs player c =>
      obtain ⟨hplaying, hc, hseat⟩ := hleaves
      subst hc
      have hres : res = .ok := by
        simp only [call, assignPlayerAs] at hcall
        cases hcall
        rfl
      cases heffect with
      | refused hrefused => exact absurd hres hrefused
      | joined =>
        rw [Table.updateStatus_inProgress_iff, Table.addPlayer_status]
        exact ⟨hplaying, by simpa using Table.addPlayer_seated hseat⟩
    | onLeaveFromPlayer player =>
      obtain ⟨hplaying, hmoves, hseat⟩ := hleaves
      have hres : res = .ok := by
        obtain ⟨_, -, he⟩ := Lib.map_eq_ok.mp hcall
        cases he
        rfl
      cases heffect with
      | refused hrefused => exact absurd hres hrefused
      | leftGame _ hstarted => exact absurd hstarted (Nat.not_le.mpr hmoves)
      | left =>
        rw [Table.updateStatus_inProgress_iff, Table.removePlayer_status]
        exact ⟨hplaying, by simpa using Table.removePlayer_seated hseat⟩
    | _ => exact hleaves.elim
  intro hkept
  obtain ⟨red, black, hr, hb, -⟩ := hkept.playing hempty.1
  simp [hr, hb] at hempty

/-- **The seats are kept, exactly.** In a run from a new table no call
faults, both seats are taken by two players whenever the game is on, and
no game ends with an empty seat, if and only if no call of the run takes
a player off his seat while the game is on. -/
theorem seats_kept_iff (id : Bytes) (initialTime : TimeInfo) (players : PlayerRef → Player)
    (ops : List (Int × TableOp)) :
    Table.machine.Along SeatsKept (new id initialTime players) ops ↔
      Table.machine.Meets (fun w op => ¬ w.table.LeavesSeatInPlay op.2)
        (new id initialTime players) ops := by
  refine Lib.Machine.along_iff_meets (I := Seated) (fun _ h => h.seatsKept) ?_ ?_
    (seated_new id initialTime players) ops
  · intro w op h hstays
    obtain ⟨⟨w', res⟩, hcall⟩ := call_returns h.replays.lawful h.taken op.1 op.2
    obtain ⟨e, hcalled⟩ := call_called h.replays.lawful hcall
    exact ⟨w', step_eq.mpr ⟨res, hcall⟩, h.called hcalled hstays⟩
  · intro w op w' h hleaves hstep
    obtain ⟨res, hcall⟩ := step_eq.mp hstep
    exact not_seatsKept_of_leaves h.replays.lawful hcall (not_not.mp hleaves)

/-- BLACK leaves after RED's first move: the game stays on, and faults
when RED resigns. -/
theorem seat_lost_in_play : ∃ w,
    Table.machine.run (new (bytes "t") {} twoPlayers) (opening ++ [(0, .onLeaveFromPlayer 2)])
        = .ok w ∧
      w.table.status = .inProgress ∧ w.table.blackPlayer = none ∧
      w.call 0 (.handleResignRequest 1) = .error .nullPointer := by
  have hrun : (Table.machine.run (new (bytes "t") {} twoPlayers)
      (opening ++ [(0, .onLeaveFromPlayer 2)])).map (fun w => (w.table.status,
        w.table.blackPlayer, (w.call 0 (.handleResignRequest 1)).map fun _ => ()))
      = .ok (.inProgress, none, .error .nullPointer) := by decide +kernel
  obtain ⟨w, hw, he⟩ := Lib.map_eq_ok.mp hrun
  simp only [Prod.mk.injEq, Lib.map_eq_error] at he
  exact ⟨w, hw, he⟩

end World

end HoxServer
