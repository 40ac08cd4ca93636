/-
HoxServer.Table.Status — what the status of a table says.

`_updateStatus` derives OPEN and READY from the seats, the referee and
`_onGameEnded` set the other statuses. `WellFormed` says what each status
means for the seats, the list of players, the moves, the referee, the
counters and the clocks. It holds of a new table and every effect keeps
it, so it holds after any calls by any players at any times.

The proof has one lemma for each kind of write: to the seats, to the
record of a game, to the status of a game that ends.
-/
import HoxServer.Table.Game

namespace HoxServer

namespace Table

variable {t t' : Table} {player : PlayerRef} {c : Color} {s : GameStatus}

/-! ## The invariant -/

/-- The players of a table: each is there once, a seated player is one of
them, and nobody has both seats. -/
structure Members (t : Table) : Prop where
  nodup : t.allPlayers.Nodup
  seated : ∀ p, t.isSeated p = true → p ∈ t.allPlayers
  distinct : t.SeatsDistinct

/-- No game has been played since the table was made or reset. The pieces
may be listed in another order, when moves have been refused. -/
structure Fresh (t : Table) : Prop where
  moves : t.moves = []
  referee : Referee.resetGame.SameUpToOrder t.referee
  turn : t.referee.nextColor = .red
  drawPlayerId : t.drawPlayerId = []
  isPrevMoveCheck : t.isPrevMoveCheck = false
  effectiveMoves : t.effectiveMoves = 0
  redChecks : t.redChecks = 0
  blackChecks : t.blackChecks = 0
  redTime : t.redTime = t.initialTime
  blackTime : t.blackTime = t.initialTime

/-- What the status says of the table. -/
structure WellFormed (t : Table) : Prop where
  members : t.Members
  ready : t.status = .ready → t.SeatsTaken
  opened : t.status = .open → ¬ t.SeatsTaken
  fresh : t.status = .open ∨ t.status = .ready → t.Fresh
  moves : t.moves ≠ [] ↔ t.status = .inProgress ∨ IsOver t.status

/-- A game has been started. -/
theorem not_waiting_of_played (h : s = .inProgress ∨ IsOver s) : ¬ (s = .open ∨ s = .ready) := by
  rcases h with h | h | h | h <;> simp [h]

theorem WellFormed.not_waiting (h : t.WellFormed) (hmoves : t.moves ≠ []) :
    ¬ (t.status = .open ∨ t.status = .ready) :=
  not_waiting_of_played (h.moves.mp hmoves)

/-! ## The players of a table -/

theorem Members.of_seats (h : t.Members) (hall : t'.allPlayers = t.allPlayers)
    (hred : t'.redPlayer = t.redPlayer) (hblack : t'.blackPlayer = t.blackPlayer) :
    t'.Members := by
  refine ⟨by rw [hall]; exact h.nodup, fun p hp => ?_, h.distinct.of_seats hred hblack⟩
  rw [isSeated_of_seats hred hblack] at hp
  rw [hall]
  exact h.seated p hp

/-- Whoever has a seat after a player has joined had one before, or is the
player. -/
theorem seated_addPlayer {p : PlayerRef} (h : (t.addPlayer player c).1.isSeated p = true) :
    t.isSeated p = true ∨ p = player := by
  rw [isSeated_iff] at *
  unfold addPlayer at h
  cases c <;> simp only at h <;> split at h <;> grind

theorem Members.addPlayer (h : t.Members) (player : PlayerRef) (c : Color) :
    (t.addPlayer player c).1.Members := by
  refine ⟨?_, fun p hp => ?_, h.distinct.addPlayer player c⟩
  · rw [addPlayer_allPlayers]
    split
    · exact h.nodup
    · rename_i hnew
      exact h.nodup.append (List.nodup_singleton _) (by simpa using hnew)
  · rw [mem_addPlayer]
    exact (seated_addPlayer hp).imp_left (h.seated p)

/-- A player who has left has no seat: he had one at most. -/
theorem seated_removePlayer {p : PlayerRef} (hdistinct : t.SeatsDistinct)
    (h : (t.removePlayer player).isSeated p = true) : t.isSeated p = true ∧ p ≠ player := by
  have hp := hdistinct p
  rw [isSeated_iff] at *
  unfold removePlayer at h
  simp only at h
  split_ifs at h <;> grind

theorem Members.removePlayer (h : t.Members) (player : PlayerRef) :
    (t.removePlayer player).Members := by
  refine ⟨?_, fun p hp => ?_, h.distinct.removePlayer player⟩
  · rw [removePlayer_allPlayers]
    exact h.nodup.filter _
  · obtain ⟨hseated, hne⟩ := seated_removePlayer h.distinct hp
    exact mem_removePlayer.mpr ⟨h.seated p hseated, hne⟩

/-! ## Writes to the seats -/

/-- `_updateStatus` moves between OPEN and READY only. -/
theorem updateStatus_waiting_iff (t : Table) :
    (t.updateStatus.status = .open ∨ t.updateStatus.status = .ready) ↔
      t.status = .open ∨ t.status = .ready := by
  unfold updateStatus
  split
  · rename_i h
    split <;> simp [h]
  · rename_i h
    split <;> simp [h]
  · exact Iff.rfl

/-- A game does not start or end with `_updateStatus`. -/
theorem updateStatus_played_iff (t : Table) :
    (t.updateStatus.status = .inProgress ∨ IsOver t.updateStatus.status) ↔
      t.status = .inProgress ∨ IsOver t.status := by
  unfold updateStatus IsOver
  split
  · rename_i h
    split <;> simp [h]
  · rename_i h
    split <;> simp [h]
  · exact Iff.rfl

/-- A table that is OPEN has an empty seat. -/
theorem updateStatus_open (h : t.updateStatus.status = .open) : ¬ t.SeatsTaken := by
  rw [seatsTaken_iff]
  unfold updateStatus at h
  split at h
  · split at h
    · cases h
    · rename_i hseats
      exact hseats
  · rename_i hready
    split at h
    · rename_i hseats
      rintro ⟨hred, hblack⟩
      exact hseats.elim hred hblack
    · rw [hready] at h
      cases h
  · rename_i hopen _
    exact absurd h hopen

theorem seatsTaken_updateStatus (t : Table) : t.updateStatus.SeatsTaken ↔ t.SeatsTaken := by
  simp [SeatsTaken]

theorem Fresh.updateStatus (h : t.Fresh) : t.updateStatus.Fresh := by
  obtain ⟨_, hf⟩ := t.updateStatus_frame
  rw [hf]
  exact ⟨h.moves, h.referee, h.turn, h.drawPlayerId, h.isPrevMoveCheck, h.effectiveMoves,
    h.redChecks, h.blackChecks, h.redTime, h.blackTime⟩

/-- `_updateStatus` restores what the status says, when only the seats may
have changed. -/
theorem wellFormed_updateStatus (hmembers : t.Members)
    (hfresh : t.status = .open ∨ t.status = .ready → t.Fresh)
    (hmoves : t.moves ≠ [] ↔ t.status = .inProgress ∨ IsOver t.status) :
    t.updateStatus.WellFormed := by
  refine ⟨?_, ?_, ?_, ?_, ?_⟩
  · exact hmembers.of_seats t.updateStatus_allPlayers t.updateStatus_redPlayer
      t.updateStatus_blackPlayer
  · intro hready
    exact t.seatsTaken_updateStatus.mpr (updateStatus_ready hready)
  · intro hopen
    rw [seatsTaken_updateStatus]
    exact updateStatus_open hopen
  · intro hwaiting
    exact (hfresh (t.updateStatus_waiting_iff.mp hwaiting)).updateStatus
  · rw [(sameGame_updateStatus t).1, hmoves, updateStatus_played_iff]

/-- Joining and leaving write to the seats and the list of players. -/
theorem WellFormed.reseat (h : t.WellFormed) (hmembers : t'.Members)
    (hframe : ∃ allPlayers redPlayer blackPlayer,
      t' = { t with allPlayers, redPlayer, blackPlayer }) : t'.updateStatus.WellFormed := by
  obtain ⟨_, _, _, hf⟩ := hframe
  refine wellFormed_updateStatus hmembers (fun hwaiting => ?_) ?_
  · rw [hf] at hwaiting ⊢
    obtain ⟨hmoves, hreferee, hturn, hdraw, hprev, heff, hred, hblack, hrtime, hbtime⟩ :=
      h.fresh hwaiting
    exact ⟨hmoves, hreferee, hturn, hdraw, hprev, heff, hred, hblack, hrtime, hbtime⟩
  · rw [hf]
    exact h.moves

theorem WellFormed.joined (h : t.WellFormed) (player : PlayerRef) (c : Color) :
    (t.addPlayer player c).1.updateStatus.WellFormed :=
  h.reseat (h.members.addPlayer player c) (t.addPlayer_frame player c)

theorem WellFormed.left (h : t.WellFormed) (player : PlayerRef) :
    (t.removePlayer player).updateStatus.WellFormed :=
  h.reseat (h.members.removePlayer player) (t.removePlayer_frame player)

/-! ## Writes to the game -/

/-- A game that has moves ends. -/
theorem WellFormed.ended (h : t.WellFormed) (hmoves : t.moves ≠ []) (hover : IsOver s) :
    (t.ended s).WellFormed := by
  have hnot : ¬ (s = .open ∨ s = .ready) := not_waiting_of_played (Or.inr hover)
  refine ⟨⟨h.members.nodup, h.members.seated, h.members.distinct⟩, fun hready => ?_,
    fun hopen => ?_, fun hwaiting => ?_, ?_⟩
  · exact absurd (Or.inr hready) hnot
  · exact absurd (Or.inl hopen) hnot
  · exact absurd hwaiting hnot
  · exact iff_of_true hmoves (Or.inr hover)

/-- A move that is made leaves a game that is on or over. -/
theorem WellFormed.recorded {now : Int} {sMove : Bytes} {v : Board.Verdict} (h : t.WellFormed)
    (hl : t.referee.Lawful) (hmade : t.MoveMade player sMove v t' s) :
    (t'.recorded now sMove c s).WellFormed := by
  obtain ⟨_, _, _, _, _, _, _, _, hf⟩ := hmade.recorded_eq now c
  have hplayed : s = .inProgress ∨ IsOver s := by
    by_cases hover : IsOver s
    · exact Or.inr hover
    · exact Or.inl (hmade.inProgress hl hover)
  have hnot := not_waiting_of_played hplayed
  rw [hf]
  refine ⟨⟨h.members.nodup, h.members.seated, h.members.distinct⟩, fun hready => ?_,
    fun hopen => ?_, fun hwaiting => ?_, ?_⟩
  · exact absurd (Or.inr hready) hnot
  · exact absurd (Or.inl hopen) hnot
  · exact absurd hwaiting hnot
  · exact iff_of_true (by simp) hplayed

/-- A reset makes the table fresh, whatever it was. -/
theorem restarted_eq (t : Table) : ∃ t₀ : Table, t.restarted = t₀.updateStatus ∧
    t₀.status = .open ∧ t₀.Fresh ∧ t₀.allPlayers = t.allPlayers ∧
    t₀.redPlayer = t.redPlayer ∧ t₀.blackPlayer = t.blackPlayer := by
  refine ⟨{ t with
    status := .open, drawPlayerId := [], redTime := t.initialTime, blackTime := t.initialTime
    referee := Referee.resetGame, moves := [], isPrevMoveCheck := false, effectiveMoves := 0
    redChecks := 0, blackChecks := 0 }, ?_, rfl, ?_, rfl, rfl, rfl⟩
  · unfold restarted updateStatus
    simp only
    split_ifs <;> rfl
  · constructor <;> simp only
    · exact .refl _
    · exact Board.new_nextColor

theorem WellFormed.restarted (h : t.WellFormed) : t.restarted.WellFormed := by
  obtain ⟨t₀, he, hopen, hfresh, hall, hred, hblack⟩ := t.restarted_eq
  rw [he]
  refine wellFormed_updateStatus (h.members.of_seats hall hred hblack) (fun _ => hfresh) ?_
  rw [hopen]
  exact iff_of_false (not_not_intro hfresh.moves) (by decide)

/-- A move that is refused may list the pieces in another order. -/
theorem WellFormed.moveRejected {board : Board} (h : t.WellFormed)
    (hboard : t.referee.SameUpToOrder board) : ({ t with referee := board } : Table).WellFormed := by
  refine { h with members := ⟨h.members.nodup, h.members.seated, h.members.distinct⟩, fresh := ?_ }
  intro hwaiting
  have hfresh := h.fresh hwaiting
  exact { hfresh with
    referee := hfresh.referee.trans hboard, turn := hboard.nextColor.trans hfresh.turn }

/-! ## Every effect -/

/-- Every effect keeps what the status says. -/
theorem WellFormed.effect {ids : PlayerRef → Bytes} {now : Int} {op : TableOp} {res : Result}
    {e : Option GameStatus} (h : t.WellFormed) (hl : t.referee.Lawful)
    (heffect : t.Effect ids now op t' res e) : t'.WellFormed := by
  have hplaying : t.status = .inProgress → t.moves ≠ [] := fun hs => h.moves.mpr (Or.inl hs)
  cases heffect with
  | refused => exact h
  | informed => exact h
  | @joined player c => exact h.joined player c
  | @left player => exact h.left player
  | @leftGame player hs =>
    exact (h.ended (hplaying hs) (isOver_lossOf t player)).left player
  | moveRejected hboard => exact h.moveRejected hboard
  | moved hmade => exact h.recorded hl hmade
  | movedLast hmade hover =>
    refine (h.recorded hl hmade).ended ?_ hover
    rw [(recorded_frame _ _ _ _ _).1]
    simp
  | resigned hs => exact h.ended (hplaying hs) (isOver_lossOf t _)
  | drawOffered hs =>
    have hnot := h.not_waiting (hplaying hs)
    exact { h with
      members := ⟨h.members.nodup, h.members.seated, h.members.distinct⟩
      fresh := fun hwaiting => absurd hwaiting hnot }
  | drawRepeated => exact h
  | drawAgreed hs => exact h.ended (hplaying hs) (Or.inr (Or.inr rfl))
  | @switched player red hready hr hb =>
    have hseated : ∀ p, t.redPlayer = some p ∨ t.blackPlayer = some p → p ∈ t.allPlayers :=
      fun p hp => h.members.seated p (isSeated_iff.mpr hp)
    refine { h with
      members := ⟨h.members.nodup, ?_, ?_⟩, ready := ?_, opened := ?_, fresh := ?_ }
    · intro p hp
      refine hseated p ?_
      rw [isSeated_iff] at hp
      exact hp.symm.imp_left (fun hp => hr.trans hp)
    · intro p hp hq
      refine h.members.distinct p ?_ hp
      rw [hr]
      exact hq
    · intro _
      exact ⟨red, player, hb, rfl⟩
    · intro hopen
      rw [hready] at hopen
      cases hopen
    · intro hwaiting
      exact { h.fresh hwaiting with }
  | notReset => exact h
  | restarted => exact h.restarted
  | updated hwaiting =>
    refine { h with
      members := ⟨h.members.nodup, h.members.seated, h.members.distinct⟩, fresh := ?_ }
    intro _
    exact { h.fresh hwaiting with redTime := rfl, blackTime := rfl }
  | notFlagged => exact h
  | flagged hs => exact h.ended (hplaying hs) (isOver_timeout _)

theorem wellFormed_new (id : Bytes) (initialTime : TimeInfo) :
    (Table.new id initialTime).WellFormed := by
  refine ⟨⟨List.nodup_nil, ?_, ?_⟩, ?_, ?_, ?_, ?_⟩
  · intro p hp
    simp [isSeated, new] at hp
  · intro p hp
    cases hp
  · intro hready
    cases hready
  · rintro - ⟨red, black, hr, hb⟩
    cases hr
  · intro _
    have hreferee : (Table.new id initialTime).referee = Referee.resetGame := by simp only [new]
    refine ⟨rfl, ?_, ?_, rfl, rfl, rfl, rfl, rfl, rfl, rfl⟩
    · rw [hreferee]
      exact .refl _
    · rw [hreferee]
      exact Board.new_nextColor
  · have hopen : (Table.new id initialTime).status = .open := rfl
    rw [hopen]
    exact iff_of_false (not_not_intro rfl) (by decide)

end Table

namespace World

variable {w : World}

theorem reachable_wellFormed (h : Table.machine.Reachable w) : w.table.WellFormed := by
  have hboth : w.table.Replays ∧ w.table.WellFormed := by
    refine h.invariant (I := fun w => w.table.Replays ∧ w.table.WellFormed) ?_ ?_
    · rintro w ⟨id, initialTime, players, rfl⟩
      exact ⟨(seated_new id initialTime players).replays, Table.wellFormed_new id initialTime⟩
    · rintro w ⟨now, op⟩ w' ⟨hreplays, hwf⟩ hstep
      obtain ⟨res, hcall⟩ := step_eq.mp hstep
      obtain ⟨e, hcalled⟩ := call_called hreplays.lawful hcall
      exact ⟨hreplays.effect hcalled.effect, hwf.effect hreplays.lawful hcalled.effect⟩
  exact hboth.2

/-- **What the status of a table says** holds in every state that any
calls lead to: for the players and the seats, for the moves, and before a
game for the referee, the draw offer, the counters and the clocks. -/
theorem status_meaning (h : Table.machine.Reachable w) :
    w.table.Members ∧ (w.table.status = .ready → w.table.SeatsTaken) ∧
      (w.table.status = .open → ¬ w.table.SeatsTaken) ∧
      (w.table.status = .open ∨ w.table.status = .ready → w.table.Fresh) ∧
      (w.table.moves ≠ [] ↔ w.table.status = .inProgress ∨ Table.IsOver w.table.status) := by
  obtain ⟨hmembers, hready, hopened, hfresh, hmoves⟩ := reachable_wellFormed h
  exact ⟨hmembers, hready, hopened, hfresh, hmoves⟩

/-- BLACK asks for a new game after RED's first move. -/
theorem status_meaning_reset : ∃ w,
    Table.machine.run (new (bytes "t") {} twoPlayers) (opening ++ [(0, .handleResetRequest 2)])
        = .ok w ∧
      w.table.status = .ready ∧ w.table.Members ∧
      (w.table.status = .ready → w.table.SeatsTaken) ∧
      (w.table.status = .open → ¬ w.table.SeatsTaken) ∧
      (w.table.status = .open ∨ w.table.status = .ready → w.table.Fresh) ∧
      (w.table.moves ≠ [] ↔ w.table.status = .inProgress ∨ Table.IsOver w.table.status) := by
  have hrun : (Table.machine.run (new (bytes "t") {} twoPlayers)
      (opening ++ [(0, .handleResetRequest 2)])).map (fun w => w.table.status)
      = .ok .ready := by decide +kernel
  obtain ⟨w, hw, hstatus⟩ := Lib.map_eq_ok.mp hrun
  exact ⟨w, hw, hstatus, status_meaning (reachable_of_run hw)⟩

end World

end HoxServer
