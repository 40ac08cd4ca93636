/-
HoxServer.Table.Deadline — the time limit of a move.

`_resetMoveTimers` sets `_nextMoveExpiry`, and only the scan of the table
manager looks at it (`checkTimeoutOnMove`); `acceptMove` does not. A move
that comes after the time limit is accepted when it comes before the
scan. `no_move_after_the_flag` has the condition on the times of the
calls: once a limit has passed, the scan comes before the next MOVE.

The limit itself is well formed as long as the times it is made of are:
they come from the clients and are not looked at. `deadlines_well_formed`
has the exact condition for one move, and settings for which it holds all
along a run.
-/
import HoxServer.Net.Text
import HoxServer.Table.Clock

namespace HoxServer

/-- A time setting, or what is left of it: there is time for a move, and
game-time and free-time together fit into an `int`. -/
structure TimeInfo.Fair (time : TimeInfo) : Prop where
  nMove : 0 ≤ time.nMove
  nFree : 0 ≤ time.nFree ∧ time.nFree < 2147483648
  total : 0 ≤ time.nGame + time.nFree ∧ time.nGame + time.nFree < 2147483648

namespace Table

variable {t t' : Table} {now : Int} {op : TableOp} {player : PlayerRef} {sMove : Bytes}
  {ids : PlayerRef → Bytes} {res : Result} {e : Option GameStatus} {v : Board.Verdict}
  {s : GameStatus} {time : TimeInfo} {elapse : Int}

/-! ## The limit and the scan -/

/-- The time for a move is limited. -/
structure InPlay (t : Table) : Prop where
  status : t.status = .inProgress
  moves : 2 ≤ t.moves.length

instance (t : Table) : Decidable t.InPlay :=
  decidable_of_iff (t.status = .inProgress ∧ 2 ≤ t.moves.length)
    ⟨fun h => ⟨h.1, h.2⟩, fun h => ⟨h.status, h.moves⟩⟩

/-- The call comes after the time limit of the next move. -/
def PastLimit (t : Table) (now : Int) : Prop := t.InPlay ∧ t.nextMoveExpiry < now

instance (t : Table) (now : Int) : Decidable (t.PastLimit now) :=
  inferInstanceAs (Decidable (_ ∧ _))

theorem InPlay.of_reseated (hplay : t'.updateStatus.InPlay)
    (hframe : ∃ allPlayers redPlayer blackPlayer,
      t' = { t with allPlayers, redPlayer, blackPlayer }) :
    t.InPlay ∧ t'.updateStatus.nextMoveExpiry = t.nextMoveExpiry := by
  obtain ⟨_, _, _, _, he, hiff⟩ := reseated_eq hframe
  rw [he] at hplay ⊢
  exact ⟨⟨hiff.mp hplay.status, hplay.moves⟩, rfl⟩

/-- No call but a move brings a game into play or changes its limit. -/
theorem Effect.inPlay (h : t.Effect ids now op t' res e)
    (hop : ∀ player sMove, op ≠ .acceptMove player sMove) (hplay : t'.InPlay) :
    t.InPlay ∧ t'.nextMoveExpiry = t.nextMoveExpiry := by
  have hended : ∀ {t₁ : Table} {s : GameStatus}, IsOver s → t₁.status = s → t₁.InPlay → False :=
    fun hover hs hplay => not_playable_of_isOver (hs ▸ hover) (Or.inr hplay.status)
  cases h with
  | refused => exact ⟨hplay, rfl⟩
  | informed => exact ⟨hplay, rfl⟩
  | @joined player c => exact hplay.of_reseated (t.addPlayer_frame player c)
  | @left player => exact hplay.of_reseated (t.removePlayer_frame player)
  | @leftGame player =>
    have hstatus := hplay.status
    rw [updateStatus_inProgress_iff, removePlayer_status] at hstatus
    exact absurd (Or.inr hstatus) (not_playable_of_isOver (isOver_lossOf t player))
  | moveRejected => exact absurd rfl (hop _ _)
  | moved => exact absurd rfl (hop _ _)
  | movedLast => exact absurd rfl (hop _ _)
  | resigned => exact (hended (isOver_lossOf t _) rfl hplay).elim
  | drawOffered => exact ⟨⟨hplay.status, hplay.moves⟩, rfl⟩
  | drawRepeated => exact ⟨hplay, rfl⟩
  | drawAgreed => exact (hended (Or.inr (Or.inr rfl)) rfl hplay).elim
  | switched => exact ⟨⟨hplay.status, hplay.moves⟩, rfl⟩
  | notReset => exact ⟨hplay, rfl⟩
  | restarted =>
    have hmoves := hplay.moves
    rw [restarted_moves] at hmoves
    exact absurd hmoves (by decide)
  | updated => exact ⟨⟨hplay.status, hplay.moves⟩, rfl⟩
  | notFlagged => exact ⟨hplay, rfl⟩
  | flagged => exact (hended (isOver_timeout _) rfl hplay).elim

/-- A scan leaves a game in play only if its limit has not passed. -/
theorem Effect.notFlagged_of_inPlay (h : t.Effect ids now .checkTimeoutOnMove t' res e)
    (hres : res = .ok) (hplay : t'.InPlay) : now ≤ t'.nextMoveExpiry := by
  cases h with
  | refused hne => exact absurd hres hne
  | notFlagged hidle =>
    rcases hidle with hs | hmoves | hnow
    · exact absurd hplay.status hs
    · exact absurd hplay.moves (by omega)
    · exact hnow
  | flagged =>
    have hstatus := hplay.status
    unfold ended at hstatus
    simp only at hstatus
    split at hstatus <;> cases hstatus

/-! ## The clock that is started -/

/-- The times of the player who moves after the next. -/
def opponentTime (t : Table) : TimeInfo :=
  if t.referee.nextColor = .red then t.blackTime else t.redTime

/-- A player whose turn begins with these times has time for a move. -/
def GivesTime (time : TimeInfo) : Prop :=
  0 ≤ time.nMove ∧ 0 ≤ time.nGame + time.nFree ∧ time.nGame + time.nFree < 2147483648

instance (time : TimeInfo) : Decidable (GivesTime time) := inferInstanceAs (Decidable (_ ∧ _))

/-- The clock of the next player has been started well at `now`: the sum
of his times has not overflowed, and the limit is neither past nor beyond
the time for the move. -/
structure StartedWell (t : Table) (now : Int) : Prop where
  fits : -2147483648 ≤ t.nextTime.nGame + t.nextTime.nFree ∧
    t.nextTime.nGame + t.nextTime.nFree < 2147483648
  notPast : now ≤ t.nextMoveExpiry
  notBeyond : t.nextMoveExpiry ≤ now + t.nextTime.nMove

/-- The times of the next player and the limit when a move is recorded. -/
theorem MoveMade.starts (hl : t.referee.Lawful) (h : t.MoveMade player sMove v t' .inProgress)
    (hmoves : 2 ≤ t.moves.length + 1) (now : Int) :
    (t'.recorded now sMove t.referee.nextColor .inProgress).nextTime =
        refresh t.initialTime t.opponentTime ∧
      (t'.recorded now sMove t.referee.nextColor .inProgress).nextMoveExpiry =
        now + remain (refresh t.initialTime t.opponentTime) := by
  obtain ⟨r, p, -, -, hplayed⟩ := Referee.accepted_cases hl h.verdict h.accepted
  have hnext : v.board.nextColor = t.referee.nextColor.opposite := hplayed.board.nextColor
  obtain ⟨_, _, _, _, rfl⟩ := h.eq
  unfold Table.recorded opponentTime
  rw [resetMoveTimers_eq rfl (by simpa using hmoves)]
  rcases hl.turn with hturn | hturn
  · rw [if_pos hturn]
    simp [nextTime, hnext, hturn]
  · rw [if_neg (by simp [hturn])]
    simp [nextTime, hnext, hturn]

/-- **When a clock is started well**, exactly. -/
theorem startedWell_iff (hnext : t.nextTime = time)
    (hexpiry : t.nextMoveExpiry = now + remain time) : t.StartedWell now ↔ GivesTime time := by
  obtain ⟨k, hk, hlow, hhigh⟩ := toInt32_cases (time.nGame + time.nFree)
  unfold remain at hexpiry
  unfold GivesTime
  constructor
  · rintro ⟨hfits, hnotPast, -⟩
    rw [hnext] at hfits
    rw [toInt32_eq_self hfits.1 hfits.2] at hexpiry
    omega
  · rintro ⟨hmove, hsum, hsum'⟩
    rw [toInt32_eq_self (by omega) hsum'] at hexpiry
    refine ⟨?_, by omega, ?_⟩
    · rw [hnext]
      omega
    · rw [hnext]
      omega

theorem givesTime_of_fair (h : time.Fair) : GivesTime time :=
  ⟨h.nMove, h.total.1, h.total.2⟩

theorem fair_refresh {initialTime : TimeInfo} (hi : initialTime.Fair) (h : time.Fair) :
    (refresh initialTime time).Fair := by
  obtain ⟨hmove, hfree, htotal⟩ := h
  obtain ⟨hmove', hfree', htotal'⟩ := hi
  unfold refresh
  split_ifs with hgame
  · exact ⟨hmove, hfree', by simp only; omega⟩
  · exact ⟨hmove', hfree, htotal⟩

/-- Time that passes leaves fair times, unless the game-time underflows. -/
theorem fair_consume (h : time.Fair) (helapse : 0 ≤ elapse)
    (hfits : -2147483648 ≤ time.nGame - elapse) : (consume time elapse).Fair := by
  obtain ⟨hmove, ⟨hfree, hfree'⟩, ⟨htotal, htotal'⟩⟩ := h
  have hG : toInt32 (time.nGame - elapse) = time.nGame - elapse :=
    toInt32_eq_self hfits (by omega)
  have hgame := consume_nGame time elapse
  have hleft := consume_nFree time elapse
  rw [hG] at hgame hleft
  refine ⟨by rw [consume_nMove]; exact hmove, ?_, ?_⟩
  · rw [hleft]
    split_ifs with hneg
    · rw [toInt32_eq_self (by omega) (by omega)]
      omega
    · omega
  · rw [hgame, hleft]
    split_ifs with hneg
    · rw [toInt32_eq_self (by omega) (by omega)]
      omega
    · omega

/-- The settings and the times of both players are fair. -/
structure FairTimes (t : Table) : Prop where
  initial : t.initialTime.Fair
  red : t.redTime.Fair
  black : t.blackTime.Fair

/-- The condition on a call: a setting that is sent is fair; a move comes
after the move before it, and not so late that the game-time underflows. -/
def FairCall (t : Table) (now : Int) : TableOp → Prop
  | .handleUpdateRequest _ _ newInitialTime => newInitialTime.Fair
  | .acceptMove _ _ => 2 ≤ t.moves.length → t.lastMoveTime ≤ now ∧
    -2147483648 ≤ t.nextTime.nGame - (now - t.lastMoveTime)
  | _ => True

theorem FairTimes.opponentTime (h : t.FairTimes) : t.opponentTime.Fair := by
  unfold Table.opponentTime
  split_ifs
  · exact h.black
  · exact h.red

/-- The time that is taken off the mover's times. -/
def bookedTime (t : Table) (now : Int) : Int :=
  if 2 ≤ t.moves.length then now - t.lastMoveTime else 0

/-- What recording a move does to the times. -/
theorem MoveMade.recorded_times (h : t.MoveMade player sMove v t' s) (now : Int) :
    (t'.recorded now sMove t.referee.nextColor s).initialTime = t.initialTime ∧
      (((t'.recorded now sMove t.referee.nextColor s).redTime = t.redTime ∧
          (t'.recorded now sMove t.referee.nextColor s).blackTime = t.blackTime) ∨
        (t.referee.nextColor = .red ∧
          (t'.recorded now sMove t.referee.nextColor s).redTime =
            consume t.redTime (t.bookedTime now) ∧
          (t'.recorded now sMove t.referee.nextColor s).blackTime =
            refresh t.initialTime t.blackTime) ∨
        (t.referee.nextColor ≠ .red ∧
          (t'.recorded now sMove t.referee.nextColor s).redTime =
            refresh t.initialTime t.redTime ∧
          (t'.recorded now sMove t.referee.nextColor s).blackTime =
            consume t.blackTime (t.bookedTime now))) := by
  refine ⟨by rw [recorded_initialTime, h.initialTime], ?_⟩
  obtain ⟨_, _, _, _, rfl⟩ := h.eq
  unfold Table.recorded
  by_cases hs : s = .inProgress
  · by_cases hmoves : 2 ≤ t.moves.length + 1
    · have hbooked : (if t.moves.length + 1 > 2 then now - t.lastMoveTime else 0) =
          t.bookedTime now := by
        unfold bookedTime
        split_ifs <;> omega
      rw [hs, resetMoveTimers_eq rfl (by simpa using hmoves)]
      by_cases hturn : t.referee.nextColor = .red
      · rw [if_pos hturn]
        simp [hturn, elapseTime, ← hbooked]
      · rw [if_neg hturn]
        simp [hturn, elapseTime, ← hbooked]
    · have hshort : t.moves.length + 1 < 2 := by omega
      unfold resetMoveTimers
      simp [hs, hshort]
  · unfold resetMoveTimers
    simp [hs]

/-- Recording a move keeps the times fair. -/
theorem FairTimes.recorded (h : t.FairTimes) (hmade : t.MoveMade player sMove v t' s)
    (hcall : t.FairCall now (.acceptMove player sMove)) :
    (t'.recorded now sMove t.referee.nextColor s).FairTimes := by
  obtain ⟨hinitial, htimes⟩ := hmade.recorded_times now
  have hbooked : t.nextTime.Fair → (consume t.nextTime (t.bookedTime now)).Fair := by
    intro hfair
    unfold bookedTime
    split_ifs with hmoves
    · obtain ⟨hlater, hfits⟩ := hcall hmoves
      exact fair_consume hfair (by omega) hfits
    · have hfree := hfair.nFree
      have htotal := hfair.total
      exact fair_consume hfair le_rfl (by omega)
  rcases htimes with ⟨hred, hblack⟩ | ⟨hturn, hred, hblack⟩ | ⟨hturn, hred, hblack⟩
  · exact ⟨by rw [hinitial]; exact h.initial, by rw [hred]; exact h.red,
      by rw [hblack]; exact h.black⟩
  · have hnext : t.nextTime = t.redTime := if_pos hturn
    rw [hnext] at hbooked
    exact ⟨by rw [hinitial]; exact h.initial, by rw [hred]; exact hbooked h.red,
      by rw [hblack]; exact fair_refresh h.initial h.black⟩
  · have hnext : t.nextTime = t.blackTime := if_neg hturn
    rw [hnext] at hbooked
    exact ⟨by rw [hinitial]; exact h.initial, by rw [hred]; exact fair_refresh h.initial h.red,
      by rw [hblack]; exact hbooked h.black⟩

theorem FairTimes.of_same (h : t.FairTimes) (hinitial : t'.initialTime = t.initialTime)
    (hred : t'.redTime = t.redTime) (hblack : t'.blackTime = t.blackTime) : t'.FairTimes :=
  ⟨by rw [hinitial]; exact h.initial, by rw [hred]; exact h.red, by rw [hblack]; exact h.black⟩

theorem FairTimes.reseat (h : t.FairTimes)
    (hframe : ∃ allPlayers redPlayer blackPlayer,
      t' = { t with allPlayers, redPlayer, blackPlayer }) : t'.updateStatus.FairTimes := by
  obtain ⟨_, _, _, _, he, -⟩ := reseated_eq hframe
  rw [he]
  exact h.of_same rfl rfl rfl

theorem updateStatus_initialTime (t : Table) : t.updateStatus.initialTime = t.initialTime := by
  obtain ⟨_, hs⟩ := t.updateStatus_frame
  rw [hs]

theorem restarted_initialTime (t : Table) : t.restarted.initialTime = t.initialTime :=
  updateStatus_initialTime { t with status := .open, drawPlayerId := [] }

/-- Every effect keeps the times fair. -/
theorem FairTimes.effect (h : t.FairTimes) (heffect : t.Effect ids now op t' res e)
    (hcall : t.FairCall now op) : t'.FairTimes := by
  cases heffect with
  | refused => exact h
  | informed => exact h
  | @joined player c => exact h.reseat (t.addPlayer_frame player c)
  | @left player => exact h.reseat (t.removePlayer_frame player)
  | @leftGame player =>
    have hended : (t.ended (t.lossOf player)).FairTimes := h.of_same rfl rfl rfl
    exact hended.reseat (removePlayer_frame _ player)
  | moveRejected => exact h.of_same rfl rfl rfl
  | moved hmade => exact h.recorded hmade hcall
  | movedLast hmade => exact (h.recorded hmade hcall).of_same rfl rfl rfl
  | resigned => exact h.of_same rfl rfl rfl
  | drawOffered => exact h.of_same rfl rfl rfl
  | drawRepeated => exact h
  | drawAgreed => exact h.of_same rfl rfl rfl
  | switched => exact h.of_same rfl rfl rfl
  | notReset => exact h
  | restarted =>
    have hi : t.restarted.initialTime.Fair := by
      rw [restarted_initialTime]
      exact h.initial
    exact ⟨hi, hi, hi⟩
  | updated => exact ⟨hcall, hcall, hcall⟩
  | notFlagged => exact h
  | flagged => exact h.of_same rfl rfl rfl

end Table

namespace World

variable {w w' w₁ w₂ : World} {now : Int} {op : TableOp} {player : PlayerRef} {sMove : Bytes}
  {ops ops' : List (Int × TableOp)}

/-- A MOVE request. -/
def MoveRequest (call : Int × TableOp) : Prop := ∃ player sMove, call.2 = .acceptMove player sMove

instance (call : Int × TableOp) : Decidable (MoveRequest call) :=
  match call with
  | (_, .acceptMove player sMove) => isTrue ⟨player, sMove, rfl⟩
  | (_, .assignPlayerAs ..) | (_, .onLeaveFromPlayer _) | (_, .sendInfoToPlayer _)
  | (_, .handleResignRequest _) | (_, .handleDrawRequest _) | (_, .handleResetRequest _)
  | (_, .handleUpdateRequest ..) | (_, .checkTimeoutOnMove) =>
    isFalse fun ⟨_, _, h⟩ => TableOp.noConfusion h

/-- A run that ends in play without a move has been in play all the time,
under the same limit. -/
theorem inPlay_of_run (h : Table.machine.Reachable w)
    (hops : ∀ op ∈ ops, ¬ MoveRequest op) (hrun : Table.machine.run w ops = .ok w')
    (hplay : w'.table.InPlay) : w.table.InPlay ∧ w'.table.nextMoveExpiry = w.table.nextMoveExpiry := by
  induction ops generalizing w with
  | nil =>
    cases hrun
    exact ⟨hplay, rfl⟩
  | cons op ops ih =>
    obtain ⟨w₁, hstep, hrun⟩ := Lib.Machine.run_cons_eq_ok.mp hrun
    obtain ⟨hplay₁, he₁⟩ := ih (h.step hstep) (fun op hop => hops op (List.mem_cons_of_mem _ hop))
      hrun
    obtain ⟨res, hcall⟩ := step_eq.mp hstep
    obtain ⟨_, hcalled⟩ := call_called (reachable_replays h).lawful hcall
    obtain ⟨hplay, he⟩ := hcalled.effect.inPlay
      (fun player sMove hop => hops op List.mem_cons_self ⟨player, sMove, hop⟩) hplay₁
    exact ⟨hplay, he₁.trans he⟩

/-- A scan that leaves a game in play was not past its limit. -/
theorem scan_by_limit (h : Table.machine.Reachable w)
    (hstep : Table.machine.step w (now, .checkTimeoutOnMove) = .ok w')
    (hplay : w'.table.InPlay) : now ≤ w'.table.nextMoveExpiry := by
  obtain ⟨res, hcall⟩ := step_eq.mp hstep
  obtain ⟨_, hcalled⟩ := call_called (reachable_replays h).lawful hcall
  have hres : res = .ok := by
    obtain ⟨_, -, hr⟩ := Lib.map_eq_ok.mp hcall
    cases hr
    rfl
  exact hcalled.effect.notFlagged_of_inPlay hres hplay

/-- What there is to wait for while the limit of a move runs: the end of the
game, a scan past the limit, or a MOVE request that comes in time. -/
def Settled (limit : Int) (w : World) (call : Int × TableOp) : Prop :=
  ¬ w.table.InPlay ∨ (call.2 = .checkTimeoutOnMove ∧ limit < call.1) ∨
    (MoveRequest call ∧ call.1 ≤ limit)

instance (limit : Int) (w : World) (call : Int × TableOp) : Decidable (Settled limit w call) :=
  inferInstanceAs (Decidable (_ ∨ _))

/-- Until then there is no MOVE request: none comes past the limit before the
table has been scanned past it. -/
def ScannedBy (limit : Int) : World → List (Int × TableOp) → Prop :=
  Table.machine.Until (Settled limit) fun _ call => ¬ MoveRequest call

instance (limit : Int) (w : World) (ops : List (Int × TableOp)) :
    Decidable (ScannedBy limit w ops) :=
  inferInstanceAs (Decidable (Table.machine.Until _ _ _ _))

/-- So it is after each MOVE request that leaves the game in play, with the
limit that the next move has then. -/
def ScannedInTime : World → List (Int × TableOp) → Prop :=
  Table.machine.AfterEach MoveRequest fun w ops =>
    w.table.InPlay → ScannedBy w.table.nextMoveExpiry w ops

instance (w : World) (ops : List (Int × TableOp)) : Decidable (ScannedInTime w ops) :=
  inferInstanceAs (Decidable (Table.machine.AfterEach _ _ _ _))

/-- The first MOVE request in a game that is still in play comes in time: a
scan past the limit would have ended the game. -/
theorem ScannedBy.move_in_time (h : Table.machine.Reachable w)
    (hquiet : ∀ op ∈ ops, ¬ MoveRequest op) (hrun : Table.machine.run w ops = .ok w')
    (hplay : w'.table.InPlay)
    (hscanned : ScannedBy w'.table.nextMoveExpiry w
      (ops ++ (now, .acceptMove player sMove) :: ops')) : now ≤ w'.table.nextMoveExpiry := by
  induction ops generalizing w with
  | nil =>
    cases hrun
    rcases hscanned with (hnot | ⟨hscan, -⟩ | ⟨-, htime⟩) | ⟨hnot, -⟩
    · exact absurd hplay hnot
    · cases hscan
    · exact htime
    · exact absurd ⟨player, sMove, rfl⟩ hnot
  | cons op ops ih =>
    have hinPlay := (inPlay_of_run h hquiet hrun hplay).1
    obtain ⟨w₁, hstep, hrest⟩ := Lib.Machine.run_cons_eq_ok.mp hrun
    have hquiet' : ∀ op ∈ ops, ¬ MoveRequest op := fun op hop =>
      hquiet op (List.mem_cons_of_mem _ hop)
    rcases hscanned with (hnot | ⟨hscan, hlimit⟩ | ⟨hmove, -⟩) | ⟨-, hnext⟩
    · exact absurd hinPlay hnot
    · -- the game would be over by now
      obtain ⟨now', _⟩ := op
      obtain rfl : _ = TableOp.checkTimeoutOnMove := hscan
      obtain ⟨hplay₁, he⟩ := inPlay_of_run (h.step hstep) hquiet' hrest hplay
      have hnow := scan_by_limit h hstep hplay₁
      omega
    · exact absurd hmove (hquiet op List.mem_cons_self)
    · exact ih (h.step hstep) hquiet' hrest (hnext w₁ hstep)

/-- No move of the run is accepted after the time limit. -/
def OnTime (w : World) (ops : List (Int × TableOp)) : Prop :=
  ∀ before now player sMove after w₁ w₂, ops = before ++ (now, .acceptMove player sMove) :: after →
    Table.machine.run w before = .ok w₁ → w₁.table.InPlay →
    w₁.acceptMove now player sMove = .ok (w₂, .ok) → now ≤ w₁.table.nextMoveExpiry

/-- The last MOVE request of a list of calls. -/
theorem lastMoveRequest (ops : List (Int × TableOp)) : (∀ op ∈ ops, ¬ MoveRequest op) ∨
    ∃ before op after, ops = before ++ op :: after ∧ MoveRequest op ∧
      ∀ op ∈ after, ¬ MoveRequest op := by
  induction ops with
  | nil => exact Or.inl fun op hop => absurd hop List.not_mem_nil
  | cons op ops ih =>
    rcases ih with hquiet | ⟨before, op', after, rfl, hmove, hquiet⟩
    · by_cases hmove : MoveRequest op
      · exact Or.inr ⟨[], op, ops, rfl, hmove, hquiet⟩
      · refine Or.inl fun op' hop' => ?_
        rcases List.mem_cons.mp hop' with rfl | hop'
        · exact hmove
        · exact hquiet op' hop'
    · exact Or.inr ⟨op :: before, op', after, rfl, hmove, hquiet⟩

/-- **No move after the flag has fallen**, in a run where every limit that
passes is followed by a scan before the next MOVE request. -/
theorem no_move_after_the_flag {id : Bytes} {initialTime : TimeInfo} {players : PlayerRef → Player}
    (h : ScannedInTime (new id initialTime players) ops) :
    OnTime (new id initialTime players) ops := by
  intro before now player sMove after w₁ w₂ hops hrun hplay hcall
  have hstart : Table.machine.Reachable (new id initialTime players) :=
    .init ⟨id, initialTime, players, rfl⟩
  rcases lastMoveRequest before with hquiet | ⟨before, op, between, rfl, hmove, hquiet⟩
  · -- a new table is not in play
    have hnew := (inPlay_of_run hstart hquiet hrun hplay).1.status
    cases hnew
  · obtain ⟨w₀, hbefore, hrun⟩ := Lib.Machine.run_append_eq_ok.mp hrun
    obtain ⟨w₃, hstep, hbetween⟩ := Lib.Machine.run_cons_eq_ok.mp hrun
    have hreach := (hstart.run hbefore).step hstep
    obtain ⟨hplay₃, he⟩ := inPlay_of_run hreach hquiet hbetween hplay
    rw [hops, List.append_assoc, List.cons_append] at h
    have hscanned := h.of_run hbefore hstep hmove hplay₃
    rw [← he] at hscanned
    exact hscanned.move_in_time hreach hquiet hbetween hplay

/-- RED's time runs out at 60, the table is scanned at 70, and his MOVE at 100
is refused. -/
theorem no_move_after_the_flag_scanned :
    OnTime (new (bytes "t") tenMinutes twoPlayers)
      (started ++ [(70, .checkTimeoutOnMove), (100, .acceptMove 1 (bytes "0605"))]) :=
  no_move_after_the_flag (by decide +kernel)

/-- RED's minute ends at 60. His move at 100 is accepted, since the table
has not been scanned. -/
theorem late_move_accepted :
    ((started ++ [(100, TableOp.acceptMove 1 (bytes "0605"))]).map Prod.fst).Pairwise (· ≤ ·) ∧
      ¬ OnTime (new (bytes "t") tenMinutes twoPlayers)
        (started ++ [(100, .acceptMove 1 (bytes "0605"))]) := by
  refine ⟨by decide, fun hontime => ?_⟩
  have hrun : (Table.machine.run (new (bytes "t") tenMinutes twoPlayers) started).map
      (fun w => (w.acceptMove 100 1 (bytes "0605")).map (fun r =>
        (r.2, decide w.table.InPlay, w.table.nextMoveExpiry))) = .ok (.ok (.ok, true, 60)) := by
    decide +kernel
  obtain ⟨w, hw, hmove⟩ := Lib.map_eq_ok.mp hrun
  obtain ⟨⟨w', res⟩, hcall, he⟩ := Lib.map_eq_ok.mp hmove
  simp only [Prod.mk.injEq, decide_eq_true_eq] at he
  obtain ⟨rfl, hplay, hexpiry⟩ := he
  have hlate := hontime started 100 1 (bytes "0605") [] w w' rfl hw hplay hcall
  omega

/-! ## Deadlines -/

/-- A move that is accepted and leaves the game in play starts the clock of
the next player. -/
theorem acceptMove_starts (h : Table.machine.Reachable w)
    (hcall : w.acceptMove now player sMove = .ok (w', .ok)) (hplay : w'.table.InPlay) :
    w'.table.nextTime = Table.refresh w.table.initialTime w.table.opponentTime ∧
      w'.table.nextMoveExpiry =
        now + Table.remain (Table.refresh w.table.initialTime w.table.opponentTime) := by
  have hl := (reachable_replays h).lawful
  obtain ⟨v, t, s, hmade, hcases⟩ := acceptMove_made h hcall
  rcases hcases with ⟨hover, htable⟩ | ⟨hover, htable, -⟩
  · have hs := hmade.inProgress hl hover
    subst hs
    have hmoves := hplay.moves
    rw [htable, (t.recorded_frame now sMove w.table.referee.nextColor _).1, hmade.frame.1,
      List.length_append] at hmoves
    rw [htable]
    exact hmade.starts hl hmoves now
  · have hstatus := hplay.status
    rw [htable] at hstatus
    exact absurd (Or.inr hstatus) (Table.not_playable_of_isOver hover)

theorem fairTimes_of_run {id itimes : Bytes} {players : PlayerRef → Player}
    (hfair : (Net.stringToTimeInfo itimes).Fair)
    (hmeets : Table.machine.Meets (fun w op => w.table.FairCall op.1 op.2)
      (new id (Net.stringToTimeInfo itimes) players) ops)
    (hrun : Table.machine.run (new id (Net.stringToTimeInfo itimes) players) ops = .ok w) :
    w.table.FairTimes := by
  have hboth : Table.machine.Reachable w ∧ w.table.FairTimes := by
    refine hmeets.run (I := fun w => Table.machine.Reachable w ∧ w.table.FairTimes) ?_ ?_ hrun
    · rintro w ⟨now, op⟩ w' ⟨hreach, htimes⟩ hcall hstep
      obtain ⟨res, hstep'⟩ := step_eq.mp hstep
      obtain ⟨e, hcalled⟩ := call_called (reachable_replays hreach).lawful hstep'
      exact ⟨hreach.step hstep, htimes.effect hcalled.effect hcall⟩
    · exact ⟨.init ⟨id, _, players, rfl⟩, hfair, hfair, hfair⟩
  exact hboth.2

/-- **Deadlines are well formed**, exactly when the next player has time for
a move; and he has, in every run with fair settings and moves in time. -/
theorem deadlines_well_formed {id itimes : Bytes} {players : PlayerRef → Player}
    (hrun : Table.machine.run (new id (Net.stringToTimeInfo itimes) players) ops = .ok w)
    (hcall : w.acceptMove now player sMove = .ok (w', .ok)) (hplay : w'.table.InPlay) :
    (w'.table.StartedWell now ↔
      Table.GivesTime (Table.refresh w.table.initialTime w.table.opponentTime)) ∧
    ((Net.stringToTimeInfo itimes).Fair →
      Table.machine.Meets (fun w op => w.table.FairCall op.1 op.2)
        (new id (Net.stringToTimeInfo itimes) players) ops → w'.table.StartedWell now) := by
  obtain ⟨hnext, hexpiry⟩ := acceptMove_starts (reachable_of_run hrun) hcall hplay
  have hiff := Table.startedWell_iff hnext hexpiry
  refine ⟨hiff, fun hfair hmeets => hiff.mpr ?_⟩
  have htimes := fairTimes_of_run hfair hmeets hrun
  exact Table.givesTime_of_fair (Table.fair_refresh htimes.initial htimes.opponentTime)

/-- Ten minutes a game, one minute a move, and 20 seconds, as a client
sends them. -/
theorem deadlines_well_formed_sent : ∃ w w',
    Table.machine.run (new (bytes "t") (Net.stringToTimeInfo (bytes "600/60/20")) twoPlayers)
        opening = .ok w ∧
      w.acceptMove 5 2 (bytes "4041") = .ok (w', .ok) ∧ w'.table.StartedWell 5 := by
  have hrun : (Table.machine.run (new (bytes "t") (Net.stringToTimeInfo (bytes "600/60/20"))
      twoPlayers) opening).map (fun w => (decide (Table.GivesTime
        (Table.refresh w.table.initialTime w.table.opponentTime)),
        (w.acceptMove 5 2 (bytes "4041")).map (fun r => (r.2, decide r.1.table.InPlay)))) =
      .ok (true, .ok (.ok, true)) := by decide +kernel
  obtain ⟨w, hw, hval⟩ := Lib.map_eq_ok.mp hrun
  obtain ⟨hgives, hmove⟩ := Prod.mk.inj hval
  obtain ⟨⟨w', res⟩, hcall, he⟩ := Lib.map_eq_ok.mp hmove
  simp only [Prod.mk.injEq, decide_eq_true_eq] at he
  obtain ⟨rfl, hplay⟩ := he
  exact ⟨w, w', hw, hcall,
    (deadlines_well_formed hw hcall hplay).1.mpr (of_decide_eq_true hgives)⟩

/-- The largest game-time and one minute of free-time: RED's clock starts
with the limit in the past, and the scan at the same second ends the game. -/
theorem overflow_flags_at_once : ∃ w w' w'',
    Table.machine.run (new (bytes "t") (Net.stringToTimeInfo (bytes "2147483647/60/60"))
        twoPlayers) opening = .ok w ∧
      w.acceptMove 5 2 (bytes "4041") = .ok (w', .ok) ∧ w'.table.InPlay ∧
      ¬ w'.table.StartedWell 5 ∧ w'.checkTimeoutOnMove 5 = .ok w'' ∧
      w''.table.status = .blackWin := by
  have hrun : (Table.machine.run (new (bytes "t") (Net.stringToTimeInfo (bytes "2147483647/60/60"))
      twoPlayers) opening).map (fun w => (w.acceptMove 5 2 (bytes "4041")).map (fun r =>
        (r.2, decide r.1.table.InPlay, decide (5 ≤ r.1.table.nextMoveExpiry)))) =
      .ok (.ok (.ok, true, false)) := by decide +kernel
  have hflag : (Table.machine.run (new (bytes "t") (Net.stringToTimeInfo
      (bytes "2147483647/60/60")) twoPlayers) opening).map (fun w =>
        (w.acceptMove 5 2 (bytes "4041")).map (fun r =>
          (r.1.checkTimeoutOnMove 5).map (fun w'' => w''.table.status))) =
      .ok (.ok (.ok .blackWin)) := by decide +kernel
  obtain ⟨w, hw, hmove⟩ := Lib.map_eq_ok.mp hrun
  obtain ⟨⟨w', res⟩, hcall, he⟩ := Lib.map_eq_ok.mp hmove
  simp only [Prod.mk.injEq, decide_eq_true_eq] at he
  obtain ⟨rfl, hplay, hpast⟩ := he
  simp only [hw, hcall, Except.map, Except.ok.injEq] at hflag
  obtain ⟨w'', hscan, hstatus⟩ := Lib.map_eq_ok.mp hflag
  exact ⟨w, w', w'', hw, hcall, hplay, fun hwell => of_decide_eq_false hpast hwell.notPast, hscan,
    hstatus⟩

end World

end HoxServer
