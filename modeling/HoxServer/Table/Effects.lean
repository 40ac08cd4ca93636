/-
HoxServer.Table.Effects — what a call can do to a table.

`Effect` lists, with its guard, everything that one of the calls of
`TableOp` may do to the table itself, and whether it ends the game.
`call_effect` is the inversion lemma: a call that returns has one of
these effects. An invariant of tables is then a case analysis on
`Effect`, which never looks at the events, the scores or the requests.

`call_returns` is the other half: a call returns whenever the referee is
lawful and both seats are taken while a game can be played.
-/
import HoxServer.Referee.RefereeTheorems
import HoxServer.Table.Table

namespace HoxServer

namespace Table

/-- The table when `_onGameEnded` has set its status. -/
def ended (t : Table) (status : GameStatus) : Table := { t with status, drawPlayerId := [] }

/-- The table when a move has been recorded, before the game may end. -/
def recorded (t : Table) (now : Int) (sMove : Bytes) (nextColor : Color)
    (gameStatus : GameStatus) : Table :=
  ({ t with status := gameStatus, moves := t.moves ++ [sMove] } : Table).resetMoveTimers now nextColor

/-- The statuses of a game that has ended. -/
def IsOver (status : GameStatus) : Prop := status = .redWin ∨ status = .blackWin ∨ status = .drawn

instance (status : GameStatus) : Decidable (IsOver status) := inferInstanceAs (Decidable (_ ∨ _))

/-- The side whose time has run out loses. -/
theorem isOver_timeout (c : Color) : IsOver (if c = .red then .blackWin else .redWin) := by
  split
  · exact Or.inr (Or.inl rfl)
  · exact Or.inl rfl

/-- Both seats are taken. -/
def SeatsTaken (t : Table) : Prop :=
  ∃ red black, t.redPlayer = some red ∧ t.blackPlayer = some black

/-- Nobody has both seats. -/
def SeatsDistinct (t : Table) : Prop := ∀ p, t.redPlayer = some p → t.blackPlayer ≠ some p

theorem SeatsDistinct.ne {t : Table} (h : t.SeatsDistinct) {red black : PlayerRef}
    (hr : t.redPlayer = some red) (hb : t.blackPlayer = some black) : red ≠ black := by
  intro he
  subst he
  exact h red hr hb

theorem SeatsDistinct.of_seats {t t' : Table} (h : t.SeatsDistinct)
    (hred : t'.redPlayer = t.redPlayer) (hblack : t'.blackPlayer = t.blackPlayer) :
    t'.SeatsDistinct := by
  unfold SeatsDistinct
  rw [hred, hblack]
  exact h

/-- The player has the turn. -/
def HasTurn (t : Table) (player : PlayerRef) : Prop :=
  (t.referee.nextColor = .red → t.redPlayer = some player) ∧
    (t.referee.nextColor = .black → t.blackPlayer = some player)

/-- The referee accepts the move, and what is made of it: `t'` has the new
board and the new counters. -/
structure MoveMade (t : Table) (player : PlayerRef) (sMove : Bytes) (v : Board.Verdict)
    (t' : Table) (gameStatus : GameStatus) : Prop where
  status : t.status = .ready ∨ t.status = .inProgress
  turn : t.HasTurn player
  verdict : Referee.validateString t.referee sMove = .ok v
  accepted : v.accepted = true
  counted : ∃ sReason, ({ t with referee := v.board } : Table).countMove t.referee.nextColor
    v.status = .ok (t', gameStatus, sReason)

/-- The opponent's win, when a seated player loses. -/
def lossOf (t : Table) (player : PlayerRef) : GameStatus :=
  if t.redPlayer = some player then .blackWin else .redWin

/-- What a call does to the table, what it returns, and how the game ends
if it does. -/
inductive Effect (ids : PlayerRef → Bytes) (t : Table) (now : Int) :
    TableOp → Table → Result → Option GameStatus → Prop
  | refused {op res} (h : res ≠ .ok) : Effect ids t now op t res none
  | informed {player} : Effect ids t now (.sendInfoToPlayer player) t .ok none
  | joined {player requestColor}
      (h : (requestColor = .red ∧ t.redPlayer = none) ∨
        (requestColor = .black ∧ t.blackPlayer = none) ∨ requestColor = .none) :
      Effect ids t now (.assignPlayerAs player requestColor)
        (t.addPlayer player requestColor).1.updateStatus .ok none
  | left {player}
      (h : ¬ (t.status = .inProgress ∧ 2 ≤ t.moves.length ∧ t.isSeated player = true)) :
      Effect ids t now (.onLeaveFromPlayer player) (t.removePlayer player).updateStatus .ok none
  | leftGame {player} (h : t.status = .inProgress) (h' : 2 ≤ t.moves.length)
      (hs : t.isSeated player = true) :
      Effect ids t now (.onLeaveFromPlayer player)
        ((t.ended (t.lossOf player)).removePlayer player).updateStatus .ok
        (some (t.lossOf player))
  | moveRejected {player sMove board} (h : t.referee.SameUpToOrder board) :
      Effect ids t now (.acceptMove player sMove) { t with referee := board } .notValid none
  | moved {player sMove v t' gameStatus} (h : t.MoveMade player sMove v t' gameStatus)
      (ho : ¬ IsOver gameStatus) :
      Effect ids t now (.acceptMove player sMove)
        (t'.recorded now sMove t.referee.nextColor gameStatus) .ok none
  | movedLast {player sMove v t' gameStatus} (h : t.MoveMade player sMove v t' gameStatus)
      (ho : IsOver gameStatus) :
      Effect ids t now (.acceptMove player sMove)
        ((t'.recorded now sMove t.referee.nextColor gameStatus).ended gameStatus) .ok
        (some gameStatus)
  | resigned {player} (h : t.status = .inProgress) (hs : t.isSeated player = true) :
      Effect ids t now (.handleResignRequest player) (t.ended (t.lossOf player)) .ok
        (some (t.lossOf player))
  | drawOffered {player} (h : t.status = .inProgress) (hs : t.isSeated player = true)
      (hd : t.drawPlayerId = []) :
      Effect ids t now (.handleDrawRequest player) { t with drawPlayerId := ids player } .ok none
  | drawRepeated {player} (h : t.status = .inProgress) (hs : t.isSeated player = true)
      (hd : t.drawPlayerId ≠ []) (he : ids player = t.drawPlayerId) :
      Effect ids t now (.handleDrawRequest player) t .ok none
  | drawAgreed {player} (h : t.status = .inProgress) (hs : t.isSeated player = true)
      (hd : t.drawPlayerId ≠ []) (hne : ids player ≠ t.drawPlayerId) :
      Effect ids t now (.handleDrawRequest player) (t.ended .drawn) .ok (some .drawn)
  | switched {player red} (h : t.status = .ready) (hr : t.redPlayer = some player)
      (hb : t.blackPlayer = some red) :
      Effect ids t now (.handleResetRequest player)
        { t with redPlayer := t.blackPlayer, blackPlayer := some player } .ok none
  | notReset {player} (hs : t.isSeated player = true)
      (h : t.status = .ready ∧ t.redPlayer ≠ some player ∨ t.status = .open) :
      Effect ids t now (.handleResetRequest player) t .ok none
  | restarted {player} (h : ¬ (t.status = .inProgress ∧ 2 ≤ t.moves.length))
      (hs : t.isSeated player = true) (ho : t.status ≠ .ready ∧ t.status ≠ .open) :
      Effect ids t now (.handleResetRequest player) t.restarted .ok none
  | updated {player bRatedGame newInitialTime} (h : t.status = .open ∨ t.status = .ready)
      (hs : t.isSeated player = true) :
      Effect ids t now (.handleUpdateRequest player bRatedGame newInitialTime)
        { t with
          gameType := if bRatedGame then .rated else .nonrated
          initialTime := newInitialTime, redTime := newInitialTime
          blackTime := newInitialTime } .ok none
  | notFlagged (h : t.status ≠ .inProgress ∨ t.moves.length < 2 ∨ now ≤ t.nextMoveExpiry) :
      Effect ids t now .checkTimeoutOnMove t .ok none
  | flagged (h : t.status = .inProgress) (h' : 2 ≤ t.moves.length) (ht : t.nextMoveExpiry < now) :
      Effect ids t now .checkTimeoutOnMove
        (t.ended (if t.referee.nextColor = .red then .blackWin else .redWin)) .ok
        (some (if t.referee.nextColor = .red then .blackWin else .redWin))

theorem isSeated_iff {t : Table} {player : PlayerRef} :
    t.isSeated player = true ↔ t.redPlayer = some player ∨ t.blackPlayer = some player := by
  simp [isSeated]

end Table

namespace World

variable {w w' : World} {player : PlayerRef} {sMove sReason : Bytes} {status : GameStatus}

/-! ## What the helpers leave alone -/

@[simp] theorem setTable_table (w : World) (t : Table) : (w.setTable t).table = t := rfl
@[simp] theorem postAll_table (w : World) (event : Event) : (w.postAll event).table = w.table := rfl

/-- The two worlds differ in the table and the posted events only. -/
structure SameRecords (w w' : World) : Prop where
  players : w'.players = w.players
  requests : w'.requests = w.requests
  changes : w'.changes = w.changes

/-- The new write requests are those of the new rating changes, in their
order: each carries the score that the player had and the change. -/
def Recorded (w w' : World) : Prop :=
  ∃ requests changes, w'.requests = w.requests ++ requests ∧
    w'.changes = w.changes ++ changes ∧
    requests.map (fun r => (r.pid, r.score)) =
      changes.map (fun c => ((w.players c.1).id, (w.players c.1).score + c.2))

theorem SameRecords.ids (h : w.SameRecords w') : w'.idOf = w.idOf := by
  funext p
  simp only [idOf, h.players]

theorem SameRecords.recorded (h : w.SameRecords w') : w.Recorded w' :=
  ⟨[], [], by simp [h.requests], by simp [h.changes], rfl⟩

theorem SameRecords.trans_recorded {w'' : World} (h : w.SameRecords w')
    (h' : w'.Recorded w'') : w.Recorded w'' := by
  obtain ⟨requests, changes, hrequests, hchanges, hids⟩ := h'
  exact ⟨requests, changes, by rw [hrequests, h.requests], by rw [hchanges, h.changes],
    by rw [hids, h.players]⟩

/-- The two worlds have the same table, ends of games and player ids. -/
structure SameTable (w w' : World) : Prop where
  table : w'.table = w.table
  ends : w'.ends = w.ends
  ids : w'.idOf = w.idOf

theorem SameTable.trans {w'' : World} (h : w.SameTable w') (h' : w'.SameTable w'') :
    w.SameTable w'' :=
  ⟨h'.table.trans h.table, h'.ends.trans h.ends, h'.ids.trans h.ids⟩

theorem sameTable_updatePlayer (w : World) (p : PlayerRef) {f : Player → Player}
    (hf : ∀ player, (f player).id = player.id) : w.SameTable (w.updatePlayer p f) := by
  refine ⟨rfl, rfl, funext fun q => ?_⟩
  by_cases hq : q = p
  · subst hq
    simp [idOf, updatePlayer, hf]
  · simp [idOf, updatePlayer, Function.update_of_ne hq]

theorem sameTable_calculateNewScores (w : World) (red black : PlayerRef) :
    w.SameTable (w.calculateNewScores red black) := by
  have hid : ∀ n player, (addScore n player).id = player.id := fun n player => rfl
  have h := fun n => (w.sameTable_updatePlayer red (hid n)).trans
    (sameTable_updatePlayer _ black (hid (-n)))
  exact ⟨rfl, rfl, (h (ratingChange (w.players red) (w.players black) w.table.status)).ids⟩

/-- The function leaves id and score alone. -/
def Counts (f : Player → Player) : Prop := ∀ p, (f p).id = p.id ∧ (f p).score = p.score

theorem counts_addWin : Counts addWin := fun _ => ⟨rfl, rfl⟩
theorem counts_addDraw : Counts addDraw := fun _ => ⟨rfl, rfl⟩
theorem counts_addLoss : Counts addLoss := fun _ => ⟨rfl, rfl⟩
theorem counts_id : Counts id := fun _ => ⟨rfl, rfl⟩

theorem updatePlayer_id (w : World) (p : PlayerRef) : w.updatePlayer p id = w := by
  simp [updatePlayer]

theorem Counts.updatePlayer {f : Player → Player} (hf : Counts f) (w : World) (p q : PlayerRef) :
    ((w.updatePlayer p f).players q).id = (w.players q).id ∧
      ((w.updatePlayer p f).players q).score = (w.players q).score := by
  by_cases hq : q = p
  · subst hq
    simpa [World.updatePlayer] using hf (w.players q)
  · simp [World.updatePlayer, hq]

/-- New scores, then the counters of both players, then two requests. -/
theorem recordGameResult_eq (w : World) (red black : PlayerRef) :
    ∃ f g rs bs, Counts f ∧ Counts g ∧ (w.recordGameResult red black).1 =
      ((((w.calculateNewScores red black).updatePlayer red f).updatePlayer black g).setPlayerInfo
        red rs).setPlayerInfo black bs := by
  unfold recordGameResult
  simp only
  split
  · exact ⟨addWin, addLoss, _, _, counts_addWin, counts_addLoss, rfl⟩
  · exact ⟨addLoss, addWin, _, _, counts_addLoss, counts_addWin, rfl⟩
  · exact ⟨addDraw, addDraw, _, _, counts_addDraw, counts_addDraw, rfl⟩
  · refine ⟨id, id, [], [], counts_id, counts_id, ?_⟩
    rw [updatePlayer_id, updatePlayer_id]

theorem sameTable_recordGameResult (w : World) (red black : PlayerRef) :
    w.SameTable (w.recordGameResult red black).1 := by
  obtain ⟨f, g, rs, bs, hf, hg, he⟩ := w.recordGameResult_eq red black
  have hred := sameTable_updatePlayer (w.calculateNewScores red black) red (fun p => (hf p).1)
  have hblack := sameTable_updatePlayer ((w.calculateNewScores red black).updatePlayer red f) black
    (fun p => (hg p).1)
  have h := (w.sameTable_calculateNewScores red black).trans (hred.trans hblack)
  rw [he]
  exact ⟨h.table, h.ends, h.ids⟩

theorem recorded_setPlayerInfo {w₁ : World} {red black : PlayerRef} (hne : red ≠ black)
    (hrequests : w₁.requests = w.requests)
    (hchanges : w₁.changes = (w.calculateNewScores red black).changes)
    (hscores : ∀ q, (w₁.players q).id = ((w.calculateNewScores red black).players q).id ∧
      (w₁.players q).score = ((w.calculateNewScores red black).players q).score) (rs bs : Bytes) :
    w.Recorded ((w₁.setPlayerInfo red rs).setPlayerInfo black bs) := by
  refine ⟨[(w₁.players red).setRequest rs, (w₁.players black).setRequest bs], _, ?_, hchanges, ?_⟩
  · simp [setPlayerInfo, hrequests]
  · simp [Player.setRequest, hscores, calculateNewScores, changeScores, updatePlayer, addScore, hne,
      hne.symm]

/-- Recording a result queues one request for each of the two changes. -/
theorem recorded_recordGameResult (w : World) {red black : PlayerRef} (hne : red ≠ black) :
    w.Recorded (w.recordGameResult red black).1 := by
  obtain ⟨f, g, rs, bs, hf, hg, he⟩ := w.recordGameResult_eq red black
  rw [he]
  refine recorded_setPlayerInfo hne ?_ ?_ (fun q => ?_) rs bs
  · rfl
  · rfl
  · have hred := hf.updatePlayer (w.calculateNewScores red black) red q
    have hblack := hg.updatePlayer ((w.calculateNewScores red black).updatePlayer red f) black q
    exact ⟨hblack.1.trans hred.1, hblack.2.trans hred.2⟩

theorem deref_eq_ok {seat : Option PlayerRef} : deref seat = .ok player ↔ seat = some player := by
  cases seat with
  | none => simp [deref]
  | some p => simp [deref]

/-! ## `_onGameEnded` -/

/-- What `_onGameEnded` does to the table, and its trace. -/
structure Ended (w : World) (status : GameStatus) (w' : World) : Prop where
  table : w'.table = w.table.ended status
  ends : w'.ends = w.ends ++ [⟨w.table.redPlayer, w.table.blackPlayer, status⟩]
  ids : w'.idOf = w.idOf
  records : w.table.SeatsDistinct → w.Recorded w'

theorem sameRecords_announceEnd (w : World) (status : GameStatus) (sReason : Bytes) :
    w.SameRecords (w.announceEnd status sReason) := ⟨rfl, rfl, rfl⟩

theorem ended_announceEnd (w : World) (status : GameStatus) (sReason : Bytes) :
    w.Ended status (w.announceEnd status sReason) :=
  ⟨rfl, rfl, rfl, fun _ => (w.sameRecords_announceEnd status sReason).recorded⟩

theorem sameTable_recordEnd (w : World) (red black : PlayerRef) :
    w.SameTable (w.recordEnd red black) := by
  have h := w.sameTable_recordGameResult red black
  unfold recordEnd
  simp only
  split
  · exact ⟨h.table, h.ends, h.ids⟩
  · exact h

theorem recorded_recordEnd (w : World) {red black : PlayerRef} (hne : red ≠ black) :
    w.Recorded (w.recordEnd red black) := by
  have h := w.recorded_recordGameResult hne
  unfold recordEnd
  simp only
  split
  · exact h
  · exact h

theorem onGameEnded_ended (h : w.onGameEnded status sReason = .ok w') : w.Ended status w' := by
  have hend := w.ended_announceEnd status sReason
  unfold onGameEnded at h
  simp only [Lib.bind_eq_ok] at h
  obtain ⟨bGuestTable, -, h⟩ := h
  split at h
  · simp only [Lib.bind_eq_ok] at h
    obtain ⟨red, hred, black, hblack, h⟩ := h
    cases h
    have hsame := sameTable_recordEnd (w.announceEnd status sReason) red black
    exact ⟨hsame.table.trans hend.table, hsame.ends.trans hend.ends, hsame.ids.trans hend.ids,
      fun hdistinct => (w.sameRecords_announceEnd status sReason).trans_recorded
        (recorded_recordEnd _ (hdistinct.ne (deref_eq_ok.mp hred) (deref_eq_ok.mp hblack)))⟩
  · cases h
    exact hend

theorem isGuestTable_ok {red black : PlayerRef} (hr : w.table.redPlayer = some red)
    (hb : w.table.blackPlayer = some black) : w.isGuestTable =
      .ok (decide ((w.players red).type = .guest ∨ (w.players black).type = .guest)) := by
  unfold isGuestTable
  rw [hr, hb]
  simp only [deref, bind, Except.bind]
  split
  · rename_i h
    simp [h]
  · rename_i h
    simp [h]

/-- With both seats taken `_onGameEnded` returns. -/
theorem onGameEnded_ok {red black : PlayerRef} (hr : w.table.redPlayer = some red)
    (hb : w.table.blackPlayer = some black) (status : GameStatus) (sReason : Bytes) :
    ∃ w', w.onGameEnded status sReason = .ok w' := by
  have hr' : (w.announceEnd status sReason).table.redPlayer = some red := hr
  have hb' : (w.announceEnd status sReason).table.blackPlayer = some black := hb
  unfold onGameEnded
  simp only [isGuestTable_ok hr' hb', hr', hb', deref, bind, Except.bind]
  split
  · exact ⟨_, rfl⟩
  · exact ⟨_, rfl⟩

/-! ## The inversion lemma -/

/-- What a call has done: the effect on the table, and `e` is how the game
ended, if it did. -/
structure Called (w : World) (now : Int) (op : TableOp) (w' : World) (res : Result)
    (e : Option GameStatus) : Prop where
  effect : Table.Effect w.idOf w.table now op w'.table res e
  ends : w'.ends = w.ends ++ e.toList.map (GameEnd.mk w.table.redPlayer w.table.blackPlayer)
  ids : w'.idOf = w.idOf
  records : w.table.SeatsDistinct → w.Recorded w'
  quiet : e = none → w.SameRecords w'

variable {now : Int} {op : TableOp} {res : Result}

/-- A call that changes the table and posts events. -/
theorem called_of_table {t : Table} {es : List (PlayerRef × Event)}
    (h : Table.Effect w.idOf w.table now op t res none) :
    w.Called now op { w with table := t, posted := es } res none :=
  have hsame : w.SameRecords { w with table := t, posted := es } := ⟨rfl, rfl, rfl⟩
  ⟨h, by simp, rfl, fun _ => hsame.recorded, fun _ => hsame⟩

/-- A call that ends the game. -/
theorem called_of_ended {w₁ : World} (h : w₁.Ended status w') (hends : w₁.ends = w.ends)
    (hsame : w.SameRecords w₁) (hred : w₁.table.redPlayer = w.table.redPlayer)
    (hblack : w₁.table.blackPlayer = w.table.blackPlayer)
    (heffect : Table.Effect w.idOf w.table now op (w₁.table.ended status) res (some status)) :
    w.Called now op w' res (some status) := by
  refine ⟨by rw [h.table]; exact heffect, ?_, h.ids.trans hsame.ids,
    fun hdistinct => hsame.trans_recorded (h.records (hdistinct.of_seats hred hblack)),
    fun he => by cases he⟩
  rw [h.ends, hends, hred, hblack]
  rfl

theorem sendInfoToPlayer_eq (w : World) (now : Int) (player : PlayerRef) :
    ∃ es, w.sendInfoToPlayer now player = { w with posted := es } := by
  unfold sendInfoToPlayer
  simp only
  split
  · split <;> exact ⟨_, rfl⟩
  · split <;> exact ⟨_, rfl⟩

theorem assignPlayerAs_called (w : World) (now : Int) (player : PlayerRef) (c : Color) :
    w.Called now (.assignPlayerAs player c) (w.assignPlayerAs now player c).1
      (w.assignPlayerAs now player c).2 none := by
  unfold assignPlayerAs
  simp only [decide_eq_true_eq]
  split
  · rename_i h
    have heffect : Table.Effect w.idOf w.table now (.assignPlayerAs player c) _ _ _ := .joined h
    split
    · obtain ⟨es, hes⟩ := sendInfoToPlayer_eq
        ((w.postAllJoinEvent player c).setTable (w.table.addPlayer player c).1) now player
      simp only [postAllJoinEvent, postAll_table] at hes ⊢
      rw [hes]
      exact called_of_table heffect
    · exact called_of_table heffect
  · exact called_of_table (.refused (fun h => by cases h))

/-- The status that `onLeave_FromPlayer` finds. -/
theorem leave_status (t : Table) (player : PlayerRef) :
    (if t.status = .inProgress ∧ 2 ≤ t.moves.length then
        if t.redPlayer = some player then GameStatus.blackWin
        else if t.blackPlayer = some player then .redWin else .unknown
      else .unknown) =
    if t.status = .inProgress ∧ 2 ≤ t.moves.length ∧ t.isSeated player = true
      then t.lossOf player else .unknown := by
  unfold Table.lossOf
  by_cases hred : t.redPlayer = some player
  · simp [Table.isSeated, hred]
  · by_cases hblack : t.blackPlayer = some player
    · simp [Table.isSeated, hred, hblack]
    · simp [Table.isSeated, hred, hblack]

theorem lossOf_cases (t : Table) (player : PlayerRef) :
    t.lossOf player = .blackWin ∨ t.lossOf player = .redWin := by
  unfold Table.lossOf
  split
  · exact Or.inl rfl
  · exact Or.inr rfl

/-- A seated player loses the game that he leaves. -/
theorem onLeaveFromPlayer_eq (w : World) (player : PlayerRef) : w.onLeaveFromPlayer player =
    if w.table.status = .inProgress ∧ 2 ≤ w.table.moves.length ∧ w.table.isSeated player = true then
      (w.onGameEnded (w.table.lossOf player) (bytes "Player left the game")).map
        fun w => w.unassignPlayer player
    else .ok (w.unassignPlayer player) := by
  unfold onLeaveFromPlayer
  simp only [decide_eq_true_eq, ge_iff_le, leave_status]
  split
  · have hloss : w.table.lossOf player ≠ .unknown := by
      rcases lossOf_cases w.table player with he | he <;> rw [he] <;> decide
    rw [if_pos hloss]
    cases w.onGameEnded (w.table.lossOf player) (bytes "Player left the game") <;> rfl
  · rw [if_neg (not_not_intro rfl)]
    rfl

theorem onLeaveFromPlayer_cases (h : w.onLeaveFromPlayer player = .ok w') :
    ((w.table.status = .inProgress ∧ 2 ≤ w.table.moves.length ∧ w.table.isSeated player = true) ∧
      ∃ w₁, w.onGameEnded (w.table.lossOf player) (bytes "Player left the game") = .ok w₁ ∧
        w' = w₁.unassignPlayer player) ∨
    ¬ (w.table.status = .inProgress ∧ 2 ≤ w.table.moves.length ∧
      w.table.isSeated player = true) ∧ w' = w.unassignPlayer player := by
  rw [onLeaveFromPlayer_eq] at h
  split at h
  · rename_i hgame
    obtain ⟨w₁, hend, he⟩ := Lib.map_eq_ok.mp h
    exact Or.inl ⟨hgame, w₁, hend, he.symm⟩
  · rename_i hgame
    exact Or.inr ⟨hgame, (Except.ok.inj h).symm⟩

theorem onLeaveFromPlayer_called (h : w.onLeaveFromPlayer player = .ok w') :
    ∃ e, w.Called now (.onLeaveFromPlayer player) w' .ok e := by
  rcases onLeaveFromPlayer_cases h with ⟨hgame, w₁, hend, rfl⟩ | ⟨hgame, rfl⟩
  · have hended := onGameEnded_ended hend
    refine ⟨some (w.table.lossOf player), ?_, hended.ends, hended.ids, hended.records,
      fun he => by cases he⟩
    simp only [unassignPlayer, postAllLeaveEvent, postAll_table, setTable_table, hended.table]
    exact .leftGame hgame.1 hgame.2.1 hgame.2.2
  · exact ⟨none, called_of_table (.left hgame)⟩

theorem handleResignRequest_called (h : w.handleResignRequest player = .ok (w', res)) :
    ∃ e, w.Called now (.handleResignRequest player) w' res e := by
  unfold handleResignRequest at h
  split at h
  · cases h
    exact ⟨none, called_of_table (.refused (fun h => by cases h))⟩
  · rename_i hstatus
    rw [not_not] at hstatus
    split at h
    · rename_i hred
      obtain ⟨w₁, hend, h⟩ := Lib.bind_eq_ok.mp h
      cases h
      have hloss : w.table.lossOf player = .blackWin := by simp [Table.lossOf, hred]
      refine ⟨_, called_of_ended (onGameEnded_ended hend) rfl ⟨rfl, rfl, rfl⟩ rfl rfl ?_⟩
      rw [← hloss]
      exact .resigned hstatus (Table.isSeated_iff.mpr (Or.inl hred))
    · rename_i hred
      split at h
      · rename_i hblack
        obtain ⟨w₁, hend, h⟩ := Lib.bind_eq_ok.mp h
        cases h
        have hloss : w.table.lossOf player = .redWin := by simp [Table.lossOf, hred]
        refine ⟨_, called_of_ended (onGameEnded_ended hend) rfl ⟨rfl, rfl, rfl⟩ rfl rfl ?_⟩
        rw [← hloss]
        exact .resigned hstatus (Table.isSeated_iff.mpr (Or.inr hblack))
      · cases h
        exact ⟨none, called_of_table (.refused (fun h => by cases h))⟩

theorem isSeated_of_not_and {t : Table}
    (h : ¬ (t.redPlayer ≠ some player ∧ t.blackPlayer ≠ some player)) :
    t.isSeated player = true := by
  rw [Table.isSeated_iff]
  by_contra hnot
  exact h ⟨fun e => hnot (Or.inl e), fun e => hnot (Or.inr e)⟩

theorem handleDrawRequest_called (h : w.handleDrawRequest player = .ok (w', res)) :
    ∃ e, w.Called now (.handleDrawRequest player) w' res e := by
  unfold handleDrawRequest at h
  split at h
  · cases h
    exact ⟨none, called_of_table (.refused (fun h => by cases h))⟩
  · rename_i hstatus
    rw [not_not] at hstatus
    split at h
    · cases h
      exact ⟨none, called_of_table (.refused (fun h => by cases h))⟩
    · rename_i hseat
      have hs := isSeated_of_not_and hseat
      split at h
      · rename_i hd
        cases h
        exact ⟨none, called_of_table (.drawOffered hstatus hs hd)⟩
      · rename_i hd
        split at h
        · rename_i he
          cases h
          exact ⟨none, called_of_table (.drawRepeated hstatus hs hd he)⟩
        · rename_i hne
          obtain ⟨w₁, hend, h⟩ := Lib.bind_eq_ok.mp h
          cases h
          exact ⟨_, called_of_ended (onGameEnded_ended hend) rfl ⟨rfl, rfl, rfl⟩ rfl rfl
            (.drawAgreed hstatus hs hd hne)⟩

theorem handleResetRequest_called (h : w.handleResetRequest player = .ok (w', res)) :
    ∃ e, w.Called now (.handleResetRequest player) w' res e := by
  unfold handleResetRequest at h
  simp only [decide_eq_true_eq, ge_iff_le] at h
  split at h
  · cases h
    exact ⟨none, called_of_table (.refused (fun h => by cases h))⟩
  · rename_i hgame
    split at h
    · cases h
      exact ⟨none, called_of_table (.refused (fun h => by cases h))⟩
    · rename_i hseat
      have hs := isSeated_of_not_and hseat
      split at h
      · rename_i hready
        obtain ⟨red, hred, h⟩ := Lib.bind_eq_ok.mp h
        cases h
        exact ⟨none, called_of_table (.switched hready.2 hready.1 (deref_eq_ok.mp hred))⟩
      · rename_i hswitch
        split at h
        · rename_i hidle
          cases h
          refine ⟨none, called_of_table (.notReset hs ?_)⟩
          rcases hidle with hready | hopen
          · exact Or.inl ⟨hready, fun hred => hswitch ⟨hred, hready⟩⟩
          · exact Or.inr hopen
        · rename_i hover
          cases h
          exact ⟨none, called_of_table (.restarted hgame hs (not_or.mp hover))⟩

theorem handleUpdateRequest_called (w : World) (now : Int) (player : PlayerRef) (bRatedGame : Bool)
    (newInitialTime : TimeInfo) :
    w.Called now (.handleUpdateRequest player bRatedGame newInitialTime)
      (w.handleUpdateRequest player bRatedGame newInitialTime).1
      (w.handleUpdateRequest player bRatedGame newInitialTime).2 none := by
  unfold handleUpdateRequest
  split
  · exact called_of_table (.refused (fun h => by cases h))
  · rename_i hstatus
    simp only [decide_eq_true_eq]
    split
    · rename_i hallowed
      refine called_of_table (.updated ?_ ?_)
      · by_contra hnot
        exact hstatus (not_or.mp hnot)
      · exact Table.isSeated_iff.mpr (hallowed.imp_right And.left)
    · exact called_of_table (.refused (fun h => by cases h))

theorem checkTimeoutOnMove_called (h : w.checkTimeoutOnMove now = .ok w') :
    ∃ e, w.Called now .checkTimeoutOnMove w' .ok e := by
  unfold checkTimeoutOnMove at h
  split at h
  · rename_i hidle
    cases h
    exact ⟨none, called_of_table (.notFlagged (hidle.imp_right Or.inl))⟩
  · rename_i hgame
    rw [not_or, not_not, Nat.not_lt] at hgame
    split at h
    · rename_i hnow
      cases h
      exact ⟨none, called_of_table (.notFlagged (Or.inr (Or.inr hnow)))⟩
    · rename_i hnow
      exact ⟨_, called_of_ended (onGameEnded_ended h) rfl ⟨rfl, rfl, rfl⟩ rfl rfl
        (.flagged hgame.1 hgame.2 (Int.not_le.mp hnow))⟩

/-- Resetting the timers changes the timers only. -/
theorem resetMoveTimers_frame (t : Table) (now : Int) (c : Color) :
    ∃ redTime blackTime lastMoveTime nextMoveExpiry, t.resetMoveTimers now c =
      { t with redTime, blackTime, lastMoveTime, nextMoveExpiry } := by
  unfold Table.resetMoveTimers
  simp only
  split_ifs <;> exact ⟨_, _, _, _, rfl⟩

/-- Counting a move changes the counters only. -/
theorem countMove_frame {t t' : Table} {c : Color} {s s' : GameStatus}
    (h : t.countMove c s = .ok (t', s', sReason)) :
    ∃ isPrevMoveCheck effectiveMoves redChecks blackChecks,
      t' = { t with isPrevMoveCheck, effectiveMoves, redChecks, blackChecks } := by
  unfold Table.countMove Table.detectLongGameAndPerpetualCheck at h
  split at h
  · cases h
    exact ⟨_, _, _, _, rfl⟩
  · obtain ⟨check, -, h⟩ := Lib.bind_eq_ok.mp h
    simp only at h
    split_ifs at h <;> cases h <;> exact ⟨_, _, _, _, rfl⟩

theorem recordMove_called {w₁ : World} {c : Color}
    (h : w₁.recordMove now player sMove c status sReason = .ok w') (hends : w₁.ends = w.ends)
    (hsame : w.SameRecords w₁) (hred : w₁.table.redPlayer = w.table.redPlayer)
    (hblack : w₁.table.blackPlayer = w.table.blackPlayer)
    (hmoved : ¬ Table.IsOver status →
      Table.Effect w.idOf w.table now op (w₁.table.recorded now sMove c status) res none)
    (hlast : Table.IsOver status → Table.Effect w.idOf w.table now op
      ((w₁.table.recorded now sMove c status).ended status) res (some status)) :
    ∃ e, w.Called now op w' res e := by
  obtain ⟨_, _, _, _, hframe⟩ := resetMoveTimers_frame
    { w₁.table with status := status, moves := w₁.table.moves ++ [sMove] } now c
  have hr := congrArg Table.redPlayer hframe
  have hb := congrArg Table.blackPlayer hframe
  unfold recordMove at h
  simp only at h
  split at h
  · rename_i hover
    exact ⟨_, called_of_ended (onGameEnded_ended h) hends
      ⟨hsame.players, hsame.requests, hsame.changes⟩ (hr.trans hred) (hb.trans hblack)
      (hlast hover)⟩
  · rename_i hover
    cases h
    have hsame' : ∀ t, w.SameRecords ((w₁.setTable t).postAllMoveEvent player sMove status) :=
      fun t => ⟨hsame.players, hsame.requests, hsame.changes⟩
    exact ⟨none, hmoved hover, by simp [← hends]; rfl, (hsame' _).ids, fun _ => (hsame' _).recorded,
      fun _ => hsame' _⟩

theorem acceptMove_called (hl : w.table.referee.Lawful)
    (h : w.acceptMove now player sMove = .ok (w', res)) :
    ∃ e, w.Called now (.acceptMove player sMove) w' res e := by
  unfold acceptMove at h
  simp only at h
  split at h
  · cases h
    exact ⟨none, called_of_table (.refused (fun h => by cases h))⟩
  · rename_i hstatus
    split at h
    · cases h
      exact ⟨none, called_of_table (.refused (fun h => by cases h))⟩
    · rename_i hturn
      split at h
      · cases h
        exact ⟨none, called_of_table (.refused (fun h => by cases h))⟩
      · obtain ⟨v, hv, h⟩ := Lib.bind_eq_ok.mp h
        have hverdict : Referee.validateString w.table.referee sMove = .ok v := hv
        split at h
        · rename_i hrej
          cases h
          refine ⟨none, called_of_table (.moveRejected ?_)⟩
          exact Referee.rejected_board hl hverdict (by simpa using hrej)
        · rename_i hacc
          obtain ⟨⟨t', gameStatus, sReason⟩, hcount, h⟩ := Lib.bind_eq_ok.mp h
          obtain ⟨w₂, hrec, h⟩ := Lib.bind_eq_ok.mp h
          cases h
          have hmade : w.table.MoveMade player sMove v t' gameStatus := by
            refine ⟨?_, ⟨?_, ?_⟩, hverdict, by simpa using hacc, sReason, hcount⟩
            · by_contra hnot
              exact hstatus (not_or.mp hnot)
            · intro hc
              by_contra hnot
              exact hturn (Or.inl ⟨hc, hnot⟩)
            · intro hc
              by_contra hnot
              exact hturn (Or.inr ⟨hc, hnot⟩)
          obtain ⟨_, _, _, _, hframe⟩ := countMove_frame hcount
          have hred : t'.redPlayer = w.table.redPlayer := by rw [hframe]
          have hblack : t'.blackPlayer = w.table.blackPlayer := by rw [hframe]
          exact recordMove_called (w := w) hrec rfl ⟨rfl, rfl, rfl⟩ hred hblack (.moved hmade)
            (.movedLast hmade)

/-- A move is played on a lawful referee. -/
theorem call_called_of (hl : ∀ player sMove, op = .acceptMove player sMove → w.table.referee.Lawful)
    (h : w.call now op = .ok (w', res)) : ∃ e, w.Called now op w' res e := by
  cases op with
  | assignPlayerAs player c =>
    have hcalled := w.assignPlayerAs_called now player c
    rw [show w.assignPlayerAs now player c = (w', res) from Except.ok.inj h] at hcalled
    exact ⟨none, hcalled⟩
  | onLeaveFromPlayer player =>
    obtain ⟨w₁, hw, h⟩ := Lib.map_eq_ok.mp h
    cases h
    exact onLeaveFromPlayer_called hw
  | sendInfoToPlayer player =>
    cases h
    obtain ⟨es, hes⟩ := w.sendInfoToPlayer_eq now player
    rw [hes]
    exact ⟨none, called_of_table .informed⟩
  | acceptMove player sMove => exact acceptMove_called (hl player sMove rfl) h
  | handleResignRequest player => exact handleResignRequest_called h
  | handleDrawRequest player => exact handleDrawRequest_called h
  | handleResetRequest player => exact handleResetRequest_called h
  | handleUpdateRequest player bRatedGame newInitialTime =>
    have hcalled := w.handleUpdateRequest_called now player bRatedGame newInitialTime
    rw [show w.handleUpdateRequest player bRatedGame newInitialTime = (w', res) from
      Except.ok.inj h] at hcalled
    exact ⟨none, hcalled⟩
  | checkTimeoutOnMove =>
    obtain ⟨w₁, hw, h⟩ := Lib.map_eq_ok.mp h
    cases h
    exact checkTimeoutOnMove_called hw

/-- **What a call that returns has done.** -/
theorem call_called (hl : w.table.referee.Lawful) (h : w.call now op = .ok (w', res)) :
    ∃ e, w.Called now op w' res e := call_called_of (fun _ _ _ => hl) h

/-! ## A call renames nobody -/

theorem recordMove_ids {c : Color}
    (h : w.recordMove now player sMove c status sReason = .ok w') : w'.idOf = w.idOf := by
  unfold recordMove at h
  simp only at h
  split at h
  · exact (onGameEnded_ended h).ids
  · cases h
    rfl

theorem acceptMove_ids (h : w.acceptMove now player sMove = .ok (w', res)) :
    w'.idOf = w.idOf := by
  unfold acceptMove at h
  simp only at h
  split at h
  · cases h
    rfl
  · split at h
    · cases h
      rfl
    · split at h
      · cases h
        rfl
      · obtain ⟨v, -, h⟩ := Lib.bind_eq_ok.mp h
        split at h
        · cases h
          rfl
        · obtain ⟨_, -, h⟩ := Lib.bind_eq_ok.mp h
          obtain ⟨w₂, hrec, h⟩ := Lib.bind_eq_ok.mp h
          cases h
          have hids := recordMove_ids hrec
          exact hids

/-- Whatever the state of the referee. -/
theorem call_ids (h : w.call now op = .ok (w', res)) : w'.idOf = w.idOf := by
  by_cases hmove : ∃ player sMove, op = .acceptMove player sMove
  · obtain ⟨player, sMove, rfl⟩ := hmove
    exact acceptMove_ids h
  · obtain ⟨_, hcalled⟩ := call_called_of (fun player sMove he => absurd ⟨player, sMove, he⟩ hmove) h
    exact hcalled.ids

/-! ## A call returns -/

theorem onGameEnded_returns (h : w.table.SeatsTaken) (status : GameStatus) (sReason : Bytes) :
    ∃ w', w.onGameEnded status sReason = .ok w' := by
  obtain ⟨red, black, hr, hb⟩ := h
  exact onGameEnded_ok hr hb status sReason

theorem countMove_returns {t : Table} (hl : t.referee.Lawful) (c : Color) (s : GameStatus) :
    ∃ res, t.countMove c s = .ok res := by
  unfold Table.countMove Table.detectLongGameAndPerpetualCheck Board.isLastMoveCheck
  split
  · exact ⟨_, rfl⟩
  · obtain ⟨check, hcheck, -⟩ := hl.isKingBeingChecked_spec hl.turn
    simp only [hcheck, bind, Except.bind]
    split_ifs <;> exact ⟨_, rfl⟩

theorem recordMove_returns (h : w.table.SeatsTaken) (now : Int) (player : PlayerRef)
    (sMove : Bytes) (c : Color) (s : GameStatus) (sReason : Bytes) :
    ∃ w', w.recordMove now player sMove c s sReason = .ok w' := by
  obtain ⟨_, _, _, _, hframe⟩ := resetMoveTimers_frame
    { w.table with status := s, moves := w.table.moves ++ [sMove] } now c
  unfold recordMove
  simp only
  split
  · refine onGameEnded_returns ?_ s sReason
    show Table.SeatsTaken (Table.resetMoveTimers _ now c)
    rw [hframe]
    exact h
  · exact ⟨_, rfl⟩

theorem acceptMove_returns (hl : w.table.referee.Lawful)
    (hs : w.table.status = .ready ∨ w.table.status = .inProgress → w.table.SeatsTaken) (now : Int)
    (player : PlayerRef) (sMove : Bytes) : ∃ res, w.acceptMove now player sMove = .ok res := by
  unfold acceptMove
  simp only
  split
  · exact ⟨_, rfl⟩
  rename_i hstatus
  split
  · exact ⟨_, rfl⟩
  split
  · exact ⟨_, rfl⟩
  obtain ⟨v, hv, -⟩ := Referee.validateString_spec hl sMove
  have hv' : w.table.referee.validateMove _ .unknown = .ok v := hv
  have hl' := Referee.validateString_lawful hl hv
  simp only [hv', bind, Except.bind]
  split
  · exact ⟨_, rfl⟩
  obtain ⟨⟨t', gameStatus, sReason⟩, hcount⟩ :=
    countMove_returns (t := { w.table with referee := v.board }) hl' w.table.referee.nextColor
      v.status
  have hs' : t'.SeatsTaken := by
    obtain ⟨_, _, _, _, hframe⟩ := countMove_frame hcount
    rw [hframe]
    refine hs ?_
    by_contra hnot
    exact hstatus (not_or.mp hnot)
  obtain ⟨w', hw'⟩ := recordMove_returns (w := w.setTable t') hs' now player sMove
    w.table.referee.nextColor gameStatus sReason
  simp only [hcount, hw']
  exact ⟨_, rfl⟩

theorem onLeaveFromPlayer_returns (hs : w.table.status = .inProgress → w.table.SeatsTaken)
    (player : PlayerRef) : ∃ w', w.onLeaveFromPlayer player = .ok w' := by
  rw [onLeaveFromPlayer_eq]
  split
  · rename_i hgame
    obtain ⟨w', hw'⟩ := onGameEnded_returns (hs hgame.1) (w.table.lossOf player)
      (bytes "Player left the game")
    exact ⟨_, by rw [hw']; rfl⟩
  · exact ⟨_, rfl⟩

theorem handleResignRequest_returns (hs : w.table.status = .inProgress → w.table.SeatsTaken)
    (player : PlayerRef) : ∃ res, w.handleResignRequest player = .ok res := by
  unfold handleResignRequest
  split
  · exact ⟨_, rfl⟩
  rename_i hstatus
  have hend := onGameEnded_returns (hs (not_not.mp hstatus))
  split
  · obtain ⟨w', hw'⟩ := hend .blackWin (bytes "Player resigned")
    exact ⟨_, by rw [hw']; rfl⟩
  split
  · obtain ⟨w', hw'⟩ := hend .redWin (bytes "Player resigned")
    exact ⟨_, by rw [hw']; rfl⟩
  · exact ⟨_, rfl⟩

theorem handleDrawRequest_returns (hs : w.table.status = .inProgress → w.table.SeatsTaken)
    (player : PlayerRef) : ∃ res, w.handleDrawRequest player = .ok res := by
  unfold handleDrawRequest
  split
  · exact ⟨_, rfl⟩
  rename_i hstatus
  split
  · exact ⟨_, rfl⟩
  split
  · exact ⟨_, rfl⟩
  split
  · exact ⟨_, rfl⟩
  obtain ⟨w', hw'⟩ := onGameEnded_returns (hs (not_not.mp hstatus)) .drawn
    (bytes "Players agreed to draw")
  exact ⟨_, by rw [hw']; rfl⟩

theorem handleResetRequest_returns (hs : w.table.status = .ready → w.table.SeatsTaken)
    (player : PlayerRef) : ∃ res, w.handleResetRequest player = .ok res := by
  unfold handleResetRequest
  simp only
  split
  · exact ⟨_, rfl⟩
  split
  · exact ⟨_, rfl⟩
  split
  · rename_i hready
    obtain ⟨red, black, -, hb⟩ := hs hready.2
    exact ⟨_, by simp only [setTable_table, hb, deref, bind, Except.bind]; rfl⟩
  split
  · exact ⟨_, rfl⟩
  · exact ⟨_, rfl⟩

theorem checkTimeoutOnMove_returns (hs : w.table.status = .inProgress → w.table.SeatsTaken)
    (now : Int) : ∃ w', w.checkTimeoutOnMove now = .ok w' := by
  unfold checkTimeoutOnMove
  split
  · exact ⟨_, rfl⟩
  rename_i hstatus
  rw [not_or, not_not] at hstatus
  split
  · exact ⟨_, rfl⟩
  · exact onGameEnded_returns (hs hstatus.1) _ _

/-- **A call returns** when the referee is lawful and both seats are taken
while moves can be made. -/
theorem call_returns (hl : w.table.referee.Lawful)
    (hs : w.table.status = .ready ∨ w.table.status = .inProgress → w.table.SeatsTaken) (now : Int)
    (op : TableOp) : ∃ res, w.call now op = .ok res := by
  have hplaying : w.table.status = .inProgress → w.table.SeatsTaken := fun h => hs (Or.inr h)
  cases op with
  | assignPlayerAs player c => exact ⟨_, rfl⟩
  | onLeaveFromPlayer player =>
    obtain ⟨w', hw'⟩ := onLeaveFromPlayer_returns hplaying player
    exact ⟨_, by rw [call, hw']; rfl⟩
  | sendInfoToPlayer player => exact ⟨_, rfl⟩
  | acceptMove player sMove => exact acceptMove_returns hl hs now player sMove
  | handleResignRequest player => exact handleResignRequest_returns hplaying player
  | handleDrawRequest player => exact handleDrawRequest_returns hplaying player
  | handleResetRequest player => exact handleResetRequest_returns (fun h => hs (Or.inl h)) player
  | handleUpdateRequest player bRatedGame newInitialTime => exact ⟨_, rfl⟩
  | checkTimeoutOnMove =>
    obtain ⟨w', hw'⟩ := checkTimeoutOnMove_returns hplaying now
    exact ⟨_, by rw [call, hw']; rfl⟩

end World

end HoxServer
