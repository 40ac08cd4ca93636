/-
HoxServer.Table.Finished — a game that has ended is final, and counted
once.

Five calls can end a game. What they have in common is `EndsThrough`:
the call prepares a world that differs in the game only, `_onGameEnded`
runs on it, and nothing is recorded after that. So the records are
looked at once, in `recordGameResult_countedOnce`. That no second end
comes before the next start is an invariant of runs without a reset.
-/
import HoxServer.Table.Game

namespace HoxServer

/-! ## One game more -/

/-- The result of a game for one of its players. -/
inductive Outcome where
  | win | loss | draw
  deriving DecidableEq, Repr

/-- How a game ended for the player of the colour. -/
def Outcome.of (c : Color) (status : GameStatus) : Outcome :=
  if status = .drawn then .draw else if status = Referee.winOf c then .win else .loss

/-- The letter of a write request: (W)in, (D)raw or (L)oss. -/
def Outcome.letter : Outcome → Bytes
  | .win => bytes "W"
  | .loss => bytes "L"
  | .draw => bytes "D"

/-- The counter that the result goes to. -/
def Outcome.count : Outcome → Player → Player
  | .win => World.addWin
  | .loss => World.addLoss
  | .draw => World.addDraw

/-- The record of a player after one game more, with his new score. -/
def Player.afterGame (p : Player) (outcome : Outcome) (score : Int) : Player :=
  outcome.count { p with score }

/-- The event tells a score. -/
def Event.IsScore : Event → Prop
  | .eScore _ _ _ => True
  | _ => False

instance : DecidablePred Event.IsScore
  | .eScore _ _ _ => .isTrue trivial
  | .iTable _ | .iMoves _ _ | .eJoin _ _ _ _ | .leave _ _ | .move _ _ _ _ | .draw _ _ _
  | .eEnd _ _ _ | .reset _ | .update _ _ _ _ => .isFalse not_false

namespace Table

variable {t t' : Table} {player : PlayerRef}

/-- The call starts the game again. -/
def Restarts (t : Table) (op : TableOp) : Prop :=
  ∃ player, op = .handleResetRequest player ∧ t.ResetBy player

theorem not_open_of_isOver {s : GameStatus} (h : IsOver s) : s ≠ .open := by
  rcases h with h | h | h <;> simp [h]

/-- The table has the status that the call ended the game with. -/
theorem Effect.status_of_ended {ids : PlayerRef → Bytes} {now : Int} {op : TableOp} {res : Result}
    {s : GameStatus} (h : t.Effect ids now op t' res (some s)) : t'.status = s ∧ IsOver s := by
  cases h with
  | @leftGame player =>
    have hover := isOver_lossOf t player
    have hremoved : ((t.ended (t.lossOf player)).removePlayer player).status = t.lossOf player :=
      removePlayer_status _ _
    have hover' : IsOver ((t.ended (t.lossOf player)).removePlayer player).status := by
      rw [hremoved]
      exact hover
    rw [updateStatus_of_isOver hover']
    exact ⟨hremoved, hover⟩
  | movedLast _ hover => exact ⟨rfl, hover⟩
  | @resigned player => exact ⟨rfl, isOver_lossOf t player⟩
  | drawAgreed => exact ⟨rfl, Or.inr (Or.inr rfl)⟩
  | flagged => exact ⟨rfl, isOver_timeout _⟩

/-- A game that has ended keeps its status, its moves and its board until
it is started again. (A refused move is looked at apart.) -/
theorem Effect.final {ids : PlayerRef → Bytes} {now : Int} {op : TableOp} {res : Result}
    {e : Option GameStatus} (h : t.Effect ids now op t' res e) (hover : IsOver t.status)
    (hop : ∀ player sMove, op ≠ .acceptMove player sMove) (hrestarts : ¬ t.Restarts op) :
    t'.status = t.status ∧ t.SameGame t' := by
  have hplayable := not_playable_of_isOver hover
  cases h with
  | refused => exact ⟨rfl, rfl, rfl⟩
  | informed => exact ⟨rfl, rfl, rfl⟩
  | @joined player c =>
    have hstatus := addPlayer_status t player c
    rw [updateStatus_of_isOver (hstatus ▸ hover)]
    exact ⟨hstatus, sameGame_addPlayer t player c⟩
  | @left player =>
    have hstatus := removePlayer_status t player
    rw [updateStatus_of_isOver (hstatus ▸ hover)]
    exact ⟨hstatus, sameGame_removePlayer t player⟩
  | leftGame hplaying => exact absurd (Or.inr hplaying) hplayable
  | moveRejected => exact absurd rfl (hop _ _)
  | moved => exact absurd rfl (hop _ _)
  | movedLast => exact absurd rfl (hop _ _)
  | resigned hplaying => exact absurd (Or.inr hplaying) hplayable
  | drawOffered hplaying => exact absurd (Or.inr hplaying) hplayable
  | drawRepeated => exact ⟨rfl, rfl, rfl⟩
  | drawAgreed hplaying => exact absurd (Or.inr hplaying) hplayable
  | switched hready => exact absurd (Or.inl hready) hplayable
  | notReset => exact ⟨rfl, rfl, rfl⟩
  | restarted hgame hseated hidle => exact absurd ⟨_, rfl, hseated, hgame, hidle⟩ hrestarts
  | updated hidle =>
    rcases hidle with hopen | hready
    · exact absurd hopen (not_open_of_isOver hover)
    · exact absurd (Or.inl hready) hplayable
  | notFlagged => exact ⟨rfl, rfl, rfl⟩
  | flagged hplaying => exact absurd (Or.inr hplaying) hplayable

end Table

namespace World

variable {w w' w₁ w₂ : World} {now : Int} {op : TableOp} {player red black : PlayerRef}
  {res : Result} {status : GameStatus} {sMove sReason : Bytes}

/-- The game is on the record of both players, once, and the same result
is queued for the database. -/
def CountedOnce (w w' : World) (red black : PlayerRef) (status : GameStatus) : Prop :=
  ∃ redScore blackScore,
    w'.players red = (w.players red).afterGame (.of .red status) redScore ∧
      w'.players black = (w.players black).afterGame (.of .black status) blackScore ∧
      (∀ p, p ≠ red → p ≠ black → w'.players p = w.players p) ∧
      w'.requests = w.requests ++
        [⟨(w.players red).id, redScore, (Outcome.of .red status).letter⟩,
         ⟨(w.players black).id, blackScore, (Outcome.of .black status).letter⟩]

theorem recordGameResult_of_isOver (hover : Table.IsOver w.table.status) (red black : PlayerRef) :
    (w.recordGameResult red black).1 =
      ((((w.calculateNewScores red black).updatePlayer red
        (Outcome.of .red w.table.status).count).updatePlayer black
          (Outcome.of .black w.table.status).count).setPlayerInfo red
            (Outcome.of .red w.table.status).letter).setPlayerInfo black
              (Outcome.of .black w.table.status).letter := by
  have hstatus : (w.calculateNewScores red black).table.status = w.table.status := rfl
  unfold recordGameResult
  simp only [hstatus]
  rcases hover with h | h | h <;> simp only [h] <;> rfl

theorem recordGameResult_countedOnce (hne : red ≠ black) (hover : Table.IsOver w.table.status) :
    w.CountedOnce (w.recordGameResult red black).1 red black w.table.status := by
  have hid : ∀ (o : Outcome) (p : Player), (o.count p).id = p.id ∧ (o.count p).score = p.score := by
    intro o p
    cases o <;> exact ⟨rfl, rfl⟩
  rw [recordGameResult_of_isOver hover]
  refine ⟨(w.players red).score + ratingChange (w.players red) (w.players black) w.table.status,
    (w.players black).score + -ratingChange (w.players red) (w.players black) w.table.status,
    ?_, ?_, ?_, ?_⟩
  · simp [setPlayerInfo, updatePlayer, calculateNewScores, changeScores, addScore,
      Player.afterGame, hne]
  · simp [setPlayerInfo, updatePlayer, calculateNewScores, changeScores, addScore,
      Player.afterGame, hne.symm]
  · intro p hred hblack
    simp [setPlayerInfo, updatePlayer, calculateNewScores, changeScores, hred, hblack]
  · simp [setPlayerInfo, updatePlayer, calculateNewScores, changeScores, addScore,
      Player.setRequest, hne, hne.symm, hid]

/-- `_onGameEnded` records a rated game between players who are no guests. -/
theorem onGameEnded_recordEnd (h : w.onGameEnded status sReason = .ok w')
    (hrated : w.table.gameType = .rated) (hred : w.table.redPlayer = some red)
    (hblack : w.table.blackPlayer = some black) (hredType : (w.players red).type ≠ .guest)
    (hblackType : (w.players black).type ≠ .guest) :
    (w.announceEnd status sReason).recordEnd red black = w' := by
  have hguest : (w.announceEnd status sReason).isGuestTable = .ok false := by
    have hr : (w.announceEnd status sReason).table.redPlayer = some red := hred
    rw [isGuestTable_ok hr hblack]
    have hred' : ((w.announceEnd status sReason).players red).type ≠ .guest := hredType
    have hblack' : ((w.announceEnd status sReason).players black).type ≠ .guest := hblackType
    simp [hred', hblack']
  unfold onGameEnded at h
  obtain ⟨bGuestTable, hb, h⟩ := Lib.bind_eq_ok.mp h
  rw [hguest] at hb
  cases hb
  rw [if_pos ⟨hrated, rfl⟩] at h
  obtain ⟨r, hr, h⟩ := Lib.bind_eq_ok.mp h
  obtain ⟨b, hb, h⟩ := Lib.bind_eq_ok.mp h
  have hrr : r = red := Option.some.inj ((deref_eq_ok.mp hr).symm.trans hred)
  have hbb : b = black := Option.some.inj ((deref_eq_ok.mp hb).symm.trans hblack)
  rw [hrr, hbb] at h
  exact Except.ok.inj h

/-- Such a game is counted. -/
theorem onGameEnded_countedOnce (h : w.onGameEnded status sReason = .ok w')
    (hdistinct : w.table.SeatsDistinct) (hover : Table.IsOver status)
    (hrated : w.table.gameType = .rated) (hred : w.table.redPlayer = some red)
    (hblack : w.table.blackPlayer = some black) (hredType : (w.players red).type ≠ .guest)
    (hblackType : (w.players black).type ≠ .guest) : w.CountedOnce w' red black status := by
  have hcounted := recordGameResult_countedOnce (w := w.announceEnd status sReason)
    (hdistinct.ne hred hblack) hover
  rw [← onGameEnded_recordEnd h hrated hred hblack hredType hblackType]
  unfold recordEnd
  simp only
  split
  · exact hcounted
  · exact hcounted

/-! ## The calls that end a game -/

/-- The call comes to `_onGameEnded` with the players, the seats and the
kind of game as it found them, and records nothing afterwards. -/
def EndsThrough (w w' : World) : Prop :=
  ∃ w₁ w₂ status sReason, w.SameRecords w₁ ∧ w₁.ends = w.ends ∧
    w₁.table.redPlayer = w.table.redPlayer ∧ w₁.table.blackPlayer = w.table.blackPlayer ∧
    w₁.table.gameType = w.table.gameType ∧ w₁.onGameEnded status sReason = .ok w₂ ∧
    w₂.SameRecords w' ∧ w'.ends = w₂.ends

/-- Events are posted, but no scores. -/
def PostsNoScore (w w' : World) : Prop :=
  ∃ es, w'.posted = w.posted ++ es ∧ ∀ x ∈ es, ¬ x.2.IsScore

/-- What a call does before it comes to `_onGameEnded`. -/
structure Prepares (w w₁ : World) : Prop where
  records : w.SameRecords w₁
  ends : w₁.ends = w.ends
  id : w₁.table.id = w.table.id
  allPlayers : w₁.table.allPlayers = w.table.allPlayers
  redPlayer : w₁.table.redPlayer = w.table.redPlayer
  blackPlayer : w₁.table.blackPlayer = w.table.blackPlayer
  gameType : w₁.table.gameType = w.table.gameType
  posts : w.PostsNoScore w₁

/-- The call comes to `_onGameEnded`, and before and after it nothing is
recorded and no score is posted. -/
def EndsGame (w w' : World) : Prop :=
  ∃ w₁ w₂ status sReason, w.Prepares w₁ ∧ w₁.onGameEnded status sReason = .ok w₂ ∧
    w₂.SameRecords w' ∧ w'.ends = w₂.ends ∧ w₂.PostsNoScore w'

theorem EndsGame.endsThrough (h : w.EndsGame w') : w.EndsThrough w' := by
  obtain ⟨w₁, w₂, status, sReason, hw₁, hend, hsame, hends, -⟩ := h
  exact ⟨w₁, w₂, status, sReason, hw₁.records, hw₁.ends, hw₁.redPlayer, hw₁.blackPlayer,
    hw₁.gameType, hend, hsame, hends⟩

/-- An event other than a score, to any players. -/
theorem postsNoScore_of_map {event : Event} {l : List PlayerRef}
    (hposted : w'.posted = w.posted ++ l.map (·, event)) (hevent : ¬ event.IsScore) :
    w.PostsNoScore w' := by
  refine ⟨_, hposted, fun x hx => ?_⟩
  obtain ⟨p, -, rfl⟩ := List.mem_map.mp hx
  exact hevent

theorem PostsNoScore.refl (w : World) : w.PostsNoScore w := ⟨[], by simp, by simp⟩

theorem Prepares.refl (w : World) : w.Prepares w :=
  ⟨⟨rfl, rfl, rfl⟩, rfl, rfl, rfl, rfl, rfl, rfl, .refl w⟩

theorem endsGame_of_onGameEnded (h : w.onGameEnded status sReason = .ok w') : w.EndsGame w' :=
  ⟨w, w', status, sReason, .refl w, h, ⟨rfl, rfl, rfl⟩, rfl, .refl w'⟩

theorem onLeaveFromPlayer_endsGame (h : w.onLeaveFromPlayer player = .ok w')
    (hends : w'.ends ≠ w.ends) : w.EndsGame w' := by
  rcases onLeaveFromPlayer_cases h with ⟨-, w₁, hend, rfl⟩ | ⟨-, rfl⟩
  · refine ⟨w, w₁, _, _, .refl w, hend, ⟨rfl, rfl, rfl⟩, rfl, ?_⟩
    exact postsNoScore_of_map rfl (fun hscore => hscore)
  · exact absurd rfl hends

theorem recordMove_endsGame {c : Color}
    (h : w.recordMove now player sMove c status sReason = .ok w') (hends : w'.ends ≠ w.ends) :
    w.EndsGame w' := by
  obtain ⟨_, _, _, _, hframe⟩ := resetMoveTimers_frame
    { w.table with status := status, moves := w.table.moves ++ [sMove] } now c
  have hid := congrArg Table.id hframe
  have hall := congrArg Table.allPlayers hframe
  have hred := congrArg Table.redPlayer hframe
  have hblack := congrArg Table.blackPlayer hframe
  have htype := congrArg Table.gameType hframe
  unfold recordMove at h
  simp only at h
  split at h
  · refine ⟨_, w', _, _, ?_, h, ⟨rfl, rfl, rfl⟩, rfl, .refl w'⟩
    refine ⟨⟨rfl, rfl, rfl⟩, rfl, hid, hall, hred, hblack, htype, ?_⟩
    exact postsNoScore_of_map rfl (fun hscore => hscore)
  · cases h
    exact absurd rfl hends

theorem acceptMove_endsGame (h : w.acceptMove now player sMove = .ok (w', res))
    (hends : w'.ends ≠ w.ends) : w.EndsGame w' := by
  unfold acceptMove at h
  simp only at h
  split at h
  · cases h
    exact absurd rfl hends
  split at h
  · cases h
    exact absurd rfl hends
  split at h
  · cases h
    exact absurd rfl hends
  obtain ⟨v, -, h⟩ := Lib.bind_eq_ok.mp h
  split at h
  · cases h
    exact absurd rfl hends
  obtain ⟨⟨t, s, sReason⟩, hcount, h⟩ := Lib.bind_eq_ok.mp h
  obtain ⟨w₁, hrec, h⟩ := Lib.bind_eq_ok.mp h
  cases h
  obtain ⟨_, _, _, _, hframe⟩ := countMove_frame hcount
  obtain ⟨w₂, w₃, s, sReason, hw₂, hrest⟩ := recordMove_endsGame (w := w.setTable t) hrec hends
  rw [hframe] at hw₂
  exact ⟨w₂, w₃, s, sReason, ⟨⟨hw₂.records.players, hw₂.records.requests, hw₂.records.changes⟩,
    hw₂.ends, hw₂.id, hw₂.allPlayers, hw₂.redPlayer, hw₂.blackPlayer, hw₂.gameType, hw₂.posts⟩,
    hrest⟩

theorem handleResignRequest_endsGame (h : w.handleResignRequest player = .ok (w', res))
    (hends : w'.ends ≠ w.ends) : w.EndsGame w' := by
  unfold handleResignRequest at h
  split at h
  · cases h
    exact absurd rfl hends
  split at h
  · obtain ⟨w₁, hend, h⟩ := Lib.bind_eq_ok.mp h
    cases h
    exact endsGame_of_onGameEnded hend
  split at h
  · obtain ⟨w₁, hend, h⟩ := Lib.bind_eq_ok.mp h
    cases h
    exact endsGame_of_onGameEnded hend
  · cases h
    exact absurd rfl hends

theorem handleDrawRequest_endsGame (h : w.handleDrawRequest player = .ok (w', res))
    (hends : w'.ends ≠ w.ends) : w.EndsGame w' := by
  unfold handleDrawRequest at h
  split at h
  · cases h
    exact absurd rfl hends
  split at h
  · cases h
    exact absurd rfl hends
  split at h
  · cases h
    exact absurd rfl hends
  split at h
  · cases h
    exact absurd rfl hends
  · obtain ⟨w₁, hend, h⟩ := Lib.bind_eq_ok.mp h
    cases h
    exact endsGame_of_onGameEnded hend

theorem checkTimeoutOnMove_endsGame (h : w.checkTimeoutOnMove now = .ok w')
    (hends : w'.ends ≠ w.ends) : w.EndsGame w' := by
  unfold checkTimeoutOnMove at h
  split at h
  · cases h
    exact absurd rfl hends
  split at h
  · cases h
    exact absurd rfl hends
  · exact endsGame_of_onGameEnded h

/-- **A call that ends a game** does so through `_onGameEnded`. -/
theorem call_endsGame (h : w.call now op = .ok (w', res)) (hends : w'.ends ≠ w.ends) :
    w.EndsGame w' := by
  cases op with
  | assignPlayerAs player c =>
    have hcalled := w.assignPlayerAs_called now player c
    rw [show w.assignPlayerAs now player c = (w', res) from Except.ok.inj h] at hcalled
    exact absurd (by simpa using hcalled.ends) hends
  | onLeaveFromPlayer player =>
    obtain ⟨w₁, hleave, he⟩ := Lib.map_eq_ok.mp h
    cases he
    exact onLeaveFromPlayer_endsGame hleave hends
  | sendInfoToPlayer player =>
    cases h
    obtain ⟨es, hes⟩ := w.sendInfoToPlayer_eq now player
    rw [hes] at hends
    exact absurd rfl hends
  | acceptMove player sMove => exact acceptMove_endsGame h hends
  | handleResignRequest player =>
    exact handleResignRequest_endsGame h hends
  | handleDrawRequest player =>
    exact handleDrawRequest_endsGame h hends
  | handleResetRequest player =>
    have hreset : ∃ e, w.Called now (.handleResetRequest player) w' res e :=
      handleResetRequest_called h
    obtain ⟨e, hcalled⟩ := hreset
    have heffect := hcalled.effect
    generalize w'.table = t' at heffect
    cases e with
    | none => exact absurd (by simpa using hcalled.ends) hends
    | some s => cases heffect
  | handleUpdateRequest player bRatedGame newInitialTime =>
    have hcalled := w.handleUpdateRequest_called now player bRatedGame newInitialTime
    rw [show w.handleUpdateRequest player bRatedGame newInitialTime = (w', res) from
      Except.ok.inj h] at hcalled
    exact absurd (by simpa using hcalled.ends) hends
  | checkTimeoutOnMove =>
    obtain ⟨w₁, hcheck, he⟩ := Lib.map_eq_ok.mp h
    cases he
    exact checkTimeoutOnMove_endsGame hcheck hends

/-! ## The end is final -/

/-- The two worlds have the same game, with the same result on record. -/
structure SameOutcome (w w' : World) : Prop where
  status : w'.table.status = w.table.status
  moves : w'.table.moves = w.table.moves
  referee : w'.table.referee = w.table.referee
  ends : w'.ends = w.ends
  players : w'.players = w.players
  requests : w'.requests = w.requests
  changes : w'.changes = w.changes

theorem SameOutcome.trans (h : w.SameOutcome w₁) (h' : w₁.SameOutcome w') : w.SameOutcome w' :=
  ⟨h'.status.trans h.status, h'.moves.trans h.moves, h'.referee.trans h.referee,
    h'.ends.trans h.ends, h'.players.trans h.players, h'.requests.trans h.requests,
    h'.changes.trans h.changes⟩

/-- In a game that has ended no call but a seated player's RESET changes
the outcome. -/
theorem sameOutcome_of_isOver (hl : w.table.referee.Lawful) (hover : Table.IsOver w.table.status)
    (hrestarts : ¬ w.table.Restarts op) (hcall : w.call now op = .ok (w', res)) :
    w.SameOutcome w' := by
  have hplayable := Table.not_playable_of_isOver hover
  by_cases hmove : ∃ player sMove, op = .acceptMove player sMove
  · obtain ⟨player, sMove, hop⟩ := hmove
    subst hop
    have hcall : w.acceptMove now player sMove = .ok (w', res) := hcall
    unfold acceptMove at hcall
    rw [if_pos (not_or.mp hplayable)] at hcall
    cases hcall
    exact ⟨rfl, rfl, rfl, rfl, rfl, rfl, rfl⟩
  · obtain ⟨e, hcalled⟩ := call_called hl hcall
    have he : e = none := by
      cases e with
      | none => rfl
      | some s => exact absurd hcalled.effect.playable hplayable
    subst he
    obtain ⟨hstatus, hmoves, hreferee⟩ := hcalled.effect.final hover
      (fun player sMove hop => hmove ⟨player, sMove, hop⟩) hrestarts
    have hquiet := hcalled.quiet rfl
    exact ⟨hstatus, hmoves, hreferee, by simpa using hcalled.ends, hquiet.players, hquiet.requests,
      hquiet.changes⟩

theorem reachable_lawful (h : Table.machine.Reachable w) : w.table.referee.Lawful :=
  (reachable_replays h).lawful

/-- No call of a run from a finished game changes its outcome until it is
started again. -/
theorem sameOutcome_of_run (h : Table.machine.Reachable w) (hover : Table.IsOver w.table.status)
    {ops : List (Int × TableOp)}
    (hmeets : Table.machine.Meets (fun w op => ¬ w.table.Restarts op.2) w ops)
    (hrun : Table.machine.run w ops = .ok w') : w.SameOutcome w' := by
  have hstep : ∀ w₁ op w₂, (w.SameOutcome w₁ ∧ Table.machine.Reachable w₁) →
      ¬ w₁.table.Restarts op.2 → Table.machine.step w₁ op = .ok w₂ →
        w.SameOutcome w₂ ∧ Table.machine.Reachable w₂ := by
    intro w₁ op w₂ hsame hrestarts hstep
    obtain ⟨res, hcall⟩ := step_eq.mp hstep
    have hover₁ : Table.IsOver w₁.table.status := by
      rw [hsame.1.status]
      exact hover
    exact ⟨hsame.1.trans (sameOutcome_of_isOver (reachable_lawful hsame.2) hover₁ hrestarts hcall),
      hsame.2.step hstep⟩
  exact (hmeets.run hstep ⟨⟨rfl, rfl, rfl, rfl, rfl, rfl, rfl⟩, h⟩ hrun).1

/-- Until the game is started again it ends at most once. -/
theorem ends_at_most_once (h : Table.machine.Reachable w) {ops : List (Int × TableOp)}
    (hmeets : Table.machine.Meets (fun w op => ¬ w.table.Restarts op.2) w ops)
    (hrun : Table.machine.run w ops = .ok w') : w'.ends.length ≤ w.ends.length + 1 := by
  have hstep : ∀ w₁ op w₂, (Table.machine.Reachable w₁ ∧ (w₁.ends.length = w.ends.length ∨
      Table.IsOver w₁.table.status ∧ w₁.ends.length = w.ends.length + 1)) →
      ¬ w₁.table.Restarts op.2 → Table.machine.step w₁ op = .ok w₂ →
        (Table.machine.Reachable w₂ ∧ (w₂.ends.length = w.ends.length ∨
          Table.IsOver w₂.table.status ∧ w₂.ends.length = w.ends.length + 1)) := by
    intro w₁ op w₂ hw₁ hrestarts hstep
    obtain ⟨hreach, hends⟩ := hw₁
    obtain ⟨res, hcall⟩ := step_eq.mp hstep
    refine ⟨hreach.step hstep, ?_⟩
    rcases hends with hnone | ⟨hover, hone⟩
    · obtain ⟨e, hcalled⟩ := call_called (reachable_lawful hreach) hcall
      rw [hcalled.ends]
      cases e with
      | none => exact Or.inl (by simp [hnone])
      | some s =>
        obtain ⟨hstatus, hover⟩ := hcalled.effect.status_of_ended
        exact Or.inr ⟨by rw [hstatus]; exact hover, by simp [hnone]⟩
    · have hsame := sameOutcome_of_isOver (reachable_lawful hreach) hover hrestarts hcall
      rw [hsame.status, hsame.ends]
      exact Or.inr ⟨hover, hone⟩
  obtain ⟨-, hends⟩ := hmeets.run hstep ⟨h, Or.inl rfl⟩ hrun
  omega

/-- The status that a call has ended the game with. -/
theorem isOver_of_ends (h : Table.machine.Reachable w) (hcall : w.call now op = .ok (w', res))
    {e : GameEnd} (hends : w'.ends = w.ends ++ [e]) :
    Table.IsOver e.status ∧ w'.table.status = e.status := by
  obtain ⟨s, hcalled⟩ := call_called (reachable_lawful h) hcall
  have htwo := hcalled.ends.symm.trans hends
  cases s with
  | none => simp at htwo
  | some s =>
    have hs : [GameEnd.mk w.table.redPlayer w.table.blackPlayer s] = [e] :=
      List.append_cancel_left htwo
    obtain ⟨hstatus, hover⟩ := hcalled.effect.status_of_ended
    rw [← List.singleton_inj.mp hs]
    exact ⟨hover, hstatus⟩

/-- **A finished game is final and counted once.** From any state the game
ends at most once until it is started again. The call that ends it leaves
the table with the result of that end; from then on, until a seated
player's RESET, no call changes the status, the moves, the board or
anybody's record; and if it was rated and between players who are no
guests, it is on the record of both once, with the same letters queued. -/
theorem finished_game_is_final (h : Table.machine.Reachable w)
    (hcall : w.call now op = .ok (w₁, res)) (hends : w₁.ends ≠ w.ends) :
    (∀ ops w₂, Table.machine.Meets (fun w op => ¬ w.table.Restarts op.2) w ops →
      Table.machine.run w ops = .ok w₂ → w₂.ends.length ≤ w.ends.length + 1) ∧
    ∃ e, w₁.ends = w.ends ++ [e] ∧ e.red = w.table.redPlayer ∧ e.black = w.table.blackPlayer ∧
      Table.IsOver e.status ∧ w₁.table.status = e.status ∧
      (∀ ops w₂, Table.machine.Meets (fun w op => ∀ player, op.2 = .handleResetRequest player →
        w.table.isSeated player = false) w₁ ops →
        Table.machine.run w₁ ops = .ok w₂ → w₁.SameOutcome w₂) ∧
      (w.table.gameType = .rated → ∀ red black, e.red = some red → e.black = some black →
        (w.players red).type ≠ .guest → (w.players black).type ≠ .guest →
          red ≠ black ∧ w.CountedOnce w₁ red black e.status) := by
  have hdistinct := reachable_seatsDistinct h
  refine ⟨fun ops w₂ hmeets hrun => ends_at_most_once h hmeets hrun, ?_⟩
  obtain ⟨w₂, w₃, status, sReason, hsame, hends₂, hred, hblack, htype, hend, hrest, hends₃⟩ :=
    (call_endsGame hcall hends).endsThrough
  have hended := onGameEnded_ended hend
  have hlast : w₁.ends = w.ends ++ [⟨w.table.redPlayer, w.table.blackPlayer, status⟩] := by
    rw [hends₃, hended.ends, hends₂, hred, hblack]
  obtain ⟨hover, hstatus⟩ := isOver_of_ends h hcall hlast
  refine ⟨_, hlast, rfl, rfl, hover, hstatus, ?_, ?_⟩
  · intro ops w₂ hmeets hrun
    have hreach : Table.machine.Reachable w₁ := h.step (step_eq.mpr ⟨res, hcall⟩)
    refine sameOutcome_of_run hreach (hstatus ▸ hover) (hmeets.mono ?_) hrun
    intro w op hreset hrestarts
    obtain ⟨player, hop, hby⟩ := hrestarts
    have hseated := hby.1
    rw [hreset player hop] at hseated
    cases hseated
  · intro hrated red black hr hb hredType hblackType
    refine ⟨hdistinct.ne hr hb, ?_⟩
    have hdistinct₂ : w₂.table.SeatsDistinct := hdistinct.of_seats hred hblack
    obtain ⟨redScore, blackScore, hcounted⟩ := onGameEnded_countedOnce hend hdistinct₂ hover
      (htype.trans hrated) (hred.trans hr) (hblack.trans hb) (by rw [hsame.players]; exact hredType)
      (by rw [hsame.players]; exact hblackType)
    rw [hsame.players, hsame.requests, ← hrest.players, ← hrest.requests] at hcounted
    exact ⟨redScore, blackScore, hcounted⟩

theorem finished_game_is_final_resigned : ∃ w w₁,
    Table.machine.run (new (bytes "t") {} twoPlayers) started = .ok w ∧
      w.call 0 (.handleResignRequest 1) = .ok (w₁, .ok) ∧
      (∀ ops w₂, Table.machine.Meets (fun w op => ¬ w.table.Restarts op.2) w ops →
        Table.machine.run w ops = .ok w₂ → w₂.ends.length ≤ w.ends.length + 1) ∧
      ∃ e, w₁.ends = w.ends ++ [e] ∧ e.red = w.table.redPlayer ∧ e.black = w.table.blackPlayer ∧
        Table.IsOver e.status ∧ w₁.table.status = e.status ∧
        (∀ ops w₂, Table.machine.Meets (fun w op => ∀ player, op.2 = .handleResetRequest player →
          w.table.isSeated player = false) w₁ ops →
          Table.machine.run w₁ ops = .ok w₂ → w₁.SameOutcome w₂) ∧
        (w.table.gameType = .rated → ∀ red black, e.red = some red → e.black = some black →
          (w.players red).type ≠ .guest → (w.players black).type ≠ .guest →
            red ≠ black ∧ w.CountedOnce w₁ red black e.status) := by
  have hresign : (Table.machine.run (new (bytes "t") {} twoPlayers) started).map
      (fun w => (w.call 0 (.handleResignRequest 1)).map (fun r =>
        (r.2, w.ends.length, r.1.ends.length))) = .ok (.ok (.ok, 0, 1)) := by decide +kernel
  obtain ⟨w, hw, hresign⟩ := Lib.map_eq_ok.mp hresign
  obtain ⟨⟨w₁, res⟩, hcall, he⟩ := Lib.map_eq_ok.mp hresign
  simp only [Prod.mk.injEq] at he
  rw [he.1] at hcall
  refine ⟨w, w₁, hw, hcall, finished_game_is_final (reachable_of_run hw) hcall ?_⟩
  intro hends
  rw [hends, he.2.1] at he
  simp at he

end World

end HoxServer
