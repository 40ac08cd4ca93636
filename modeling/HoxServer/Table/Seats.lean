/-
HoxServer.Table.Seats — which calls of a table follow an empty seat.

`_onGameEnded` looks at RED's type and, if RED is no guest, at BLACK's,
whether or not the seats are taken, and `handleResetRequest` greets the
player who gets the turn. A call returns exactly if it finds the seats
that it reads there (`call_returns_iff`). Seats may be empty in a game,
for a player can ask to look on.
-/
import HoxServer.Lib.Exceptions
import HoxServer.Table.Game

namespace HoxServer

open Lib

namespace Table

/-- The call ends the game that is played. -/
def Finishes (ids : PlayerRef → Bytes) (t : Table) (now : Int) : TableOp → Prop
  | .onLeaveFromPlayer player =>
    t.status = .inProgress ∧ 2 ≤ t.moves.length ∧ t.isSeated player = true
  | .acceptMove player sMove =>
    ∃ v t' gameStatus, t.MoveMade player sMove v t' gameStatus ∧ IsOver gameStatus
  | .handleResignRequest player => t.status = .inProgress ∧ t.isSeated player = true
  | .handleDrawRequest player =>
    t.status = .inProgress ∧ t.isSeated player = true ∧ t.drawPlayerId ≠ [] ∧
      ids player ≠ t.drawPlayerId
  | .checkTimeoutOnMove =>
    t.status = .inProgress ∧ 2 ≤ t.moves.length ∧ t.nextMoveExpiry < now
  | _ => False

/-- The call makes RED and BLACK change their seats. -/
def Switches (t : Table) : TableOp → Prop
  | .handleResetRequest player => t.status = .ready ∧ t.redPlayer = some player
  | _ => False

end Table

namespace World

variable {w w' : World} {now : Int} {op : TableOp} {player : PlayerRef} {sMove sReason : Bytes}
  {status : GameStatus}

/-- The seats that `_onGameEnded` reads are taken: BLACK's is read only if
RED is not a guest. -/
def SeatsRead (w : World) : Prop :=
  ∃ red, w.table.redPlayer = some red ∧
    ((w.players red).type = .guest ∨ w.table.blackPlayer ≠ none)

/-- The call finds the seats that it reads. -/
structure FindsSeats (w : World) (now : Int) (op : TableOp) : Prop where
  ends : w.table.Finishes w.idOf now op → w.SeatsRead
  switches : w.table.Switches op → w.table.blackPlayer ≠ none

theorem SeatsRead.of_same (hred : w'.table.redPlayer = w.table.redPlayer)
    (hblack : w'.table.blackPlayer = w.table.blackPlayer)
    (htypes : ∀ p, (w'.players p).type = (w.players p).type) : w'.SeatsRead ↔ w.SeatsRead := by
  simp only [SeatsRead, hred, hblack, htypes]

/-! ## `_onGameEnded` -/

@[simp] theorem returns_deref {seat : Option PlayerRef} : Returns (deref seat) ↔ seat ≠ none := by
  cases seat <;> simp [deref]

theorem returns_isGuestTable : Returns w.isGuestTable ↔ w.SeatsRead := by
  unfold isGuestTable SeatsRead
  cases hred : w.table.redPlayer with
  | none => simp [deref, bind, Except.bind]
  | some red =>
    simp only [deref, bind, Except.bind, Option.some.injEq, exists_eq_left']
    by_cases hguest : (w.players red).type = .guest
    · simp [hguest]
    · cases w.table.blackPlayer <;> simp [hguest]

/-- The game ends without a crash exactly if the seats that are read then
are taken. -/
theorem returns_onGameEnded : Returns (w.onGameEnded status sReason) ↔ w.SeatsRead := by
  have hread : (w.announceEnd status sReason).SeatsRead ↔ w.SeatsRead :=
    SeatsRead.of_same rfl rfl fun _ => rfl
  unfold onGameEnded
  simp only [returns_bind]
  constructor
  · rintro ⟨bGuestTable, hguest, -⟩
    exact hread.mp (returns_isGuestTable.mp ⟨bGuestTable, hguest⟩)
  · intro h
    obtain ⟨red, hred, hseat⟩ := hread.mpr h
    obtain ⟨bGuestTable, hguest⟩ := returns_isGuestTable.mpr (hread.mpr h)
    refine ⟨bGuestTable, hguest, ?_⟩
    split
    · rename_i hrated
      -- a table whose RED is a guest is no rated one
      have hblack : (w.announceEnd status sReason).table.blackPlayer ≠ none := by
        refine hseat.resolve_left fun htype => ?_
        simp [isGuestTable, hred, deref, bind, Except.bind, htype] at hguest
        exact absurd hrated.2 (by simp [← hguest])
      obtain ⟨black, hblack⟩ := Option.ne_none_iff_exists'.mp hblack
      simp [hred, hblack, deref, returns_bind]
    · exact returns_ok _

/-! ## The calls -/

theorem returns_onLeaveFromPlayer : Returns (w.onLeaveFromPlayer player) ↔
    (w.table.Finishes w.idOf now (.onLeaveFromPlayer player) → w.SeatsRead) := by
  rw [onLeaveFromPlayer_eq]
  split
  · rename_i hgame
    rw [returns_map, returns_onGameEnded]
    exact (imp_iff_right hgame).symm
  · rename_i hgame
    exact returns_ok_iff_imp hgame

theorem returns_recordMove {c : Color} {s : GameStatus} :
    Returns (w.recordMove now player sMove c s sReason) ↔ (Table.IsOver s → w.SeatsRead) := by
  obtain ⟨_, _, _, _, hframe⟩ := resetMoveTimers_frame
    { w.table with status := s, moves := w.table.moves ++ [sMove] } now c
  have hred := congrArg Table.redPlayer hframe
  have hblack := congrArg Table.blackPlayer hframe
  unfold recordMove
  simp only
  split
  · rename_i hover
    rw [returns_onGameEnded, SeatsRead.of_same (w := w)]
    · exact (imp_iff_right hover).symm
    · exact hred
    · exact hblack
    · exact fun _ => rfl
  · rename_i hover
    exact returns_ok_iff_imp hover

theorem returns_handleResignRequest : Returns (w.handleResignRequest player) ↔
    (w.table.Finishes w.idOf now (.handleResignRequest player) → w.SeatsRead) := by
  have hend : ∀ status, Returns (do
      return (← w.onGameEnded status (bytes "Player resigned"), Result.ok)) ↔ w.SeatsRead := by
    intro status
    rw [returns_bind_of fun _ => returns_pure _, returns_onGameEnded]
  unfold handleResignRequest
  simp only [Table.Finishes, Table.isSeated_iff]
  split
  · rename_i hstatus
    exact returns_ok_iff_imp fun h => hstatus h.1
  rename_i hstatus
  split
  · rename_i hred
    exact (hend _).trans (imp_iff_right ⟨not_not.mp hstatus, Or.inl hred⟩).symm
  rename_i hred
  split
  · rename_i hblack
    exact (hend _).trans (imp_iff_right ⟨not_not.mp hstatus, Or.inr hblack⟩).symm
  · rename_i hblack
    exact returns_ok_iff_imp fun h => not_or.mpr ⟨hred, hblack⟩ h.2

theorem returns_handleDrawRequest : Returns (w.handleDrawRequest player) ↔
    (w.table.Finishes w.idOf now (.handleDrawRequest player) → w.SeatsRead) := by
  unfold handleDrawRequest
  simp only [Table.Finishes, Table.isSeated_iff]
  split
  · rename_i hstatus
    exact returns_ok_iff_imp fun h => hstatus h.1
  rename_i hstatus
  split
  · rename_i hseats
    exact returns_ok_iff_imp fun h => not_or.mpr hseats h.2.1
  rename_i hseats
  split
  · rename_i hoffer
    exact returns_ok_iff_imp fun h => h.2.2.1 hoffer
  rename_i hoffer
  split
  · rename_i hown
    exact returns_ok_iff_imp fun h => h.2.2.2 hown
  rename_i hown
  rw [returns_bind_of fun _ => returns_ok _, returns_onGameEnded]
  refine ⟨fun h _ => h, fun h => h ⟨not_not.mp hstatus, ?_, hoffer, hown⟩⟩
  by_contra hnot
  exact hseats (not_or.mp hnot)

theorem returns_checkTimeoutOnMove : Returns (w.checkTimeoutOnMove now) ↔
    (w.table.Finishes w.idOf now .checkTimeoutOnMove → w.SeatsRead) := by
  unfold checkTimeoutOnMove Table.Finishes
  split
  · rename_i hnot
    exact returns_ok_iff_imp fun h => hnot.elim (fun hstatus => hstatus h.1)
      fun hmoves => Nat.not_le.mpr hmoves h.2.1
  rename_i hplaying
  rw [not_or, not_not, Nat.not_lt] at hplaying
  split
  · rename_i hexpiry
    exact returns_ok_iff_imp fun h => Int.not_lt.mpr hexpiry h.2.2
  · rename_i hexpiry
    exact returns_onGameEnded.trans
      (imp_iff_right ⟨hplaying.1, hplaying.2, Int.not_le.mp hexpiry⟩).symm

theorem returns_handleResetRequest : Returns (w.handleResetRequest player) ↔
    (w.table.Switches (.handleResetRequest player) → w.table.blackPlayer ≠ none) := by
  unfold handleResetRequest Table.Switches
  simp only
  split
  · rename_i hplaying
    exact returns_ok_iff_imp fun h => by simp [h.1] at hplaying
  split
  · rename_i hseats
    exact returns_ok_iff_imp fun h => hseats.1 h.2
  split
  · rename_i hswitch
    rw [returns_bind_of fun _ => returns_ok _, returns_deref]
    exact (imp_iff_right hswitch.symm).symm
  rename_i hswitch
  split
  · exact returns_ok_iff_imp fun h => hswitch h.symm
  · exact returns_ok_iff_imp fun h => hswitch h.symm

/-- The move that is played ends the game or not. -/
theorem returns_acceptMove (hl : w.table.referee.Lawful) : Returns (w.acceptMove now player sMove) ↔
    (w.table.Finishes w.idOf now (.acceptMove player sMove) → w.SeatsRead) := by
  unfold acceptMove
  simp only
  split
  · rename_i hstatus
    exact returns_ok_iff_imp fun ⟨_, _, _, hmade, _⟩ => not_or.mpr hstatus hmade.status
  rename_i hstatus
  split
  · rename_i hturn
    refine returns_ok_iff_imp fun ⟨_, _, _, hmade, _⟩ => ?_
    rcases hturn with ⟨hc, hnot⟩ | ⟨hc, hnot⟩
    · exact hnot (hmade.turn.1 hc)
    · exact hnot (hmade.turn.2 hc)
  rename_i hturn
  split
  · rename_i hinvalid
    refine returns_ok_iff_imp fun ⟨_, _, _, hmade, _⟩ => ?_
    rw [Referee.accepted_isValid hl hmade.verdict hmade.accepted] at hinvalid
    cases hinvalid
  obtain ⟨v, hv, -⟩ := Referee.validateString_spec hl sMove
  have hverdict : w.table.referee.validateMove _ .unknown = .ok v := hv
  rw [returns_bind_ok hverdict]
  split
  · rename_i hrejected
    refine returns_ok_iff_imp fun ⟨v', _, _, hmade, _⟩ => ?_
    cases hv.symm.trans hmade.verdict
    simp [hmade.accepted] at hrejected
  rename_i haccepted
  obtain ⟨⟨t', gameStatus, sReason⟩, hcount⟩ :=
    countMove_returns (t := { w.table with referee := v.board })
      (Referee.validateString_lawful hl hv) w.table.referee.nextColor v.status
  obtain ⟨_, _, _, _, hframe⟩ := countMove_frame hcount
  have hread : (w.setTable t').SeatsRead ↔ w.SeatsRead :=
    SeatsRead.of_same (by rw [setTable_table, hframe]) (by rw [setTable_table, hframe])
      fun _ => rfl
  rw [returns_bind_ok hcount]
  dsimp only
  rw [returns_bind_of fun _ => returns_ok _, returns_recordMove, hread]
  constructor
  · rintro h ⟨v', t₁, s, hmade, hover⟩
    cases hv.symm.trans hmade.verdict
    obtain ⟨_, hcounted⟩ := hmade.counted
    cases hcount.symm.trans hcounted
    exact h hover
  · intro h hover
    refine h ⟨v, t', gameStatus, ⟨?_, ⟨?_, ?_⟩, hv, by simpa using haccepted, sReason, hcount⟩,
      hover⟩
    · by_contra hnot
      exact hstatus (not_or.mp hnot)
    · intro hc
      by_contra hnot
      exact hturn (Or.inl ⟨hc, hnot⟩)
    · intro hc
      by_contra hnot
      exact hturn (Or.inr ⟨hc, hnot⟩)

/-- **Which calls crash.** A call of a table with a lawful referee returns
exactly if it finds the seats that it reads: a call that ends the game those
that `_onGameEnded` reads, and RED's reset of a game that is ready BLACK's. -/
theorem call_returns_iff (hl : w.table.referee.Lawful) :
    Returns (w.call now op) ↔ w.FindsSeats now op := by
  have hends : (¬ w.table.Switches op) →
      (Returns (w.call now op) ↔ (w.table.Finishes w.idOf now op → w.SeatsRead)) →
      (Returns (w.call now op) ↔ w.FindsSeats now op) := fun hnot h =>
    h.trans ⟨fun hread => ⟨hread, fun hs => absurd hs hnot⟩, FindsSeats.ends⟩
  cases op with
  | assignPlayerAs player c => exact iff_of_true (returns_ok _) ⟨False.elim, False.elim⟩
  | onLeaveFromPlayer player => exact hends id (returns_map.trans returns_onLeaveFromPlayer)
  | sendInfoToPlayer player => exact iff_of_true (returns_ok _) ⟨False.elim, False.elim⟩
  | acceptMove player sMove => exact hends id (returns_acceptMove hl)
  | handleResignRequest player => exact hends id returns_handleResignRequest
  | handleDrawRequest player => exact hends id returns_handleDrawRequest
  | handleResetRequest player =>
    exact returns_handleResetRequest.trans
      ⟨fun h => ⟨fun hends => absurd hends id, h⟩, FindsSeats.switches⟩
  | handleUpdateRequest player bRatedGame newInitialTime =>
    exact iff_of_true (returns_ok _) ⟨False.elim, False.elim⟩
  | checkTimeoutOnMove => exact hends id (returns_map.trans returns_checkTimeoutOnMove)

/-! ## Leaving -/

theorem findsSeats_leave : w.FindsSeats now (.onLeaveFromPlayer player) ↔
    (w.table.Finishes w.idOf now (.onLeaveFromPlayer player) → w.SeatsRead) :=
  ⟨FindsSeats.ends, fun h => ⟨h, False.elim⟩⟩

theorem type_updatePlayer {f : Player → Player} (hf : ∀ player, (f player).type = player.type)
    (w : World) (p q : PlayerRef) : ((w.updatePlayer p f).players q).type = (w.players q).type := by
  by_cases hq : q = p
  · subst hq
    simp [updatePlayer, hf]
  · simp [updatePlayer, hq]

theorem type_recordGameResult (w : World) (red black p : PlayerRef) :
    ((w.recordGameResult red black).1.players p).type = (w.players p).type := by
  have hscores : ((w.calculateNewScores red black).players p).type = (w.players p).type := by
    have hscore : ∀ n player, (addScore n player).type = player.type := fun _ _ => rfl
    exact (type_updatePlayer (hscore _) _ black p).trans (type_updatePlayer (hscore _) w red p)
  have hcounters : ∀ f g : Player → Player, (∀ player, (f player).type = player.type) →
      (∀ player, (g player).type = player.type) →
      ((((w.calculateNewScores red black).updatePlayer red f).updatePlayer black g).players
        p).type = (w.players p).type := fun f g hf hg =>
    (type_updatePlayer hg _ black p).trans ((type_updatePlayer hf _ red p).trans hscores)
  unfold recordGameResult
  simp only
  split
  · exact hcounters addWin addLoss (fun _ => rfl) fun _ => rfl
  · exact hcounters addLoss addWin (fun _ => rfl) fun _ => rfl
  · exact hcounters addDraw addDraw (fun _ => rfl) fun _ => rfl
  · exact hscores

/-- Nobody becomes a guest or stops being one when a game ends. -/
theorem type_onGameEnded (h : w.onGameEnded status sReason = .ok w') (p : PlayerRef) :
    (w'.players p).type = (w.players p).type := by
  unfold onGameEnded at h
  obtain ⟨_, -, h⟩ := bind_eq_ok.mp h
  split at h
  · obtain ⟨red, -, h⟩ := bind_eq_ok.mp h
    obtain ⟨black, -, h⟩ := bind_eq_ok.mp h
    cases h
    have hrecorded := type_recordGameResult (w.announceEnd status sReason) red black p
    unfold recordEnd
    simp only
    split
    · exact hrecorded
    · exact hrecorded
  · cases h
    rfl

theorem type_onLeaveFromPlayer (h : w.onLeaveFromPlayer player = .ok w') (p : PlayerRef) :
    (w'.players p).type = (w.players p).type := by
  rcases onLeaveFromPlayer_cases h with ⟨-, w₁, hend, rfl⟩ | ⟨-, rfl⟩
  · exact type_onGameEnded hend p
  · rfl

theorem unassignPlayer_table (w : World) (player : PlayerRef) :
    (w.unassignPlayer player).table = (w.table.removePlayer player).updateStatus := rfl

/-- Who has left a table ends no game by leaving it again. -/
theorem not_finishes_of_left (h : w.onLeaveFromPlayer player = .ok w') :
    ¬ w'.table.Finishes w'.idOf now (.onLeaveFromPlayer player) := by
  rcases onLeaveFromPlayer_cases h with ⟨-, w₁, hend, rfl⟩ | ⟨hgame, rfl⟩
  · rintro ⟨hstatus, -, -⟩
    rw [unassignPlayer_table, Table.updateStatus_inProgress_iff, Table.removePlayer_status,
      (onGameEnded_ended hend).table] at hstatus
    change w.table.lossOf player = _ at hstatus
    rcases lossOf_cases w.table player with hloss | hloss
    · rw [hloss] at hstatus
      cases hstatus
    · rw [hloss] at hstatus
      cases hstatus
  · rintro ⟨hstatus, hmoves, hseated⟩
    have hsame := (w.table.sameGame_removePlayer player).trans
      (w.table.removePlayer player).sameGame_updateStatus
    refine hgame ⟨?_, ?_, ?_⟩
    · rwa [unassignPlayer_table, Table.updateStatus_inProgress_iff,
        Table.removePlayer_status] at hstatus
    · rwa [unassignPlayer_table, hsame.1] at hmoves
    · rw [unassignPlayer_table, Table.isSeated_iff, Table.updateStatus_redPlayer,
        Table.updateStatus_blackPlayer, ← Table.isSeated_iff] at hseated
      exact Table.isSeated_of_removePlayer hseated

end World

end HoxServer
