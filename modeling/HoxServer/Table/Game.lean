/-
HoxServer.Table.Game — the laws of one game at a table: a seat given up
in the game is a lost game, a draw by agreement is asked for by both,
and a game that has ended is final and counted once.

The first two do not hold of every call. A seated player who joins again
(`JoinsAgain`) gives up his seat and the game goes on; when his offer of
a draw is pending it stays pending (`DropsOffer`), and whoever takes the
seat is taken to have made it. Each law is stated with the condition on
the calls under which it holds.
-/
import HoxServer.Table.TableTheorems

namespace HoxServer

namespace Table

variable {t t' : Table} {player q : PlayerRef} {c d : Color}

/-! ## Seats -/

/-- The player has the seat of the colour. -/
def Holds (t : Table) (player : PlayerRef) (c : Color) : Prop :=
  (c = .red ∧ t.redPlayer = some player) ∨ (c = .black ∧ t.blackPlayer = some player)

/-- `bRequestOK` of `assignPlayerAs`. -/
def Admits (t : Table) (requestColor : Color) : Prop :=
  (requestColor = .red ∧ t.redPlayer = none) ∨ (requestColor = .black ∧ t.blackPlayer = none) ∨
    requestColor = .none

instance (t : Table) (requestColor : Color) : Decidable (t.Admits requestColor) :=
  inferInstanceAs (Decidable (_ ∨ _ ∨ _))

/-- A seated player joins again, in another role. -/
def JoinsAgain (t : Table) : TableOp → Prop
  | .assignPlayerAs player requestColor => t.isSeated player = true ∧ t.Admits requestColor
  | _ => False

/-- The game starts again when the player asks for it. -/
def ResetBy (t : Table) (player : PlayerRef) : Prop :=
  t.isSeated player = true ∧ ¬ (t.status = .inProgress ∧ 2 ≤ t.moves.length) ∧
    t.status ≠ .ready ∧ t.status ≠ .open

instance (t : Table) (player : PlayerRef) : Decidable (t.ResetBy player) :=
  inferInstanceAs (Decidable (_ ∧ _ ∧ _))

/-- The player whose offer of a draw is pending gives up his seat, and the
game goes on. -/
def DropsOffer (ids : PlayerRef → Bytes) (t : Table) : TableOp → Prop
  | .assignPlayerAs player requestColor => t.drawPlayerId ≠ [] ∧ ids player = t.drawPlayerId ∧
    t.isSeated player = true ∧ t.Admits requestColor
  | .onLeaveFromPlayer player => t.drawPlayerId ≠ [] ∧ ids player = t.drawPlayerId ∧
    t.isSeated player = true ∧ t.moves.length < 2
  | _ => False

instance (ids : PlayerRef → Bytes) (t : Table) : ∀ op, Decidable (t.DropsOffer ids op)
  | .assignPlayerAs _ _ => inferInstanceAs (Decidable (_ ∧ _ ∧ _ ∧ _))
  | .onLeaveFromPlayer _ => inferInstanceAs (Decidable (_ ∧ _ ∧ _ ∧ _))
  | .sendInfoToPlayer _ | .acceptMove _ _ | .handleResignRequest _ | .handleDrawRequest _
  | .handleResetRequest _ | .handleUpdateRequest _ _ _ | .checkTimeoutOnMove => instDecidableFalse

theorem Holds.isSeated (h : t.Holds player c) : t.isSeated player = true := by
  rw [isSeated_iff]
  exact h.imp And.right And.right

theorem exists_holds (h : t.isSeated player = true) : ∃ c, t.Holds player c := by
  rw [isSeated_iff] at h
  rcases h with h | h
  · exact ⟨.red, Or.inl ⟨rfl, h⟩⟩
  · exact ⟨.black, Or.inr ⟨rfl, h⟩⟩

theorem Holds.of_seats (h : t.Holds player c) (hred : t'.redPlayer = t.redPlayer)
    (hblack : t'.blackPlayer = t.blackPlayer) : t'.Holds player c := by
  unfold Holds
  rw [hred, hblack]
  exact h

theorem isSeated_of_seats (hred : t'.redPlayer = t.redPlayer)
    (hblack : t'.blackPlayer = t.blackPlayer) : t'.isSeated player = t.isSeated player := by
  simp [isSeated, hred, hblack]

/-- The status of a game that has ended stays. -/
theorem updateStatus_of_isOver (h : IsOver t.status) : t.updateStatus = t := by
  unfold updateStatus
  rcases h with h | h | h <;> rw [h]

theorem Holds.updateStatus (h : t.Holds player c) : t.updateStatus.Holds player c :=
  h.of_seats t.updateStatus_redPlayer t.updateStatus_blackPlayer

theorem addPlayer_frame (t : Table) (player : PlayerRef) (c : Color) :
    ∃ allPlayers redPlayer blackPlayer,
      (t.addPlayer player c).1 = { t with allPlayers, redPlayer, blackPlayer } := by
  unfold addPlayer
  cases c <;> simp only <;> split <;> exact ⟨_, _, _, rfl⟩

theorem removePlayer_frame (t : Table) (player : PlayerRef) :
    ∃ allPlayers redPlayer blackPlayer,
      t.removePlayer player = { t with allPlayers, redPlayer, blackPlayer } := by
  unfold removePlayer
  simp only
  split_ifs <;> exact ⟨_, _, _, rfl⟩

theorem isSeated_of_removePlayer {q : PlayerRef} (h : (t.removePlayer player).isSeated q = true) :
    t.isSeated q = true := by
  rw [isSeated_iff] at h ⊢
  unfold removePlayer at h
  simp only at h
  split_ifs at h
  · exact h.imp_left fun hnone => by cases hnone
  · exact h.imp_right fun hnone => by cases hnone
  · exact h

theorem updateStatus_frame (t : Table) : ∃ status, t.updateStatus = { t with status } := by
  unfold updateStatus
  split
  · split <;> exact ⟨_, rfl⟩
  · split <;> exact ⟨_, rfl⟩
  · exact ⟨_, rfl⟩

/-- Joining and leaving write to the seats and the list of players, and
neither starts a game nor ends one. -/
theorem reseated_eq (hframe : ∃ allPlayers redPlayer blackPlayer,
      t' = { t with allPlayers, redPlayer, blackPlayer }) :
    ∃ allPlayers redPlayer blackPlayer status,
      t'.updateStatus = { t with allPlayers, redPlayer, blackPlayer, status } ∧
        (status = .inProgress ↔ t.status = .inProgress) := by
  obtain ⟨_, _, _, hf⟩ := hframe
  have hiff := updateStatus_inProgress_iff t'
  obtain ⟨status, hs⟩ := updateStatus_frame t'
  rw [hs] at hiff ⊢
  subst hf
  exact ⟨_, _, _, status, rfl, hiff⟩

/-- A player who joins takes nobody else's seat. -/
theorem Holds.addPlayer (h : t.Holds q d) (hc : t.Admits c) (hne : q ≠ player) :
    (t.addPlayer player c).1.Holds q d := by
  unfold Holds Admits at *
  unfold Table.addPlayer
  cases c <;> simp only <;> split <;> grind

/-- A seated player who joins again loses his seat. -/
theorem not_holds_addPlayer (h : t.Holds player d) (hc : t.Admits c) (hdistinct : t.SeatsDistinct) :
    ¬ (t.addPlayer player c).1.Holds player d := by
  have hp := hdistinct player
  unfold Holds Admits at *
  unfold Table.addPlayer
  cases c <;> simp only <;> split <;> grind

/-- A player who leaves leaves his own seat. -/
theorem Holds.removePlayer (h : t.Holds q d) (hne : q ≠ player) :
    (t.removePlayer player).Holds q d := by
  unfold Holds at *
  unfold Table.removePlayer
  simp only
  split <;> grind

/-! ## A game that goes on -/

/-- A move that does not end the game leaves it in progress. -/
theorem MoveMade.inProgress {sMove : Bytes} {v : Board.Verdict} {s : GameStatus}
    (hl : t.referee.Lawful) (h : t.MoveMade player sMove v t' s) (ho : ¬ IsOver s) :
    s = .inProgress := by
  obtain ⟨r, p, -, -, hplayed⟩ := Referee.accepted_cases hl h.verdict h.accepted
  have hv : v.status = .inProgress ∨ IsOver v.status := by
    by_cases hex : ∃ p q, Xiangqi.Accepted v.board.placement v.board.nextColor p q
    · exact Or.inl (hplayed.goesOn hex)
    · rw [hplayed.ends hex]
      split
      · exact Or.inr (Or.inl rfl)
      · exact Or.inr (Or.inr (Or.inl rfl))
  obtain ⟨sReason, hcount⟩ := h.counted
  unfold countMove detectLongGameAndPerpetualCheck at hcount
  split at hcount
  · rename_i hwin
    cases hcount
    exact absurd (hwin.imp_right Or.inl) ho
  · -- the counters end the game, or leave the status as it is
    obtain ⟨check, -, hcount⟩ := Lib.bind_eq_ok.mp hcount
    simp only at hcount
    split_ifs at hcount <;> cases hcount <;> first
      | exact hv.resolve_right ho
      | exact absurd (Or.inl rfl) ho
      | exact absurd (Or.inr (Or.inl rfl)) ho
      | exact absurd (Or.inr (Or.inr rfl)) ho

/-- The loser's seat is the one he had. -/
theorem lossOf_eq_winOf (h : t.Holds player c) (hdistinct : t.SeatsDistinct) :
    t.lossOf player = Referee.winOf c.opposite := by
  unfold lossOf
  rcases h with ⟨hc, hred⟩ | ⟨hc, hblack⟩
  · rw [if_pos hred, hc]
    rfl
  · rw [if_neg (fun hred => hdistinct player hred hblack), hc]
    rfl

/-- While the game is on and two moves are made, a seat is lost only by
its player's leaving, which ends the game, or his joining again. -/
theorem Effect.holds {ids : PlayerRef → Bytes} {now : Int} {op : TableOp} {res : Result}
    {e : Option GameStatus} (h : t.Effect ids now op t' res e) (hdistinct : t.SeatsDistinct)
    (hplaying : t.status = .inProgress) (hmoves : 2 ≤ t.moves.length)
    (hjoins : ¬ t.JoinsAgain op) (hheld : t.Holds q d) (hlost : ¬ t'.Holds q d) :
    t'.status = Referee.winOf d.opposite ∧ e = some (Referee.winOf d.opposite) := by
  cases h with
  | refused => exact absurd hheld hlost
  | informed => exact absurd hheld hlost
  | @joined player c hc =>
    have hne : q ≠ player := by
      intro hq
      subst hq
      exact hjoins ⟨hheld.isSeated, hc⟩
    exact absurd (hheld.addPlayer hc hne).updateStatus hlost
  | @left player hgame =>
    have hne : q ≠ player := by
      intro hq
      subst hq
      exact hgame ⟨hplaying, hmoves, hheld.isSeated⟩
    exact absurd (hheld.removePlayer hne).updateStatus hlost
  | @leftGame player =>
    have hq : q = player := by
      by_contra hne
      have hheld' : (t.ended (t.lossOf player)).Holds q d := hheld
      exact hlost (hheld'.removePlayer hne).updateStatus
    subst hq
    have hloss := lossOf_eq_winOf hheld hdistinct
    refine ⟨?_, congrArg some hloss⟩
    have hover : IsOver ((t.ended (t.lossOf q)).removePlayer q).status := by
      rw [removePlayer_status]
      exact isOver_lossOf t q
    rw [updateStatus_of_isOver hover, removePlayer_status]
    exact hloss
  | moveRejected => exact absurd hheld hlost
  | moved hmade =>
    obtain ⟨hred, hblack⟩ := hmade.recorded_seats now t.referee.nextColor
    exact absurd (hheld.of_seats hred hblack) hlost
  | movedLast hmade =>
    obtain ⟨hred, hblack⟩ := hmade.recorded_seats now t.referee.nextColor
    exact absurd (hheld.of_seats hred hblack) hlost
  | resigned => exact absurd hheld hlost
  | drawOffered => exact absurd hheld hlost
  | drawRepeated => exact absurd hheld hlost
  | drawAgreed => exact absurd hheld hlost
  | switched hready =>
    rw [hplaying] at hready
    cases hready
  | notReset => exact absurd hheld hlost
  | restarted hgame => exact absurd ⟨hplaying, hmoves⟩ hgame
  | updated => exact absurd hheld hlost
  | notFlagged => exact absurd hheld hlost
  | flagged => exact absurd hheld hlost

/-! ## The players of a table -/

theorem updateStatus_allPlayers (t : Table) : t.updateStatus.allPlayers = t.allPlayers := by
  obtain ⟨_, hf⟩ := updateStatus_frame t
  rw [hf]

theorem restarted_allPlayers (t : Table) : t.restarted.allPlayers = t.allPlayers :=
  updateStatus_allPlayers { t with status := .open, drawPlayerId := [] }

theorem MoveMade.recorded_allPlayers {sMove : Bytes} {v : Board.Verdict} {s : GameStatus}
    (h : t.MoveMade player sMove v t' s) (now : Int) (c : Color) :
    (t'.recorded now sMove c s).allPlayers = t.allPlayers := by
  obtain ⟨_, _, _, _, _, _, _, _, hrecorded⟩ := h.recorded_eq now c
  rw [hrecorded]

theorem addPlayer_allPlayers (t : Table) (player : PlayerRef) (c : Color) :
    (t.addPlayer player c).1.allPlayers =
      if player ∈ t.allPlayers then t.allPlayers else t.allPlayers ++ [player] := by
  unfold addPlayer
  by_cases hmem : player ∈ t.allPlayers
  · cases c <;> simp [hmem]
  · cases c <;> simp [hmem]

theorem removePlayer_allPlayers (t : Table) (player : PlayerRef) :
    (t.removePlayer player).allPlayers = t.allPlayers.filter (· ≠ player) := by
  unfold removePlayer
  simp only
  split_ifs <;> rfl

theorem mem_addPlayer {p : PlayerRef} {c : Color} :
    p ∈ (t.addPlayer player c).1.allPlayers ↔ p ∈ t.allPlayers ∨ p = player := by
  rw [addPlayer_allPlayers]
  split
  · rename_i hmem
    exact ⟨Or.inl, fun h => h.elim (fun hp => hp) (fun hp => hp ▸ hmem)⟩
  · simp

theorem mem_removePlayer {p : PlayerRef} :
    p ∈ (t.removePlayer player).allPlayers ↔ p ∈ t.allPlayers ∧ p ≠ player := by
  rw [removePlayer_allPlayers]
  simp

/-- **Who is at the table after a call that is granted**: a player who
joins, and those who were there and do not leave. -/
theorem Effect.mem_allPlayers {ids : PlayerRef → Bytes} {now : Int} {op : TableOp} {res : Result}
    {e : Option GameStatus} (h : t.Effect ids now op t' res e) (hres : res = .ok)
    {q : PlayerRef} : q ∈ t'.allPlayers ↔
      (q ∈ t.allPlayers ∧ op ≠ .onLeaveFromPlayer q) ∨ ∃ c, op = .assignPlayerAs q c := by
  cases h with
  | refused hno => exact absurd hres hno
  | @joined player c hc =>
    rw [updateStatus_allPlayers, mem_addPlayer]
    simp [eq_comm]
  | @left player hgame =>
    rw [updateStatus_allPlayers, mem_removePlayer]
    simp [eq_comm]
  | @leftGame player =>
    rw [updateStatus_allPlayers, mem_removePlayer]
    simp [eq_comm, Table.ended]
  | moved hmade =>
    rw [hmade.recorded_allPlayers]
    simp
  | movedLast hmade =>
    have hended : ∀ (t₁ : Table) (s : GameStatus), (t₁.ended s).allPlayers = t₁.allPlayers :=
      fun _ _ => rfl
    rw [hended, hmade.recorded_allPlayers]
    simp
  | restarted =>
    rw [restarted_allPlayers]
    simp
  | _ => simp [Table.ended]

theorem Effect.allPlayers_of_refused {ids : PlayerRef → Bytes} {now : Int} {op : TableOp}
    {res : Result} {e : Option GameStatus} (h : t.Effect ids now op t' res e) (hres : res ≠ .ok) :
    t'.allPlayers = t.allPlayers := by
  cases h with
  | refused => rfl
  | moveRejected => rfl
  | _ => exact absurd rfl hres

/-- A table keeps its id. -/
theorem Effect.id {ids : PlayerRef → Bytes} {now : Int} {op : TableOp} {res : Result}
    {e : Option GameStatus} (h : t.Effect ids now op t' res e) : t'.id = t.id := by
  have hseats : ∀ {t₁ t₂ : Table}, (∃ allPlayers redPlayer blackPlayer,
      t₂ = { t₁ with allPlayers, redPlayer, blackPlayer }) → t₂.updateStatus.id = t₁.id := by
    intro t₁ t₂ hframe
    obtain ⟨_, _, _, _, he, -⟩ := reseated_eq hframe
    rw [he]
  cases h with
  | @joined player c => exact hseats (t.addPlayer_frame player c)
  | @left player => exact hseats (t.removePlayer_frame player)
  | @leftGame player =>
    have hleft : ((t.ended (t.lossOf player)).removePlayer player).updateStatus.id =
        (t.ended (t.lossOf player)).id := hseats (removePlayer_frame _ player)
    exact hleft
  | moved hmade =>
    obtain ⟨_, _, _, _, _, _, _, _, hrecorded⟩ := hmade.recorded_eq now t.referee.nextColor
    rw [hrecorded]
  | movedLast hmade =>
    obtain ⟨_, _, _, _, _, _, _, _, hrecorded⟩ := hmade.recorded_eq now t.referee.nextColor
    rw [hrecorded]
    rfl
  | restarted =>
    obtain ⟨_, hs⟩ := updateStatus_frame { t with status := .open, drawPlayerId := [] }
    have hid := congrArg Table.id hs
    exact hid
  | _ => rfl

/-! ## An offer of a draw -/

/-- An offer of a draw is pending only in a game that is on, and a seated
player out of `asked` has made it. -/
def OfferMade (ids : PlayerRef → Bytes) (t : Table) (asked : List PlayerRef) : Prop :=
  t.drawPlayerId ≠ [] → t.status = .inProgress ∧
    ∃ o, ids o = t.drawPlayerId ∧ t.isSeated o = true ∧ o ∈ asked

theorem OfferMade.mono {ids : PlayerRef → Bytes} {asked asked' : List PlayerRef}
    (h : t.OfferMade ids asked) (hsub : asked ⊆ asked') : t.OfferMade ids asked' := by
  intro hd
  obtain ⟨hplaying, o, ho, hseated, hmem⟩ := h hd
  exact ⟨hplaying, o, ho, hseated, hsub hmem⟩

theorem offerMade_of_nil {ids : PlayerRef → Bytes} {asked : List PlayerRef}
    (hd : t.drawPlayerId = []) : t.OfferMade ids asked :=
  fun hne => absurd hd hne

/-- The offer stays when its maker stays seated and the game stays on. -/
theorem OfferMade.keep {ids : PlayerRef → Bytes} {asked : List PlayerRef}
    (h : t.OfferMade ids asked) (hd : t'.drawPlayerId = t.drawPlayerId)
    (hstatus : t.status = .inProgress → t'.status = .inProgress)
    (hseats : ∀ o, t.drawPlayerId ≠ [] → ids o = t.drawPlayerId → t.isSeated o = true →
      t'.isSeated o = true) : t'.OfferMade ids asked := by
  intro hne
  rw [hd] at hne
  obtain ⟨hplaying, o, ho, hseated, hmem⟩ := h hne
  exact ⟨hstatus hplaying, o, by rw [ho, hd], hseats o hne ho hseated, hmem⟩

theorem updateStatus_drawPlayerId (t : Table) : t.updateStatus.drawPlayerId = t.drawPlayerId := by
  obtain ⟨_, hf⟩ := updateStatus_frame t
  rw [hf]

theorem addPlayer_drawPlayerId (t : Table) (player : PlayerRef) (c : Color) :
    (t.addPlayer player c).1.drawPlayerId = t.drawPlayerId := by
  obtain ⟨_, _, _, hf⟩ := addPlayer_frame t player c
  rw [hf]

theorem removePlayer_drawPlayerId (t : Table) (player : PlayerRef) :
    (t.removePlayer player).drawPlayerId = t.drawPlayerId := by
  obtain ⟨_, _, _, hf⟩ := removePlayer_frame t player
  rw [hf]

theorem restarted_drawPlayerId (t : Table) : t.restarted.drawPlayerId = [] :=
  updateStatus_drawPlayerId { t with status := .open, drawPlayerId := [] }

theorem recorded_drawPlayerId (t : Table) (now : Int) (sMove : Bytes) (c : Color)
    (s : GameStatus) : (t.recorded now sMove c s).drawPlayerId = t.drawPlayerId := by
  obtain ⟨_, _, _, _, hrecorded⟩ := t.recorded_eq now sMove c s
  rw [hrecorded]

theorem MoveMade.drawPlayerId {sMove : Bytes} {v : Board.Verdict} {s : GameStatus}
    (h : t.MoveMade player sMove v t' s) : t'.drawPlayerId = t.drawPlayerId := by
  obtain ⟨_, _, _, _, hmade⟩ := h.eq
  rw [hmade]

/-- Every call but those that drop the offer keeps it with its maker. -/
theorem OfferMade.effect {ids : PlayerRef → Bytes} {now : Int} {op : TableOp} {res : Result}
    {e : Option GameStatus} {asked : List PlayerRef} (h : t.OfferMade ids asked)
    (hl : t.referee.Lawful) (heffect : t.Effect ids now op t' res e)
    (hdrops : ¬ t.DropsOffer ids op) (hasks : ∀ p, op = .handleDrawRequest p →
      t.status = .inProgress → t.isSeated p = true → p ∈ asked) :
    t'.OfferMade ids asked := by
  cases heffect with
  | refused => exact h
  | informed => exact h
  | @joined player c hc =>
    refine h.keep ?_ (fun hplaying => ?_) (fun o hd ho hseated => ?_)
    · rw [updateStatus_drawPlayerId, addPlayer_drawPlayerId]
    · rw [updateStatus_inProgress_iff, addPlayer_status]
      exact hplaying
    · have hne : o ≠ player := by
        intro heq
        subst heq
        exact hdrops ⟨hd, ho, hseated, hc⟩
      obtain ⟨d, hheld⟩ := exists_holds hseated
      exact (hheld.addPlayer hc hne).updateStatus.isSeated
  | @left player hgame =>
    refine h.keep ?_ (fun hplaying => ?_) (fun o hd ho hseated => ?_)
    · rw [updateStatus_drawPlayerId, removePlayer_drawPlayerId]
    · rw [updateStatus_inProgress_iff, removePlayer_status]
      exact hplaying
    · have hne : o ≠ player := by
        intro heq
        subst heq
        refine hdrops ⟨hd, ho, hseated, ?_⟩
        by_contra hmoves
        exact hgame ⟨(h hd).1, Nat.not_lt.mp hmoves, hseated⟩
      obtain ⟨d, hheld⟩ := exists_holds hseated
      exact (hheld.removePlayer hne).updateStatus.isSeated
  | leftGame =>
    refine offerMade_of_nil ?_
    rw [updateStatus_drawPlayerId, removePlayer_drawPlayerId]
    rfl
  | moveRejected => exact h
  | moved hmade hover =>
    obtain ⟨hred, hblack⟩ := hmade.recorded_seats now t.referee.nextColor
    obtain ⟨-, -, hstatus, -, -⟩ := recorded_frame _ now _ t.referee.nextColor _
    refine h.keep ?_ (fun _ => ?_) (fun o _ _ hseated => ?_)
    · rw [recorded_drawPlayerId, hmade.drawPlayerId]
    · rw [hstatus]
      exact hmade.inProgress hl hover
    · rw [isSeated_of_seats hred hblack]
      exact hseated
  | movedLast => exact offerMade_of_nil rfl
  | resigned => exact offerMade_of_nil rfl
  | @drawOffered player hplaying hseated =>
    intro _
    exact ⟨hplaying, player, rfl, hseated, hasks player rfl hplaying hseated⟩
  | drawRepeated => exact h
  | drawAgreed => exact offerMade_of_nil rfl
  | @switched player red hready hr hb =>
    refine h.keep rfl (fun hplaying => hplaying) (fun o _ _ hseated => ?_)
    rw [isSeated_iff] at hseated ⊢
    rw [hr] at hseated
    exact hseated.symm
  | notReset => exact h
  | restarted => exact offerMade_of_nil t.restarted_drawPlayerId
  | updated => exact h
  | notFlagged => exact h
  | flagged => exact offerMade_of_nil rfl

end Table

namespace World

variable {w w' : World} {now : Int} {op : TableOp} {player : PlayerRef} {res : Result}

theorem reachable_seatsDistinct (h : Table.machine.Reachable w) : w.table.SeatsDistinct := by
  have hboth : w.table.Replays ∧ w.table.SeatsDistinct := by
    refine h.invariant (I := fun w => w.table.Replays ∧ w.table.SeatsDistinct) ?_ ?_
    · intro w hw
      obtain ⟨id, initialTime, players, hw⟩ := hw
      rw [hw]
      exact ⟨(seated_new id initialTime players).replays, (seated_new id initialTime players).distinct⟩
    · intro w op w' hw hstep
      obtain ⟨res, hcall⟩ := step_eq.mp hstep
      obtain ⟨e, hcalled⟩ := call_called hw.1.lawful hcall
      exact ⟨hw.1.effect hcalled.effect, hw.2.effect hcalled.effect⟩
  exact hboth.2

/-- What is left of a move that is accepted. -/
theorem acceptMove_made {sMove : Bytes} (h : Table.machine.Reachable w)
    (hcall : w.acceptMove now player sMove = .ok (w', .ok)) :
    ∃ v t s, w.table.MoveMade player sMove v t s ∧
      ((¬ Table.IsOver s ∧ w'.table = t.recorded now sMove w.table.referee.nextColor s) ∨
        (Table.IsOver s ∧
          w'.table = (t.recorded now sMove w.table.referee.nextColor s).ended s ∧
          w'.ends = w.ends ++ [⟨w.table.redPlayer, w.table.blackPlayer, s⟩])) := by
  have hcall' : w.call now (.acceptMove player sMove) = .ok (w', .ok) := hcall
  obtain ⟨e, hcalled⟩ := call_called (reachable_replays h).lawful hcall'
  have heffect := hcalled.effect
  have hends := hcalled.ends
  generalize w'.table = table at heffect ⊢
  cases heffect with
  | refused hres => exact absurd rfl hres
  | moved hmade hover => exact ⟨_, _, _, hmade, Or.inl ⟨hover, rfl⟩⟩
  | movedLast hmade hover =>
    exact ⟨_, _, _, hmade, Or.inr ⟨hover, rfl, by simpa using hends⟩⟩

/-! ## A seat given up in the game -/

theorem assignPlayerAs_table (w : World) (now : Int) (player : PlayerRef) {c : Color}
    (hc : w.table.Admits c) :
    (w.assignPlayerAs now player c).1.table = (w.table.addPlayer player c).1.updateStatus := by
  unfold Table.Admits at hc
  unfold assignPlayerAs
  simp only [decide_eq_true_eq]
  rw [if_pos hc]
  split
  · obtain ⟨es, hes⟩ := sendInfoToPlayer_eq
      ((w.postAllJoinEvent player c).setTable (w.table.addPlayer player c).1) now player
    simp only [postAllJoinEvent, postAll_table] at hes ⊢
    rw [hes]
    rfl
  · rfl

/-- **A seat given up in the game is a lost game**, whatever the call,
exactly when it is not a seated player's joining again. -/
theorem seat_lost_is_game_lost_iff (h : Table.machine.Reachable w)
    (hplaying : w.table.status = .inProgress) (hmoves : 2 ≤ w.table.moves.length) (now : Int)
    (op : TableOp) :
    (∀ w' res, w.call now op = .ok (w', res) → ∀ player c, w.table.Holds player c →
      ¬ w'.table.Holds player c → w'.table.status = Referee.winOf c.opposite ∧
        w'.ends = w.ends ++
          [⟨w.table.redPlayer, w.table.blackPlayer, Referee.winOf c.opposite⟩]) ↔
      ¬ w.table.JoinsAgain op := by
  have hl := (reachable_replays h).lawful
  have hdistinct := reachable_seatsDistinct h
  constructor
  · intro hlaw hjoins
    cases op with
    | assignPlayerAs player c =>
      obtain ⟨hseated, hc⟩ := hjoins
      obtain ⟨d, hheld⟩ := Table.exists_holds hseated
      have hcalled := w.assignPlayerAs_called now player c
      have hends : (w.assignPlayerAs now player c).1.ends = w.ends := by
        rw [hcalled.ends]
        simp
      have hlost : ¬ (w.assignPlayerAs now player c).1.table.Holds player d := by
        rw [assignPlayerAs_table w now player hc]
        intro hheld'
        exact Table.not_holds_addPlayer hheld hc hdistinct
          (hheld'.of_seats (Table.updateStatus_redPlayer _).symm
            (Table.updateStatus_blackPlayer _).symm)
      have hwon := (hlaw (w.assignPlayerAs now player c).1 (w.assignPlayerAs now player c).2 rfl
        player d hheld hlost).2
      rw [hends] at hwon
      simp at hwon
    | _ => exact hjoins
  · intro hjoins w' res hcall player c hheld hlost
    obtain ⟨e, hcalled⟩ := call_called hl hcall
    obtain ⟨hstatus, he⟩ := hcalled.effect.holds hdistinct hplaying hmoves hjoins hheld hlost
    refine ⟨hstatus, ?_⟩
    rw [hcalled.ends, he]
    rfl

/-- Both players have moved. -/
def started : List (Int × TableOp) := opening ++ [(0, .acceptMove 2 (bytes "4041"))]

/-- RED leaves the table and loses. -/
theorem seat_lost_is_game_lost_iff_leave : ∃ w w',
    Table.machine.run (new (bytes "t") {} twoPlayers) started = .ok w ∧
      w.call 0 (.onLeaveFromPlayer 1) = .ok (w', .ok) ∧ w'.table.redPlayer = none ∧
      w'.table.status = .blackWin ∧
      w'.ends = w.ends ++ [⟨w.table.redPlayer, w.table.blackPlayer, .blackWin⟩] := by
  have hrun : (Table.machine.run (new (bytes "t") {} twoPlayers) started).map
      (fun w => ((w.table.status, w.table.moves.length, w.table.redPlayer),
        (w.call 0 (.onLeaveFromPlayer 1)).map (fun r => (r.2, r.1.table.redPlayer)))) =
      .ok ((.inProgress, 2, some 1), .ok (.ok, none)) := by decide +kernel
  obtain ⟨w, hw, he⟩ := Lib.map_eq_ok.mp hrun
  simp only [Prod.mk.injEq] at he
  obtain ⟨⟨hstatus, hmoves, hred⟩, hleave⟩ := he
  obtain ⟨⟨w', res⟩, hcall, hleft⟩ := Lib.map_eq_ok.mp hleave
  obtain ⟨rfl, hnone⟩ := Prod.mk.inj hleft
  have hlost := (seat_lost_is_game_lost_iff (reachable_of_run hw) hstatus hmoves.ge 0
    (.onLeaveFromPlayer 1)).mpr id w' .ok hcall 1 .red (Or.inl ⟨rfl, hred⟩)
  refine ⟨w, w', hw, hcall, hnone, hlost ?_⟩
  rintro (⟨-, hheld⟩ | ⟨hblack, -⟩)
  · rw [hnone] at hheld
    cases hheld
  · cases hblack

/-- RED joins again as an observer: his seat is empty and the game is on. -/
theorem seat_given_up_for_nothing : ∃ w w',
    Table.machine.run (new (bytes "t") {} twoPlayers) started = .ok w ∧
      w.table.status = .inProgress ∧ w.table.moves.length = 2 ∧ w.table.redPlayer = some 1 ∧
      w.call 0 (.assignPlayerAs 1 .none) = .ok (w', .ok) ∧
      w'.table.redPlayer = none ∧ w'.table.status = .inProgress ∧ w'.ends = [] := by
  have hrun : (Table.machine.run (new (bytes "t") {} twoPlayers) started).map
      (fun w => (w.table.status, w.table.moves.length, w.table.redPlayer)) =
      .ok (.inProgress, 2, some 1) := by decide +kernel
  have hagain : (Table.machine.run (new (bytes "t") {} twoPlayers) started).map
      (fun w => (w.call 0 (.assignPlayerAs 1 .none)).map (fun r =>
        (r.2, r.1.table.redPlayer, r.1.table.status, r.1.ends))) =
      .ok (.ok (.ok, none, .inProgress, [])) := by decide +kernel
  obtain ⟨w, hw, he⟩ := Lib.map_eq_ok.mp hrun
  rw [hw] at hagain
  obtain ⟨⟨w', res⟩, hcall, he'⟩ := Lib.map_eq_ok.mp (Except.ok.inj hagain)
  simp only [Prod.mk.injEq] at he he'
  rw [he'.1] at hcall
  exact ⟨w, w', hw, he.1, he.2.1, he.2.2, hcall, he'.2.1, he'.2.2.1, he'.2.2.2⟩

/-! ## A draw by agreement -/

/-- Who has asked for a draw since the game last started: a request is
recorded when it is not refused. -/
def recordAsked (w : World) (op : Int × TableOp) (asked : List PlayerRef) : List PlayerRef :=
  match op.2 with
  | .handleDrawRequest player =>
    if w.table.status = .inProgress ∧ w.table.isSeated player = true then player :: asked
    else asked
  | .handleResetRequest player => if w.table.ResetBy player then [] else asked
  | _ => asked

theorem handleResetRequest_of_resetBy (h : w.table.ResetBy player) :
    w.handleResetRequest player = .ok (w.onGameReset, .ok) := by
  obtain ⟨hseated, hgame, hready, hopen⟩ := h
  rw [Table.isSeated_iff] at hseated
  unfold handleResetRequest
  simp only [decide_eq_true_eq, ge_iff_le]
  rw [if_neg hgame, if_neg (fun hn => hseated.elim hn.1 hn.2), if_neg (fun hr => hready hr.2),
    if_neg (fun hi => hi.elim hready hopen)]

/-- What holds along a run in which no offer is dropped. -/
structure DrawKept (w : World) (asked : List PlayerRef) : Prop where
  replays : w.table.Replays
  distinct : w.table.SeatsDistinct
  offer : w.table.OfferMade w.idOf asked

theorem DrawKept.step {op : Int × TableOp} {asked : List PlayerRef} (h : w.DrawKept asked)
    (hdrops : ¬ w.table.DropsOffer w.idOf op.2) (hstep : Table.machine.step w op = .ok w') :
    w'.DrawKept (w.recordAsked op asked) := by
  obtain ⟨now, op⟩ := op
  obtain ⟨res, hcall⟩ := step_eq.mp hstep
  obtain ⟨e, hcalled⟩ := call_called h.replays.lawful hcall
  refine ⟨h.replays.effect hcalled.effect, h.distinct.effect hcalled.effect, ?_⟩
  by_cases hreset : ∃ player, op = .handleResetRequest player ∧ w.table.ResetBy player
  · obtain ⟨player, hop, hby⟩ := hreset
    subst hop
    have hw : w.onGameReset = w' := by
      have hcall' := (handleResetRequest_of_resetBy hby).symm.trans hcall
      exact congrArg Prod.fst (Except.ok.inj hcall')
    rw [← hw]
    exact Table.offerMade_of_nil w.table.restarted_drawPlayerId
  · -- nothing recorded before is lost
    have hsub : asked ⊆ w.recordAsked (now, op) asked := by
      intro p hp
      cases op with
      | handleDrawRequest player =>
        simp only [recordAsked]
        split
        · exact List.mem_cons_of_mem _ hp
        · exact hp
      | handleResetRequest player =>
        simp only [recordAsked]
        rw [if_neg (fun hby => hreset ⟨player, rfl, hby⟩)]
        exact hp
      | _ => exact hp
    rw [hcalled.ids]
    refine (h.offer.mono hsub).effect h.replays.lawful hcalled.effect hdrops ?_
    intro p hop hplaying hseated
    subst hop
    simp only [recordAsked]
    rw [if_pos ⟨hplaying, hseated⟩]
    exact List.mem_cons_self

/-- **A draw by agreement is asked for by both players.** In a run in
which no player gives up his seat with his offer pending, a DRAW request
that ends the game finds in the two seats players who have both asked for
a draw since the game started. -/
theorem draw_asked_by_both {id : Bytes} {initialTime : TimeInfo} {players : PlayerRef → Player}
    {ops : List (Int × TableOp)}
    (hmeets : Table.machine.Meets (fun w op => ¬ w.table.DropsOffer w.idOf op.2)
      (new id initialTime players) ops)
    (hrun : Table.machine.run (new id initialTime players) ops = .ok w)
    (hcall : w.call now (.handleDrawRequest player) = .ok (w', res)) (hends : w'.ends ≠ w.ends) :
    ∃ red black, w.table.redPlayer = some red ∧ w.table.blackPlayer = some black ∧
      ∀ p, p = red ∨ p = black → p ∈ w.recordAsked (now, .handleDrawRequest player)
        (Table.machine.history recordAsked (new id initialTime players) [] ops) := by
  have hstart : (new id initialTime players).DrawKept [] :=
    ⟨(seated_new id initialTime players).replays, (seated_new id initialTime players).distinct,
      Table.offerMade_of_nil rfl⟩
  have hkept : w.DrawKept (Table.machine.history recordAsked (new id initialTime players) [] ops) :=
    hmeets.history (fun _ _ _ _ h hdrops hstep => h.step hdrops hstep) hstart hrun
  obtain ⟨e, hcalled⟩ := call_called hkept.replays.lawful hcall
  have he : e ≠ none := by
    intro he
    refine hends ?_
    rw [hcalled.ends, he]
    simp
  have heffect := hcalled.effect
  generalize w'.table = t' at heffect
  cases heffect with
  | refused => exact absurd rfl he
  | drawOffered => exact absurd rfl he
  | drawRepeated => exact absurd rfl he
  | drawAgreed hplaying hseated hd hne =>
    obtain ⟨-, o, ho, hseated', hmem⟩ := hkept.offer hd
    have hother : o ≠ player := by
      intro heq
      subst heq
      exact hne ho
    simp only [recordAsked, hplaying, hseated, and_self, if_true]
    rw [Table.isSeated_iff] at hseated hseated'
    rcases hseated with hred | hblack
    · have hblack := hseated'.resolve_left (fun hred' => hother (Option.some.inj (hred'.symm.trans hred)))
      exact ⟨player, o, hred, hblack, by simp [hmem]⟩
    · have hred := hseated'.resolve_right
        (fun hblack' => hother (Option.some.inj (hblack'.symm.trans hblack)))
      exact ⟨o, player, hred, hblack, by simp [hmem]⟩

/-- RED offers a draw. -/
def drawOffered : List (Int × TableOp) := opening ++ [(0, .handleDrawRequest 1)]

theorem draw_asked_by_both_agreed : ∃ w w',
    Table.machine.run (new (bytes "t") {} twoPlayers) drawOffered = .ok w ∧
      w.call 0 (.handleDrawRequest 2) = .ok (w', .ok) ∧
      ∃ red black, w.table.redPlayer = some red ∧ w.table.blackPlayer = some black ∧
        ∀ p, p = red ∨ p = black → p ∈ w.recordAsked (0, .handleDrawRequest 2)
          (Table.machine.history recordAsked (new (bytes "t") {} twoPlayers) [] drawOffered) := by
  have hdraw : (Table.machine.run (new (bytes "t") {} twoPlayers) drawOffered).map
      (fun w => (w.call 0 (.handleDrawRequest 2)).map (fun r =>
        (r.2, w.ends, r.1.ends.length))) = .ok (.ok (.ok, [], 1)) := by decide +kernel
  obtain ⟨w, hw, hdraw⟩ := Lib.map_eq_ok.mp hdraw
  obtain ⟨⟨w', res⟩, hcall, he⟩ := Lib.map_eq_ok.mp hdraw
  simp only [Prod.mk.injEq] at he
  rw [he.1] at hcall
  have hmeets : Table.machine.Meets (fun w op => ¬ w.table.DropsOffer w.idOf op.2)
      (new (bytes "t") {} twoPlayers) drawOffered := by decide +kernel
  refine ⟨w, w', hw, hcall, draw_asked_by_both hmeets hw hcall ?_⟩
  intro hends
  rw [hends, he.2.1] at he
  simp at he

/-- RED offers a draw, goes over to the observers, and player 3 takes his
seat: BLACK's request ends the game, though 3 has not asked for a draw. -/
theorem draw_not_asked_by_red : ∃ w w',
    Table.machine.run (new (bytes "t") {} twoPlayers)
        (drawOffered ++ [(0, .assignPlayerAs 1 .none), (0, .assignPlayerAs 3 .red)]) = .ok w ∧
      w.table.redPlayer = some 3 ∧ w.call 0 (.handleDrawRequest 2) = .ok (w', .ok) ∧
      w'.table.status = .drawn ∧ 3 ∉ w.recordAsked (0, .handleDrawRequest 2)
        (Table.machine.history recordAsked (new (bytes "t") {} twoPlayers) []
          (drawOffered ++ [(0, .assignPlayerAs 1 .none), (0, .assignPlayerAs 3 .red)])) := by
  have hdraw : (Table.machine.run (new (bytes "t") {} twoPlayers)
      (drawOffered ++ [(0, .assignPlayerAs 1 .none), (0, .assignPlayerAs 3 .red)])).map
      (fun w => (w.call 0 (.handleDrawRequest 2)).map (fun r =>
        (r.2, w.table.redPlayer, r.1.table.status))) = .ok (.ok (.ok, some 3, .drawn)) := by
    decide +kernel
  have hasked : (Table.machine.run (new (bytes "t") {} twoPlayers)
      (drawOffered ++ [(0, .assignPlayerAs 1 .none), (0, .assignPlayerAs 3 .red)])).map
      (fun w => w.recordAsked (0, .handleDrawRequest 2)
        (Table.machine.history recordAsked (new (bytes "t") {} twoPlayers) []
          (drawOffered ++ [(0, .assignPlayerAs 1 .none), (0, .assignPlayerAs 3 .red)]))) =
      .ok [2, 1] := by decide +kernel
  obtain ⟨w, hw, hdraw⟩ := Lib.map_eq_ok.mp hdraw
  obtain ⟨⟨w', res⟩, hcall, he⟩ := Lib.map_eq_ok.mp hdraw
  simp only [Prod.mk.injEq] at he
  rw [he.1] at hcall
  refine ⟨w, w', hw, he.2.1, hcall, he.2.2, ?_⟩
  simp only [hw, Except.map, Except.ok.injEq] at hasked
  rw [hasked]
  decide

end World

end HoxServer
