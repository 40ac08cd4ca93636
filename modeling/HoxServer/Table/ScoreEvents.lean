/-
HoxServer.Table.ScoreEvents — which new scores are told.

`_calculateNewScores` writes the scores, and `_onGameEnded` posts them if
`_recordGameResult` says that they have changed. For a drawn game it says
they have not, since the case falls through into `default`. A draw that
changes the scores is then not told, and `scores_announced_iff` says
which draws these are.

The scores are posted by `_onGameEnded` only, so the law is about
`recordEnd` and carried over to the calls that end a game
(`call_endsGame`).
-/
import HoxServer.Table.EloTheorems
import HoxServer.Table.Finished
import HoxServer.Table.Status

namespace HoxServer

/-! ## Draws -/

/-- A draw that leaves both ratings as they are: the players are rated
alike, or nearly so and the K-factor is the smallest. -/
def EvenDraw (nKFactor advantage : Int) : Prop :=
  |advantage| < 50 ∨ (nKFactor = 10 ∧ |advantage| < 100)

instance (nKFactor advantage : Int) : Decidable (EvenDraw nKFactor advantage) :=
  inferInstanceAs (Decidable (_ ∨ _))

theorem eloDrawChange_of_nonneg {nKFactor advantage : Int}
    (hk : nKFactor = 25 ∨ nKFactor = 15 ∨ nKFactor = 10) (h : 0 ≤ advantage) :
    eloDrawChange nKFactor advantage = 0 ↔
      advantage < 50 ∨ (nKFactor = 10 ∧ advantage < 100) := by
  have hchange : eloDrawChange nKFactor advantage =
      -(nKFactor * (eloExpectedResult advantage - 50) / 100) := by
    have hexpected : eloExpectedResult 0 ≤ eloExpectedResult advantage := eloExpectedResult_mono h
    have hzero : eloExpectedResult 0 = 50 := by decide
    have hneg : 50 - eloExpectedResult advantage = -(eloExpectedResult advantage - 50) := by ring
    rw [eloDrawChange, hneg, mul_neg, tdiv_neg_left,
      Int.tdiv_eq_ediv_of_nonneg (mul_nonneg (by omega) (by omega))]
  rw [hchange]
  -- the rows of the table around the two bounds
  rcases lt_or_ge advantage 50 with hlow | hlow
  · have hmono := eloExpectedResult_mono (show advantage ≤ 49 by omega)
    have hmono' := eloExpectedResult_mono h
    rw [show eloExpectedResult 49 = 53 by decide] at hmono
    rw [show eloExpectedResult 0 = 50 by decide] at hmono'
    rcases hk with rfl | rfl | rfl <;> omega
  · have hmono := eloExpectedResult_mono hlow
    rw [show eloExpectedResult 50 = 57 by decide] at hmono
    rcases lt_or_ge advantage 100 with hmid | hmid
    · have hmono' := eloExpectedResult_mono (show advantage ≤ 99 by omega)
      rw [show eloExpectedResult 99 = 57 by decide] at hmono'
      rcases hk with rfl | rfl | rfl <;> omega
    · have hmono' := eloExpectedResult_mono hmid
      rw [show eloExpectedResult 100 = 64 by decide] at hmono'
      rcases hk with rfl | rfl | rfl <;> omega

theorem eloDrawChange_eq_zero_iff {nKFactor : Int}
    (hk : nKFactor = 25 ∨ nKFactor = 15 ∨ nKFactor = 10) (advantage : Int) :
    eloDrawChange nKFactor advantage = 0 ↔ EvenDraw nKFactor advantage := by
  unfold EvenDraw
  rcases le_or_gt 0 advantage with h | h
  · rw [abs_of_nonneg h, eloDrawChange_of_nonneg hk h]
  · rw [abs_of_neg h, ← eloDrawChange_of_nonneg hk (by omega), eloDrawChange_neg, neg_eq_zero]

/-- The draws that change no score: the rounding leaves none of the others
without a change. -/
theorem ratingChange_drawn_eq_zero_iff {red black : Player} :
    World.ratingChange red black .drawn = 0 ↔
      EvenDraw (gameKFactor red black) (red.score - black.score) := by
  have hk : gameKFactor red black = 25 ∨ gameKFactor red black = 15 ∨ gameKFactor red black = 10 :=
    eloCalculateKFactor_cases _ _
  rw [← eloDrawChange_eq_zero_iff hk, ratingChange_eq, exactRatingChange_drawn, if_neg (by simp),
    sub_eq_zero]
  unfold eloDrawChange roundingLoss
  split_ifs with hlow hhigh
  · rw [hlow.2]
    rcases hk with hk | hk | hk <;> rw [hk] <;> decide
  · rw [hhigh.2]
    rcases hk with hk | hk | hk <;> rw [hk] <;> decide
  · rfl

namespace World

variable {w w' : World} {now : Int} {op : TableOp} {red black : PlayerRef} {res : Result}
  {status : GameStatus} {sReason : Bytes}

/-! ## The events of a game that is recorded -/

/-- A score of a player, told to everyone at the table. -/
def scoreEvents (w : World) (player : PlayerRef) (score : Int) : List (PlayerRef × Event) :=
  w.table.allPlayers.map (·, .eScore w.table.id (w.idOf player) score)

theorem scoreEvents_congr (hid : w'.table.id = w.table.id)
    (hall : w'.table.allPlayers = w.table.allPlayers) (hids : w'.idOf = w.idOf) :
    w'.scoreEvents = w.scoreEvents := by
  funext p score
  unfold scoreEvents
  rw [hid, hall, hids]

/-- What `recordEnd` leaves: the new scores, and their events unless the
game is drawn. -/
structure Told (w : World) (red black : PlayerRef) (w' : World) : Prop where
  redScore : (w'.players red).score = (w.players red).score +
    ratingChange (w.players red) (w.players black) w.table.status
  blackScore : (w'.players black).score = (w.players black).score -
    ratingChange (w.players red) (w.players black) w.table.status
  others : ∀ p, p ≠ red → p ≠ black → w'.players p = w.players p
  posted : w'.posted = w.posted ++ if w.table.status = .drawn then [] else
    w.scoreEvents red (w'.players red).score ++ w.scoreEvents black (w'.players black).score

theorem recordGameResult_told (hover : Table.IsOver w.table.status) (red black : PlayerRef) :
    (w.recordGameResult red black).1.posted = w.posted ∧
      (w.recordGameResult red black).2 = decide (w.table.status ≠ .drawn) := by
  have hstatus : (w.calculateNewScores red black).table.status = w.table.status := rfl
  unfold recordGameResult
  simp only [hstatus]
  rcases hover with h | h | h <;> simp only [h] <;> exact ⟨rfl, rfl⟩

theorem recordGameResult_scores (hne : red ≠ black) (hover : Table.IsOver w.table.status) :
    ((w.recordGameResult red black).1.players red).score = (w.players red).score +
        ratingChange (w.players red) (w.players black) w.table.status ∧
      ((w.recordGameResult red black).1.players black).score = (w.players black).score -
        ratingChange (w.players red) (w.players black) w.table.status := by
  have hscore : ∀ (o : Outcome) (p : Player), (o.count p).score = p.score := by
    intro o p
    cases o <;> rfl
  rw [recordGameResult_of_isOver hover]
  refine ⟨?_, ?_⟩
  · simp [setPlayerInfo, updatePlayer, calculateNewScores, changeScores, addScore, hne, hscore]
  · simp [setPlayerInfo, updatePlayer, calculateNewScores, changeScores, addScore, hne.symm, hscore,
      sub_eq_add_neg]

theorem recordEnd_told (hne : red ≠ black) (hover : Table.IsOver w.table.status) :
    w.Told red black (w.recordEnd red black) := by
  obtain ⟨hred, hblack⟩ := recordGameResult_scores hne hover
  obtain ⟨_, _, -, -, hothers, -⟩ := recordGameResult_countedOnce hne hover
  obtain ⟨hposted, hchanged⟩ := recordGameResult_told hover red black
  have hsame := w.sameTable_recordGameResult red black
  by_cases hdrawn : w.table.status = .drawn
  · have heq : w.recordEnd red black = (w.recordGameResult red black).1 := by
      unfold recordEnd
      simp [hchanged, hdrawn]
    rw [heq]
    exact ⟨hred, hblack, hothers, by simp [hposted, hdrawn]⟩
  · have heq : w.recordEnd red black =
        ((w.recordGameResult red black).1.postAllScoreEvent red).postAllScoreEvent black := by
      unfold recordEnd
      simp [hchanged, hdrawn]
    rw [heq]
    refine ⟨hred, hblack, hothers, ?_⟩
    have hevents : (w.recordGameResult red black).1.scoreEvents = w.scoreEvents :=
      scoreEvents_congr (congrArg Table.id hsame.table) (congrArg Table.allPlayers hsame.table)
        hsame.ids
    rw [if_neg hdrawn, ← hposted, ← List.append_assoc, ← hevents]
    rfl

/-! ## The calls that end a game -/

/-- What a call that ends a game posts: the scores, among events that are
no scores. -/
theorem call_told (h : Table.machine.Reachable w) (hcall : w.call now op = .ok (w', res))
    (hends : w'.ends = w.ends ++ [⟨some red, some black, status⟩])
    (hrated : w.table.gameType = .rated) (hred : (w.players red).type ≠ .guest)
    (hblack : (w.players black).type ≠ .guest) :
    w.table.redPlayer = some red ∧ w.table.blackPlayer = some black ∧
    ((w'.players red).score = (w.players red).score +
        ratingChange (w.players red) (w.players black) status ∧
      (w'.players black).score = (w.players black).score -
        ratingChange (w.players red) (w.players black) status ∧
      ∀ p, p ≠ red → p ≠ black → w'.players p = w.players p) ∧
    ∃ es es', (∀ x ∈ es, ¬ x.2.IsScore) ∧ (∀ x ∈ es', ¬ x.2.IsScore) ∧
      w'.posted = w.posted ++ (es ++ (if status = .drawn then [] else
        w.scoreEvents red (w'.players red).score ++
          w.scoreEvents black (w'.players black).score) ++ es') := by
  obtain ⟨hover, -⟩ := isOver_of_ends h hcall hends
  obtain ⟨w₁, w₂, s, sReason, hw₁, hend, hsame, hends', es', hes', hnone'⟩ :=
    call_endsGame hcall (by rw [hends]; simp)
  have hlast : w'.ends = w.ends ++ [⟨w.table.redPlayer, w.table.blackPlayer, s⟩] := by
    rw [hends', (onGameEnded_ended hend).ends, hw₁.ends, hw₁.redPlayer, hw₁.blackPlayer]
  have hwho := List.singleton_inj.mp (List.append_cancel_left (hlast.symm.trans hends))
  simp only [GameEnd.mk.injEq] at hwho
  obtain ⟨hr, hb, rfl⟩ := hwho
  -- the world in which the result is recorded
  have hdistinct : w₁.table.SeatsDistinct :=
    (reachable_seatsDistinct h).of_seats hw₁.redPlayer hw₁.blackPlayer
  have hrecord := onGameEnded_recordEnd hend
    (hw₁.gameType.trans hrated) (hw₁.redPlayer.trans hr) (hw₁.blackPlayer.trans hb)
    (by rw [hw₁.records.players]; exact hred) (by rw [hw₁.records.players]; exact hblack)
  have hne : red ≠ black :=
    hdistinct.ne (hw₁.redPlayer.trans hr) (hw₁.blackPlayer.trans hb)
  have htold := recordEnd_told (w := w₁.announceEnd s sReason) hne hover
  rw [hrecord] at htold
  obtain ⟨hredScore, hblackScore, hothers, hposted⟩ := htold
  have hplayers : (w₁.announceEnd s sReason).players = w.players := hw₁.records.players
  have hevents : (w₁.announceEnd s sReason).scoreEvents = w.scoreEvents :=
    scoreEvents_congr hw₁.id hw₁.allPlayers hw₁.records.ids
  rw [hplayers] at hredScore hblackScore hothers
  refine ⟨hr, hb, ?_, ?_⟩
  · rw [hsame.players]
    exact ⟨hredScore, hblackScore, hothers⟩
  · obtain ⟨es, hes, hnone⟩ := hw₁.posts
    refine ⟨es ++ w₁.table.allPlayers.map (·, .eEnd w₁.table.id s sReason), es', ?_, hnone', ?_⟩
    · intro x hx
      rcases List.mem_append.mp hx with hx | hx
      · exact hnone x hx
      · obtain ⟨p, -, rfl⟩ := List.mem_map.mp hx
        exact fun hscore => hscore
    · have hstart : (w₁.announceEnd s sReason).posted =
          w₁.posted ++ w₁.table.allPlayers.map (·, .eEnd w₁.table.id s sReason) := rfl
      have hstatus : (w₁.announceEnd s sReason).table.status = s := rfl
      rw [hes', hposted, hstart, hes, hstatus, hevents, hsame.players]
      simp only [List.append_assoc]

/-- Every score that has changed is told to everyone who was at the
table. -/
def ScoresAnnounced (w w' : World) : Prop :=
  ∃ es, w'.posted = w.posted ++ es ∧
    ∀ p, (w'.players p).score ≠ (w.players p).score → ∀ q ∈ w.table.allPlayers,
      (q, Event.eScore w.table.id (w.idOf p) (w'.players p).score) ∈ es

/-- **Which new scores are told.** When a call ends a rated game between
two players who are no guests, every score that has changed is posted to
everyone at the table if and only if the game is not drawn or the draw
changes nothing. -/
theorem scores_announced_iff (h : Table.machine.Reachable w)
    (hcall : w.call now op = .ok (w', res))
    (hends : w'.ends = w.ends ++ [⟨some red, some black, status⟩])
    (hrated : w.table.gameType = .rated) (hred : (w.players red).type ≠ .guest)
    (hblack : (w.players black).type ≠ .guest) :
    w.ScoresAnnounced w' ↔ status ≠ .drawn ∨
      EvenDraw (w.kFactor red black) (w.advantage red black) := by
  obtain ⟨hr, hb, ⟨hredScore, hblackScore, hothers⟩, es, es', hnone, hnone', hposted⟩ :=
    call_told h hcall hends hrated hred hblack
  by_cases hdrawn : status = .drawn
  · subst hdrawn
    have hdraw : EvenDraw (w.kFactor red black) (w.advantage red black) ↔
        ratingChange (w.players red) (w.players black) .drawn = 0 :=
      ratingChange_drawn_eq_zero_iff.symm
    rw [if_pos rfl, List.append_nil] at hposted
    simp only [ne_eq, not_true_eq_false, false_or]
    rw [hdraw]
    constructor
    · -- RED is at the table, and no score has been posted
      rintro ⟨es₁, hes₁, htold⟩
      by_contra hchange
      have hmem := (reachable_wellFormed h).members.seated red (Table.isSeated_iff.mpr (Or.inl hr))
      have hevent := htold red (by omega) red hmem
      rw [← List.append_cancel_left (hposted.symm.trans hes₁), List.mem_append] at hevent
      rcases hevent with hevent | hevent
      · exact hnone _ hevent trivial
      · exact hnone' _ hevent trivial
    · intro hchange
      refine ⟨_, hposted, fun p hp => absurd ?_ hp⟩
      by_cases hpr : p = red
      · rw [hpr]
        omega
      by_cases hpb : p = black
      · rw [hpb]
        omega
      · rw [hothers p hpr hpb]
  · refine iff_of_true ⟨_, hposted, fun p hp q hq => ?_⟩ (Or.inl hdrawn)
    rw [if_neg hdrawn]
    have hevents : ∀ score, (q, Event.eScore w.table.id (w.idOf p) score) ∈
        w.scoreEvents p score := fun score => List.mem_map.mpr ⟨q, hq, rfl⟩
    by_cases hpr : p = red
    · subst hpr
      simp [hevents]
    by_cases hpb : p = black
    · subst hpb
      simp [hevents]
    · exact absurd (by rw [hothers p hpr hpb]) hp

/-- Two players, RED rated 100 points higher. -/
def unevenPlayers (player : PlayerRef) : Player :=
  { twoPlayers player with score := if player = 1 then 1600 else 1500 }

/-- What is looked at of a call that ends a game. -/
def endSummary (w w' : World) : List GameEnd × List GameEnd × Bool :=
  (w.ends, w'.ends, decide (w.table.gameType = .rated ∧ (w.players 1).type ≠ .guest ∧
    (w.players 2).type ≠ .guest))

theorem scores_announced_iff_resigned : ∃ w w',
    Table.machine.run (new (bytes "t") {} unevenPlayers) opening = .ok w ∧
      w.call 0 (.handleResignRequest 2) = .ok (w', .ok) ∧ w.ScoresAnnounced w' := by
  have hrun : (Table.machine.run (new (bytes "t") {} unevenPlayers) opening).map
      (fun w => (w.call 0 (.handleResignRequest 2)).map (fun r => (r.2, w.endSummary r.1))) =
      .ok (.ok (.ok, [], [⟨some 1, some 2, .redWin⟩], true)) := by decide +kernel
  obtain ⟨w, hw, hcall⟩ := Lib.map_eq_ok.mp hrun
  obtain ⟨⟨w', res⟩, hcall, he⟩ := Lib.map_eq_ok.mp hcall
  simp only [Prod.mk.injEq, endSummary, decide_eq_true_eq] at he
  obtain ⟨rfl, hnone, hends, hrated, hred, hblack⟩ := he
  have hended : w'.ends = w.ends ++ [⟨some 1, some 2, .redWin⟩] := by
    rw [hends, hnone]
    rfl
  exact ⟨w, w', hw, hcall, (scores_announced_iff (reachable_of_run hw) hcall hended hrated hred
    hblack).mpr (Or.inl (by decide))⟩

/-- The players agree to a draw: RED loses three points, and nobody is
told. -/
theorem drawn_scores_not_told : ∃ w w',
    Table.machine.run (new (bytes "t") {} unevenPlayers) drawOffered = .ok w ∧
      w.call 0 (.handleDrawRequest 2) = .ok (w', .ok) ∧
      w'.ends = w.ends ++ [⟨some 1, some 2, .drawn⟩] ∧ w.table.gameType = .rated ∧
      (w.players 1).type ≠ .guest ∧ (w.players 2).type ≠ .guest ∧
      (w'.players 1).score = (w.players 1).score - 3 ∧ ¬ w.ScoresAnnounced w' := by
  have hrun : (Table.machine.run (new (bytes "t") {} unevenPlayers) drawOffered).map
      (fun w => (w.call 0 (.handleDrawRequest 2)).map (fun r => (r.2, w.endSummary r.1))) =
      .ok (.ok (.ok, [], [⟨some 1, some 2, .drawn⟩], true)) := by decide +kernel
  have hscores : (Table.machine.run (new (bytes "t") {} unevenPlayers) drawOffered).map
      (fun w => (w.call 0 (.handleDrawRequest 2)).map (fun r =>
        ((w.players 1).score, (r.1.players 1).score, w.table.allPlayers,
          r.1.posted.any (fun x => decide x.2.IsScore)))) =
      .ok (.ok (1600, 1597, [1, 2], false)) := by decide +kernel
  obtain ⟨w, hw, hcall⟩ := Lib.map_eq_ok.mp hrun
  obtain ⟨⟨w', res⟩, hcall, he⟩ := Lib.map_eq_ok.mp hcall
  simp only [Prod.mk.injEq, endSummary, decide_eq_true_eq] at he
  obtain ⟨rfl, hnone, hends, hrated, hred, hblack⟩ := he
  simp only [hw, hcall, Except.map, Except.ok.injEq, Prod.mk.injEq] at hscores
  obtain ⟨hbefore, hafter, hall, hposted⟩ := hscores
  refine ⟨w, w', hw, hcall, ?_, hrated, hred, hblack, ?_, ?_⟩
  · rw [hends, hnone]
    rfl
  · rw [hbefore, hafter]
    decide
  · rintro ⟨es, hes, htold⟩
    have hevent := htold 1 (by rw [hbefore, hafter]; decide) 1 (by rw [hall]; decide)
    rw [hes, List.any_append, Bool.or_eq_false_iff] at hposted
    exact List.any_eq_false.mp hposted.2 _ hevent rfl

end World

end HoxServer
