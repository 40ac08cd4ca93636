/-
HoxServer.Table.Counters — perpetual checks and long games.

A game is the list of its moves, each with its colour, whether it gives
check and whether it leaves the opponent without a move, by the rules and
not by the counters. The table keeps four counters along it
(`_detectLongGameAndPerpetualCheck`), except for a move that wins: this
one is not counted, and it is the last.

`Counted` ties the counters to the game. Every effect keeps it while the
game is not won, and with it the bounds that a game that goes on stays
within; so the game ends at the first move that exceeds one of them.
-/
import HoxServer.Lib.Streak
import HoxServer.Table.Status

namespace HoxServer

open Xiangqi

/-! ## Games -/

/-- A move of a game: who makes it, whether it gives check, and whether it
leaves the opponent without a move. -/
structure Ply where
  color : Color
  check : Bool
  wins : Bool

open Classical in
/-- The move of the colour `c` that leads to the board `b`. -/
noncomputable def Ply.of (c : Color) (b : Board) : Ply where
  color := c
  check := decide (InCheck b.placement b.nextColor)
  wins := decide (¬ ∃ p q, Accepted b.placement b.nextColor p q)

/-- The number of the colour's most recent consecutive checks. -/
def checksInARow (c : Color) (game : List Ply) : Nat :=
  Lib.streak Ply.check (game.filter (fun ply => decide (ply.color = c)))

/-- The number of moves that give no check and answer none. -/
def effectiveMovesOf (game : List Ply) : Nat := Lib.quiet Ply.check game

/-- The last move gives check. -/
def lastChecks (game : List Ply) : Bool := Lib.lastIs Ply.check game

/-- The last move wins. -/
def lastWins (game : List Ply) : Bool := Lib.lastIs Ply.wins game

namespace Referee

variable {b b' : Board} {s : Bytes} {v : Board.Verdict} {moves : List Bytes}

/-- The game that a list of move-strings plays from the board `b`. -/
noncomputable def plies (b : Board) : List Bytes → List Ply
  | [] => []
  | s :: moves =>
    match validateString b s with
    | .ok v => Ply.of b.nextColor v.board :: plies v.board moves
    | .error _ => []

theorem plies_cons (moves : List Bytes) (hv : validateString b s = .ok v) :
    plies b (s :: moves) = Ply.of b.nextColor v.board :: plies v.board moves := by
  simp only [plies, hv]

theorem plies_concat (h : replay b moves = some b') (hv : validateString b' s = .ok v) :
    plies b (moves ++ [s]) = plies b moves ++ [Ply.of b'.nextColor v.board] := by
  induction moves generalizing b with
  | nil =>
    cases h
    rw [List.nil_append, plies_cons [] hv, plies, plies, List.nil_append]
  | cons m moves ih =>
    obtain ⟨u, hu, -, hrest⟩ := replay_cons h
    rw [List.cons_append, plies_cons _ hu, plies_cons _ hu, ih hrest, List.cons_append]

end Referee

/-- The order of the active list decides nothing. -/
theorem Ply.of_sameUpToOrder {b b' : Board} (c : Color) (h : b.SameUpToOrder b') :
    Ply.of c b' = Ply.of c b := by
  unfold Ply.of
  rw [h.placement, h.nextColor]

namespace Table

variable {t t' : Table} {player : PlayerRef} {c : Color} {s s' : GameStatus}
  {sReason sMove : Bytes} {v : Board.Verdict} {ply : Ply} {plies : List Ply}

/-- The game since the table was made or reset. -/
noncomputable def game (t : Table) : List Ply := Referee.plies Referee.resetGame t.moves

/-- The counter of the checks of a colour. -/
def checksOf (t : Table) (c : Color) : Int := if c = .red then t.redChecks else t.blackChecks

/-- The counters are those of the game. -/
structure Counted (t : Table) (plies : List Ply) : Prop where
  redChecks : t.redChecks = checksInARow .red plies
  blackChecks : t.blackChecks = checksInARow .black plies
  isPrevMoveCheck : t.isPrevMoveCheck = lastChecks plies
  effectiveMoves : t.effectiveMoves = effectiveMovesOf plies

/-- What counting a move does to the counters. -/
structure Counts (t : Table) (ply : Ply) (t' : Table) : Prop where
  redChecks : t'.redChecks = if ply.color = .red then
    (if ply.check then t.redChecks + 1 else 0) else t.redChecks
  blackChecks : t'.blackChecks = if ply.color = .red then t.blackChecks else
    if ply.check then t.blackChecks + 1 else 0
  isPrevMoveCheck : t'.isPrevMoveCheck = ply.check
  effectiveMoves : t'.effectiveMoves =
    if !ply.check && !t.isPrevMoveCheck then t.effectiveMoves + 1 else t.effectiveMoves

theorem Counted.checksOf (h : t.Counted plies) (hside : c.IsSide) :
    t.checksOf c = checksInARow c plies := by
  unfold Table.checksOf
  rcases hside with hc | hc
  · rw [hc, if_pos rfl, h.redChecks]
  · rw [hc, if_neg (by decide), h.blackChecks]

/-! ## One move -/

/-- The counters follow the game. -/
theorem Counted.counts (h : t.Counted plies) (hside : ply.color.IsSide)
    (hcounts : t.Counts ply t') : t'.Counted (plies ++ [ply]) := by
  have hown : ∀ c, decide (ply.color = c) = true ↔ ply.color = c := fun c => decide_eq_true_iff
  refine ⟨?_, ?_, ?_, ?_⟩
  · rw [hcounts.redChecks, h.redChecks, checksInARow, checksInARow, Lib.streak_filter_concat]
    simp only [hown]
    split_ifs <;> simp
  · rw [hcounts.blackChecks, h.blackChecks, checksInARow, checksInARow, Lib.streak_filter_concat]
    simp only [hown]
    rcases hside with hc | hc
    · simp [hc]
    · simp only [hc]
      split_ifs <;> simp_all
  · rw [hcounts.isPrevMoveCheck, lastChecks, Lib.lastIs_concat]
  · rw [hcounts.effectiveMoves, h.effectiveMoves, h.isPrevMoveCheck, effectiveMovesOf,
      effectiveMovesOf, Lib.quiet_concat, lastChecks]
    split_ifs <;> simp

/-- The status that the counters give to a game in the status `s`. -/
def countedStatus (t : Table) (ply : Ply) (t' : Table) (s : GameStatus) : GameStatus :=
  if ply.check then
    if perpetualChecksMax < t'.checksOf ply.color then Referee.winOf ply.color.opposite else s
  else if t.isPrevMoveCheck = false ∧ effectiveMovesMax < t'.effectiveMoves then .drawn else s

/-- A check is counted for its giver, who must not give too many. -/
theorem detect_of_check (hcheck : t.referee.isLastMoveCheck = .ok true)
    (h : t.detectLongGameAndPerpetualCheck c s = .ok (t', s', sReason)) :
    t' = { t with
        isPrevMoveCheck := true
        redChecks := if c = .red then t.redChecks + 1 else t.redChecks
        blackChecks := if c = .red then t.blackChecks else t.blackChecks + 1 } ∧
      s' = if perpetualChecksMax < t'.checksOf c then
        (if c = .red then .blackWin else .redWin) else s := by
  unfold detectLongGameAndPerpetualCheck at h
  simp only [hcheck, bind, Except.bind, if_true] at h
  unfold checksOf
  split_ifs at h with hc hmany hmany <;> cases h <;> simp [hc, hmany]

/-- A quiet move ends the series of its player, and is counted unless it
answers check. -/
theorem detect_of_not_check (hcheck : t.referee.isLastMoveCheck = .ok false)
    (h : t.detectLongGameAndPerpetualCheck c s = .ok (t', s', sReason)) :
    t' = { t with
        isPrevMoveCheck := false
        effectiveMoves := if !t.isPrevMoveCheck then t.effectiveMoves + 1 else t.effectiveMoves
        redChecks := if c = .red then 0 else t.redChecks
        blackChecks := if c = .red then t.blackChecks else 0 } ∧
      s' = if t.isPrevMoveCheck = false ∧ effectiveMovesMax < t'.effectiveMoves then .drawn
        else s := by
  unfold detectLongGameAndPerpetualCheck at h
  simp only [hcheck, bind, Except.bind, Bool.false_eq_true, if_false] at h
  cases hprev : t.isPrevMoveCheck with
  | true =>
    by_cases hc : c = .red <;> simp only [hc, hprev, if_true, if_false] at h <;> cases h <;>
      simp [hc]
  | false =>
    by_cases hc : c = .red <;>
      simp only [hc, hprev, Bool.false_eq_true, if_true, if_false] at h <;>
      split at h <;> rename_i hlong <;> cases h <;> simp [hc, hlong]

/-- `_detectLongGameAndPerpetualCheck`, seen from the rules. -/
theorem detect_counts (hl : t.referee.Lawful) (hside : c.IsSide)
    (h : t.detectLongGameAndPerpetualCheck c s = .ok (t', s', sReason)) :
    t.Counts (Ply.of c t.referee) t' ∧ s' = t.countedStatus (Ply.of c t.referee) t' s := by
  obtain ⟨check, hcheck, hiff⟩ := hl.isKingBeingChecked_spec hl.turn
  have hply : (Ply.of c t.referee).check = check := by
    unfold Ply.of
    simp [← hiff]
  have hloss : (if c = .red then GameStatus.blackWin else .redWin) =
      Referee.winOf c.opposite := by
    rcases hside with hc | hc <;> rw [hc] <;> rfl
  have hcolor : (Ply.of c t.referee).color = c := rfl
  unfold countedStatus
  rw [hply, hcolor, ← hloss]
  cases check with
  | true =>
    obtain ⟨rfl, hs⟩ := detect_of_check hcheck h
    refine ⟨⟨?_, ?_, by rw [hply], by simp [hply]⟩, by rw [if_pos rfl, hs]⟩
    · rcases hside with rfl | rfl <;> simp [hply, hcolor]
    · rcases hside with rfl | rfl <;> simp [hply, hcolor]
  | false =>
    obtain ⟨rfl, hs⟩ := detect_of_not_check hcheck h
    refine ⟨⟨?_, ?_, by rw [hply], by simp [hply]⟩, by rw [if_neg Bool.false_ne_true, hs]⟩
    · rcases hside with rfl | rfl <;> simp [hply, hcolor]
    · rcases hside with rfl | rfl <;> simp [hply, hcolor]

/-- A move that is made, as a move of the game. -/
theorem MoveMade.outcome (hl : t.referee.Lawful) (h : t.MoveMade player sMove v t' s) :
    v.board.Lawful ∧ v.board.nextColor = t.referee.nextColor.opposite ∧
      ((Ply.of t.referee.nextColor v.board).wins = true →
        v.status = Referee.winOf t.referee.nextColor) ∧
      ((Ply.of t.referee.nextColor v.board).wins = false → v.status = .inProgress) := by
  obtain ⟨r, q, -, -, hplayed⟩ := Referee.accepted_cases hl h.verdict h.accepted
  have hnext : v.board.nextColor = t.referee.nextColor.opposite := hplayed.board.nextColor
  refine ⟨Referee.validateString_lawful hl h.verdict, hnext, fun hwins => ?_, fun hwins => ?_⟩
  · unfold Ply.of at hwins
    rw [hplayed.ends (by simpa using hwins), hnext]
    rcases hl.turn with ht | ht <;> rw [ht] <;> rfl
  · unfold Ply.of at hwins
    exact hplayed.goesOn (by simpa using hwins)

theorem winOf_cases (c : Color) : Referee.winOf c = .redWin ∨ Referee.winOf c = .blackWin := by
  unfold Referee.winOf
  split
  · exact Or.inl rfl
  · exact Or.inr rfl

/-- A move that wins is not counted. -/
theorem MoveMade.wins (hl : t.referee.Lawful) (h : t.MoveMade player sMove v t' s)
    (hwins : (Ply.of t.referee.nextColor v.board).wins = true) :
    s = Referee.winOf t.referee.nextColor := by
  obtain ⟨-, -, hstatus, -⟩ := h.outcome hl
  obtain ⟨sReason, hcount⟩ := h.counted
  unfold countMove at hcount
  rw [hstatus hwins, if_pos (winOf_cases _)] at hcount
  cases hcount
  rfl

/-- Every other move is counted, and the counters say how the game goes
on. -/
theorem MoveMade.counts (hl : t.referee.Lawful) (h : t.MoveMade player sMove v t' s)
    (hwins : (Ply.of t.referee.nextColor v.board).wins = false) :
    t.Counts (Ply.of t.referee.nextColor v.board) t' ∧
      s = t.countedStatus (Ply.of t.referee.nextColor v.board) t' .inProgress := by
  obtain ⟨hl', -, -, hstatus⟩ := h.outcome hl
  obtain ⟨sReason, hcount⟩ := h.counted
  unfold countMove at hcount
  rw [hstatus hwins, if_neg (by decide)] at hcount
  obtain ⟨hcounts, hs⟩ := detect_counts hl' hl.turn hcount
  exact ⟨⟨hcounts.redChecks, hcounts.blackChecks, hcounts.isPrevMoveCheck,
    hcounts.effectiveMoves⟩, hs⟩

/-! ## Every effect -/

/-- No player has given more than the checks in a row that are allowed, and
the game is not too long. -/
structure WithinBounds (t : Table) : Prop where
  checks : ∀ c, t.checksOf c ≤ perpetualChecksMax
  effectiveMoves : t.effectiveMoves ≤ effectiveMovesMax

/-- The counters are those of the game until it is won, and a game that
goes on exceeds no bound. -/
structure CountKept (t : Table) : Prop where
  counted : lastWins t.game = false → t.Counted t.game
  won : lastWins t.game = true → IsOver t.status
  bounded : t.status = .inProgress → t.WithinBounds

theorem Fresh.withinBounds (h : t.Fresh) : t.WithinBounds := by
  refine ⟨fun c => ?_, ?_⟩
  · unfold checksOf
    rw [h.redChecks, h.blackChecks, ite_self]
    decide
  · rw [h.effectiveMoves]
    decide

theorem Fresh.countKept (h : t.Fresh) : t.CountKept := by
  have hgame : t.game = [] := by
    unfold game
    rw [h.moves, Referee.plies]
  refine ⟨fun _ => ?_, fun hwon => ?_, fun _ => h.withinBounds⟩
  · rw [hgame]
    exact ⟨by rw [h.redChecks]; rfl, by rw [h.blackChecks]; rfl, h.isPrevMoveCheck,
      by rw [h.effectiveMoves]; rfl⟩
  · rw [hgame] at hwon
    cases hwon

/-- The tables have the same moves and counters. -/
structure SameCounters (t t' : Table) : Prop where
  moves : t'.moves = t.moves
  isPrevMoveCheck : t'.isPrevMoveCheck = t.isPrevMoveCheck
  effectiveMoves : t'.effectiveMoves = t.effectiveMoves
  redChecks : t'.redChecks = t.redChecks
  blackChecks : t'.blackChecks = t.blackChecks

theorem CountKept.of_same (h : t.CountKept) (hsame : t.SameCounters t')
    (hover : IsOver t.status → IsOver t'.status)
    (hplaying : t'.status = .inProgress → t.status = .inProgress) : t'.CountKept := by
  have hgame : t'.game = t.game := by
    unfold game
    rw [hsame.moves]
  refine ⟨fun hwins => ?_, fun hwon => ?_, fun hstatus => ?_⟩
  · rw [hgame] at hwins ⊢
    obtain ⟨hred, hblack, hprev, heff⟩ := h.counted hwins
    exact ⟨by rw [hsame.redChecks, hred], by rw [hsame.blackChecks, hblack],
      by rw [hsame.isPrevMoveCheck, hprev], by rw [hsame.effectiveMoves, heff]⟩
  · rw [hgame] at hwon
    exact hover (h.won hwon)
  · obtain ⟨hchecks, heff⟩ := h.bounded (hplaying hstatus)
    refine ⟨fun c => ?_, by rw [hsame.effectiveMoves]; exact heff⟩
    unfold checksOf
    rw [hsame.redChecks, hsame.blackChecks]
    exact hchecks c

theorem CountKept.lastWins_eq_false (h : t.CountKept)
    (hs : t.status = .ready ∨ t.status = .inProgress) : lastWins t.game = false := by
  rw [Bool.eq_false_iff]
  exact fun hwon => not_playable_of_isOver (h.won hwon) hs

theorem CountKept.playable (h : t.CountKept) (hwf : t.WellFormed)
    (hs : t.status = .ready ∨ t.status = .inProgress) :
    t.Counted t.game ∧ t.WithinBounds := by
  refine ⟨h.counted (h.lastWins_eq_false hs), ?_⟩
  rcases hs with hready | hplaying
  · exact (hwf.fresh (Or.inr hready)).withinBounds
  · exact h.bounded hplaying

/-- The move that is recorded is the last one of the game. -/
theorem MoveMade.game (hreplays : t.Replays) (h : t.MoveMade player sMove v t' s) (now : Int)
    (c : Color) : (t'.recorded now sMove c s).game =
      t.game ++ [Ply.of t.referee.nextColor v.board] := by
  obtain ⟨hmoves, -⟩ := h.frame
  obtain ⟨hmoves', -⟩ := t'.recorded_frame now sMove c s
  obtain ⟨b, hb, hsame⟩ := hreplays
  have hlawful := Referee.reachable_lawful
    (Referee.replay_reachable Referee.reachable_resetGame hb)
  obtain ⟨v', hv', -, hboard⟩ := Referee.validateString_congr (hsame.lawful hlawful) hsame.symm
    h.verdict
  unfold Table.game
  rw [hmoves', hmoves, Referee.plies_concat hb hv', Ply.of_sameUpToOrder _ hboard,
    hsame.nextColor]

theorem recorded_counters (t : Table) (now : Int) (sMove : Bytes) (c : Color) (s : GameStatus) :
    (t.recorded now sMove c s).isPrevMoveCheck = t.isPrevMoveCheck ∧
      (t.recorded now sMove c s).effectiveMoves = t.effectiveMoves ∧
      (t.recorded now sMove c s).redChecks = t.redChecks ∧
      (t.recorded now sMove c s).blackChecks = t.blackChecks := by
  obtain ⟨_, _, _, _, hrecorded⟩ := t.recorded_eq now sMove c s
  rw [hrecorded]
  exact ⟨rfl, rfl, rfl, rfl⟩

/-- Only the mover's counter is written. -/
theorem Counts.checksOf (h : t.Counts ply t') (hside : ply.color.IsSide) :
    t'.checksOf ply.color = (if ply.check then t.checksOf ply.color + 1 else 0) ∧
      t'.checksOf ply.color.opposite = t.checksOf ply.color.opposite := by
  have hred := h.redChecks
  have hblack := h.blackChecks
  unfold Table.checksOf
  rcases hside with hc | hc
  · rw [hc] at hred hblack ⊢
    exact ⟨by simpa using hred, by simpa using hblack⟩
  · rw [hc] at hred hblack ⊢
    exact ⟨by simpa using hblack, by simpa using hred⟩

theorem checksOf_cases (t : Table) (hside : c.IsSide) (d : Color) :
    t.checksOf d = t.checksOf c ∨ t.checksOf d = t.checksOf c.opposite := by
  unfold checksOf
  rcases hside with hc | hc <;> rw [hc] <;> by_cases hd : d = .red <;> simp [hd]

/-- How a move that does not win leaves the game: it goes on within the
bounds, or has exceeded one of them. -/
theorem Counts.verdict (hcounts : t.Counts ply t') (hside : ply.color.IsSide)
    (hwithin : t.WithinBounds) (hs : s = t.countedStatus ply t' .inProgress) :
    (s = .inProgress → t'.WithinBounds) ∧
      (s = Referee.winOf ply.color.opposite ↔ ply.check = true ∧ t'.checksOf ply.color = 7) ∧
      (s = .drawn ↔ t'.effectiveMoves = 201) ∧ (s = .inProgress ∨ IsOver s) := by
  obtain ⟨hown, hother⟩ := hcounts.checksOf hside
  have hchecks := hwithin.checks
  have heff := hwithin.effectiveMoves
  have heff' := hcounts.effectiveMoves
  have hbound := hchecks ply.color
  have hwin : IsOver (Referee.winOf ply.color.opposite) ∧
      Referee.winOf ply.color.opposite ≠ .inProgress ∧
      Referee.winOf ply.color.opposite ≠ .drawn := by
    rcases winOf_cases ply.color.opposite with hw | hw <;> rw [hw] <;> decide
  have hbounds : t'.checksOf ply.color ≤ perpetualChecksMax →
      t'.effectiveMoves ≤ effectiveMovesMax → t'.WithinBounds := by
    refine fun hle hle' => ⟨fun d => ?_, hle'⟩
    rcases t'.checksOf_cases hside d with hd | hd
    · rw [hd]
      exact hle
    · rw [hd, hother]
      exact hchecks _
  unfold countedStatus at hs
  unfold perpetualChecksMax effectiveMovesMax at *
  cases hcheck : ply.check with
  | true =>
    simp only [hcheck, if_true, Bool.not_true, Bool.false_and, Bool.false_eq_true, if_false]
      at hs hown heff'
    split at hs
    · rw [hs]
      exact ⟨fun hplaying => absurd hplaying hwin.2.1, iff_of_true rfl ⟨rfl, by omega⟩,
        iff_of_false hwin.2.2 (by omega), Or.inr hwin.1⟩
    · rw [hs]
      exact ⟨fun _ => hbounds (by omega) (by omega),
        iff_of_false hwin.2.1.symm (fun hseven => by omega),
        iff_of_false (by decide) (by omega), Or.inl rfl⟩
  | false =>
    simp only [hcheck, Bool.false_eq_true, if_false, Bool.not_false, Bool.true_and,
      Bool.not_eq_true'] at hs hown heff'
    split at hs
    · rename_i hlong
      rw [if_pos hlong.1] at heff'
      rw [hs]
      exact ⟨fun hplaying => absurd hplaying (by decide),
        iff_of_false hwin.2.2.symm (fun hseven => Bool.false_ne_true hseven.1),
        iff_of_true rfl (by omega), Or.inr (Or.inr (Or.inr rfl))⟩
    · rename_i hshort
      have hle : t'.effectiveMoves ≤ 200 := by
        split at heff'
        · rename_i hprev
          exact Int.not_lt.mp (fun hlong => hshort ⟨hprev, hlong⟩)
        · omega
      rw [hs]
      exact ⟨fun _ => hbounds (by omega) hle,
        iff_of_false hwin.2.1.symm (fun hseven => Bool.false_ne_true hseven.1),
        iff_of_false (by decide) (by omega), Or.inl rfl⟩

/-- The move and the counters that are recorded. -/
theorem MoveMade.counted_recorded (hwf : t.WellFormed) (hkept : t.CountKept) (hreplays : t.Replays)
    (h : t.MoveMade player sMove v t' s) (now : Int)
    (hwins : (Ply.of t.referee.nextColor v.board).wins = false) :
    (t'.recorded now sMove c s).Counted (t'.recorded now sMove c s).game := by
  obtain ⟨hcounted, -⟩ := hkept.playable hwf h.status
  obtain ⟨hcounts, -⟩ := h.counts hreplays.lawful hwins
  obtain ⟨hred, hblack, hprev, heff⟩ := hcounted.counts hreplays.lawful.turn hcounts
  obtain ⟨hprev', heff', hred', hblack'⟩ := t'.recorded_counters now sMove c s
  rw [h.game hreplays]
  exact ⟨by rw [hred', hred], by rw [hblack', hblack], by rw [hprev', hprev], by rw [heff', heff]⟩

theorem CountKept.recorded (h : t.CountKept) (hwf : t.WellFormed) (hreplays : t.Replays)
    (hmade : t.MoveMade player sMove v t' s) (now : Int) :
    (t'.recorded now sMove c s).CountKept := by
  obtain ⟨-, -, hstatus, -, -⟩ := t'.recorded_frame now sMove c s
  obtain ⟨-, heff, hred, hblack⟩ := t'.recorded_counters now sMove c s
  have hlast : lastWins (t'.recorded now sMove c s).game =
      (Ply.of t.referee.nextColor v.board).wins := by
    rw [hmade.game hreplays, lastWins, Lib.lastIs_concat]
  refine ⟨fun hwins => ?_, fun hwon => ?_, fun hplaying => ?_⟩
  · rw [hlast] at hwins
    exact hmade.counted_recorded hwf h hreplays now hwins
  · rw [hlast] at hwon
    rw [hstatus, hmade.wins hreplays.lawful hwon]
    exact (winOf_cases _).imp_right Or.inl
  · rw [hstatus] at hplaying
    have hwins : (Ply.of t.referee.nextColor v.board).wins = false := by
      rw [Bool.eq_false_iff]
      intro hwins
      rw [hmade.wins hreplays.lawful hwins] at hplaying
      rcases winOf_cases t.referee.nextColor with hw | hw <;> rw [hw] at hplaying <;> cases hplaying
    obtain ⟨hcounts, hs⟩ := hmade.counts hreplays.lawful hwins
    obtain ⟨hchecks, heffective⟩ := (hcounts.verdict hreplays.lawful.turn
      (h.playable hwf hmade.status).2 hs).1 hplaying
    refine ⟨fun d => ?_, by rw [heff]; exact heffective⟩
    unfold checksOf
    rw [hred, hblack]
    exact hchecks d

/-- Joining and leaving leave the game alone. -/
theorem CountKept.reseat (h : t.CountKept)
    (hframe : ∃ allPlayers redPlayer blackPlayer,
      t' = { t with allPlayers, redPlayer, blackPlayer }) : t'.updateStatus.CountKept := by
  obtain ⟨_, _, _, hf⟩ := hframe
  have hsame : t.SameCounters t'.updateStatus := by
    obtain ⟨_, hf'⟩ := t'.updateStatus_frame
    rw [hf', hf]
    exact ⟨rfl, rfl, rfl, rfl, rfl⟩
  have hstatus : t'.status = t.status := by rw [hf]
  refine h.of_same hsame (fun hover => ?_) (fun hplaying => ?_)
  · rw [← hstatus] at hover
    rw [updateStatus_of_isOver hover]
    exact hover
  · rw [updateStatus_inProgress_iff, hstatus] at hplaying
    exact hplaying

theorem CountKept.ended (h : t.CountKept) (hover : IsOver s) : (t.ended s).CountKept := by
  refine h.of_same ⟨rfl, rfl, rfl, rfl, rfl⟩ (fun _ => hover) (fun hplaying => ?_)
  exact absurd (Or.inr hplaying) (not_playable_of_isOver hover)

/-- Every effect keeps the counters with the game. -/
theorem CountKept.effect {ids : PlayerRef → Bytes} {now : Int} {op : TableOp} {res : Result}
    {e : Option GameStatus} (h : t.CountKept) (hwf : t.WellFormed) (hreplays : t.Replays)
    (heffect : t.Effect ids now op t' res e) : t'.CountKept := by
  have hsame : ∀ t' : Table, t.SameCounters t' → t'.status = t.status → t'.CountKept := by
    intro t' hsame hstatus
    refine h.of_same hsame ?_ ?_
    · rw [hstatus]
      exact fun hover => hover
    · rw [hstatus]
      exact fun hplaying => hplaying
  have hwf' := hwf.effect hreplays.lawful heffect
  cases heffect with
  | refused => exact h
  | informed => exact h
  | @joined player c => exact h.reseat (t.addPlayer_frame player c)
  | @left player => exact h.reseat (t.removePlayer_frame player)
  | @leftGame player =>
    exact (h.ended (isOver_lossOf t player)).reseat (removePlayer_frame _ player)
  | moveRejected => exact hsame _ ⟨rfl, rfl, rfl, rfl, rfl⟩ rfl
  | moved hmade => exact h.recorded hwf hreplays hmade now
  | movedLast hmade hover => exact (h.recorded hwf hreplays hmade now).ended hover
  | resigned => exact h.ended (isOver_lossOf t _)
  | drawOffered => exact hsame _ ⟨rfl, rfl, rfl, rfl, rfl⟩ rfl
  | drawRepeated => exact h
  | drawAgreed => exact h.ended (Or.inr (Or.inr rfl))
  | switched => exact hsame _ ⟨rfl, rfl, rfl, rfl, rfl⟩ rfl
  | notReset => exact h
  | restarted =>
    have hwaiting : t.restarted.status = .open ∨ t.restarted.status = .ready := by
      obtain ⟨t₀, he, hopen, -⟩ := t.restarted_eq
      rw [he]
      exact t₀.updateStatus_waiting_iff.mpr (Or.inl hopen)
    exact (hwf'.fresh hwaiting).countKept
  | updated => exact hsame _ ⟨rfl, rfl, rfl, rfl, rfl⟩ rfl
  | notFlagged => exact h
  | flagged => exact h.ended (isOver_timeout _)

end Table

namespace World

variable {w w' : World}

theorem reachable_countKept (h : Table.machine.Reachable w) : w.table.CountKept := by
  have hall : w.table.Replays ∧ w.table.WellFormed ∧ w.table.CountKept := by
    refine h.invariant
      (I := fun w => w.table.Replays ∧ w.table.WellFormed ∧ w.table.CountKept) ?_ ?_
    · rintro w ⟨id, initialTime, players, rfl⟩
      have hwf := Table.wellFormed_new id initialTime
      exact ⟨(seated_new id initialTime players).replays, hwf,
        (hwf.fresh (Or.inl rfl)).countKept⟩
    · rintro w ⟨now, op⟩ w' ⟨hreplays, hwf, hkept⟩ hstep
      obtain ⟨res, hcall⟩ := step_eq.mp hstep
      obtain ⟨e, hcalled⟩ := call_called hreplays.lawful hcall
      exact ⟨hreplays.effect hcalled.effect, hwf.effect hreplays.lawful hcalled.effect,
        hkept.effect hwf hreplays hcalled.effect⟩
  exact hall.2.2

/-- The counters and the status after a move that is accepted. -/
theorem acceptMove_counters (h : Table.machine.Reachable w) {now : Int} {player : PlayerRef}
    {sMove : Bytes} (hcall : w.acceptMove now player sMove = .ok (w', .ok)) :
    ∃ v t' s, w.table.MoveMade player sMove v t' s ∧ w'.table.status = s ∧
      w'.table.SameCounters (t'.recorded now sMove w.table.referee.nextColor s) ∧
      (Table.IsOver s → w'.ends = w.ends ++ [⟨w.table.redPlayer, w.table.blackPlayer, s⟩]) := by
  obtain ⟨v, t', s, hmade, hcases⟩ := acceptMove_made h hcall
  obtain ⟨-, -, hstatus, -⟩ := t'.recorded_frame now sMove w.table.referee.nextColor s
  rcases hcases with ⟨hover, htable⟩ | ⟨-, htable, hends⟩
  · rw [htable]
    exact ⟨v, t', s, hmade, hstatus, ⟨rfl, rfl, rfl, rfl, rfl⟩, fun h => absurd h hover⟩
  · rw [htable]
    exact ⟨v, t', s, hmade, rfl, ⟨rfl, rfl, rfl, rfl, rfl⟩, fun _ => hends⟩

/-- **Perpetual checks and long games.** Unless the last move has won, the
counters are those of the game: the most recent consecutive checks of each
side, whether the last move is check, and the moves that neither give nor
answer check. `acceptMove` ends a game against the side that gives its
seventh check in a row, and as DRAWN with the 201st effective move, when
the move does not win. -/
theorem perpetual_checks_and_long_games (h : Table.machine.Reachable w) :
    (lastWins w.table.game = false → w.table.Counted w.table.game) ∧
    ∀ now player sMove w', w.acceptMove now player sMove = .ok (w', .ok) →
      ∃ ply, w'.table.game = w.table.game ++ [ply] ∧ ply.color = w.table.referee.nextColor ∧
        (w'.table.status = Referee.winOf ply.color.opposite ↔ ply.wins = false ∧
          ply.check = true ∧ checksInARow ply.color w'.table.game = 7) ∧
        (w'.table.status = .drawn ↔ ply.wins = false ∧
          effectiveMovesOf w.table.game = 200 ∧ effectiveMovesOf w'.table.game = 201) ∧
        (Table.IsOver w'.table.status → w'.ends = w.ends ++
          [⟨w.table.redPlayer, w.table.blackPlayer, w'.table.status⟩]) := by
  have hkept := reachable_countKept h
  have hwf := reachable_wellFormed h
  have hreplays := reachable_replays h
  refine ⟨hkept.counted, fun now player sMove w' hcall => ?_⟩
  obtain ⟨v, t', s, hmade, hstatus, hsame, hends⟩ := acceptMove_counters h hcall
  have hgame : w'.table.game = w.table.game ++ [Ply.of w.table.referee.nextColor v.board] := by
    rw [← hmade.game hreplays now w.table.referee.nextColor]
    unfold Table.game
    rw [hsame.moves]
  refine ⟨Ply.of w.table.referee.nextColor v.board, hgame, rfl, ?_⟩
  rw [hstatus]
  cases hwins : (Ply.of w.table.referee.nextColor v.board).wins with
  | true =>
    have hs := hmade.wins hreplays.lawful hwins
    have hne : s ≠ Referee.winOf w.table.referee.nextColor.opposite ∧ s ≠ .drawn := by
      rw [hs]
      rcases hreplays.lawful.turn with hc | hc <;> rw [hc] <;> decide
    exact ⟨iff_of_false hne.1 (fun hseven => by cases hseven.1),
      iff_of_false hne.2 (fun hlong => by cases hlong.1), hends⟩
  | false =>
    obtain ⟨hcounted, hwithin⟩ := hkept.playable hwf hmade.status
    obtain ⟨hcounts, hs⟩ := hmade.counts hreplays.lawful hwins
    obtain ⟨-, hseven, hlong, -⟩ := hcounts.verdict hreplays.lawful.turn hwithin hs
    have hcounted' := hcounted.counts hreplays.lawful.turn hcounts
    rw [← hgame] at hcounted'
    have hside : (Ply.of w.table.referee.nextColor v.board).color.IsSide := hreplays.lawful.turn
    refine ⟨?_, ?_, hends⟩
    · rw [hseven, hcounted'.checksOf hside]
      exact ⟨fun ⟨hcheck, hcount⟩ => ⟨rfl, hcheck, by exact_mod_cast hcount⟩,
        fun ⟨_, hcheck, hcount⟩ => ⟨hcheck, by exact_mod_cast hcount⟩⟩
    · have hle := hwithin.effectiveMoves
      have heff := hcounts.effectiveMoves
      unfold effectiveMovesMax at hle
      rw [hlong, ← Nat.cast_inj (R := Int), ← Nat.cast_inj (R := Int),
        ← hcounted.effectiveMoves, ← hcounted'.effectiveMoves]
      refine ⟨fun hmany => ⟨rfl, ?_, hmany⟩, fun hmany => hmany.2.2⟩
      -- the move is the one that is counted
      split at heff <;> push_cast <;> omega

/-- BLACK has answered two checks. -/
def twoChecks : List (Int × TableOp) :=
  [(0, .assignPlayerAs 1 .red), (0, .assignPlayerAs 2 .black), (0, .acceptMove 1 (bytes "1757")),
    (0, .acceptMove 2 (bytes "5041")), (0, .acceptMove 1 (bytes "7770")),
    (0, .acceptMove 2 (bytes "6042")), (0, .acceptMove 1 (bytes "5750")),
    (0, .acceptMove 2 (bytes "4260"))]

/-- RED's third check in a row. -/
theorem perpetual_checks_and_long_games_third_check : ∃ w w',
    Table.machine.run (new (bytes "t") {} twoPlayers) twoChecks = .ok w ∧
      w.acceptMove 0 1 (bytes "5051") = .ok (w', .ok) ∧
      (w.table.redChecks, w'.table.redChecks, w'.table.effectiveMoves) = (2, 3, 2) ∧
      w.table.Counted w.table.game ∧
      ∃ ply, w'.table.game = w.table.game ++ [ply] ∧ ply.color = w.table.referee.nextColor ∧
        (w'.table.status = Referee.winOf ply.color.opposite ↔ ply.wins = false ∧
          ply.check = true ∧ checksInARow ply.color w'.table.game = 7) ∧
        (w'.table.status = .drawn ↔ ply.wins = false ∧
          effectiveMovesOf w.table.game = 200 ∧ effectiveMovesOf w'.table.game = 201) ∧
        (Table.IsOver w'.table.status → w'.ends = w.ends ++
          [⟨w.table.redPlayer, w.table.blackPlayer, w'.table.status⟩]) := by
  have hrun : (Table.machine.run (new (bytes "t") {} twoPlayers) twoChecks).map
      (fun w => (w.table.status, (w.acceptMove 0 1 (bytes "5051")).map fun r =>
        (r.2, w.table.redChecks, r.1.table.redChecks, r.1.table.effectiveMoves))) =
      .ok (.inProgress, .ok (.ok, 2, 3, 2)) := by
    decide +kernel
  obtain ⟨w, hw, hval⟩ := Lib.map_eq_ok.mp hrun
  obtain ⟨hstatus, hmove⟩ := Prod.mk.inj hval
  obtain ⟨⟨w', res⟩, hw', hcounters⟩ := Lib.map_eq_ok.mp hmove
  obtain ⟨rfl, hcounters⟩ := Prod.mk.inj hcounters
  obtain ⟨hcounted, hlaw⟩ := perpetual_checks_and_long_games (reachable_of_run hw)
  have hlast := (reachable_countKept (reachable_of_run hw)).lastWins_eq_false (Or.inr hstatus)
  exact ⟨w, w', hw, hw', hcounters, hcounted hlast, hlaw 0 1 (bytes "5051") w' hw'⟩

end World

end HoxServer
