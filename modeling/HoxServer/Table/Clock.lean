/-
HoxServer.Table.Clock — the clock shown and the clock enforced.

`getCurrentTimers` shows what is left of the times of the side to move,
`_resetMoveTimers` books the elapsed time when that side has moved, and
`checkTimeoutOnMove` compares the time with `_nextMoveExpiry`, which
`_resetMoveTimers` has set. The invariant `Timed` ties the last to the
times of the side to move.

The first two count the elapsed time from the third move on, but one
looks before the move is pushed and the other after: with two moves made
the shown clock stands still while the time runs. The other exceptions
are those of 32-bit arithmetic. `ClockAgrees` is the exact condition.
-/
import HoxServer.Table.Game

namespace HoxServer

/-- The values of an `int` that are not negative. -/
def InRange (n : Int) : Prop := 0 ≤ n ∧ n < 2147483648

instance (n : Int) : Decidable (InRange n) := inferInstanceAs (Decidable (_ ∧ _))

/-- No time is negative. -/
structure TimeInfo.InRange (time : TimeInfo) : Prop where
  nGame : HoxServer.InRange time.nGame
  nMove : HoxServer.InRange time.nMove
  nFree : HoxServer.InRange time.nFree

namespace Table

variable {t t' : Table} {time : TimeInfo} {now elapse : Int} {player : PlayerRef} {c : Color}

/-! ## Times -/

/-- What `_resetMoveTimers` lets the next move take. -/
def remain (time : TimeInfo) : Int := min (toInt32 (time.nGame + time.nFree)) time.nMove

/-- The times of the side to move. -/
def nextTime (t : Table) : TimeInfo :=
  if t.referee.nextColor = .red then t.redTime else t.blackTime

/-- What `getCurrentTimers` reports of the side to move. -/
def shownTime (t : Table) (now : Int) : TimeInfo :=
  if t.referee.nextColor = .red then (t.getCurrentTimers now).1 else (t.getCurrentTimers now).2

/-- What `_resetMoveTimers` stores for the side to move when it moves and
the game goes on. -/
def storedTime (t : Table) (now : Int) (sMove : Bytes) : TimeInfo :=
  if t.referee.nextColor = .red
    then (t.recorded now sMove t.referee.nextColor .inProgress).redTime
    else (t.recorded now sMove t.referee.nextColor .inProgress).blackTime

theorem toInt32_cases (n : Int) : ∃ k, toInt32 n = n - 4294967296 * k ∧
    -2147483648 ≤ toInt32 n ∧ toInt32 n < 2147483648 :=
  ⟨(n + 2147483648) / 4294967296, by unfold toInt32; omega⟩

theorem toInt32_eq_self {n : Int} (h : -2147483648 ≤ n) (h' : n < 2147483648) : toInt32 n = n := by
  unfold toInt32
  omega

theorem consume_nGame (time : TimeInfo) (elapse : Int) :
    (consume time elapse).nGame = max 0 (toInt32 (time.nGame - elapse)) := by
  unfold consume
  simp only
  split_ifs <;> simp only <;> omega

theorem consume_nFree (time : TimeInfo) (elapse : Int) :
    (consume time elapse).nFree =
      if toInt32 (time.nGame - elapse) < 0
        then max 0 (toInt32 (time.nFree + toInt32 (time.nGame - elapse))) else time.nFree := by
  unfold consume
  simp only
  split_ifs <;> simp only <;> omega

theorem consume_nMove (time : TimeInfo) (elapse : Int) :
    (consume time elapse).nMove = time.nMove := by
  unfold consume
  simp only
  split_ifs <;> rfl

theorem inRange_consume (h : time.InRange) (elapse : Int) : (consume time elapse).InRange := by
  obtain ⟨_, -, hlow, hhigh⟩ := toInt32_cases (time.nGame - elapse)
  obtain ⟨_, -, hlow', hhigh'⟩ := toInt32_cases (time.nFree + toInt32 (time.nGame - elapse))
  refine ⟨?_, by rw [consume_nMove]; exact h.nMove, ?_⟩
  · rw [consume_nGame]
    unfold HoxServer.InRange
    omega
  · rw [consume_nFree]
    split_ifs
    · unfold HoxServer.InRange
      omega
    · exact h.nFree

theorem consume_zero (h : time.InRange) : consume time 0 = time := by
  obtain ⟨hlow, hhigh⟩ := h.nGame
  unfold consume
  rw [Int.sub_zero, toInt32_eq_self (by omega) hhigh]
  simp only
  rw [if_neg (by omega)]

theorem shownTime_eq (t : Table) (now : Int) :
    (t.shownTime now).nGame = (consume t.nextTime (t.elapseTime now)).nGame ∧
      (t.shownTime now).nFree = (consume t.nextTime (t.elapseTime now)).nFree ∧
      (t.shownTime now).nMove = max 0 (toInt32 (t.nextTime.nMove - t.elapseTime now)) := by
  have hmax : ∀ n : Int, (if n < 0 then 0 else n) = max 0 n := by
    intro n
    split_ifs <;> omega
  unfold shownTime nextTime getCurrentTimers
  split_ifs
  · simp [consume_nMove, hmax]
  · simp [consume_nMove, hmax]

/-- The times of the player who is to move next, when his turn begins. -/
def refresh (initialTime time : TimeInfo) : TimeInfo :=
  if time.nGame = 0 then { time with nFree := initialTime.nFree }
  else { time with nMove := initialTime.nMove }

theorem inRange_refresh {initialTime : TimeInfo} (hi : initialTime.InRange) (h : time.InRange) :
    (refresh initialTime time).InRange := by
  unfold refresh
  split_ifs
  · exact ⟨h.nGame, h.nMove, hi.nFree⟩
  · exact ⟨h.nGame, hi.nMove, h.nFree⟩

/-- What `_resetMoveTimers` stores once both players have moved. -/
theorem resetMoveTimers_eq (hplaying : t.status = .inProgress) (hmoves : 2 ≤ t.moves.length)
    (now : Int) (c : Color) :
    t.resetMoveTimers now c =
      if c = .red then
        { t with
          lastMoveTime := now
          nextMoveExpiry := now + remain (refresh t.initialTime t.blackTime)
          redTime := consume t.redTime (t.elapseTime now)
          blackTime := refresh t.initialTime t.blackTime }
      else
        { t with
          lastMoveTime := now
          nextMoveExpiry := now + remain (refresh t.initialTime t.redTime)
          blackTime := consume t.blackTime (t.elapseTime now)
          redTime := refresh t.initialTime t.redTime } := by
  have hmin : ∀ a b : Int, (if a > b then b else a) = min a b := by
    intro a b
    split_ifs <;> omega
  have hlong : ¬ t.moves.length < 2 := by omega
  unfold resetMoveTimers
  by_cases hred : c = .red
  · simp [hplaying, hlong, hred, hmin, remain, refresh]
  · simp [hplaying, hlong, hred, hmin, remain, refresh]

/-- From the second move on the whole time since the last move is booked. -/
theorem storedTime_eq (t : Table) (now : Int) (sMove : Bytes) (hmoves : 2 ≤ t.moves.length) :
    t.storedTime now sMove = consume t.nextTime (now - t.lastMoveTime) := by
  have hlong : 2 < t.moves.length + 1 := by omega
  unfold storedTime nextTime recorded
  rw [resetMoveTimers_eq rfl (by simp; omega)]
  by_cases hred : t.referee.nextColor = .red
  · simp [hred, elapseTime, hlong]
  · simp [hred, elapseTime, hlong]

/-! ## The invariant -/

/-- The times are not negative when the initial times are not, and the
time limit of the next move is the one that they give. -/
structure Timed (t : Table) : Prop where
  red : t.redTime.InRange
  black : t.blackTime.InRange
  expiry : t.status = .inProgress → 2 ≤ t.moves.length →
    t.nextMoveExpiry = t.lastMoveTime + remain t.nextTime

/-- Other seats and another status leave the clock alone, if the game is
not started by them. -/
theorem Timed.of_seats (h : t.Timed) {allPlayers : List PlayerRef}
    {redPlayer blackPlayer : Option PlayerRef} {status : GameStatus}
    (hstatus : status = .inProgress → t.status = .inProgress) :
    ({ t with allPlayers, redPlayer, blackPlayer, status } : Table).Timed :=
  ⟨h.red, h.black, fun hplaying hmoves => h.expiry (hstatus hplaying) hmoves⟩

/-- Joining and leaving are such, and leave the initial times alone. -/
theorem Timed.reseat (h : t.initialTime.InRange → t.Timed)
    (hframe : ∃ allPlayers redPlayer blackPlayer,
      t' = { t with allPlayers, redPlayer, blackPlayer })
    (hi : t'.updateStatus.initialTime.InRange) : t'.updateStatus.Timed := by
  obtain ⟨_, _, _, _, he, hiff⟩ := reseated_eq hframe
  rw [he] at hi ⊢
  exact (h hi).of_seats hiff.mp

theorem Timed.recorded {v : Board.Verdict} {sMove : Bytes} (h : t.Timed) (hi : t.initialTime.InRange)
    (hl : t.referee.Lawful) (hmade : t.MoveMade player sMove v t' .inProgress) (now : Int) :
    (t'.recorded now sMove t.referee.nextColor .inProgress).Timed := by
  obtain ⟨r, p, -, -, hplayed⟩ := Referee.accepted_cases hl hmade.verdict hmade.accepted
  have hnext : v.board.nextColor = t.referee.nextColor.opposite := hplayed.board.nextColor
  obtain ⟨_, _, _, _, rfl⟩ := hmade.eq
  unfold Table.recorded
  by_cases hmoves : 2 ≤ (t.moves ++ [sMove]).length
  · rw [resetMoveTimers_eq rfl hmoves]
    rcases hl.turn with hturn | hturn
    · rw [if_pos hturn]
      refine ⟨inRange_consume h.red _, inRange_refresh hi h.black, fun _ _ => ?_⟩
      simp [nextTime, hnext, hturn]
    · rw [if_neg (by simp [hturn])]
      refine ⟨inRange_refresh hi h.red, inRange_consume h.black _, fun _ _ => ?_⟩
      simp [nextTime, hnext, hturn]
  · have hshort : t.moves.length + 1 < 2 := by simpa using hmoves
    unfold resetMoveTimers
    simp only [ne_eq, not_true_eq_false, if_false, List.length_append, List.length_singleton,
      if_pos hshort]
    refine ⟨h.red, h.black, fun _ hmoves' => ?_⟩
    exact absurd hmoves' hmoves

theorem recorded_initialTime (t : Table) (now : Int) (sMove : Bytes) (c : Color)
    (s : GameStatus) : (t.recorded now sMove c s).initialTime = t.initialTime := by
  obtain ⟨_, _, _, _, hrecorded⟩ := t.recorded_eq now sMove c s
  rw [hrecorded]

theorem MoveMade.initialTime {sMove : Bytes} {v : Board.Verdict} {s : GameStatus}
    (h : t.MoveMade player sMove v t' s) : t'.initialTime = t.initialTime := by
  obtain ⟨_, _, _, _, hmade⟩ := h.eq
  rw [hmade]

/-- Every effect keeps the times and the time limit together. -/
theorem Timed.effect {ids : PlayerRef → Bytes} {op : TableOp} {res : Result}
    {e : Option GameStatus} (h : t.initialTime.InRange → t.Timed) (hl : t.referee.Lawful)
    (heffect : t.Effect ids now op t' res e) (hi : t'.initialTime.InRange) : t'.Timed := by
  have hover : ∀ {t₁ : Table} {s : GameStatus}, t₁.redTime = t.redTime → t₁.blackTime = t.blackTime →
      t.initialTime.InRange → IsOver s → (t₁.ended s).Timed := by
    intro t₁ s hred hblack hi hs
    refine ⟨hred ▸ (h hi).red, hblack ▸ (h hi).black, fun hplaying => ?_⟩
    exact absurd (Or.inr hplaying) (not_playable_of_isOver hs)
  cases heffect with
  | refused => exact h hi
  | informed => exact h hi
  | @joined player c => exact Timed.reseat h (t.addPlayer_frame player c) hi
  | @left player => exact Timed.reseat h (t.removePlayer_frame player) hi
  | @leftGame player =>
    have hended : t.initialTime.InRange → (t.ended (t.lossOf player)).Timed :=
      fun hi => hover rfl rfl hi (isOver_lossOf t player)
    exact Timed.reseat hended (removePlayer_frame _ player) hi
  | moveRejected hboard =>
    have hnext := hboard.nextColor
    refine ⟨(h hi).red, (h hi).black, fun hplaying hmoves => ?_⟩
    rw [(h hi).expiry hplaying hmoves]
    simp [nextTime, hnext]
  | moved hmade hgoes =>
    have hs := hmade.inProgress hl hgoes
    subst hs
    rw [recorded_initialTime, hmade.initialTime] at hi
    exact (h hi).recorded hi hl hmade now
  | @movedLast player sMove v t' s hmade hends =>
    have hi : (t'.recorded now sMove t.referee.nextColor s).initialTime.InRange := hi
    rw [recorded_initialTime, hmade.initialTime] at hi
    obtain ⟨_, _, _, _, hframe⟩ := hmade.eq
    have hstill : t'.recorded now sMove t.referee.nextColor s =
        { t' with status := s, moves := t'.moves ++ [sMove] } := by
      have hne : s ≠ .inProgress := fun hs => not_playable_of_isOver hends (Or.inr hs)
      unfold Table.recorded resetMoveTimers
      exact if_pos hne
    rw [hstill]
    refine hover ?_ ?_ hi hends
    · rw [hframe]
    · rw [hframe]
  | resigned => exact hover rfl rfl hi (isOver_lossOf t _)
  | drawOffered => exact ⟨(h hi).red, (h hi).black, (h hi).expiry⟩
  | drawRepeated => exact h hi
  | drawAgreed => exact hover rfl rfl hi (Or.inr (Or.inr rfl))
  | switched hready =>
    refine ⟨(h hi).red, (h hi).black, fun hplaying => ?_⟩
    have hplaying : t.status = .inProgress := hplaying
    rw [hready] at hplaying
    cases hplaying
  | notReset => exact h hi
  | restarted =>
    refine ⟨hi, hi, fun hplaying => ?_⟩
    have hplaying : ({ t with status := .open, drawPlayerId := [] } : Table).updateStatus.status =
      .inProgress := hplaying
    rw [updateStatus_inProgress_iff] at hplaying
    cases hplaying
  | updated hidle =>
    refine ⟨hi, hi, fun hplaying => ?_⟩
    have hplaying : t.status = .inProgress := hplaying
    rw [hplaying] at hidle
    simp at hidle
  | notFlagged => exact h hi
  | flagged => exact hover rfl rfl hi (isOver_timeout _)

/-! ## The condition -/

/-- In 32-bit arithmetic nothing is left of the time for the move, or
nothing of the game-time and the free-time. -/
def Spent (time : TimeInfo) (elapse : Int) : Prop :=
  toInt32 (time.nMove - elapse) ≤ 0 ∨
    (toInt32 (time.nGame - elapse) ≤ 0 ∧
      toInt32 (time.nFree + toInt32 (time.nGame - elapse)) ≤ 0)

/-- The clock shown at `now` is the one enforced. With two moves made it
is when no time has passed since the last move (or a multiple of `2 ^ 32`
seconds), or when there is no time to lose. Later it is as long as the
times fit into an `int`, and beyond that when the clock has run down. -/
def ClockAgrees (t : Table) (now : Int) : Prop :=
  let time := t.nextTime
  let elapse := now - t.lastMoveTime
  if t.moves.length = 2 then
    (elapse % 4294967296 = 0 ∨ (time.nGame = 0 ∧ time.nFree = 0 ∧ toInt32 (-elapse) ≤ 0)) ∧
      ((elapse = 0 ∧ time.nGame + time.nFree < 2147483648) ∨ time.nGame + time.nFree = 0 ∨
        time.nMove = 0)
  else
    (elapse ≤ 2147483648 ∧ time.nGame + time.nFree < 2147483648) ∨ Spent time elapse

instance (time : TimeInfo) (elapse : Int) : Decidable (Spent time elapse) :=
  inferInstanceAs (Decidable (_ ∨ _))

instance (t : Table) (now : Int) : Decidable (t.ClockAgrees now) :=
  inferInstanceAs (Decidable (ite _ _ _))

/-- The clock shown at `now` is the one enforced: what is shown of
game-time and free-time is what would be stored, and what is shown in all
is the time left until the time limit. -/
structure ClockShown (t : Table) (now : Int) : Prop where
  nGame : ∀ sMove, (t.shownTime now).nGame = (t.storedTime now sMove).nGame
  nFree : ∀ sMove, (t.shownTime now).nFree = (t.storedTime now sMove).nFree
  limit : min ((t.shownTime now).nGame + (t.shownTime now).nFree) (t.shownTime now).nMove =
    max 0 (t.nextMoveExpiry - now)

/-- No time is counted, exactly. -/
theorem consume_eq_self_iff (hg : HoxServer.InRange time.nGame) (hf : HoxServer.InRange time.nFree) :
    (time.nGame = (consume time elapse).nGame ∧ time.nFree = (consume time elapse).nFree) ↔
      (elapse % 4294967296 = 0 ∨ (time.nGame = 0 ∧ time.nFree = 0 ∧ toInt32 (-elapse) ≤ 0)) := by
  obtain ⟨hg, hg'⟩ := hg
  obtain ⟨hf, hf'⟩ := hf
  rw [consume_nGame, consume_nFree]
  obtain ⟨k, hk, hlow, hhigh⟩ := toInt32_cases (time.nGame - elapse)
  by_cases hdiv : elapse % 4294967296 = 0
  · have hG : toInt32 (time.nGame - elapse) = time.nGame := by omega
    simp [hdiv, hG, hg, Int.not_lt.mpr hg]
  · simp only [hdiv, false_or]
    by_cases hneg : toInt32 (time.nGame - elapse) < 0
    · have hF : toInt32 (time.nFree + toInt32 (time.nGame - elapse)) =
          time.nFree + toInt32 (time.nGame - elapse) := toInt32_eq_self (by omega) (by omega)
      rw [if_pos hneg, hF]
      constructor
      · intro ⟨hG, hfree⟩
        have hzero : time.nGame = 0 := by omega
        rw [hzero, Int.zero_sub] at hneg
        exact ⟨hzero, by omega, by omega⟩
      · intro ⟨hG, hfree, hle⟩
        omega
    · rw [if_neg hneg]
      constructor
      · intro ⟨hG, hfree⟩
        omega
      · intro ⟨hG, hfree, hle⟩
        rw [hG, Int.zero_sub] at hneg hk hlow hhigh
        omega
/-- What the clock shows is zero when it is spent. -/
theorem min_consume_eq_zero_iff (hf : HoxServer.InRange time.nFree) :
    min ((consume time elapse).nGame + (consume time elapse).nFree)
        (max 0 (toInt32 (time.nMove - elapse))) = 0 ↔ Spent time elapse := by
  obtain ⟨hf, hf'⟩ := hf
  rw [consume_nGame, consume_nFree]
  unfold Spent
  generalize toInt32 (time.nMove - elapse) = M
  generalize hG : toInt32 (time.nGame - elapse) = G
  by_cases hneg : G < 0
  · rw [if_pos hneg]
    generalize toInt32 (time.nFree + G) = F
    omega
  · rw [if_neg hneg]
    by_cases hz : G = 0
    · rw [hz, Int.add_zero, toInt32_eq_self (by omega) hf']
      omega
    · omega

/-- What is left on the clock when the whole elapsed time is counted. -/
theorem min_consume_eq_iff (hg : HoxServer.InRange time.nGame) (hm : HoxServer.InRange time.nMove)
    (hf : HoxServer.InRange time.nFree) (he : 0 ≤ elapse) :
    min ((consume time elapse).nGame + (consume time elapse).nFree)
        (max 0 (toInt32 (time.nMove - elapse))) = max 0 (remain time - elapse) ↔
      (elapse ≤ 2147483648 ∧ time.nGame + time.nFree < 2147483648) ∨ Spent time elapse := by
  by_cases hfits : elapse ≤ 2147483648 ∧ time.nGame + time.nFree < 2147483648
  · obtain ⟨hg, hg'⟩ := hg
    obtain ⟨hm, hm'⟩ := hm
    obtain ⟨hf, hf'⟩ := hf
    have hG : toInt32 (time.nGame - elapse) = time.nGame - elapse :=
      toInt32_eq_self (by omega) (by omega)
    have hM : toInt32 (time.nMove - elapse) = time.nMove - elapse :=
      toInt32_eq_self (by omega) (by omega)
    have hR : toInt32 (time.nGame + time.nFree) = time.nGame + time.nFree :=
      toInt32_eq_self (by omega) (by omega)
    simp only [hfits, true_and, true_or, iff_true]
    rw [consume_nGame, consume_nFree, remain, hG, hM, hR]
    by_cases hneg : time.nGame - elapse < 0
    · have hF : toInt32 (time.nFree + (time.nGame - elapse)) = time.nFree + (time.nGame - elapse) :=
        toInt32_eq_self (by omega) (by omega)
      rw [if_pos hneg, hF]
      omega
    · rw [if_neg hneg]
      omega
  · -- the time limit has passed, so the clock must show nothing
    simp only [hfits, false_or]
    rw [← min_consume_eq_zero_iff hf]
    obtain ⟨k, hk, hlow, hhigh⟩ := toInt32_cases (time.nGame + time.nFree)
    obtain ⟨hg, hg'⟩ := hg
    obtain ⟨hm, hm'⟩ := hm
    obtain ⟨hf, hf'⟩ := hf
    have hpast : remain time - elapse ≤ 0 := by
      unfold remain
      omega
    rw [max_eq_left hpast]

/-- With the whole time still on the clock the time limit agrees, exactly. -/
theorem min_eq_iff (hg : HoxServer.InRange time.nGame) (hm : HoxServer.InRange time.nMove)
    (hf : HoxServer.InRange time.nFree) (he : 0 ≤ elapse) :
    min (time.nGame + time.nFree) time.nMove = max 0 (remain time - elapse) ↔
      (elapse = 0 ∧ time.nGame + time.nFree < 2147483648) ∨ time.nGame + time.nFree = 0 ∨
        time.nMove = 0 := by
  obtain ⟨hg, hg'⟩ := hg
  obtain ⟨hm, hm'⟩ := hm
  obtain ⟨hf, hf'⟩ := hf
  unfold remain
  by_cases hfits : time.nGame + time.nFree < 2147483648
  · rw [toInt32_eq_self (by omega) hfits]
    omega
  · obtain ⟨k, hk, hlow, hhigh⟩ := toInt32_cases (time.nGame + time.nFree)
    omega

theorem ClockShown.iff_agrees (h : t.Timed) (hplaying : t.status = .inProgress)
    (hmoves : 2 ≤ t.moves.length) (hnow : t.lastMoveTime ≤ now) :
    t.ClockShown now ↔ t.ClockAgrees now := by
  have hnext : t.nextTime.InRange := by
    unfold nextTime
    split_ifs
    · exact h.red
    · exact h.black
  have he : 0 ≤ now - t.lastMoveTime := by omega
  have hlimit : t.nextMoveExpiry - now = remain t.nextTime - (now - t.lastMoveTime) := by
    rw [h.expiry hplaying hmoves]
    omega
  obtain ⟨hgame, hfree, hmove⟩ := t.shownTime_eq now
  have hshown : t.ClockShown now ↔
      ((consume t.nextTime (t.elapseTime now)).nGame =
          (consume t.nextTime (now - t.lastMoveTime)).nGame ∧
        (consume t.nextTime (t.elapseTime now)).nFree =
          (consume t.nextTime (now - t.lastMoveTime)).nFree) ∧
      min ((consume t.nextTime (t.elapseTime now)).nGame +
          (consume t.nextTime (t.elapseTime now)).nFree)
        (max 0 (toInt32 (t.nextTime.nMove - t.elapseTime now))) =
          max 0 (remain t.nextTime - (now - t.lastMoveTime)) := by
    rw [← hgame, ← hfree, ← hmove, ← hlimit]
    constructor
    · intro hs
      refine ⟨⟨?_, ?_⟩, hs.limit⟩
      · rw [hs.nGame [], t.storedTime_eq now [] hmoves]
      · rw [hs.nFree [], t.storedTime_eq now [] hmoves]
    · intro ⟨⟨hg, hf⟩, hl⟩
      exact ⟨fun sMove => by rw [t.storedTime_eq now sMove hmoves, hg],
        fun sMove => by rw [t.storedTime_eq now sMove hmoves, hf], hl⟩
  rw [hshown]
  unfold ClockAgrees
  simp only
  split_ifs with htwo
  · have hzero : t.elapseTime now = 0 := by
      unfold elapseTime
      rw [if_neg (by omega)]
    have hmove : max 0 (toInt32 (t.nextTime.nMove - 0)) = t.nextTime.nMove := by
      obtain ⟨hlow, hhigh⟩ := hnext.nMove
      rw [Int.sub_zero, toInt32_eq_self (by omega) hhigh]
      omega
    rw [hzero, consume_zero hnext, hmove, consume_eq_self_iff hnext.nGame hnext.nFree,
      min_eq_iff hnext.nGame hnext.nMove hnext.nFree he]
  · have hlong : t.elapseTime now = now - t.lastMoveTime := by
      unfold elapseTime
      rw [if_pos (by omega)]
    rw [hlong, min_consume_eq_iff hnext.nGame hnext.nMove hnext.nFree he]
    simp

end Table

namespace World

variable {w w' : World} {now : Int}

theorem reachable_timed (h : Table.machine.Reachable w) (hi : w.table.initialTime.InRange) :
    w.table.Timed := by
  have hboth : w.table.Replays ∧ (w.table.initialTime.InRange → w.table.Timed) := by
    refine h.invariant (I := fun w => w.table.Replays ∧
      (w.table.initialTime.InRange → w.table.Timed)) ?_ ?_
    · intro w hw
      obtain ⟨id, initialTime, players, hw⟩ := hw
      rw [hw]
      refine ⟨(seated_new id initialTime players).replays, fun hi => ⟨hi, hi, fun hplaying => ?_⟩⟩
      cases hplaying
    · intro w op w' hw hstep
      obtain ⟨res, hcall⟩ := step_eq.mp hstep
      obtain ⟨e, hcalled⟩ := call_called hw.1.lawful hcall
      exact ⟨hw.1.effect hcalled.effect, Table.Timed.effect hw.2 hw.1.lawful hcalled.effect⟩
  exact hboth.2 hi

/-- **The clock shown is the clock enforced**, exactly when `ClockAgrees`
holds. -/
theorem clock_shown_iff (h : Table.machine.Reachable w) (hplaying : w.table.status = .inProgress)
    (hmoves : 2 ≤ w.table.moves.length) (hi : w.table.initialTime.InRange)
    (hnow : w.table.lastMoveTime ≤ now) : w.table.ClockShown now ↔ w.table.ClockAgrees now :=
  Table.ClockShown.iff_agrees (reachable_timed h hi) hplaying hmoves hnow

/-- Ten minutes a game, one minute a move, and 20 seconds. -/
def tenMinutes : TimeInfo := { nGame := 600, nMove := 60, nFree := 20 }

/-- After the third move the clock runs. -/
theorem clock_shown_iff_third : ∃ w,
    Table.machine.run (new (bytes "t") tenMinutes twoPlayers)
        (started ++ [(8, .acceptMove 1 (bytes "0605"))]) = .ok w ∧
      w.table.ClockShown 13 ∧ (w.table.shownTime 13).nGame = 595 := by
  have hrun : (Table.machine.run (new (bytes "t") tenMinutes twoPlayers)
      (started ++ [(8, .acceptMove 1 (bytes "0605"))])).map (fun w => (w.table.status,
        w.table.moves.length, w.table.initialTime, w.table.lastMoveTime,
        decide (w.table.ClockAgrees 13), (w.table.shownTime 13).nGame)) =
      .ok (.inProgress, 3, tenMinutes, 8, true, 595) := by decide +kernel
  obtain ⟨w, hw, he⟩ := Lib.map_eq_ok.mp hrun
  simp only [Prod.mk.injEq, decide_eq_true_eq] at he
  obtain ⟨hstatus, hmoves, hi, hlast, hagrees, hshown⟩ := he
  have hrange : w.table.initialTime.InRange := by
    rw [hi]
    exact ⟨by decide, by decide, by decide⟩
  exact ⟨w, hw, (clock_shown_iff (reachable_of_run hw) hstatus (by omega) hrange
    (by omega)).mpr hagrees, hshown⟩

/-- Both players have moved at once. Five seconds later RED's clock still
shows ten minutes, but a move would leave him 595 seconds, and of the
minute for the move 55 seconds are left. -/
theorem clock_stands_still : ∃ w,
    Table.machine.run (new (bytes "t") tenMinutes twoPlayers) started = .ok w ∧
      w.table.status = .inProgress ∧ w.table.moves.length = 2 ∧
      w.table.initialTime = tenMinutes ∧ w.table.lastMoveTime = 0 ∧
      (w.table.shownTime 5).nGame = 600 ∧ (w.table.storedTime 5 (bytes "0605")).nGame = 595 ∧
      min ((w.table.shownTime 5).nGame + (w.table.shownTime 5).nFree) (w.table.shownTime 5).nMove
        = 60 ∧ max 0 (w.table.nextMoveExpiry - 5) = 55 := by
  have hrun : (Table.machine.run (new (bytes "t") tenMinutes twoPlayers) started).map
      (fun w => (w.table.status, w.table.moves.length, w.table.initialTime,
        w.table.lastMoveTime)) = .ok (.inProgress, 2, tenMinutes, 0) := by decide +kernel
  have hclock : (Table.machine.run (new (bytes "t") tenMinutes twoPlayers) started).map
      (fun w => (w.table.shownTime 5, (w.table.storedTime 5 (bytes "0605")).nGame,
        w.table.nextMoveExpiry)) = .ok (tenMinutes, 595, 60) := by decide +kernel
  obtain ⟨w, hw, he⟩ := Lib.map_eq_ok.mp hrun
  simp only [hw, Except.map, Except.ok.injEq, Prod.mk.injEq] at he hclock
  obtain ⟨hstatus, hmoves, hi, hlast⟩ := he
  obtain ⟨hshown, hstored, hexpiry⟩ := hclock
  refine ⟨w, hw, hstatus, hmoves, hi, hlast, ?_, hstored, ?_, ?_⟩
  · rw [hshown]
    rfl
  · rw [hshown]
    rfl
  · rw [hexpiry]
    rfl

end World

end HoxServer
