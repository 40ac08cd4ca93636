/-
HoxServer.Table.EloTheorems — what a game does to two ratings.

The code looks at a game from the side of the more experienced player.
This does not matter but for the K-factor: the expected results of the
two sides add up to one (`eloExpectedResult_neg`), so the winner's gain
is one function of the K-factor and of the winner's advantage, whoever
is looked at (`exactRatingChange_redWin`, `exactRatingChange_blackWin`),
and so is the change of a draw (`exactRatingChange_drawn`).

These laws are about exact decimals. The rounding of `float` shows in one
place only, draws between players 150 to 199 points apart, where it takes
a point off the change (`ratingChange_eq`).
-/
import HoxServer.Lib.StepFunction
import HoxServer.Table.Table

namespace HoxServer

/-! ## The expected result -/

theorem mem_reverse_table {row : WinningProbability} (h : row ∈ winningProbabilities.reverse) :
    row.strongerPlayer + row.weakerPlayer = 100 ∧ 50 ≤ row.strongerPlayer ∧
      row.strongerPlayer ≤ 89 := by
  simp [winningProbabilities] at h
  rcases h with rfl | rfl | rfl | rfl | rfl | rfl | rfl | rfl | rfl <;> decide

theorem stronger_pairwise :
    winningProbabilities.reverse.Pairwise fun a b => b.strongerPlayer ≤ a.strongerPlayer := by
  simp [winningProbabilities]

theorem weaker_pairwise :
    winningProbabilities.reverse.Pairwise fun a b => a.weakerPlayer ≤ b.weakerPlayer := by
  simp [winningProbabilities]

/-- The row of a difference that is not negative. -/
def winningRow (n : Int) : Option WinningProbability :=
  winningProbabilities.reverse.find? fun row => n ≥ row.ratingDiff

theorem winningRow_isSome {n : Int} (h : 0 ≤ n) : ∃ row, winningRow n = some row := by
  rw [← Option.isSome_iff_exists, winningRow, List.find?_isSome]
  exact ⟨⟨0, 50, 50⟩, by simp [winningProbabilities], by simpa using h⟩

theorem mem_of_winningRow {n : Int} {row : WinningProbability} (h : winningRow n = some row) :
    row ∈ winningProbabilities.reverse :=
  List.mem_of_find?_eq_some h

theorem eloExpectedResult_of_pos {d : Int} (h : 0 < d) :
    ∃ row, winningRow d = some row ∧ eloExpectedResult d = row.strongerPlayer := by
  obtain ⟨row, hrow⟩ := winningRow_isSome h.le
  refine ⟨row, hrow, ?_⟩
  rw [winningRow] at hrow
  simp [eloExpectedResult, h, hrow]

theorem eloExpectedResult_of_nonpos {d : Int} (h : d ≤ 0) :
    ∃ row, winningRow (-d) = some row ∧ eloExpectedResult d = row.weakerPlayer := by
  obtain ⟨row, hrow⟩ := winningRow_isSome (n := -d) (by omega)
  refine ⟨row, hrow, ?_⟩
  rw [winningRow] at hrow
  simp [eloExpectedResult, not_lt.mpr h, hrow]

/-- **The expected results of the two sides add up to one.** -/
theorem eloExpectedResult_neg (d : Int) : eloExpectedResult (-d) = 100 - eloExpectedResult d := by
  rcases lt_trichotomy d 0 with hneg | rfl | hpos
  · obtain ⟨row, hrow, he⟩ := eloExpectedResult_of_nonpos hneg.le
    obtain ⟨row', hrow', he'⟩ := eloExpectedResult_of_pos (d := -d) (by omega)
    rw [hrow] at hrow'
    cases hrow'
    have hsum := (mem_reverse_table (mem_of_winningRow hrow)).1
    omega
  · decide
  · obtain ⟨row, hrow, he⟩ := eloExpectedResult_of_pos hpos
    obtain ⟨row', hrow', he'⟩ := eloExpectedResult_of_nonpos (d := -d) (by omega)
    rw [neg_neg, hrow] at hrow'
    cases hrow'
    have hsum := (mem_reverse_table (mem_of_winningRow hrow)).1
    omega

theorem eloExpectedResult_bounds (d : Int) :
    11 ≤ eloExpectedResult d ∧ eloExpectedResult d ≤ 89 := by
  rcases le_or_gt d 0 with h | h
  · obtain ⟨row, hrow, he⟩ := eloExpectedResult_of_nonpos h
    have hbounds := mem_reverse_table (mem_of_winningRow hrow)
    omega
  · obtain ⟨row, hrow, he⟩ := eloExpectedResult_of_pos h
    have hbounds := mem_reverse_table (mem_of_winningRow hrow)
    omega

/-- More is expected of a player who leads by more. -/
theorem eloExpectedResult_mono {d d' : Int} (h : d ≤ d') :
    eloExpectedResult d ≤ eloExpectedResult d' := by
  rcases le_or_gt d' 0 with hd' | hd'
  · obtain ⟨row, hrow, he⟩ := eloExpectedResult_of_nonpos (h.trans hd')
    obtain ⟨row', hrow', he'⟩ := eloExpectedResult_of_nonpos hd'
    rw [he, he']
    refine Lib.ge_of_find? weaker_pairwise (fun row _ hle => ?_) hrow' hrow
    simp only [ge_iff_le, decide_eq_true_eq] at hle ⊢
    omega
  · obtain ⟨row', hrow', he'⟩ := eloExpectedResult_of_pos hd'
    rcases le_or_gt d 0 with hd | hd
    · obtain ⟨row, hrow, he⟩ := eloExpectedResult_of_nonpos hd
      have hbounds := mem_reverse_table (mem_of_winningRow hrow)
      have hbounds' := mem_reverse_table (mem_of_winningRow hrow')
      omega
    · obtain ⟨row, hrow, he⟩ := eloExpectedResult_of_pos hd
      rw [he, he']
      refine Lib.le_of_find? stronger_pairwise (fun row _ hle => ?_) hrow hrow'
      simp only [ge_iff_le, decide_eq_true_eq] at hle ⊢
      omega

/-! ## The change of the ratings -/

/-- The player that `_calculateNewScores` looks at, BLACK where both have
played as many games. -/
def experienced (red black : Player) : Player :=
  if red.getPlayedGames > black.getPlayedGames then red else black

/-- The K-factor of a game. -/
def gameKFactor (red black : Player) : Int :=
  eloCalculateKFactor (experienced red black).getPlayedGames (experienced red black).score

/-- What the winner of a game gains who leads by `advantage` before it. -/
def eloGain (nKFactor advantage : Int) : Int :=
  (nKFactor * (100 - eloExpectedResult advantage)).tdiv 100

/-- The change of a player's score in a draw. -/
def eloDrawChange (nKFactor advantage : Int) : Int :=
  (nKFactor * (50 - eloExpectedResult advantage)).tdiv 100

theorem eloCalculateKFactor_cases (nPlayedGames nOldRating : Int) :
    eloCalculateKFactor nPlayedGames nOldRating = 25 ∨
      eloCalculateKFactor nPlayedGames nOldRating = 15 ∨
      eloCalculateKFactor nPlayedGames nOldRating = 10 := by
  rw [eloCalculateKFactor]
  split
  · exact Or.inl rfl
  · split
    · exact Or.inr (Or.inl rfl)
    · exact Or.inr (Or.inr rfl)

theorem tdiv_neg_left (n : Int) : (-n).tdiv 100 = -n.tdiv 100 := Int.neg_tdiv n 100

/-- The loser's change, seen from his side. -/
theorem eloGain_neg (nKFactor advantage : Int) :
    (nKFactor * (0 - eloExpectedResult (-advantage))).tdiv 100 = -eloGain nKFactor advantage := by
  have hsub : 0 - (100 - eloExpectedResult advantage) = -(100 - eloExpectedResult advantage) := by
    ring
  rw [eloGain, eloExpectedResult_neg, hsub, mul_neg, tdiv_neg_left]

theorem eloDrawChange_neg (nKFactor advantage : Int) :
    eloDrawChange nKFactor (-advantage) = -eloDrawChange nKFactor advantage := by
  have hsub : 50 - (100 - eloExpectedResult advantage) = -(50 - eloExpectedResult advantage) := by
    ring
  rw [eloDrawChange, eloDrawChange, eloExpectedResult_neg, hsub, mul_neg, tdiv_neg_left]

/-- The change that `_calculateNewScores` computes, read on exact decimals. -/
def World.exactRatingChange (red black : Player) (status : GameStatus) : Int :=
  World.ratingChangeBy eloExactRatingChange red black status

theorem exactRatingChange_redWin (red black : Player) :
    World.exactRatingChange red black .redWin =
      eloGain (gameKFactor red black) (red.score - black.score) := by
  unfold World.exactRatingChange World.ratingChangeBy gameKFactor experienced
  by_cases hred : red.getPlayedGames > black.getPlayedGames
  · simp only [hred, decide_true, if_true, eloExactRatingChange, exactChange, eloGain]
  · simp only [hred, decide_false, if_false, Bool.false_eq_true, eloExactRatingChange, exactChange]
    rw [← neg_sub red.score, eloGain_neg, neg_neg]

theorem exactRatingChange_blackWin (red black : Player) :
    World.exactRatingChange red black .blackWin =
      -eloGain (gameKFactor red black) (black.score - red.score) := by
  unfold World.exactRatingChange World.ratingChangeBy gameKFactor experienced
  by_cases hred : red.getPlayedGames > black.getPlayedGames
  · simp only [hred, decide_true, if_true, eloExactRatingChange, exactChange]
    rw [← neg_sub black.score, eloGain_neg]
  · simp only [hred, decide_false, if_false, Bool.false_eq_true, eloExactRatingChange, exactChange,
      eloGain]

theorem exactRatingChange_drawn (red black : Player) :
    World.exactRatingChange red black .drawn =
      eloDrawChange (gameKFactor red black) (red.score - black.score) := by
  unfold World.exactRatingChange World.ratingChangeBy gameKFactor experienced
  by_cases hred : red.getPlayedGames > black.getPlayedGames
  · simp only [hred, decide_true, if_true, eloExactRatingChange, exactChange, eloDrawChange]
  · simp only [hred, decide_false, if_false, Bool.false_eq_true, eloExactRatingChange, exactChange]
    rw [← neg_sub black.score, eloDrawChange_neg, eloDrawChange]

theorem eloGain_bounds {nKFactor : Int} (hk : nKFactor = 25 ∨ nKFactor = 15 ∨ nKFactor = 10)
    (advantage : Int) : 1 ≤ eloGain nKFactor advantage ∧ eloGain nKFactor advantage ≤ 22 := by
  have hbounds := eloExpectedResult_bounds advantage
  rw [eloGain, Int.tdiv_eq_ediv_of_nonneg (by rcases hk with rfl | rfl | rfl <;> omega)]
  rcases hk with rfl | rfl | rfl <;> omega

/-- The winner's gain does not grow with his advantage. -/
theorem eloGain_anti {nKFactor advantage advantage' : Int} (hk : 0 ≤ nKFactor)
    (h : advantage ≤ advantage') : eloGain nKFactor advantage' ≤ eloGain nKFactor advantage := by
  have hmono := eloExpectedResult_mono h
  exact Int.tdiv_le_tdiv (by norm_num) (mul_le_mul_of_nonneg_left (by omega) hk)

/-- A player who trails loses nothing in a draw. -/
theorem eloDrawChange_nonneg {nKFactor advantage : Int} (hk : 0 ≤ nKFactor)
    (h : advantage ≤ 0) : 0 ≤ eloDrawChange nKFactor advantage := by
  have hmono := eloExpectedResult_mono h
  have hzero : eloExpectedResult 0 = 50 := by decide
  exact Int.tdiv_nonneg (mul_nonneg hk (by omega)) (by norm_num)

theorem eloExpectedResult_mem (d : Int) : eloExpectedResult d ∈
    [11, 15, 19, 24, 30, 36, 43, 47, 50, 53, 57, 64, 70, 76, 81, 85, 89] := by
  have hmem : ∀ row ∈ winningProbabilities.reverse,
      row.strongerPlayer ∈ [50, 53, 57, 64, 70, 76, 81, 85, 89] ∧
        row.weakerPlayer ∈ [11, 15, 19, 24, 30, 36, 43, 47, 50] := by
    simp [winningProbabilities]
  rcases le_or_gt d 0 with h | h
  · obtain ⟨row, hrow, he⟩ := eloExpectedResult_of_nonpos h
    have hvalue := (hmem row (mem_of_winningRow hrow)).2
    rw [he]
    simp only [List.mem_cons, List.not_mem_nil, or_false] at hvalue ⊢
    omega
  · obtain ⟨row, hrow, he⟩ := eloExpectedResult_of_pos h
    have hvalue := (hmem row (mem_of_winningRow hrow)).1
    rw [he]
    simp only [List.mem_cons, List.not_mem_nil, or_false] at hvalue ⊢
    omega

/-! ## The rounding -/

/-- What the rounding takes off a change: a point where the players draw whose
results were expected to be 0.3 and 0.7. -/
def roundingLoss (fGameResult fExpectedResult : Int) : Int :=
  if fGameResult = 50 ∧ fExpectedResult = 30 then 1
  else if fGameResult = 50 ∧ fExpectedResult = 70 then -1
  else 0

/-- Every change that can be computed. -/
theorem floatChange_eq : ∀ nKFactor ∈ [25, 15, 10], ∀ fGameResult ∈ [0, 50, 100],
    ∀ fExpectedResult ∈ [11, 15, 19, 24, 30, 36, 43, 47, 50, 53, 57, 64, 70, 76, 81, 85, 89],
      floatChange nKFactor fGameResult fExpectedResult =
        exactChange nKFactor fGameResult fExpectedResult -
          roundingLoss fGameResult fExpectedResult := by
  decide +kernel

theorem eloCalculateNewRatingChange_eq {fGameResult : Int} (h : fGameResult ∈ [0, 50, 100])
    (nRatingDiff nOldRating nPlayedGames : Int) :
    eloCalculateNewRatingChange nRatingDiff nOldRating nPlayedGames fGameResult =
      eloExactRatingChange nRatingDiff nOldRating nPlayedGames fGameResult -
        roundingLoss fGameResult (eloExpectedResult nRatingDiff) := by
  have hk : eloCalculateKFactor nPlayedGames nOldRating ∈ [25, 15, 10] := by
    simpa using eloCalculateKFactor_cases nPlayedGames nOldRating
  exact floatChange_eq _ hk _ h _ (eloExpectedResult_mem nRatingDiff)

theorem roundingLoss_neg (advantage : Int) :
    roundingLoss 50 (eloExpectedResult (-advantage)) =
      -roundingLoss 50 (eloExpectedResult advantage) := by
  rw [eloExpectedResult_neg]
  unfold roundingLoss
  split_ifs <;> omega

/-- **Where the rounding shows**: the change is the one on exact decimals, but
for the point that a draw may lose. -/
theorem ratingChange_eq (red black : Player) (status : GameStatus) :
    World.ratingChange red black status = World.exactRatingChange red black status -
      if status = .redWin ∨ status = .blackWin then 0
      else roundingLoss 50 (eloExpectedResult (red.score - black.score)) := by
  have hdecisive : ∀ e, roundingLoss 0 e = 0 ∧ roundingLoss 100 e = 0 := fun e => by
    simp [roundingLoss]
  unfold World.ratingChange World.exactRatingChange World.ratingChangeBy
  by_cases hred : red.getPlayedGames > black.getPlayedGames
  · simp only [hred, decide_true, if_true]
    cases status <;> simp [eloCalculateNewRatingChange_eq, hdecisive]
  · simp only [hred, decide_false, if_false, Bool.false_eq_true]
    have hloss : roundingLoss 50 (eloExpectedResult (black.score - red.score)) =
        -roundingLoss 50 (eloExpectedResult (red.score - black.score)) := by
      rw [← neg_sub red.score, roundingLoss_neg]
    cases status <;> simp [eloCalculateNewRatingChange_eq, hdecisive, hloss] <;> ring

/-- A draw at 150 points: 25 · (0.5 − 0.3) is a little less than 5. -/
example : floatChange 25 50 30 = 4 ∧ exactChange 25 50 30 = 5 := by decide +kernel

/-! ## The two players of a game -/

namespace World

variable {w : World} {red black : PlayerRef}

/-- What a player's score changes by in `_calculateNewScores`, read on exact
decimals. -/
def scoreChange (w : World) (red black p : PlayerRef) : Int :=
  ((w.changeScores red black (exactRatingChange (w.players red) (w.players black)
    w.table.status)).players p).score - (w.players p).score

/-- The game has a winner. -/
def Decisive (w : World) : Prop := w.table.status = .redWin ∨ w.table.status = .blackWin

instance (w : World) : Decidable w.Decisive := inferInstanceAs (Decidable (_ ∨ _))

/-- The winner of a game of these two, if it has one. -/
def winner (w : World) (red black : PlayerRef) : PlayerRef :=
  if w.table.status = .redWin then red else black

def loser (w : World) (red black : PlayerRef) : PlayerRef :=
  if w.table.status = .redWin then black else red

/-- The points that a player leads by. -/
def advantage (w : World) (p q : PlayerRef) : Int := (w.players p).score - (w.players q).score

/-- The K-factor of the game. -/
def kFactor (w : World) (red black : PlayerRef) : Int :=
  gameKFactor (w.players red) (w.players black)

theorem kFactor_cases (w : World) (red black : PlayerRef) :
    w.kFactor red black = 25 ∨ w.kFactor red black = 15 ∨ w.kFactor red black = 10 :=
  eloCalculateKFactor_cases _ _

theorem kFactor_nonneg (w : World) (red black : PlayerRef) : 0 ≤ w.kFactor red black := by
  rcases w.kFactor_cases red black with h | h | h <;> omega

theorem scoreChange_red (hne : red ≠ black) :
    w.scoreChange red black red =
      exactRatingChange (w.players red) (w.players black) w.table.status := by
  simp [scoreChange, changeScores, updatePlayer, addScore, hne]

theorem scoreChange_black (hne : red ≠ black) :
    w.scoreChange red black black =
      -exactRatingChange (w.players red) (w.players black) w.table.status := by
  simp [scoreChange, changeScores, updatePlayer, addScore, hne.symm]

/-- What the winner gains, as a function of his advantage. -/
theorem scoreChange_winner (hne : red ≠ black) (h : w.Decisive) :
    w.scoreChange red black (w.winner red black) =
      eloGain (w.kFactor red black)
        (w.advantage (w.winner red black) (w.loser red black)) := by
  rcases h with h | h
  · simp [winner, loser, h, scoreChange_red hne, exactRatingChange_redWin, kFactor, advantage]
  · simp [winner, loser, h, scoreChange_black hne, exactRatingChange_blackWin, kFactor, advantage]

/-- **The Elo update.** The scores of a game's two players change by opposite
amounts; the winner of a game gains between 1 and 22 points; in a draw
the player with the lower score loses none; and of two games with the same
K-factor, the one whose winner leads by more before it does not gain him
more. -/
theorem elo_update (hne : red ≠ black) :
    w.scoreChange red black red + w.scoreChange red black black = 0 ∧
    (w.Decisive →
      1 ≤ w.scoreChange red black (w.winner red black) ∧
      w.scoreChange red black (w.winner red black) ≤ 22 ∧
      w.scoreChange red black (w.loser red black) =
        -w.scoreChange red black (w.winner red black)) ∧
    (w.table.status = .drawn →
      ((w.players red).score < (w.players black).score → 0 ≤ w.scoreChange red black red) ∧
      ((w.players black).score < (w.players red).score → 0 ≤ w.scoreChange red black black)) ∧
    (w.Decisive → ∀ (w₁ : World) (red₁ black₁ : PlayerRef), red₁ ≠ black₁ → w₁.Decisive →
      w₁.kFactor red₁ black₁ = w.kFactor red black →
      w.advantage (w.winner red black) (w.loser red black) ≤
        w₁.advantage (w₁.winner red₁ black₁) (w₁.loser red₁ black₁) →
      w₁.scoreChange red₁ black₁ (w₁.winner red₁ black₁) ≤
        w.scoreChange red black (w.winner red black)) := by
  have hsum : w.scoreChange red black red + w.scoreChange red black black = 0 := by
    rw [scoreChange_red hne, scoreChange_black hne]
    ring
  refine ⟨hsum, fun h => ?_, fun h => ⟨fun hlt => ?_, fun hlt => ?_⟩, ?_⟩
  · obtain ⟨hlow, hhigh⟩ := eloGain_bounds (w.kFactor_cases red black)
      (w.advantage (w.winner red black) (w.loser red black))
    rw [scoreChange_winner hne h]
    refine ⟨hlow, hhigh, ?_⟩
    rw [← scoreChange_winner hne h, winner, loser]
    split <;> omega
  · rw [scoreChange_red hne, h, exactRatingChange_drawn]
    exact eloDrawChange_nonneg (w.kFactor_nonneg red black) (by omega)
  · rw [scoreChange_black hne, h, exactRatingChange_drawn, ← eloDrawChange_neg]
    exact eloDrawChange_nonneg (w.kFactor_nonneg red black) (by omega)
  · intro h w₁ red₁ black₁ hne₁ h₁ hk hle
    rw [scoreChange_winner hne h, scoreChange_winner hne₁ h₁, hk]
    exact eloGain_anti (w.kFactor_nonneg red black) hle

/-- BLACK wins against a player who is rated 100 points higher. -/
theorem elo_update_upset :
    let w : World :=
      { table := { Table.new [] {} with status := .blackWin }
        players := fun p => { id := [], score := if p = 1 then 1600 else 1500 } }
    w.scoreChange 1 2 2 = 16 ∧ w.scoreChange 1 2 1 + w.scoreChange 1 2 2 = 0 :=
  ⟨by decide, (elo_update (by decide)).1⟩

end World

/-! ## The seats -/

/-- The same result with the seats exchanged. -/
def GameStatus.exchanged : GameStatus → GameStatus
  | .redWin => .blackWin
  | .blackWin => .redWin
  | status => status

/-- The two players have played as many games, enough for the K-factor to
depend on the rating, and it is another one for each of them. -/
def SeatDecidesKFactor (a b : Player) : Prop :=
  a.getPlayedGames = b.getPlayedGames ∧ 30 ≤ a.getPlayedGames ∧
    (a.score < 2400 ↔ 2400 ≤ b.score)

instance (a b : Player) : Decidable (SeatDecidesKFactor a b) :=
  inferInstanceAs (Decidable (_ ∧ _))

theorem gameKFactor_comm {a b : Player} (h : ¬ SeatDecidesKFactor a b) :
    gameKFactor a b = gameKFactor b a := by
  rw [SeatDecidesKFactor] at h
  rw [gameKFactor, gameKFactor, experienced, experienced]
  rcases lt_trichotomy a.getPlayedGames b.getPlayedGames with hlt | heq | hgt
  · simp [hlt, not_lt.mpr hlt.le]
  · simp only [heq, gt_iff_lt, lt_irrefl, if_false, eloCalculateKFactor]
    rw [heq] at h
    split_ifs <;> grind
  · simp [hgt, not_lt.mpr hgt.le]

theorem gameKFactor_of_seat {a b : Player} (h : SeatDecidesKFactor a b) :
    gameKFactor a b = 15 ∧ gameKFactor b a = 10 ∨
      gameKFactor a b = 10 ∧ gameKFactor b a = 15 := by
  obtain ⟨heq, hgames, hscore⟩ := h
  simp only [gameKFactor, experienced, heq, gt_iff_lt, lt_irrefl, if_false, eloCalculateKFactor]
  rw [heq] at hgames
  split_ifs <;> grind

/-- The K-factor of a master or of another player: the winner gains the same
where he leads by so much that the least is gained. -/
theorem eloGain_eq_iff {advantage : Int} :
    eloGain 15 advantage = eloGain 10 advantage ↔ 350 ≤ advantage := by
  have hlow : eloExpectedResult 349 = 85 := by decide
  have hhigh : eloExpectedResult 350 = 89 := by decide
  have hmem := eloExpectedResult_mem advantage
  rw [eloGain, eloGain]
  constructor
  · intro heq
    by_contra hlt
    have hle := eloExpectedResult_mono (show advantage ≤ 349 by omega)
    rw [hlow] at hle
    simp only [List.mem_cons, List.not_mem_nil, or_false] at hmem
    rcases hmem with h | h | h | h | h | h | h | h | h | h | h | h | h | h | h | h | h <;>
      rw [h] at heq hle <;> revert heq hle <;> decide
  · intro hle
    have hge := eloExpectedResult_mono hle
    have hbounds := eloExpectedResult_bounds advantage
    have he : eloExpectedResult advantage = 89 := by omega
    rw [he]
    decide

/-- And a draw changes the same where the two are less than 50 points
apart. -/
theorem eloDrawChange_eq_iff {advantage : Int} :
    eloDrawChange 15 advantage = eloDrawChange 10 advantage ↔ |advantage| < 50 := by
  have hlow : eloExpectedResult 49 = 53 := by decide
  have hhigh : eloExpectedResult 50 = 57 := by decide
  have hlow' : eloExpectedResult (-49) = 47 := by decide
  have hhigh' : eloExpectedResult (-50) = 43 := by decide
  have hmem := eloExpectedResult_mem advantage
  simp only [List.mem_cons, List.not_mem_nil, or_false] at hmem
  rw [eloDrawChange, eloDrawChange, abs_lt]
  constructor
  · intro heq
    by_contra hnot
    have hfar : eloExpectedResult advantage ≤ 43 ∨ 57 ≤ eloExpectedResult advantage := by
      rcases le_or_gt advantage (-50) with h | h
      · exact Or.inl (hhigh' ▸ eloExpectedResult_mono h)
      · exact Or.inr (hhigh ▸ eloExpectedResult_mono (show 50 ≤ advantage by omega))
    rcases hmem with h | h | h | h | h | h | h | h | h | h | h | h | h | h | h | h | h <;>
      rw [h] at heq hfar <;> revert heq hfar <;> decide
  · rintro ⟨hgt, hlt⟩
    have hle := eloExpectedResult_mono (show advantage ≤ 49 by omega)
    have hge := eloExpectedResult_mono (show -49 ≤ advantage by omega)
    rw [hlow] at hle
    rw [hlow'] at hge
    rcases hmem with h | h | h | h | h | h | h | h | h | h | h | h | h | h | h | h | h <;>
      rw [h] at hle hge ⊢ <;> revert hle hge <;> decide

namespace World

variable {w : World} {a b : PlayerRef}

/-- The same game with the seats exchanged. -/
def exchanged (w : World) : World :=
  w.setTable { w.table with status := w.table.status.exchanged }

theorem scoreChange_of_not_decisive (hne : a ≠ b) (h : ¬ w.Decisive) :
    w.scoreChange a b a = eloDrawChange (w.kFactor a b) (w.advantage a b) := by
  have hstatus : exactRatingChange (w.players a) (w.players b) w.table.status =
      exactRatingChange (w.players a) (w.players b) .drawn := by
    cases hs : w.table.status with
    | redWin => exact absurd (Or.inl hs) h
    | blackWin => exact absurd (Or.inr hs) h
    | _ => rfl
  rw [scoreChange_red hne, hstatus, exactRatingChange_drawn, kFactor, advantage]

/-- Where the K-factor of the seats matters. -/
theorem kFactor_comm_iff (f : Int → Int) :
    f (w.kFactor a b) = f (w.kFactor b a) ↔
      ¬ SeatDecidesKFactor (w.players a) (w.players b) ∨ f 15 = f 10 := by
  by_cases hseat : SeatDecidesKFactor (w.players a) (w.players b)
  · simp only [hseat, not_true_eq_false, false_or, kFactor]
    rcases gameKFactor_of_seat hseat with ⟨h, h'⟩ | ⟨h, h'⟩
    · rw [h, h']
    · rw [h, h']
      exact eq_comm
  · rw [kFactor, kFactor, gameKFactor_comm hseat]
    simp [hseat]

/-- **The seats of two players** do not matter for what a game does to their
scores, unless both have played as many games, at least 30, and just one
of them is rated 2400 or more. They do not matter then either where the
winner of the game leads by 350 points before it, or the game is drawn
between players less than 50 points apart. -/
theorem seat_does_not_matter_iff (hne : a ≠ b) :
    w.scoreChange a b a = w.exchanged.scoreChange b a a ↔
      ¬ SeatDecidesKFactor (w.players a) (w.players b) ∨
        (w.Decisive ∧ 350 ≤ w.advantage (w.winner a b) (w.loser a b)) ∨
        (¬ w.Decisive ∧ |w.advantage a b| < 50) := by
  have hback : w.exchanged.scoreChange b a a =
      -exactRatingChange (w.players b) (w.players a) w.table.status.exchanged :=
    scoreChange_black hne.symm
  by_cases hred : w.table.status = .redWin
  · have hdecisive : w.Decisive := Or.inl hred
    have hgain : w.scoreChange a b a = eloGain (w.kFactor a b) (w.advantage a b) := by
      rw [scoreChange_red hne, hred, exactRatingChange_redWin, kFactor, advantage]
    rw [hgain, hback, hred, GameStatus.exchanged, exactRatingChange_blackWin, neg_neg]
    change _ = eloGain (w.kFactor b a) (w.advantage a b) ↔ _
    rw [kFactor_comm_iff (fun k => eloGain k (w.advantage a b)), eloGain_eq_iff]
    simp [hdecisive, winner, loser, hred]
  · by_cases hblack : w.table.status = .blackWin
    · have hdecisive : w.Decisive := Or.inr hblack
      have hgain : w.scoreChange a b a = -eloGain (w.kFactor a b) (w.advantage b a) := by
        rw [scoreChange_red hne, hblack, exactRatingChange_blackWin, kFactor, advantage]
      rw [hgain, hback, hblack, GameStatus.exchanged, exactRatingChange_redWin, neg_inj]
      change _ = eloGain (w.kFactor b a) (w.advantage b a) ↔ _
      rw [kFactor_comm_iff (fun k => eloGain k (w.advantage b a)), eloGain_eq_iff]
      simp [hdecisive, winner, loser, hred]
    · have hdecisive : ¬ w.Decisive := not_or.mpr ⟨hred, hblack⟩
      have hdecisive' : ¬ w.exchanged.Decisive := by
        rw [Decisive, exchanged, setTable]
        cases hs : w.table.status <;> simp_all [GameStatus.exchanged]
      have hsum : w.exchanged.scoreChange b a a = -w.exchanged.scoreChange b a b := by
        rw [scoreChange_black hne.symm, scoreChange_red hne.symm]
      rw [scoreChange_of_not_decisive hne hdecisive, hsum,
        scoreChange_of_not_decisive hne.symm hdecisive', ← eloDrawChange_neg]
      have hadvantage : -w.exchanged.advantage b a = w.advantage a b := neg_sub _ _
      rw [hadvantage]
      change _ = eloDrawChange (w.kFactor b a) (w.advantage a b) ↔ _
      rw [kFactor_comm_iff (fun k => eloDrawChange k (w.advantage a b)), eloDrawChange_eq_iff]
      simp [hdecisive]

/-- A game of two experienced players, of 2400 and of 2300 points, that RED
wins. -/
def mastersGame : World where
  table := { Table.new [] {} with status := .redWin }
  players p := { id := [], score := if p = 1 then 2400 else 2300, wins := 30 }

theorem seat_does_not_matter_iff_masters :
    ¬ mastersGame.scoreChange 1 2 1 = mastersGame.exchanged.scoreChange 2 1 1 ∧
      mastersGame.scoreChange 2 3 2 = mastersGame.exchanged.scoreChange 3 2 2 :=
  ⟨mt (seat_does_not_matter_iff (by decide)).mp (by decide),
    (seat_does_not_matter_iff (by decide)).mpr (Or.inl (by decide))⟩

/-- The master gains five points with RED and three with BLACK. -/
theorem seat_matters : ¬ ∀ (w : World) (a b : PlayerRef), a ≠ b →
    w.scoreChange a b a = w.exchanged.scoreChange b a a := by
  intro h
  have hred : mastersGame.scoreChange 1 2 1 = 5 := by decide
  have hblack : mastersGame.exchanged.scoreChange 2 1 1 = 3 := by decide
  have heq := h mastersGame 1 2 (by decide)
  rw [hred, hblack] at heq
  exact absurd heq (by decide)

end World

end HoxServer
