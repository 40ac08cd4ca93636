/-
HoxServer.Table.Elo — the Elo rating system of `hoxTable.cpp`.

The table of winning probabilities has two decimals and a game result is
0, 0.5 or 1; both are in hundredths here. The source computes in `float`:
a constant is rounded, and so are a difference and a product, and the cast
to `int` truncates toward zero (`eloCalculateNewRatingChange`). The same
formula on exact decimals is `eloExactRatingChange`; where its product is
a whole number, as 25 · (0.5 − 0.3), the one of the source may fall just
below it.
-/
import HoxServer.Player
import Mathlib.Data.Int.Log
import Mathlib.Data.Rat.Floor

namespace HoxServer

/-! ## Floating point -/

/-- The nearest whole number, and the even one of two. -/
def roundHalfEven (q : ℚ) : ℤ :=
  if q - ⌊q⌋ < 1 / 2 then ⌊q⌋
  else if 1 / 2 < q - ⌊q⌋ then ⌊q⌋ + 1
  else if ⌊q⌋ % 2 = 0 then ⌊q⌋
  else ⌊q⌋ + 1

/-- A number rounded to so many significant bits. The exponent has no
bounds: what is computed here is zero or far inside of them. -/
def roundToBits (bits : ℕ) (q : ℚ) : ℚ :=
  let unit : ℚ := 2 ^ (Int.log 2 |q| + 1 - bits)
  roundHalfEven (q / unit) * unit

def toDouble (q : ℚ) : ℚ := roundToBits 53 q
def toFloat (q : ℚ) : ℚ := roundToBits 24 q

/-- A `float` that is initialized with a constant of two decimals, which is a
`double`. -/
def floatOfHundredths (hundredths : Int) : ℚ := toFloat (toDouble (hundredths / 100))

/-- The cast to `int`. -/
def truncate (q : ℚ) : Int := q.num.tdiv q.den

/-! ## Ratings -/

/-- A row of `s_winningProbabilities`, the probabilities in hundredths. -/
structure WinningProbability where
  ratingDiff : Int
  strongerPlayer : Int
  weakerPlayer : Int

def winningProbabilities : List WinningProbability :=
  [⟨0, 50, 50⟩, ⟨25, 53, 47⟩, ⟨50, 57, 43⟩, ⟨100, 64, 36⟩, ⟨150, 70, 30⟩, ⟨200, 76, 24⟩,
   ⟨250, 81, 19⟩, ⟨300, 85, 15⟩, ⟨350, 89, 11⟩]

/-- `_Elo_calculate_KFactor`. -/
def eloCalculateKFactor (nPlayedGames nOldRating : Int) : Int :=
  if nPlayedGames < 30 then 25
  else if nOldRating < 2400 then 15
  else 10

/-- The expected result: the last row whose difference is not above. -/
def eloExpectedResult (nRatingDiff : Int) : Int :=
  let nAbsoluteRatingDiff := if nRatingDiff > 0 then nRatingDiff else -1 * nRatingDiff
  match winningProbabilities.reverse.find? (fun row => nAbsoluteRatingDiff ≥ row.ratingDiff) with
  | some row => if nRatingDiff > 0 then row.strongerPlayer else row.weakerPlayer
  | none => 50

/-- `nKFactor * (fGameResult - fExpectedResult)` as an `int`. -/
def floatChange (nKFactor fGameResult fExpectedResult : Int) : Int :=
  truncate (toFloat (nKFactor *
    toFloat (floatOfHundredths fGameResult - floatOfHundredths fExpectedResult)))

/-- The same on exact decimals. -/
def exactChange (nKFactor fGameResult fExpectedResult : Int) : Int :=
  (nKFactor * (fGameResult - fExpectedResult)).tdiv 100

/-- `_Elo_calculate_NewRatingChange`. -/
def eloCalculateNewRatingChange (nRatingDiff nOldRating nPlayedGames fGameResult : Int) : Int :=
  floatChange (eloCalculateKFactor nPlayedGames nOldRating) fGameResult
    (eloExpectedResult nRatingDiff)

/-- `_Elo_calculate_NewRatingChange`, read on exact decimals. -/
def eloExactRatingChange (nRatingDiff nOldRating nPlayedGames fGameResult : Int) : Int :=
  exactChange (eloCalculateKFactor nPlayedGames nOldRating) fGameResult
    (eloExpectedResult nRatingDiff)

end HoxServer
