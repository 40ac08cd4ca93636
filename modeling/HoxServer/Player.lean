/-
HoxServer.Player — the `hoxPlayer` objects (`hoxPlayer.h`), the times of
a player (`hoxTimeInfo`) and the write requests to the database agent.

A `hoxPlayer_SPtr` is a `PlayerRef`: two objects may carry the same
player id, and the code compares pointers everywhere but in the draw
offer, which it keeps by id.

The scores and counters are small numbers and `Int` here. The times come
from the clients as any 32-bit values, so a store into one of them goes
through `toInt32`.
-/
import HoxServer.Enums

namespace HoxServer

/-- The value that a 32-bit `int` holds after `n` is stored into it. -/
def toInt32 (n : Int) : Int := (n + 2147483648) % 4294967296 - 2147483648

/-- `hoxTimeInfo`: game-time, move-time and free-time, in seconds. -/
structure TimeInfo where
  nGame : Int := 0
  nMove : Int := 0
  nFree : Int := 0
  deriving DecidableEq, Repr

/-- A `hoxPlayer_SPtr` that is not empty. -/
abbrev PlayerRef := Nat

/-- `hoxPlayer`, without its session and tables. -/
structure Player where
  id : Bytes
  type : PlayerType := .normal
  score : Int := 0
  wins : Int := 0
  draws : Int := 0
  losses : Int := 0
  deriving DecidableEq, Repr

/-- `hoxPlayer::getPlayedGames`. -/
def Player.getPlayedGames (p : Player) : Int := p.wins + p.draws + p.losses

/-- A `hoxREQUEST_DB_PLAYER_SET`: the new score, and the result of the game
as (W)in, (D)raw, (L)oss or nothing. -/
structure PlayerSetRequest where
  pid : Bytes
  score : Int
  result : Bytes
  deriving DecidableEq, Repr

/-- The request that `hoxDbClient::set_player_info` queues. -/
def Player.setRequest (p : Player) (sGameResult : Bytes) : PlayerSetRequest :=
  { pid := p.id, score := p.score, result := sGameResult }

end HoxServer
