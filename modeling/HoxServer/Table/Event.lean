/-
HoxServer.Table.Event — the events a table posts to players
(`hoxResponse::create_event_*`, `hoxTypes.cpp`).

An event is built once, from the table and the players as they are at
that moment, and posted to many. It is kept here as the values its text
is made of.
-/
import HoxServer.Player

namespace HoxServer

/-- What `create_event_I_TABLE` prints of a table. -/
structure TableInfo where
  id : Bytes
  gameGroup : GameGroup
  gameType : GameType
  initialTime : TimeInfo
  redTime : TimeInfo
  blackTime : TimeInfo
  red : Option (Bytes × Int)
  black : Option (Bytes × Int)
  observers : List Bytes
  deriving DecidableEq, Repr

/-- The events of a table. -/
inductive Event where
  | iTable (info : TableInfo)
  | iMoves (tid : Bytes) (moves : List Bytes)
  | eJoin (tid pid : Bytes) (score : Int) (color : Color)
  | leave (tid pid : Bytes)
  | move (tid pid sMove : Bytes) (status : GameStatus)
  | draw (code : Result) (tid pid : Bytes)
  | eEnd (tid : Bytes) (status : GameStatus) (sReason : Bytes)
  | reset (tid : Bytes)
  | eScore (tid pid : Bytes) (score : Int)
  | update (tid pid : Bytes) (newGameType : GameType) (newInitialTime : TimeInfo)
  deriving DecidableEq, Repr

end HoxServer
