/-
HoxServer.Table.Table — `hoxTable` (`hoxTable.h`, `hoxTable.cpp`).

A table operation reads and writes the table and the score record of the
two players, posts events and queues write requests. `World` is all of
this for one table. `posted` and `requests` grow at their end.

`ends` and `changes` are not in the source: they record the calls of
`_onGameEnded`, with the seats it finds, and the rating changes that
`_calculateNewScores` computes. No function reads them.

`st_time()` is the argument `now`. A member function that dereferences a
seat is in `Except Fault`, since a seat may be empty.
-/
import HoxServer.Lib.Machine
import HoxServer.Referee.Referee
import HoxServer.Table.Elo
import HoxServer.Table.Event

namespace HoxServer

/-- `hoxTable`. -/
structure Table where
  id : Bytes
  gameGroup : GameGroup := .pub
  gameType : GameType := .rated
  initialTime : TimeInfo
  redTime : TimeInfo
  blackTime : TimeInfo
  redPlayer : Option PlayerRef := none
  blackPlayer : Option PlayerRef := none
  allPlayers : List PlayerRef := []
  referee : Board := Referee.resetGame
  status : GameStatus := .open
  moves : List Bytes := []
  drawPlayerId : Bytes := []
  lastMoveTime : Int := 0
  nextMoveExpiry : Int := 0
  isPrevMoveCheck : Bool := false
  effectiveMoves : Int := 0
  redChecks : Int := 0
  blackChecks : Int := 0

/-- A call of `_onGameEnded`. -/
structure GameEnd where
  red : Option PlayerRef
  black : Option PlayerRef
  status : GameStatus
  deriving DecidableEq

/-- One table and what its operations touch. -/
structure World where
  table : Table
  players : PlayerRef → Player
  posted : List (PlayerRef × Event) := []
  requests : List PlayerSetRequest := []
  ends : List GameEnd := []
  changes : List (PlayerRef × Int) := []

namespace Table

/-- `hoxTable::hoxTable`. -/
def new (id : Bytes) (initialTime : TimeInfo) : Table :=
  { id, initialTime, redTime := initialTime, blackTime := initialTime }

/-- `player == _redPlayer || player == _blackPlayer`. -/
def isSeated (t : Table) (player : PlayerRef) : Bool :=
  decide (t.redPlayer = some player ∨ t.blackPlayer = some player)

/-- `hoxTable::getObservers`. -/
def getObservers (t : Table) : List PlayerRef :=
  t.allPlayers.filter (fun p => decide (some p ≠ t.redPlayer ∧ some p ≠ t.blackPlayer))

/-! ## Status and seats -/

/-- `hoxTable::_updateStatus`. -/
def updateStatus (t : Table) : Table :=
  match t.status with
  | .open =>
    if t.redPlayer ≠ none ∧ t.blackPlayer ≠ none then { t with status := .ready } else t
  | .ready =>
    if t.redPlayer = none ∨ t.blackPlayer = none then { t with status := .open } else t
  | _ => t

/-- `hoxTable::_addPlayer`: the flag tells whether the player is new. -/
def addPlayer (t : Table) (player : PlayerRef) (role : Color) : Table × Bool :=
  let bNewlyAdded := decide (player ∉ t.allPlayers)
  let t := if bNewlyAdded then { t with allPlayers := t.allPlayers ++ [player] } else t
  let t := match role with
    | .red =>
      { t with
        redPlayer := some player
        blackPlayer := if t.blackPlayer = some player then none else t.blackPlayer }
    | .black =>
      { t with
        blackPlayer := some player
        redPlayer := if t.redPlayer = some player then none else t.redPlayer }
    | _ =>
      { t with
        redPlayer := if t.redPlayer = some player then none else t.redPlayer
        blackPlayer := if t.blackPlayer = some player then none else t.blackPlayer }
  (t, bNewlyAdded)

/-- `hoxTable::_removePlayer`. -/
def removePlayer (t : Table) (player : PlayerRef) : Table :=
  let t := { t with allPlayers := t.allPlayers.filter (· ≠ player) }
  if t.redPlayer = some player then { t with redPlayer := none }
  else if t.blackPlayer = some player then { t with blackPlayer := none }
  else t

/-! ## Clocks -/

/-- Taking `elapseTime` off the game-time of a player, then off his
free-time. -/
def consume (time : TimeInfo) (elapseTime : Int) : TimeInfo :=
  let nGame := toInt32 (time.nGame - elapseTime)
  if nGame < 0 then
    let nFree := toInt32 (time.nFree + nGame)
    { time with nGame := 0, nFree := if nFree < 0 then 0 else nFree }
  else { time with nGame }

/-- `elapseTime`, in `getCurrentTimers` and in `_resetMoveTimers`. -/
def elapseTime (t : Table) (now : Int) : Int :=
  if t.moves.length > 2 then now - t.lastMoveTime else 0

/-- `hoxTable::getCurrentTimers`: the times of RED and of BLACK. -/
def getCurrentTimers (t : Table) (now : Int) : TimeInfo × TimeInfo :=
  let current (time : TimeInfo) : TimeInfo :=
    let time := consume time (t.elapseTime now)
    let nMove := toInt32 (time.nMove - t.elapseTime now)
    { time with nMove := if nMove < 0 then 0 else nMove }
  if t.referee.nextColor = .red then (current t.redTime, t.blackTime)
  else (t.redTime, current t.blackTime)

/-- `hoxTable::_resetMoveTimers`. -/
def resetMoveTimers (t : Table) (now : Int) (currColor : Color) : Table :=
  if t.status ≠ .inProgress then t
  else
    let elapse := t.elapseTime now
    let t := { t with lastMoveTime := now }
    -- timers start only after each player made a move
    if t.moves.length < 2 then t
    else
      let currTime := consume (if currColor = .red then t.redTime else t.blackTime) elapse
      let nextTime := if currColor = .red then t.blackTime else t.redTime
      let nextTime := if nextTime.nGame = 0 then { nextTime with nFree := t.initialTime.nFree }
        else { nextTime with nMove := t.initialTime.nMove }
      let nRemain := toInt32 (nextTime.nGame + nextTime.nFree)
      let nRemain := if nRemain > nextTime.nMove then nextTime.nMove else nRemain
      let t := { t with nextMoveExpiry := now + nRemain }
      if currColor = .red then { t with redTime := currTime, blackTime := nextTime }
      else { t with blackTime := currTime, redTime := nextTime }

/-! ## Long games and perpetual checks -/

/-- `hoxTable::_detectLongGameAndPerpetualCheck`: the table, the status of
the game and the reason. -/
def detectLongGameAndPerpetualCheck (t : Table) (color : Color) (gameStatus : GameStatus) :
    Except Fault (Table × GameStatus × Bytes) := do
  let bCurrentCheck ← t.referee.isLastMoveCheck
  if bCurrentCheck then
    let t := if color = .red then { t with redChecks := t.redChecks + 1 }
      else { t with blackChecks := t.blackChecks + 1 }
    let perpetualChecks := if color = .red then t.redChecks else t.blackChecks
    let t := { t with isPrevMoveCheck := true }
    if perpetualChecks > perpetualChecksMax then
      .ok (t, if color = .red then .blackWin else .redWin, bytes "Perpetual Check detected")
    else .ok (t, gameStatus, [])
  else
    let t := if color = .red then { t with redChecks := 0 } else { t with blackChecks := 0 }
    if t.isPrevMoveCheck then .ok ({ t with isPrevMoveCheck := false }, gameStatus, [])
    else
      let t := { t with effectiveMoves := t.effectiveMoves + 1 }
      if t.effectiveMoves > effectiveMovesMax then
        .ok (t, .drawn, bytes "Long Game detected")
      else .ok (t, gameStatus, [])

/-- The "Perpetual-Check detection" of `acceptMove`: the referee has set the
status already when the game ends with the move. -/
def countMove (t : Table) (color : Color) (gameStatus : GameStatus) :
    Except Fault (Table × GameStatus × Bytes) :=
  if gameStatus = .redWin ∨ gameStatus = .blackWin then
    .ok (t, gameStatus, bytes "Game ended after the last Move")
  else t.detectLongGameAndPerpetualCheck color gameStatus

/-- The members that `hoxTable::_onGameReset` sets. -/
def restarted (t : Table) : Table :=
  let t := { t with status := .open, drawPlayerId := [] }
  let t := t.updateStatus
  let t := { t with redTime := t.initialTime, blackTime := t.initialTime }
  let t := { t with referee := Referee.resetGame, moves := [] }
  { t with isPrevMoveCheck := false, effectiveMoves := 0, redChecks := 0, blackChecks := 0 }

end Table

namespace World

/-- The world around a table that has just been made. -/
def new (id : Bytes) (initialTime : TimeInfo) (players : PlayerRef → Player) : World :=
  { table := Table.new id initialTime, players }

def setTable (w : World) (t : Table) : World := { w with table := t }

/-- The id of a player. -/
def idOf (w : World) (player : PlayerRef) : Bytes := (w.players player).id

/-- Dereferencing a `hoxPlayer_SPtr`. -/
def deref (seat : Option PlayerRef) : Except Fault PlayerRef :=
  match seat with
  | some player => .ok player
  | none => .error .nullPointer

/-! ## Events -/

/-- `hoxPlayer::onNewEvent`. -/
def onNewEvent (w : World) (player : PlayerRef) (event : Event) : World :=
  { w with posted := w.posted ++ [(player, event)] }

/-- An event to everyone at the table. -/
def postAll (w : World) (event : Event) : World :=
  { w with posted := w.posted ++ w.table.allPlayers.map (·, event) }

/-- An event to everyone at the table but the sender. -/
def postOthers (w : World) (sender : PlayerRef) (event : Event) : World :=
  { w with posted := w.posted ++ (w.table.allPlayers.filter (· ≠ sender)).map (·, event) }

/-- `hoxTable::_postAll_JoinEvent`. -/
def postAllJoinEvent (w : World) (player : PlayerRef) (joinColor : Color) : World :=
  w.postAll (.eJoin w.table.id (w.idOf player) (w.players player).score joinColor)

/-- `hoxTable::_postAll_LeaveEvent`. -/
def postAllLeaveEvent (w : World) (player : PlayerRef) : World :=
  w.postAll (.leave w.table.id (w.idOf player))

/-- `hoxTable::_postAll_MoveEvent`. -/
def postAllMoveEvent (w : World) (player : PlayerRef) (sMove : Bytes) (gameStatus : GameStatus) :
    World :=
  w.postOthers player (.move w.table.id (w.idOf player) sMove gameStatus)

/-- `hoxTable::_postAll_DrawEvent`. -/
def postAllDrawEvent (w : World) (player : PlayerRef) : World :=
  w.postOthers player (.draw .ok w.table.id (w.idOf player))

/-- `hoxTable::_postAll_EndEvent`. -/
def postAllEndEvent (w : World) (gameStatus : GameStatus) (sReason : Bytes) : World :=
  w.postAll (.eEnd w.table.id gameStatus sReason)

/-- `hoxTable::_postAll_ResetEvent`. -/
def postAllResetEvent (w : World) : World := w.postAll (.reset w.table.id)

/-- `hoxTable::_postAll_ScoreEvent`. -/
def postAllScoreEvent (w : World) (player : PlayerRef) : World :=
  w.postAll (.eScore w.table.id (w.idOf player) (w.players player).score)

/-- `hoxTable::_postAll_UpdateEvent`. -/
def postAllUpdateEvent (w : World) (player : PlayerRef) (newGameType : GameType)
    (newInitialTime : TimeInfo) : World :=
  w.postAll (.update w.table.id (w.idOf player) newGameType newInitialTime)

/-- `hoxResponse::create_event_I_TABLE`. -/
def createEventITable (w : World) (now : Int) : Event :=
  let (redTime, blackTime) := w.table.getCurrentTimers now
  let seat (player : Option PlayerRef) : Option (Bytes × Int) :=
    player.map (fun p => (w.idOf p, (w.players p).score))
  .iTable {
    id := w.table.id
    gameGroup := w.table.gameGroup
    gameType := w.table.gameType
    initialTime := w.table.initialTime
    redTime := redTime
    blackTime := blackTime
    red := seat w.table.redPlayer
    black := seat w.table.blackPlayer
    observers := w.table.getObservers.map w.idOf }

/-- `hoxTable::sendInfoToPlayer`. -/
def sendInfoToPlayer (w : World) (now : Int) (player : PlayerRef) : World :=
  let w := w.onNewEvent player (w.createEventITable now)
  let w := if w.table.moves ≠ [] then w.onNewEvent player (.iMoves w.table.id w.table.moves) else w
  if w.table.status = .redWin ∨ w.table.status = .blackWin ∨ w.table.status = .drawn then
    w.onNewEvent player (.eEnd w.table.id w.table.status (bytes "Game ended"))
  else w

/-! ## Scores -/

def updatePlayer (w : World) (player : PlayerRef) (f : Player → Player) : World :=
  { w with players := Function.update w.players player (f (w.players player)) }

def addWin (p : Player) : Player := { p with wins := p.wins + 1 }
def addDraw (p : Player) : Player := { p with draws := p.draws + 1 }
def addLoss (p : Player) : Player := { p with losses := p.losses + 1 }

def addScore (nRatingChange : Int) (p : Player) : Player :=
  { p with score := p.score + nRatingChange }

/-- The change of RED's score that `hoxTable::_calculateNewScores` computes
by `newRatingChange`; BLACK's is the opposite. It focuses on the player
who has played more games. -/
def ratingChangeBy (newRatingChange : Int → Int → Int → Int → Int) (red black : Player)
    (status : GameStatus) : Int :=
  let bUseRED := decide (red.getPlayedGames > black.getPlayedGames)
  let nRatingDiff := if bUseRED then red.score - black.score else black.score - red.score
  let nOldRating := if bUseRED then red.score else black.score
  let nPlayedGames := if bUseRED then red.getPlayedGames else black.getPlayedGames
  let fGameResult : Int := match status with
    | .redWin => if bUseRED then 100 else 0
    | .blackWin => if bUseRED then 0 else 100
    | _ => 50
  let nRatingChange := newRatingChange nRatingDiff nOldRating nPlayedGames fGameResult
  if bUseRED then nRatingChange else -nRatingChange

/-- The change that `hoxTable::_calculateNewScores` computes. -/
def ratingChange (red black : Player) (status : GameStatus) : Int :=
  ratingChangeBy eloCalculateNewRatingChange red black status

/-- What `hoxTable::_calculateNewScores` does with the change. -/
def changeScores (w : World) (red black : PlayerRef) (change : Int) : World :=
  let w := w.updatePlayer red (addScore change)
  let w := w.updatePlayer black (addScore (-change))
  { w with changes := w.changes ++ [(red, change), (black, -change)] }

/-- `hoxTable::_calculateNewScores`. -/
def calculateNewScores (w : World) (red black : PlayerRef) : World :=
  w.changeScores red black (ratingChange (w.players red) (w.players black) w.table.status)

/-- `hoxDbClient::set_player_info`. -/
def setPlayerInfo (w : World) (player : PlayerRef) (sGameResult : Bytes) : World :=
  { w with requests := w.requests ++ [(w.players player).setRequest sGameResult] }

/-- `hoxTable::_recordGameResult`: the flag is `bScoreChanged`. The case of
a drawn game falls through into `default`. -/
def recordGameResult (w : World) (red black : PlayerRef) : World × Bool :=
  let w := w.calculateNewScores red black
  match w.table.status with
  | .redWin =>
    let w := (w.updatePlayer red addWin).updatePlayer black addLoss
    ((w.setPlayerInfo red (bytes "W")).setPlayerInfo black (bytes "L"), true)
  | .blackWin =>
    let w := (w.updatePlayer red addLoss).updatePlayer black addWin
    ((w.setPlayerInfo red (bytes "L")).setPlayerInfo black (bytes "W"), true)
  | .drawn =>
    let w := (w.updatePlayer red addDraw).updatePlayer black addDraw
    ((w.setPlayerInfo red (bytes "D")).setPlayerInfo black (bytes "D"), false)
  | _ => ((w.setPlayerInfo red []).setPlayerInfo black [], false)

/-! ## The end of a game and the next one -/

/-- The test `bGuestTable` of `_onGameEnded`: BLACK is looked at only when
RED is not a guest. -/
def isGuestTable (w : World) : Except Fault Bool := do
  let red ← deref w.table.redPlayer
  if (w.players red).type = .guest then .ok true
  else
    let black ← deref w.table.blackPlayer
    .ok (decide ((w.players black).type = .guest))

/-- The new status and the event of a game that has ended. -/
def announceEnd (w : World) (status : GameStatus) (sReason : Bytes) : World :=
  let w := { w with ends := w.ends ++ [GameEnd.mk w.table.redPlayer w.table.blackPlayer status] }
  let w := w.setTable { w.table with status, drawPlayerId := [] }
  w.postAllEndEvent status sReason

/-- The new scores, and their events if `bScoreChanged`. -/
def recordEnd (w : World) (red black : PlayerRef) : World :=
  let (w, bScoreChanged) := w.recordGameResult red black
  if bScoreChanged then (w.postAllScoreEvent red).postAllScoreEvent black else w

/-- `hoxTable::_onGameEnded`. -/
def onGameEnded (w : World) (status : GameStatus) (sReason : Bytes) : Except Fault World := do
  let w := w.announceEnd status sReason
  let bGuestTable ← w.isGuestTable
  if w.table.gameType = .rated ∧ bGuestTable = false then
    let red ← deref w.table.redPlayer
    let black ← deref w.table.blackPlayer
    .ok (w.recordEnd red black)
  else .ok w

/-- `hoxTable::_onGameReset`. -/
def onGameReset (w : World) : World := (w.setTable w.table.restarted).postAllResetEvent

/-! ## The operations -/

/-- `hoxTable::assignPlayerAs`. -/
def assignPlayerAs (w : World) (now : Int) (player : PlayerRef) (requestColor : Color) :
    World × Result :=
  let bRequestOK := decide ((requestColor = .red ∧ w.table.redPlayer = none)
    ∨ (requestColor = .black ∧ w.table.blackPlayer = none) ∨ requestColor = .none)
  if bRequestOK then
    let w := w.postAllJoinEvent player requestColor
    let (t, bNewlyAdded) := w.table.addPlayer player requestColor
    let w := w.setTable t
    let w := if bNewlyAdded then w.sendInfoToPlayer now player else w
    (w.setTable w.table.updateStatus, .ok)
  else (w, .err)

/-- `hoxTable::_unassignPlayer`. -/
def unassignPlayer (w : World) (player : PlayerRef) : World :=
  let w := w.postAllLeaveEvent player
  let w := w.setTable (w.table.removePlayer player)
  w.setTable w.table.updateStatus

/-- `hoxTable::onLeave_FromPlayer`. -/
def onLeaveFromPlayer (w : World) (player : PlayerRef) : Except Fault World := do
  let bGameStarted := decide (w.table.moves.length ≥ 2)
  let newStatus : GameStatus :=
    if w.table.status = .inProgress ∧ bGameStarted then
      if w.table.redPlayer = some player then .blackWin
      else if w.table.blackPlayer = some player then .redWin
      else .unknown
    else .unknown
  let w ← if newStatus ≠ .unknown then w.onGameEnded newStatus (bytes "Player left the game")
    else .ok w
  .ok (w.unassignPlayer player)

/-- The end of `acceptMove`: "Move is fine. Record the Move and prepare for
the next one." -/
def recordMove (w : World) (now : Int) (player : PlayerRef) (sMove : Bytes) (nextColor : Color)
    (gameStatus : GameStatus) (sReason : Bytes) : Except Fault World :=
  let t := { w.table with status := gameStatus, moves := w.table.moves ++ [sMove] }
  let w := w.setTable (t.resetMoveTimers now nextColor)
  let w := w.postAllMoveEvent player sMove gameStatus
  if gameStatus = .redWin ∨ gameStatus = .blackWin ∨ gameStatus = .drawn then
    w.onGameEnded gameStatus sReason
  else .ok w

/-- `hoxTable::acceptMove`. -/
def acceptMove (w : World) (now : Int) (player : PlayerRef) (sMove : Bytes) :
    Except Fault (World × Result) :=
  let t := w.table
  if t.status ≠ .ready ∧ t.status ≠ .inProgress then .ok (w, .notAllowed)
  else
    let nextColor := t.referee.nextColor
    if (nextColor = .red ∧ t.redPlayer ≠ some player)
        ∨ (nextColor = .black ∧ t.blackPlayer ≠ some player) then .ok (w, .notAllowed)
    else
      let move := Referee.stringToMove t.referee sMove
      if !move.isValid then .ok (w, .notValid)
      else do
        let v ← t.referee.validateMove move .unknown
        let t := { t with referee := v.board }
        if !v.accepted then .ok (w.setTable t, .notValid)
        else
          let (t, gameStatus, sReason) ← t.countMove nextColor v.status
          .ok (← (w.setTable t).recordMove now player sMove nextColor gameStatus sReason, .ok)

/-- `hoxTable::handleResignRequest`. -/
def handleResignRequest (w : World) (player : PlayerRef) : Except Fault (World × Result) :=
  if w.table.status ≠ .inProgress then .ok (w, .notAllowed)
  else if w.table.redPlayer = some player then do
    .ok (← w.onGameEnded .blackWin (bytes "Player resigned"), .ok)
  else if w.table.blackPlayer = some player then do
    .ok (← w.onGameEnded .redWin (bytes "Player resigned"), .ok)
  else .ok (w, .notAllowed)

/-- `hoxTable::handleDrawRequest`. -/
def handleDrawRequest (w : World) (player : PlayerRef) : Except Fault (World × Result) :=
  if w.table.status ≠ .inProgress then .ok (w, .notAllowed)
  else if w.table.redPlayer ≠ some player ∧ w.table.blackPlayer ≠ some player then
    .ok (w, .notAllowed)
  else if w.table.drawPlayerId = [] then
    let w := w.setTable { w.table with drawPlayerId := w.idOf player }
    .ok (w.postAllDrawEvent player, .ok)
  else if w.idOf player = w.table.drawPlayerId then .ok (w, .ok)
  else do .ok (← w.onGameEnded .drawn (bytes "Players agreed to draw"), .ok)

/-- `hoxTable::handleResetRequest`. -/
def handleResetRequest (w : World) (player : PlayerRef) : Except Fault (World × Result) :=
  let bGameStarted := decide (w.table.moves.length ≥ 2)
  if w.table.status = .inProgress ∧ bGameStarted then .ok (w, .notAllowed)
  else if w.table.redPlayer ≠ some player ∧ w.table.blackPlayer ≠ some player then
    .ok (w, .notAllowed)
  else if w.table.redPlayer = some player ∧ w.table.status = .ready then do
    -- the RED player gives up the right to move first
    let w := w.setTable { w.table with
      redPlayer := w.table.blackPlayer, blackPlayer := some player }
    let red ← deref w.table.redPlayer
    let w := (w.postAllJoinEvent red .none).postAllJoinEvent player .none
    .ok ((w.postAllJoinEvent red .red).postAllJoinEvent player .black, .ok)
  else if w.table.status = .ready ∨ w.table.status = .open then .ok (w, .ok)
  else .ok (w.onGameReset, .ok)

/-- `hoxTable::handleUpdateRequest`. -/
def handleUpdateRequest (w : World) (player : PlayerRef) (bRatedGame : Bool)
    (newInitialTime : TimeInfo) : World × Result :=
  if w.table.status ≠ .open ∧ w.table.status ≠ .ready then (w, .notAllowed)
  else
    let bActionAllowed := decide (w.table.redPlayer = some player
      ∨ (w.table.blackPlayer = some player ∧ w.table.redPlayer = none))
    if bActionAllowed then
      let gameType := if bRatedGame then GameType.rated else .nonrated
      let w := w.setTable { w.table with
        gameType, initialTime := newInitialTime, redTime := newInitialTime
        blackTime := newInitialTime }
      (w.postAllUpdateEvent player gameType newInitialTime, .ok)
    else (w, .notAllowed)

/-- `hoxTable::checkTimeoutOnMove`. -/
def checkTimeoutOnMove (w : World) (now : Int) : Except Fault World :=
  if w.table.status ≠ .inProgress ∨ w.table.moves.length < 2 then .ok w
  else if now ≤ w.table.nextMoveExpiry then .ok w
  else
    let newStatus := if w.table.referee.nextColor = .red then GameStatus.blackWin else .redWin
    w.onGameEnded newStatus (bytes "Move timeout")

end World

/-! ## A table and its callers -/

/-- A call of a table, at the time `now`. -/
inductive TableOp where
  | assignPlayerAs (player : PlayerRef) (requestColor : Color)
  | onLeaveFromPlayer (player : PlayerRef)
  | sendInfoToPlayer (player : PlayerRef)
  | acceptMove (player : PlayerRef) (sMove : Bytes)
  | handleResignRequest (player : PlayerRef)
  | handleDrawRequest (player : PlayerRef)
  | handleResetRequest (player : PlayerRef)
  | handleUpdateRequest (player : PlayerRef) (bRatedGame : Bool) (newInitialTime : TimeInfo)
  | checkTimeoutOnMove
  deriving DecidableEq

/-- What a call does and returns; `ok` where it returns nothing. -/
def World.call (w : World) (now : Int) : TableOp → Except Fault (World × Result)
  | .assignPlayerAs player requestColor => .ok (w.assignPlayerAs now player requestColor)
  | .onLeaveFromPlayer player => (w.onLeaveFromPlayer player).map (·, .ok)
  | .sendInfoToPlayer player => .ok (w.sendInfoToPlayer now player, .ok)
  | .acceptMove player sMove => w.acceptMove now player sMove
  | .handleResignRequest player => w.handleResignRequest player
  | .handleDrawRequest player => w.handleDrawRequest player
  | .handleResetRequest player => w.handleResetRequest player
  | .handleUpdateRequest player bRatedGame newInitialTime =>
    .ok (w.handleUpdateRequest player bRatedGame newInitialTime)
  | .checkTimeoutOnMove => (w.checkTimeoutOnMove now).map (·, .ok)

/-- A table that is called by anyone, at any times. -/
def Table.machine : Lib.Machine World (Int × TableOp) Fault where
  init w := ∃ id initialTime players, w = World.new id initialTime players
  step w op := (w.call op.1 op.2).map Prod.fst

end HoxServer
