/-
HoxServer.Server.Server — the server around its tables: `hoxPlayer`'s set
of tables, `hoxTableMgr`, `hoxSession`, `hoxSessionMgr`, `session.cpp`
and the queue of `hoxDbClient`, with the agent's `hoxDBAPI`.

Control passes from one thread to another at blocking calls only. A
`Thread` is where a client thread is blocked; the functions below run
from one blocking call to the next, under the names of the source, and
`Server.wake` is what happens when a blocking call returns. What the
outside world decides is in `Wake`, such as what is read from a socket,
and in `Input`: the time, the random session id and the address of a new
object.

The heap objects are functions of their references. A call of a table is
`World.call`, with a queue and a ledger of its own; `commits` is not in
the source: it records, for each rating change, the score that the player's
object had before, the change, and the score written last for that player.

Events are not kept, for no function here reads them, but `logouts`
records the sessions whose LOGOUT event has been posted. A LOGIN request
only posts events. A join of a `WRITE` thread returns when that thread
ends, or at once when another thread is joining it, so it may return at
any time here. A session expires at any time, and a thread can always be
created.
-/
import HoxServer.Lib.WriteBehind
import HoxServer.Table.Table
import HoxServer.Table.TableMgr

namespace HoxServer

abbrev SessionRef := Nat

/-- A client thread, and the socket it serves. -/
abbrev ThreadRef := Nat

/-- `hoxClientType`. -/
inductive ClientType where
  | hoxchess | http | flash | test
  deriving DecidableEq, Repr

/-- `hoxSessionType`. -/
inductive SessionType where
  | persistent | flash | polling
  deriving DecidableEq, Repr

/-- `hoxSessionState`. -/
inductive SessionState where
  | active | disconnect | shutdown
  deriving DecidableEq, Repr

/-- `hoxSession`; the threads and the socket are `NULL` or not. -/
structure Session where
  id : Bytes
  type : SessionType
  state : SessionState := .active
  player : PlayerRef
  nfd : Bool := true
  readThread : Bool
  writeThread : Bool
  deriving DecidableEq, Repr

/-- A row of the agent's table `players`, as the server reads it. -/
structure PlayerRow where
  score : Int
  wins : Int := 0
  draws : Int := 0
  losses : Int := 0
  hpassword : Bytes
  deriving DecidableEq, Repr

/-- A request of a client. `other` stands for the requests that only post
events. -/
inductive Request where
  | login
  | logout
  | new (initialTime : TimeInfo) (color : Color)
  | join (tid : Bytes) (color : Color)
  | leave (tid : Bytes)
  | update (tid : Bytes) (bRatedGame : Bool) (initialTime : TimeInfo)
  | move (tid sMove : Bytes)
  | resign (tid : Bytes)
  | draw (tid : Bytes)
  | reset (tid : Bytes)
  | other
  deriving DecidableEq

/-- The first request of a connection, with its parameters. -/
structure FirstRequest where
  request : Request := .login
  pid : Bytes
  sid : Bytes := []
  hpassword : Bytes := []
  clientType : ClientType
  deriving DecidableEq

/-- Where a client thread is blocked. -/
inductive Thread where
  /-- In `_read_first_request`. -/
  | idle
  /-- In `get_player_info`, the session that was found at hand. -/
  | authenticating (session : Option SessionRef) (first : FirstRequest)
  /-- In `resumeConnection`, after so many sleeps. -/
  | interrupting (session : SessionRef) (first : FirstRequest) (waitTimes : Nat)
  /-- In `resumeConnection`, closing the old connection. -/
  | resuming (session : SessionRef) (first : FirstRequest)
  /-- In `closeAndDeleteSession`, before `createSession`. -/
  | replacing (session : SessionRef) (player : PlayerRef) (first : FirstRequest)
  /-- In `hoxFlashSession::handleFirstRequest`. -/
  | terminating (session : SessionRef) (first : FirstRequest)
  /-- Writing the response to the first request. -/
  | answering (session : SessionRef) (first : FirstRequest)
  /-- In `readRequest`. -/
  | reading (session : SessionRef) (clientType : ClientType)
  /-- Writing a response or yielding, in `runEventLoop`. -/
  | yielding (session : SessionRef) (clientType : ClientType)
  /-- In `onDisconnected`. -/
  | disconnecting (session : SessionRef) (clientType : ClientType)
  /-- In `closeAndDeleteSession`, at the end of `handle_session`. -/
  | deleting (session : SessionRef)
  deriving DecidableEq

/-- Why a step is not taken: the thread is not blocked there, the server
crashes, or a loop over the sessions stands on one that has been erased. -/
inductive Stop where
  | disabled
  | crashed (fault : Fault)
  | danglingIterator
  deriving DecidableEq

/-- The server, the queue to the agent and the agent's database. -/
structure Server where
  players : PlayerRef → Player := fun _ => { id := [] }
  playerCount : Nat := 0
  /-- `hoxPlayer::_tables`, in the order of the set. -/
  tablesOf : PlayerRef → List TableRef := fun _ => []
  table : TableRef → Table := fun _ => Table.new [] {}
  address : TableRef → Nat := fun _ => 0
  tableCount : Nat := 0
  tableMgr : TableMgr := {}
  session : SessionRef → Session := fun _ =>
    { id := [], type := .polling, player := 0, readThread := false, writeThread := false }
  sessionCount : Nat := 0
  /-- `hoxSessionMgr::_sessions`, in the order of the keys. -/
  sessions : List SessionRef := []
  thread : ThreadRef → Thread := fun _ => .idle
  /-- The session that `manageSessions` is closing. -/
  managing : Option SessionRef := none
  /-- The sessions of the LOGOUT events that `handleShutdown` has posted to
  all others. -/
  logouts : List SessionRef := []
  /-- `s_requestList`. -/
  requestList : List PlayerSetRequest := []
  /-- The request that `_handle_db_write` has taken from it. -/
  writing : Option PlayerSetRequest := none
  db : Bytes → Option PlayerRow
  commits : List (Lib.WriteBehind.Commit Bytes Int) := []

/-- What the outside world decides in a step. -/
structure Input where
  now : Int := 0
  newSessionId : Bytes := []
  newAddress : Nat := 0

namespace Server

/-- Storing into a `std::map`, with the key of the object itself. -/
def mapInsert (key : Nat → Bytes) (a : Nat) (l : List Nat) : List Nat :=
  l.takeWhile (fun x => decide (key x < key a)) ++
    a :: l.dropWhile (fun x => !decide (key a < key x))

def setSession (s : Server) (session : SessionRef) (f : Session → Session) : Server :=
  { s with session := Function.update s.session session (f (s.session session)) }

def setState (s : Server) (session : SessionRef) (state : SessionState) : Server :=
  s.setSession session fun x => { x with state }

def setThread (s : Server) (th : ThreadRef) (thread : Thread) : Server :=
  { s with thread := Function.update s.thread th thread }

def setTables (s : Server) (player : PlayerRef) (tables : List TableRef) : Server :=
  { s with tablesOf := Function.update s.tablesOf player tables }

/-- A new `hoxPlayer`. -/
def newPlayer (s : Server) (player : Player) : Server × PlayerRef :=
  ({ s with
      players := Function.update s.players s.playerCount player
      playerCount := s.playerCount + 1
      tablesOf := Function.update s.tablesOf s.playerCount [] }, s.playerCount)

/-! ## Calls of a table -/

/-- The scores as they are stored and as they wait to be written. -/
def scores (s : Server) : Lib.WriteBehind Bytes Int where
  stored pid := (s.db pid).map PlayerRow.score
  pending := (s.writing.toList ++ s.requestList).map fun r => (r.pid, r.score)

/-- The table in a world without queue and ledger. -/
def world (s : Server) (t : TableRef) : World := { table := s.table t, players := s.players }

/-- The scores that a call writes: the player, the score of the object
before the call, and the change. -/
def writesOf (s : Server) (w : World) : List (Bytes × Int × Int) :=
  w.changes.map fun c => ((s.players c.1).id, (s.players c.1).score, c.2)

/-- A call of a table. -/
def callTable (s : Server) (i : Input) (t : TableRef) (op : TableOp) :
    Except Stop (Server × Result) :=
  match (s.world t).call i.now op with
  | .error fault => .error (.crashed fault)
  | .ok (w, res) => .ok ({ s with
      table := Function.update s.table t w.table
      players := w.players
      requestList := s.requestList ++ w.requests
      commits := s.commits ++ s.scores.commits (s.writesOf w) }, res)

/-! ## `hoxTableMgr` -/

/-- `hoxTableMgr::createTable`. -/
def createTable (s : Server) (i : Input) (initialTime : TimeInfo) : Server × TableRef :=
  let (tableMgr, newTableId) := s.tableMgr.createTable s.tableCount
  ({ s with
      table := Function.update s.table s.tableCount (Table.new newTableId initialTime)
      address := Function.update s.address s.tableCount i.newAddress
      tableCount := s.tableCount + 1
      tableMgr }, s.tableCount)

/-- `hoxTableMgr::runCleanup`. -/
def runCleanup (s : Server) : Server :=
  let isEmpty (t : TableRef) : Bool := decide ((s.table t).allPlayers = [])
  { s with tableMgr := s.tableMgr.runCleanup isEmpty fun t => (s.table t).id }

/-- `hoxTableMgr::manageTables`. -/
def manageTables (s : Server) (i : Input) : Except Stop Server :=
  s.tableMgr.getTables.foldlM (fun s t => (s.callTable i t .checkTimeoutOnMove).map Prod.fst) s

/-! ## `hoxPlayer` -/

/-- `_tables.insert( pTable )`: a set of pointers is ordered by address. -/
def insertTable (s : Server) (player : PlayerRef) (t : TableRef) : Server :=
  let before (x : TableRef) : Bool := decide (s.address x < s.address t)
  let tables := s.tablesOf player
  if t ∈ tables then s
  else s.setTables player (tables.takeWhile before ++ t :: tables.dropWhile before)

def eraseTable (s : Server) (player : PlayerRef) (t : TableRef) : Server :=
  s.setTables player ((s.tablesOf player).filter fun x => decide (x ≠ t))

/-- `hoxPlayer::joinTableAs`. -/
def joinTableAs (s : Server) (i : Input) (player : PlayerRef) (t : TableRef) (requestColor : Color) :
    Except Stop Server := do
  let (s, res) ← s.callTable i t (.assignPlayerAs player requestColor)
  .ok (if res = .ok then s.insertTable player t else s)

/-- `hoxPlayer::leaveTable`. -/
def leaveTable (s : Server) (i : Input) (player : PlayerRef) (t : TableRef) : Except Stop Server := do
  let (s, _) ← s.callTable i t (.onLeaveFromPlayer player)
  .ok (s.eraseTable player t)

/-- `hoxPlayer::leaveAllTables`. -/
def leaveAllTables (s : Server) (i : Input) (player : PlayerRef) : Except Stop Server :=
  (s.tablesOf player).foldlM (fun s t => s.leaveTable i player t) s

/-- `hoxPlayer::_findTable`, and the call of the table that is found. -/
def atTable (s : Server) (i : Input) (player : PlayerRef) (tableId : Bytes) (op : TableOp) :
    Except Stop Server :=
  match (s.tablesOf player).find? fun t => decide ((s.table t).id = tableId) with
  | none => .ok s
  | some t => (s.callTable i t op).map Prod.fst

/-! ## `hoxSession` -/

/-- `hoxPersistentSession::closeIO`: the flag tells whether it is blocked
in the join of the `WRITE` thread. A polling session has nothing to close. -/
def closeIo (s : Server) (session : SessionRef) : Server × Bool :=
  if (s.session session).type = .polling then (s, false)
  else if (s.session session).writeThread then
    (s.setSession session fun x => { x with readThread := false }, true)
  else (s.setSession session fun x => { x with readThread := false, nfd := false }, false)

/-- The rest of `closeIO` after the join. -/
def closedIo (s : Server) (session : SessionRef) : Server :=
  s.setSession session fun x => { x with nfd := false }

/-- "Inform others about the event." -/
def postLogout (s : Server) (session : SessionRef) : Server :=
  { s with logouts := s.logouts ++ [session] }

/-- `hoxSession::handleShutdown`, up to the join in `closeIO`. -/
def handleShutdown (s : Server) (i : Input) (session : SessionRef) :
    Except Stop (Server × Bool) := do
  let s ← s.leaveAllTables i (s.session session).player
  let s := (s.setState session .shutdown).postLogout session
  .ok (if (s.session session).nfd then s.closeIo session else (s, false))

/-- `hoxSession::handleRequest`. A request that is not granted changes
nothing here. -/
def handleRequest (s : Server) (i : Input) (session : SessionRef) (request : Request) :
    Except Stop Server :=
  let player := (s.session session).player
  match request with
  | .login => .ok s
  | .logout => .ok (s.setState session .shutdown)
  | .new initialTime color =>
    let (s, t) := s.createTable i initialTime
    s.joinTableAs i player t color
  | .join tid color =>
    match s.tableMgr.findTable tid with
    | none => .ok s
    | some t => s.joinTableAs i player t color
  | .leave tid =>
    match s.tableMgr.findTable tid with
    | none => .ok s
    | some t => do .ok (← s.leaveTable i player t).runCleanup
  | .update tid bRatedGame initialTime =>
    s.atTable i player tid (.handleUpdateRequest player bRatedGame initialTime)
  | .move tid sMove => s.atTable i player tid (.acceptMove player sMove)
  | .resign tid => s.atTable i player tid (.handleResignRequest player)
  | .draw tid => s.atTable i player tid (.handleDrawRequest player)
  | .reset tid => s.atTable i player tid (.handleResetRequest player)
  | .other => .ok s

/-! ## `hoxSessionMgr` -/

/-- `hoxSessionMgr::findSession`. -/
def findSession (s : Server) (playerId : Bytes) : Option SessionRef :=
  s.sessions.find? fun x => decide ((s.session x).state ≠ .shutdown ∧
    (s.players (s.session x).player).id = playerId)

/-- The type of the session for a client. -/
def sessionType : ClientType → SessionType
  | .hoxchess | .test => .persistent
  | .flash => .flash
  | .http => .polling

/-- `hoxSessionMgr::createSession`. A new id is not in use. -/
def createSession (s : Server) (i : Input) (clientType : ClientType) (player : PlayerRef) :
    Except Stop (Server × SessionRef) :=
  if i.newSessionId ∈ s.sessions.map fun x => (s.session x).id then .error .disabled
  else
    let type := sessionType clientType
    let session := Function.update s.session s.sessionCount
      { id := i.newSessionId, type, player, readThread := decide (type ≠ .polling)
        writeThread := decide (type ≠ .polling) }
    .ok ({ s with
        session
        sessionCount := s.sessionCount + 1
        sessions := mapInsert (fun x => (session x).id) s.sessionCount s.sessions },
      s.sessionCount)

/-- `hoxSessionMgr::_deleteSession`: the erasure is by id. -/
def deleteSession (s : Server) (session : SessionRef) : Server :=
  let id := (s.session session).id
  { s with sessions := s.sessions.filter fun x => decide ((s.session x).id ≠ id) }

/-- `hoxSessionMgr::closeAndDeleteSession` after `handleShutdown`. -/
def closedSession (s : Server) (session : SessionRef) : Server := s.runCleanup.deleteSession session

/-- The second loop of `hoxSessionMgr::manageSessions`. -/
def expireSessions (s : Server) (i : Input) (expired : List SessionRef) :
    List SessionRef → Except Stop Server
  | [] => .ok { s with managing := none }
  | session :: rest =>
    if session ∈ expired then do
      let (s, blocked) ← s.handleShutdown i session
      if blocked then .ok { s with managing := some session } else s.expireSessions i expired rest
    else s.expireSessions i expired rest

/-- `hoxSessionMgr::manageSessions`: the first loop purges the sessions that
are shut down. -/
def manageSessions (s : Server) (i : Input) (expired : List SessionRef) : Except Stop Server :=
  if s.managing ≠ none then .error .disabled
  else
    let sessions := s.sessions.filter fun x => decide ((s.session x).state ≠ .shutdown)
    let s := { s with sessions }
    s.expireSessions i expired s.sessions

/-- The second loop goes on behind the session it has closed. -/
def manageSessionsJoined (s : Server) (i : Input) (expired : List SessionRef) :
    Except Stop Server :=
  match s.managing with
  | none => .error .disabled
  | some session =>
    let s := s.closedIo session
    if session ∈ s.sessions then
      s.expireSessions i expired (s.sessions.dropWhile (fun x => decide (x ≠ session))).tail
    else .error .danglingIterator

/-! ## `session.cpp` -/

/-- The cleanup at the end of `handle_session`. -/
def endSession (s : Server) (i : Input) (th : ThreadRef) (session : SessionRef)
    (clientType : ClientType) : Except Stop Server :=
  if (s.session session).state = .shutdown ∨ clientType = .test then do
    let (s, blocked) ← s.handleShutdown i session
    if blocked then .ok (s.setThread th (.deleting session))
    else .ok ((s.closedSession session).setThread th .idle)
  else .ok (s.setThread th .idle)

/-- The test of the loop of `hoxSession::runEventLoop`. -/
def runEventLoop (s : Server) (i : Input) (th : ThreadRef) (session : SessionRef)
    (clientType : ClientType) : Except Stop Server :=
  if (s.session session).state = .active then .ok (s.setThread th (.reading session clientType))
  else s.endSession i th session clientType

/-- `handleFirstRequest`: a flash session reads a byte before, a polling
session writes a response after it. -/
def handleFirstRequest (s : Server) (i : Input) (th : ThreadRef) (session : SessionRef)
    (first : FirstRequest) : Except Stop Server :=
  match (s.session session).type with
  | .flash => .ok (s.setThread th (.terminating session first))
  | .polling => do
    .ok ((← s.handleRequest i session first.request).setThread th (.answering session first))
  | .persistent => do
    (← s.handleRequest i session first.request).runEventLoop i th session first.clientType

/-- `hoxPersistentSession::resumeConnection` when the old connection is
closed. -/
def resumedConnection (s : Server) (i : Input) (th : ThreadRef) (session : SessionRef)
    (first : FirstRequest) : Except Stop Server :=
  let s := s.setSession session fun x =>
    { x with nfd := true, readThread := true, state := .active, writeThread := true }
  s.handleFirstRequest i th session first

/-- `resumeConnection` when the `READ` thread has ended or has had its time. -/
def closeToResume (s : Server) (i : Input) (th : ThreadRef) (session : SessionRef)
    (first : FirstRequest) : Except Stop Server :=
  let (s, blocked) := s.closeIo session
  if blocked then .ok (s.setThread th (.resuming session first))
  else s.resumedConnection i th session first

/-- `hoxPersistentSession::resumeConnection`. The interrupt of the `READ`
thread makes its read fail, which it may do at any time. -/
def resumeConnection (s : Server) (i : Input) (th : ThreadRef) (session : SessionRef)
    (first : FirstRequest) : Except Stop Server :=
  if (s.session session).nfd then
    let s := s.setState session .disconnect
    if (s.session session).readThread then .ok (s.setThread th (.interrupting session first 0))
    else s.closeToResume i th session first
  else s.resumedConnection i th session first

/-- `NEW_PLAYER_SCORE`. -/
def newPlayerScore : Int := 1500

/-- The end of `_authenticate_request`: "Create a new session." -/
def startSession (s : Server) (i : Input) (th : ThreadRef) (player : PlayerRef)
    (first : FirstRequest) : Except Stop Server := do
  let (s, session) ← s.createSession i first.clientType player
  s.handleFirstRequest i th session first

/-- `bIsGuest`. -/
def isGuest (pid : Bytes) : Bool := (bytes "Guest#").isPrefixOf pid

/-- `_authenticate_request` after the authentication: "If there is an
existing Session, then close it first." -/
def authenticated (s : Server) (i : Input) (th : ThreadRef) (found : Option SessionRef)
    (player : PlayerRef) (first : FirstRequest) : Except Stop Server :=
  match found with
  | none => s.startSession i th player first
  | some session =>
    if !isGuest first.pid ∧ (s.session session).type ≠ .polling ∧ first.clientType = .hoxchess then
      s.resumeConnection i th session first
    else do
      let (s, blocked) ← s.handleShutdown i session
      if blocked then .ok (s.setThread th (.replacing session player first))
      else (s.closedSession session).startSession i th player first

/-- `_authenticate_request`, up to the database. -/
def authenticateRequest (s : Server) (i : Input) (th : ThreadRef) (first : FirstRequest) :
    Except Stop Server :=
  let found := s.findSession first.pid
  match found.filter fun x => decide ((s.session x).id = first.sid) with
  | some session => s.handleFirstRequest i th session first
  | none =>
    if first.request ≠ .login then .ok s
    else if isGuest first.pid then
      let (s, player) := s.newPlayer { id := first.pid, type := .guest, score := newPlayerScore }
      s.authenticated i th found player first
    else .ok (s.setThread th (.authenticating found first))

/-- `_authenticate_player` when the answer of the agent is there. The agent
takes a score of -1 for a row that is missing. -/
def authenticatePlayer (s : Server) (i : Input) (th : ThreadRef) (found : Option SessionRef)
    (first : FirstRequest) : Except Stop Server :=
  match s.db first.pid with
  | none => .ok (s.setThread th .idle)
  | some row =>
    if row.score = -1 ∨ (row.score = 0 ∧ row.hpassword = [])
        ∨ first.hpassword ≠ row.hpassword then
      .ok (s.setThread th .idle)
    else
      let (s, player) := s.newPlayer { id := first.pid, score := row.score, wins := row.wins
                                       draws := row.draws, losses := row.losses }
      s.authenticated i th found player first

/-- `onDisconnected` and the end of the event loop. -/
def onDisconnected (s : Server) (i : Input) (th : ThreadRef) (session : SessionRef)
    (clientType : ClientType) : Except Stop Server :=
  if (s.session session).type = .polling then s.endSession i th session clientType
  else
    let (s, blocked) := (s.setState session .disconnect).closeIo session
    if blocked then .ok (s.setThread th (.disconnecting session clientType))
    else s.endSession i th session clientType

/-! ## The queue to the agent -/

/-- `_handle_db_write` takes a request from the queue. -/
def takeRequest (s : Server) : Except Stop Server :=
  match s.writing, s.requestList with
  | none, r :: rest => .ok { s with writing := some r, requestList := rest }
  | _, _ => .error .disabled

/-- The `UPDATE` of a row in `hoxDBAPI::set_player_info`. -/
def updateRow (r : PlayerSetRequest) (row : PlayerRow) : PlayerRow :=
  let row := { row with score := r.score }
  if r.result = bytes "W" then { row with wins := row.wins + 1 }
  else if r.result = bytes "D" then { row with draws := row.draws + 1 }
  else if r.result = bytes "L" then { row with losses := row.losses + 1 }
  else row

/-- `hoxDBAPI::set_player_info`. -/
def setPlayerInfo (s : Server) : Except Stop Server :=
  match s.writing with
  | none => .error .disabled
  | some r => .ok { s with
      writing := none
      db := Function.update s.db r.pid ((s.db r.pid).map (updateRow r)) }

end Server

/-! ## The threads -/

/-- A blocking call returns. -/
inductive Wake where
  /-- `_read_first_request`. -/
  | connected (th : ThreadRef) (first : FirstRequest)
  /-- The round trip of `get_player_info`: the agent answers. -/
  | playerInfo (th : ThreadRef)
  /-- `st_sleep` in `resumeConnection`. -/
  | slept (th : ThreadRef)
  /-- `st_thread_join` in `closeIO`. -/
  | joined (th : ThreadRef)
  /-- The read of the terminator of a flash client. -/
  | terminated (th : ThreadRef) (ok : Bool)
  /-- The write of the response to a first request. -/
  | answered (th : ThreadRef) (ok : Bool)
  | requestRead (th : ThreadRef) (request : Request)
  | readFailed (th : ThreadRef)
  | yielded (th : ThreadRef)
  /-- The `WRITE` thread of a session ends. -/
  | writeThreadEnded (session : SessionRef)
  | tableManager
  | sessionManager (expired : List SessionRef)
  | sessionManagerJoined (expired : List SessionRef)
  | requestTaken
  | requestWritten

namespace Server

/-- What runs when `st_thread_join` returns. -/
def joined (s : Server) (i : Input) (th : ThreadRef) : Except Stop Server :=
  match s.thread th with
  | .resuming session first => (s.closedIo session).resumedConnection i th session first
  | .replacing session player first =>
    ((s.closedIo session).closedSession session).startSession i th player first
  | .disconnecting session clientType => (s.closedIo session).endSession i th session clientType
  | .deleting session => .ok (((s.closedIo session).closedSession session).setThread th .idle)
  | _ => .error .disabled

/-- What runs from the return of a blocking call to the next one. -/
def wake (s : Server) (i : Input) : Wake → Except Stop Server
  | .connected th first =>
    match s.thread th with
    | .idle => s.authenticateRequest i th first
    | _ => .error .disabled
  | .playerInfo th =>
    match s.thread th with
    | .authenticating found first => s.authenticatePlayer i th found first
    | _ => .error .disabled
  | .slept th =>
    match s.thread th with
    | .interrupting session first waitTimes =>
      if (s.session session).readThread ∧ waitTimes + 1 < 5 then
        .ok (s.setThread th (.interrupting session first (waitTimes + 1)))
      else s.closeToResume i th session first
    | _ => .error .disabled
  | .joined th => s.joined i th
  | .terminated th ok =>
    match s.thread th with
    | .terminating session first => do
      let s ← if ok then s.handleRequest i session first.request else .ok s
      s.runEventLoop i th session first.clientType
    | _ => .error .disabled
  | .answered th ok =>
    match s.thread th with
    | .answering session first =>
      if ok then s.runEventLoop i th session first.clientType
      else s.endSession i th session first.clientType
    | _ => .error .disabled
  | .requestRead th request =>
    match s.thread th with
    | .reading session clientType => do
      .ok ((← s.handleRequest i session request).setThread th (.yielding session clientType))
    | _ => .error .disabled
  | .readFailed th =>
    match s.thread th with
    | .reading session clientType => s.onDisconnected i th session clientType
    | _ => .error .disabled
  | .yielded th =>
    match s.thread th with
    | .yielding session clientType => s.runEventLoop i th session clientType
    | _ => .error .disabled
  | .writeThreadEnded session =>
    if (s.session session).state ≠ .active ∧ (s.session session).writeThread then
      .ok (s.setSession session fun x => { x with writeThread := false })
    else .error .disabled
  | .tableManager => s.manageTables i
  | .sessionManager expired => s.manageSessions i expired
  | .sessionManagerJoined expired => s.manageSessionsJoined i expired
  | .requestTaken => s.takeRequest
  | .requestWritten => s.setPlayerInfo

/-- The server over a database, under any order of the threads. -/
def machine (db : Bytes → Option PlayerRow) : Lib.Machine Server (Input × Wake) Stop where
  init s := s = { db }
  step s w := s.wake w.1 w.2

end Server

end HoxServer
