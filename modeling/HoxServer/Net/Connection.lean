/-
HoxServer.Net.Connection — what a client thread does with what a client
sends: `handle_session` and what it calls (`session.cpp`), the sessions'
`readRequest` and `handleRequest` (`hoxSession.cpp`), under the exceptions
that may be raised on the way.

A `Place` is a point of the thread up to which others may have run, and a
step goes from there to the next one. What the world outside does in it
is in `Outside`, one for each step: what the client and the agent send,
and the server with its sessions, players and tables as the step finds it.
What the thread itself has done to the server is part of what is found
later. Nothing is assumed of it, but that the referees of the tables are
lawful, as those of a server are.

The request of a text is built outside of every `try` where it is the
first one, and inside of that of `handle_session` where it is a later
one; both `catch` a `hoxError` only. Nothing catches the use of an empty
pointer: the seat of a player who is not there, or the socket of a session
that is disconnected.

What is written is not kept but for the responses that are made
(`answers`). Events are not, nor the headers around a response.
-/
import HoxServer.Net.DbClient
import HoxServer.Net.Http
import HoxServer.Referee.Validation
import HoxServer.Server.Server

namespace HoxServer.Net

open Lib

/-! ## The outside -/

/-- Why `st_read` returns no byte. -/
inductive ReadEnd where
  | closed | interrupted | timeout | error
  deriving DecidableEq

/-- What `read_line` returns then. -/
def ReadEnd.result : ReadEnd → Result
  | .closed => .ok
  | .interrupted => .eintr
  | .timeout => .timeout
  | .error => .err

/-- A server whose tables have lawful referees. -/
structure LawfulServer extends Server where
  lawful : ∀ t, (table t).referee.Lawful

/-- A server with no table yet. -/
def LawfulServer.empty : LawfulServer where
  db := fun _ => none
  lawful := fun _ => by
    simp only [Table.new, Referee.resetGame]
    exact Board.lawful_new

/-- What is found and decided outside of the thread in a step. -/
structure Outside where
  /-- What the client sends until a read of the step ends without a byte. -/
  received : Bytes := []
  readEnd : ReadEnd := .closed
  /-- What the agent sends from a request of this type on. -/
  agent : RequestType → Bytes := fun _ => []
  /-- What `convertTo` finds in its variable. -/
  uninitialized : Int := 0
  files : FileMgr := {}
  server : LawfulServer := .empty
  input : Input := {}
  /-- Whether `st_thread_create` succeeds in `resumeConnection`. -/
  resumed : Bool := true
  /-- Whether it does for a new session. -/
  created : Bool := true
  /-- Whether a response can be written. -/
  written : Bool := true

/-! ## Reading -/

/-- What is there when a request has been read, before it is parsed. -/
inductive Incoming where
  | failed (result : Result)
  | get (httpRequest : HttpRequest)
  | text (sRequest : Bytes) (viaHttp : Bool) (unread : Bytes)

/-- "Check if this is a HTTP (GET/POST) request." -/
def readHttp (readEnd : ReadEnd) (sRequest input : Bytes) : Incoming :=
  if (bytes "GET").isPrefixOf sRequest ∨ (bytes "POST").isPrefixOf sRequest then
    match (HttpRequest.parseURI sRequest).continueReadRequest readEnd.result input with
    | (result, httpRequest, rest) =>
      if result ≠ .ok then .failed result
      else if httpRequest.method = bytes "GET" then .get httpRequest
      else .text (trimLast httpRequest.body 10) true rest
  else .text sRequest false input

/-- What `_read_first_request` reads. -/
def firstIncoming (readEnd : ReadEnd) (input : Bytes) : Incoming :=
  match readLine input readEnd.result with
  | (result, sRequest, rest) =>
    if sRequest = [] then .failed .closed
    else if result ≠ .ok then .failed result
    else readHttp readEnd sRequest rest

/-- What `readRequest` of a session reads. -/
def nextIncoming (type : SessionType) (readEnd : ReadEnd) (input : Bytes) : Incoming :=
  match readLine input readEnd.result with
  | (result, sRequest, rest) =>
    if type = .polling then
      if sRequest = [] then .failed .closed
      else if result ≠ .ok then .failed .err
      else readHttp readEnd sRequest rest
    else
      if result = .eintr then .failed .eintr
      else if sRequest = [] then .failed .closed
      else if result ≠ .ok then .failed .err
      else .text sRequest false rest

/-- What a read of a request ends with. -/
inductive Reading where
  | failed (result : Result)
  | get (httpRequest : HttpRequest)
  | request (request : Request RequestType) (viaHttp : Bool) (unread : Bytes)

/-- The request of the text, if it is valid. -/
def Incoming.parse : Incoming → Except Raised Reading
  | .failed result => .ok (.failed result)
  | .get httpRequest => .ok (.get httpRequest)
  | .text sRequest viaHttp unread => do
    let request ← hoxRequest sRequest
    return if request.type = .unknown then .failed .notValid else .request request viaHttp unread

/-- "Consume the NULL terminator": whether it is there, and what is left to
read. -/
def readTerminator (input : Bytes) : Bool × Bytes :=
  match readNbytes 1 input with
  | (result, sData, rest) => (result = .ok ∧ sData = [0], rest)

/-- "Detect and specially handle Flash-based clients." -/
def detectClientType (request : Request RequestType) (viaHttp : Bool) : ClientType :=
  let sVersion := request.getParam (bytes "version")
  if request.type = .login ∧ (bytes "FLASHCHESS").isPrefixOf sVersion then .flash
  else if request.type = .login ∧ (bytes "hoxTest").isPrefixOf sVersion then .test
  else if viaHttp then .http else .hoxchess

/-! ## Handlers -/

/-- What has been found, or an error. -/
def orError {α : Type} (found : Option α) (error : HoxError) : Except Raised α :=
  match found with
  | some a => return a
  | none => throwHoxError error

namespace Outside

variable (o : Outside) (session : SessionRef) (request : Request RequestType)

/-- `hoxSession::getPlayer`. -/
def player : PlayerRef := (o.server.session session).player

/-- The socket of a session, where it is read or written. -/
def socket : Except Raised Unit :=
  if (o.server.session session).nfd then return () else .error .nullPointer

/-- `hoxTableMgr::findTable`, or "Table not found". -/
def findTable (tableId : Bytes) : Except Raised TableRef :=
  orError (o.server.tableMgr.findTable tableId) .tableNotFound

/-- The table that `hoxPlayer::_findTable` looks for. -/
def playerTable (tableId : Bytes) : Option TableRef :=
  (o.server.tablesOf (o.player session)).find? fun t => decide ((o.server.table t).id = tableId)

/-- `hoxPlayer::_findTable`. -/
def findPlayerTable (tableId : Bytes) : Except Raised TableRef :=
  orError (o.playerTable session tableId) .tableNotFound

/-- A call of a table. What crashes in there is the use of an empty seat. -/
def callTable (s : Server) (t : TableRef) (op : TableOp) : Except Raised Result :=
  ((s.callTable o.input t op).map Prod.snd).mapError fun _ => .nullPointer

/-- A call of a table that has to return `hoxRC_OK`. -/
def callTableOk (s : Server) (t : TableRef) (op : TableOp) (error : HoxError) :
    Except Raised Unit := do
  if (← o.callTable s t op) = .ok then return () else throwHoxError error

/-- `hoxPlayer::leaveAllTables`. -/
def leaveAllTables : Except Raised Unit :=
  ((o.server.leaveAllTables o.input (o.player session)).map fun _ => ()).mapError
    fun _ => .nullPointer

/-- `hoxSessionMgr::findSession`, or an error. -/
def findOnline (playerId : Bytes) (error : HoxError) : Except Raised SessionRef :=
  orError (o.server.findSession playerId) error

/-- What `create_event_LIST` prints of a table. -/
def tableInfo (t : TableRef) : TableInfo :=
  let table := o.server.table t
  let seat (player : Option PlayerRef) : Option (Bytes × Int) :=
    player.map fun p => ((o.server.players p).id, (o.server.players p).score)
  { id := table.id
    gameGroup := table.gameGroup
    gameType := table.gameType
    initialTime := table.initialTime
    redTime := table.redTime
    blackTime := table.blackTime
    red := seat table.redPlayer
    black := seat table.blackPlayer
    observers := [] }

/-- `hoxPlayer::doMove`, `offerResign`, `offerDraw`, `resetTable` and
`updateTable`. -/
def atPlayerTable (op : TableOp) (error : Bytes → HoxError) : Except Raised Unit := do
  let tableId := request.getParam (bytes "tid")
  let t ← o.findPlayerTable session tableId
  o.callTableOk o.server.toServer t op (error tableId)

def handleNew : Except Raised Unit :=
  let initialTime := stringToTimeInfo (request.getParam (bytes "itimes"))
  let requestColor := stringToColor (request.getParam (bytes "color"))
  let requestColor := if requestColor = .unknown then .red else requestColor
  let (s, t) := o.server.createTable o.input initialTime
  o.callTableOk s t (.assignPlayerAs (o.player session) requestColor) .failedToJoinTable

def handleJoin : Except Raised Unit := do
  let tableId := request.getParam (bytes "tid")
  let requestColor := stringToColor (request.getParam (bytes "color"))
  let requestColor := if requestColor = .unknown then .none else requestColor
  let t ← o.findTable tableId
  o.callTableOk o.server.toServer t (.assignPlayerAs (o.player session) requestColor)
    .failedToJoinTable

/-- What the call of the table returns is not read. -/
def handleLeave : Except Raised Unit := do
  let t ← o.findTable (request.getParam (bytes "tid"))
  let _ ← o.callTable o.server.toServer t (.onLeaveFromPlayer (o.player session))

def handleUpdate : Except Raised Unit :=
  o.atPlayerTable session request
    (.handleUpdateRequest (o.player session) (request.getParam (bytes "rated") = bytes "1")
      (stringToTimeInfo (request.getParam (bytes "itimes"))))
    .updateFailed

def handleMsg : Except Raised Unit := do
  let tableId := request.getParam (bytes "tid")
  if tableId ≠ [] then
    let _ ← o.findTable tableId
  else
    let _ ← o.findOnline (request.getParam (bytes "oid")) .playerNotFound

def handleMove : Except Raised Unit :=
  o.atPlayerTable session request
    (.acceptMove (o.player session) (request.getParam (bytes "move"))) fun _ => .moveNotOk

def handleResign : Except Raised Unit :=
  o.atPlayerTable session request (.handleResignRequest (o.player session)) .resignFailed

def handleDraw : Except Raised Unit :=
  o.atPlayerTable session request (.handleDrawRequest (o.player session)) .drawFailed

def handleReset : Except Raised Unit :=
  o.atPlayerTable session request (.handleResetRequest (o.player session)) .resetFailed

def handleInvite : Except Raised Unit := do
  let _ ← o.findOnline (request.getParam (bytes "oid")) .inviteeNotFound

def handlePlayerInfo : Except Raised Draft := do
  let online ← o.findOnline (request.getParam (bytes "oid")) .playerNotFound
  return createEventPlayerInfo (o.server.players (o.player online))
    (request.getParam (bytes "tid"))

/-- The `switch` of `hoxSession::handleRequest`. -/
def dispatch : Except Raised (Option Draft) :=
  match request.type with
  | .login => return none
  | .logout => return none
  | .list => return some (createEventList (o.server.tableMgr.getTables.map o.tableInfo))
  | .new => do o.handleNew session request; return none
  | .join => do o.handleJoin session request; return none
  | .leave => do o.handleLeave session request; return none
  | .update => do o.handleUpdate session request; return none
  | .msg => do o.handleMsg request; return none
  | .ping => return some createEventPing
  | .move => do o.handleMove session request; return none
  | .resign => do o.handleResign session request; return none
  | .draw => do o.handleDraw session request; return none
  | .reset => do o.handleReset session request; return none
  | .invite => do o.handleInvite request; return none
  | .playerInfo => do return some (← o.handlePlayerInfo request)
  | .poll => return none
  | _ => throwHoxError .unsupportedRequest

/-- `hoxSession::handleRequest`: the response that is added, if there is
one. -/
def handleRequest : Except Raised (Option Draft) :=
  catching Raised.hoxError? (o.dispatch session request) fun error =>
    .ok (some (errorResponse request.type error))

end Outside

/-! ## The thread -/

/-- The session that a thread serves, and the type of its client. -/
structure Served where
  session : SessionRef
  clientType : ClientType

/-- A point of the thread. -/
inductive Place where
  /-- In `_read_first_request`. -/
  | accepted
  /-- In `get_http_file`, for a first request or for one of a session. -/
  | gettingFile (served : Option Served) (sPath : Bytes)
  /-- In `get_player_info`, for a `REGISTER`. -/
  | registering (request : Request RequestType)
  /-- In `put_player_info`. -/
  | putting (request : Request RequestType)
  /-- In `get_player_info`, for a `LOGIN`. -/
  | authenticating (request : Request RequestType) (clientType : ClientType)
      (found : Option SessionRef) (unread : Bytes)
  /-- In `closeAndDeleteSession`, before `createSession`. -/
  | replacing (request : Request RequestType) (clientType : ClientType) (session : SessionRef)
      (unread : Bytes)
  /-- In `hoxFlashSession::handleFirstRequest`. -/
  | terminating (served : Served) (request : Request RequestType) (unread : Bytes)
  /-- In `hoxSession::handleRequest`, for the first request or a later one. -/
  | handling (bFirst : Bool) (served : Served) (request : Request RequestType) (unread : Bytes)
  /-- In the loop of `runEventLoop`, where it begins. -/
  | serving (served : Served) (unread : Bytes)
  /-- In `hoxFlashSession::readRequest`, behind the request. -/
  | consuming (served : Served) (request : Request RequestType) (unread : Bytes)
  /-- At the end of `handle_session`: "Cleanup session if required." -/
  | closing (served : Served)
  | ended

/-- A connection: the place of its thread, and the responses that have been
made. -/
structure Connection where
  place : Place := .accepted
  answers : List Draft := []

namespace Connection

variable (c : Connection) (o : Outside)

def goto (place : Place) : Connection := { c with place }

/-- A response is made. -/
def respond (draft : Option Draft) : Connection :=
  { c with answers := c.answers ++ draft.toList }

/-- A `catch` that answers the error and ends the thread. -/
def answering (type : RequestType) (x : Except Raised Connection) : Except Raised Connection :=
  catching Raised.hoxError? x fun error =>
    .ok ((c.respond (some (errorResponse type error))).goto .ended)

/-- The `try` of `handle_session`. -/
def inSession (served : Served) (x : Except Raised Connection) : Except Raised Connection :=
  catching Raised.hoxError? x fun _ => .ok (c.goto (.closing served))

/-- The type of the session. -/
def sessionType (served : Served) : SessionType := (o.server.session served.session).type

/-! ### The first request -/

/-- What follows a `GET`: the thread ends, or the session it serves does. -/
def afterGet : Option Served → Place
  | none => .ended
  | some served => .closing served

/-- `hoxPollingSession::handle_http_GET`. -/
def handleHttpGet (served : Option Served) (httpRequest : HttpRequest) : Connection :=
  c.goto (if (o.files.cached httpRequest.path).isSome then afterGet served
    else .gettingFile served httpRequest.path)

/-- The session is there: `handle_session` enters its `try`. -/
def startSession (request : Request RequestType) (type : SessionType) (served : Served)
    (unread : Bytes) : Connection :=
  c.goto (if type = .flash then .terminating served request unread
    else .handling true served request unread)

/-- "Create a new session." -/
def createSession (request : Request RequestType) (clientType : ClientType) (unread : Bytes) :
    Except Raised Connection :=
  if Server.sessionType clientType = .polling ∨ o.created then
    return c.startSession request (Server.sessionType clientType)
      ⟨o.server.sessionCount, clientType⟩ unread
  else throwHoxError .failedToCreateSession

/-- `_authenticate_request` after the authentication: "If there is an
existing Session, then close it first." -/
def authenticated (request : Request RequestType) (clientType : ClientType)
    (found : Option SessionRef) (unread : Bytes) : Except Raised Connection :=
  let bIsGuest := Server.isGuest (request.getParam (bytes "pid"))
  match found with
  | none => c.createSession o request clientType unread
  | some session =>
    let type := (o.server.session session).type
    if !bIsGuest ∧ type ≠ .polling ∧ clientType = .hoxchess ∧ o.resumed then
      return c.startSession request type ⟨session, clientType⟩ unread
    else return c.goto (.replacing request clientType session unread)

/-- `_authenticate_player`. -/
def authenticatePlayer (request : Request RequestType) : Except Raised Unit := do
  match ← readPlayerInfo (request.getParam (bytes "pid")) o.uninitialized
      (o.agent .dbPlayerGet) with
  | .error _ => throwHoxError .failedToGetInfo
  | .ok playerInfo =>
    if playerInfo.score = 0 ∧ playerInfo.hpw = [] then throwHoxError .authenticationFailed
    else if request.getParam (bytes "password") ≠ playerInfo.hpw then
      throwHoxError .wrongPassword
    else return ()

/-- `_authenticate_request`, up to the agent. A session that is reused is
read from its own socket. -/
def authenticateRequest (request : Request RequestType) (clientType : ClientType)
    (unread : Bytes) : Except Raised Connection :=
  let found := o.server.findSession (request.getParam (bytes "pid"))
  let sSessionId := request.getParam (bytes "sid")
  c.answering request.type
    (match found.filter fun session => decide ((o.server.session session).id = sSessionId) with
      | some session =>
        return c.startSession request (o.server.session session).type ⟨session, clientType⟩ []
      | none =>
        if request.type ≠ .login then throwHoxError .notYetAuthenticated
        else if Server.isGuest (request.getParam (bytes "pid")) then
          c.authenticated o request clientType found unread
        else return c.goto (.authenticating request clientType found unread))

/-- `_handle_request_REGISTER`, up to the agent. -/
def register (request : Request RequestType) : Except Raised Connection :=
  c.answering request.type
    (if request.getParam (bytes "pid") = [] ∨ request.getParam (bytes "password") = [] then
      throwHoxError .emptyIdOrPassword
    else return c.goto (.registering request))

/-- "Check if the Player's ID has been taken." -/
def registered (request : Request RequestType) : Except Raised Connection :=
  c.answering request.type do
    match ← readPlayerInfo (request.getParam (bytes "pid")) o.uninitialized
        (o.agent .dbPlayerGet) with
    | .ok _ => throwHoxError .idNotAvailable
    | .error _ => return c.goto (.putting request)

/-- "Put (save/create) this new Player into the Database." -/
def put (request : Request RequestType) : Except Raised Connection :=
  c.answering request.type do
    if (← readPlayerPut (o.agent .dbPlayerPut)) ≠ .ok then throwHoxError .failedToRegister
    else
      let sContent := bytes "Successfully registered new account: [" ++
        request.getParam (bytes "pid") ++ bytes "]"
      return (c.respond (some { type := request.type, lines := [[sContent]] })).goto .ended

/-- `handle_session` when `_read_first_request` has read. -/
def accept : Reading → Except Raised Connection
  | .failed _ => return c.goto .ended
  | .get httpRequest => return c.handleHttpGet o none httpRequest
  | .request request viaHttp unread =>
    if request.type = .register then c.register request
    else c.authenticateRequest o request (detectClientType request viaHttp) unread

/-! ### The session -/

/-- `hoxFlashSession::handleFirstRequest`, up to the request. -/
def terminate (served : Served) (request : Request RequestType) (input : Bytes) :
    Except Raised Connection := do
  o.socket served.session
  match readTerminator input with
  | (found, rest) =>
    return c.goto (if found then .handling true served request rest else .serving served rest)

/-- `hoxSession::handleRequest`, and the response of a polling session,
which is written then. A first response has to be written. -/
def handle (bFirst : Bool) (served : Served) (request : Request RequestType) (unread : Bytes) :
    Except Raised Connection := do
  let draft ← o.handleRequest served.session request
  if sessionType o served = .polling then
    o.socket served.session
    if bFirst ∧ o.written = false then throwHoxError .failedToWrite
  return (c.respond draft).goto (.serving served unread)

/-- What `runEventLoop` does with what `readRequest` has read. A read that
fails ends the loop. -/
def serve (served : Served) : Reading → Connection
  | .failed _ => c.goto (.closing served)
  | .get httpRequest => c.handleHttpGet o (some served) httpRequest
  | .request request _ unread =>
    c.goto (if sessionType o served = .flash then .consuming served request unread
      else .handling false served request unread)

/-- `hoxSession::runEventLoop`, up to the end of a request. -/
def runEventLoop (served : Served) (input : Bytes) : Except Raised Connection :=
  if (o.server.session served.session).state = .active then do
    o.socket served.session
    let reading ← (nextIncoming (sessionType o served) o.readEnd input).parse
    return c.serve o served reading
  else return c.goto (.closing served)

/-- `hoxFlashSession::readRequest` behind the request. -/
def consume (served : Served) (request : Request RequestType) (input : Bytes) :
    Except Raised Connection := do
  o.socket served.session
  match readTerminator input with
  | (found, rest) =>
    return c.goto (if found then .handling false served request rest else .closing served)

/-- Whether the session is deleted at the end of `handle_session`. -/
def deletes (served : Served) : Bool :=
  (o.server.session served.session).state = .shutdown ∨ served.clientType = .test

/-! ## Steps -/

/-- What runs from a place to the next one. -/
def step : Except Raised Connection :=
  match c.place with
  | .accepted => do c.accept o (← (firstIncoming o.readEnd o.received).parse)
  | .gettingFile served sPath => do
    let _ ← o.files.load sPath (o.agent .httpGet)
    return c.goto (afterGet served)
  | .registering request => c.registered o request
  | .putting request => c.put o request
  | .authenticating request clientType found unread => c.answering request.type do
    authenticatePlayer o request
    c.authenticated o request clientType found (unread ++ o.received)
  | .replacing request clientType session unread => c.answering request.type do
    o.leaveAllTables session
    c.createSession o request clientType (unread ++ o.received)
  | .terminating served request unread =>
    c.inSession served (c.terminate o served request (unread ++ o.received))
  | .handling bFirst served request unread =>
    c.inSession served (c.handle o bFirst served request (unread ++ o.received))
  | .serving served unread => c.inSession served (c.runEventLoop o served (unread ++ o.received))
  | .consuming served request unread =>
    c.inSession served (c.consume o served request (unread ++ o.received))
  | .closing served => do
    if deletes o served then o.leaveAllTables served.session
    return c.goto .ended
  | .ended => .ok c

end Connection

/-- A client thread, from the connection on, whatever happens outside. -/
def connections : Lib.Machine Connection Outside Raised where
  init c := c = {}
  step c o := c.step o

end HoxServer.Net
