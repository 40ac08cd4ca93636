/-
HoxServer.Net.Response — the responses of the server as text:
`hoxResponse` with its builders (`hoxTypes.cpp`), the errors that are
answered with one (`hoxError`, `hoxTableError`, under the texts they are
thrown with), and the reader of the test client,
`hoxSocketAPI::read_until_all`.

A builder prints lines of fields with `;` between them, and a field that
is printed with a `;` of its own at the end of a line is followed by an
empty one. So a builder is kept as its `Draft`, the fields of its lines,
from which the content follows.
-/
import HoxServer.Lib.Framing
import HoxServer.Net.Request
import HoxServer.Table.Event

namespace HoxServer.Net

open Lib

/-! ## Responses -/

/-- The number that a stream prints for a `hoxResult`. -/
def resultCode : Result → Int
  | .unknown => -1
  | .ok => 0
  | .err => 1
  | .timeout => 2
  | .eintr => 3
  | .handled => 4
  | .closed => 5
  | .notValid => 6
  | .notFound => 7
  | .notAllowed => 8
  | .notSupported => 9

/-- `hoxResponse`. -/
structure Response where
  type : RequestType
  code : Result := .ok
  tid : Bytes := []
  content : Bytes := []
  deriving DecidableEq

/-- What `toString` prints before the content. -/
def Response.header (response : Response) (bMore : Bool) : Bytes :=
  bytes "op=" ++ requestTypeToString response.type ++
    bytes "&code=" ++ intToString (resultCode response.code) ++
    (if response.tid ≠ [] then bytes "&tid=" ++ response.tid else []) ++
    (if bMore then bytes "&more=1" else []) ++
    bytes "&content="

/-- `hoxResponse::toString`. -/
def Response.toString (response : Response) (bMore : Bool := false) : Bytes :=
  if response.type = .poll ∧ response.content ≠ [] then response.content
  else
    response.header bMore ++
      (if response.content = [] then bytes "\n" else response.content) ++ bytes "\n"

/-- What a builder makes a response of: the fields of each line. -/
structure Draft where
  type : RequestType
  code : Result := .ok
  tid : Bytes := []
  lines : List (List Bytes)

def Draft.response (draft : Draft) : Response :=
  { type := draft.type, code := draft.code, tid := draft.tid
    content := Framing.text 59 10 draft.lines }

/-! ## Printing -/

/-- `hoxUtil::colorToString`. -/
def colorToString : Color → Bytes
  | .unknown => bytes "UNKNOWN"
  | .red => bytes "Red"
  | .black => bytes "Black"
  | .none => bytes "None"

/-- `hoxUtil::gameStatusToString`. -/
def gameStatusToString : GameStatus → Bytes
  | .unknown => bytes "UNKNOWN"
  | .open => bytes "open"
  | .ready => bytes "ready"
  | .inProgress => bytes "in_progress"
  | .redWin => bytes "red_win"
  | .blackWin => bytes "black_win"
  | .drawn => bytes "drawn"

/-- `hoxUtil::timeInfoToString`. -/
def timeInfoToString (timeInfo : TimeInfo) : Bytes :=
  intToString timeInfo.nGame ++ bytes "/" ++ intToString timeInfo.nMove ++ bytes "/" ++
    intToString timeInfo.nFree

/-- The number that a stream prints for a `hoxGameGroup`. -/
def gameGroupCode : GameGroup → Int
  | .pub => 0
  | .priv => 1

/-- The number that a stream prints for a `hoxGameType`. -/
def gameTypeCode : GameType → Int
  | .unknown => -1
  | .rated => 0
  | .nonrated => 1
  | .solo => 2

/-! ## Events -/

/-- `hoxResponse::create_event_LOGIN`. -/
def createEventLogin (playerId : Bytes) (nPlayerScore : Int) (sessionId : Bytes := []) : Draft :=
  { type := .login
    lines := [[playerId, intToString nPlayerScore] ++
      if sessionId ≠ [] then [sessionId] else []] }

/-- `hoxResponse::create_event_LOGOUT`. -/
def createEventLogout (playerId : Bytes) : Draft :=
  { type := .logout, lines := [[playerId]] }

/-- `hoxResponse::create_event_INVITE`. -/
def createEventInvite (sInviterId : Bytes) (nInviterScore : Int) (sInviteeId tableId : Bytes) :
    Draft :=
  { type := .invite, tid := tableId
    lines := [[sInviterId, intToString nInviterScore, sInviteeId]] }

/-- `hoxResponse::create_event_PLAYER_INFO`. -/
def createEventPlayerInfo (player : Player) (tableId : Bytes) : Draft :=
  { type := .playerInfo, tid := tableId
    lines := [[player.id, intToString player.score, intToString player.wins,
      intToString player.draws, intToString player.losses, []]] }

/-- `hoxResponse::create_event_I_PLAYERS` on what
`hoxSessionMgr::buildEvent_I_PLAYERS` prints of these players. -/
def createEventIPlayers (players : List (Bytes × Int)) : Draft :=
  { type := .iPlayers
    lines := if players = [] then [[[]]]
      else players.map fun player => [player.1, intToString player.2] }

/-- What is printed of a table before its observers. -/
def tableFields (table : TableInfo) : List Bytes :=
  let seat (player : Option (Bytes × Int)) : List Bytes :=
    [(player.map (·.1)).getD [], intToString ((player.map (·.2)).getD 0)]
  [table.id, intToString (gameGroupCode table.gameGroup),
    intToString (gameTypeCode table.gameType), timeInfoToString table.initialTime,
    timeInfoToString table.redTime, timeInfoToString table.blackTime] ++
    seat table.red ++ seat table.black

/-- `hoxResponse::create_event_I_TABLE`. -/
def createEventITable (table : TableInfo) : Draft :=
  { type := .iTable, lines := [tableFields table ++ table.observers ++ [[]]] }

/-- `hoxResponse::create_event_LIST`; observers are not printed. -/
def createEventList (tables : List TableInfo) : Draft :=
  { type := .list
    lines := if tables = [] then [[[]]] else tables.map fun table => tableFields table ++ [[]] }

/-- `hoxResponse::create_event_E_JOIN`. -/
def createEventEJoin (tid pid : Bytes) (score : Int) (color : Color) : Draft :=
  { type := .eJoin, lines := [[tid, pid, intToString score, colorToString color]] }

/-- `hoxResponse::create_event_LEAVE`. -/
def createEventLeave (tid pid : Bytes) : Draft :=
  { type := .leave, lines := [[tid, pid]] }

/-- `hoxResponse::create_event_MSG`. -/
def createEventMsg (pid message : Bytes) (tableId : Bytes := []) : Draft :=
  { type := .msg, tid := tableId, lines := [[pid, message]] }

/-- `hoxResponse::create_event_PING`. -/
def createEventPing : Draft :=
  { type := .ping, lines := [[bytes "PONG"]] }

/-- `hoxResponse::create_event_MOVE`. -/
def createEventMove (tid pid sMove : Bytes) (gameStatus : GameStatus) : Draft :=
  { type := .move, lines := [[tid, pid, sMove, gameStatusToString gameStatus]] }

/-- `hoxResponse::create_event_DRAW`. -/
def createEventDraw (code : Result) (tid pid : Bytes) : Draft :=
  { type := .draw, code := code, lines := [[tid, pid]] }

/-- `hoxResponse::create_event_END`. -/
def createEventEnd (tid : Bytes) (gameStatus : GameStatus) (sReason : Bytes) : Draft :=
  { type := .eEnd, lines := [[tid, gameStatusToString gameStatus, sReason]] }

/-- `hoxResponse::create_event_RESET`. -/
def createEventReset (tid : Bytes) : Draft :=
  { type := .reset, lines := [[tid]] }

/-- `hoxResponse::create_event_E_SCORE`. -/
def createEventEScore (tid pid : Bytes) (score : Int) : Draft :=
  { type := .eScore, lines := [[tid, pid, intToString score]] }

/-- The moves as `create_event_I_MOVES` prints them. -/
def movesToString (moves : List Bytes) : Bytes :=
  moves.foldl (fun sMoves move => (if sMoves ≠ [] then sMoves ++ bytes "/" else sMoves) ++ move) []

/-- `hoxResponse::create_event_I_MOVES`. -/
def createEventIMoves (tid : Bytes) (moves : List Bytes) : Draft :=
  { type := .iMoves, lines := [[tid, movesToString moves]] }

/-- `hoxResponse::create_event_UPDATE`. -/
def createEventUpdate (tid pid : Bytes) (newGameType : GameType) (newInitialTime : TimeInfo) :
    Draft :=
  { type := .update
    lines := [[tid, pid, if newGameType = .rated then bytes "1" else bytes "0",
      timeInfoToString newInitialTime]] }

/-- The event of a table as text. -/
def tableEvent : Event → Draft
  | .iTable info => createEventITable info
  | .iMoves tid moves => createEventIMoves tid moves
  | .eJoin tid pid score color => createEventEJoin tid pid score color
  | .leave tid pid => createEventLeave tid pid
  | .move tid pid sMove status => createEventMove tid pid sMove status
  | .draw code tid pid => createEventDraw code tid pid
  | .eEnd tid status sReason => createEventEnd tid status sReason
  | .reset tid => createEventReset tid
  | .eScore tid pid score => createEventEScore tid pid score
  | .update tid pid newGameType newInitialTime =>
    createEventUpdate tid pid newGameType newInitialTime

/-- `hoxResponse::create_event_POLL`. -/
def createEventPoll (responseList : List Response) : Response :=
  { type := .poll
    content := (responseList.dropLast.flatMap fun response => response.toString true) ++
      responseList.getLast?.toList.flatMap fun response => response.toString false }

/-! ## Errors -/

/-- The `hoxError`s and `hoxTableError`s, one for each text they are thrown
with. -/
inductive HoxError where
  | emptyIdOrPassword | idNotAvailable | failedToRegister | failedToGetInfo
  | authenticationFailed | wrongPassword | notYetAuthenticated | failedToCreateSession
  | unsupportedRequest | tableCannotBeCreated | tableNotFound | playerNotFound
  | inviteeNotFound | failedToJoinTable | moveNotOk | failedToWrite
  | failedToGetFile (sFile : Bytes)
  | resignFailed (tid : Bytes) | drawFailed (tid : Bytes) | resetFailed (tid : Bytes)
  | updateFailed (tid : Bytes)
  deriving DecidableEq

/-- `hoxError::code`. -/
def HoxError.code : HoxError → Result
  | .emptyIdOrPassword => .err
  | .idNotAvailable => .notFound
  | .failedToRegister => .err
  | .failedToGetInfo => .notFound
  | .authenticationFailed => .notFound
  | .wrongPassword => .notValid
  | .notYetAuthenticated => .notAllowed
  | .failedToCreateSession => .err
  | .unsupportedRequest => .notSupported
  | .tableCannotBeCreated => .notFound
  | .tableNotFound => .notFound
  | .playerNotFound => .notFound
  | .inviteeNotFound => .notFound
  | .failedToJoinTable => .err
  | .moveNotOk => .err
  | .failedToWrite => .err
  | .failedToGetFile _ => .notFound
  | .resignFailed _ => .notValid
  | .drawFailed _ => .notValid
  | .resetFailed _ => .notValid
  | .updateFailed _ => .notValid

/-- `what()`. -/
def HoxError.what : HoxError → Bytes
  | .emptyIdOrPassword => bytes "Player-ID or Password is empty"
  | .idNotAvailable => bytes "Player-ID not available"
  | .failedToRegister => bytes "Failed to register new player into DB"
  | .failedToGetInfo => bytes "Failed to get player's info"
  | .authenticationFailed => bytes "Authentication failed"
  | .wrongPassword => bytes "Wrong password"
  | .notYetAuthenticated => bytes "Not yet authenticated"
  | .failedToCreateSession => bytes "Failed to create a Session"
  | .unsupportedRequest => bytes "Unsupported Request"
  | .tableCannotBeCreated => bytes "Table cannot be created"
  | .tableNotFound => bytes "Table not found"
  | .playerNotFound => bytes "Player not found"
  | .inviteeNotFound => bytes "Invitee not found"
  | .failedToJoinTable => bytes "Failed to join table"
  | .moveNotOk => bytes "Move not OK"
  | .failedToWrite => bytes "Failed to write outgoing response"
  | .failedToGetFile sFile => bytes "Failed to get HTTP file: " ++ sFile
  | .resignFailed _ => bytes "Table failed to handle RESIGN"
  | .drawFailed _ => bytes "Table failed to handle DRAW"
  | .resetFailed _ => bytes "Table failed to handle RESET"
  | .updateFailed _ => bytes "Table failed to handle UPDATE"

/-- `hoxTableError::tid`, and nothing for the other errors. -/
def HoxError.tid : HoxError → Bytes
  | .resignFailed tid => tid
  | .drawFailed tid => tid
  | .resetFailed tid => tid
  | .updateFailed tid => tid
  | _ => []

/-- The response that an error is answered with. -/
def errorResponse (requestType : RequestType) (error : HoxError) : Draft :=
  { type := requestType, code := error.code, tid := error.tid, lines := [[error.what]] }

/-- An error that a client gets an answer for: not that the answer cannot be
written, nor that a file cannot be loaded. -/
def HoxError.Answered : HoxError → Prop
  | .failedToWrite => False
  | .failedToGetFile _ => False
  | _ => True

/-- What the server serializes for a persistent client: the events, and the
responses to errors. -/
inductive Sent : Draft → Prop
  | login (playerId : Bytes) (nPlayerScore : Int) (sessionId : Bytes) :
      Sent (createEventLogin playerId nPlayerScore sessionId)
  | logout (playerId : Bytes) : Sent (createEventLogout playerId)
  | invite (sInviterId : Bytes) (nInviterScore : Int) (sInviteeId tableId : Bytes) :
      Sent (createEventInvite sInviterId nInviterScore sInviteeId tableId)
  | playerInfo (player : Player) (tableId : Bytes) : Sent (createEventPlayerInfo player tableId)
  | iPlayers (players : List (Bytes × Int)) : Sent (createEventIPlayers players)
  | list (tables : List TableInfo) : Sent (createEventList tables)
  | msg (pid message tableId : Bytes) : Sent (createEventMsg pid message tableId)
  | ping : Sent createEventPing
  | table (event : Event) : Sent (tableEvent event)
  | error (requestType : RequestType) (error : HoxError) (h : error.Answered) :
      Sent (errorResponse requestType error)

/-! ## The reader of the client -/

/-- `HOX_ERR_SOCKET_CLOSED` and `HOX_ERR_SOCKET_LIMIT`. -/
inductive SocketError where
  | closed | limit
  deriving DecidableEq

/-- `nMax` of `read_until_all`. -/
def readUntilAllMax : Nat := 10240

/-- The loop of `read_until_all`, which has read `sOutput`, the end of it
being the first `currentSeen` bytes of what is wanted: the output and what
is left to read. -/
def readUntilAllFrom (sWanted : Bytes) (sOutput : Bytes) (currentSeen : Nat) (input : Bytes) :
    Except SocketError (Bytes × Bytes) :=
  if sWanted.length ≤ currentSeen then
    .ok (sOutput.take (sOutput.length - sWanted.length), input)
  else
    match input with
    | [] => .error .closed
    | c :: input =>
      if sWanted[currentSeen]? = some c then
        readUntilAllFrom sWanted (sOutput ++ [c]) (currentSeen + 1) input
      else if readUntilAllMax ≤ (sOutput ++ [c]).length then .error .limit
      else readUntilAllFrom sWanted (sOutput ++ [c]) 0 input
  termination_by structural input

/-- `hoxSocketAPI::read_until_all`, as the client calls it. -/
def readUntilAll (input : Bytes) : Except SocketError (Bytes × Bytes) :=
  readUntilAllFrom (bytes "\n\n") [] 0 input

/-- So many calls of the reader: what they return, and what is left. -/
def readMessages : Nat → Bytes → Except SocketError (List Bytes × Bytes)
  | 0, input => .ok ([], input)
  | n + 1, input => do
    let (message, input) ← readUntilAll input
    let (messages, input) ← readMessages n input
    return (message :: messages, input)

end HoxServer.Net
