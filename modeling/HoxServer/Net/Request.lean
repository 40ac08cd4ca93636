/-
HoxServer.Net.Request — the requests of the server and of the database
agent: the request types of both (`hoxEnums.h`), their names
(`hoxUtil.cpp`), and the requests that the server sends to the agent
(`hoxDbClient.cpp`).

The server writes a parameter as it is, and the agent reads `&`, quotes,
escapes and ends of lines in it. `agent_reads_iff` says for every request
when it arrives as it was sent; for the requests that the server builds,
whose names are constants, this is up to their values (`built_reads_iff`).
-/
import HoxServer.Net.Message
import HoxServer.Player

namespace HoxServer.Net

open Lib

/-! ## The server -/

/-- `hoxRequestType`. -/
inductive RequestType where
  | unknown | hello | register | login | logout | shutdown | poll | move | list
  | new | join | leave | update | resign | draw | reset | eJoin | eEnd | eScore
  | iPlayers | iTable | iMoves | invite | playerInfo | playerStatus | msg
  | ping | dbPlayerPut | dbPlayerGet | dbPlayerSet | dbPasswordSet | httpGet
  | httpPost | log
  deriving DecidableEq, Repr

/-- `hoxUtil::requestTypeToString`. -/
def requestTypeToString : RequestType → Bytes
  | .unknown => bytes "UNKNOWN"
  | .hello => bytes "HELLO"
  | .register => bytes "REGISTER"
  | .login => bytes "LOGIN"
  | .logout => bytes "LOGOUT"
  | .shutdown => bytes "SHUTDOWN"
  | .poll => bytes "POLL"
  | .move => bytes "MOVE"
  | .list => bytes "LIST"
  | .new => bytes "NEW"
  | .join => bytes "JOIN"
  | .leave => bytes "LEAVE"
  | .update => bytes "UPDATE"
  | .resign => bytes "RESIGN"
  | .draw => bytes "DRAW"
  | .reset => bytes "RESET"
  | .eJoin => bytes "E_JOIN"
  | .eEnd => bytes "E_END"
  | .eScore => bytes "E_SCORE"
  | .iPlayers => bytes "I_PLAYERS"
  | .iTable => bytes "I_TABLE"
  | .iMoves => bytes "I_MOVES"
  | .invite => bytes "INVITE"
  | .playerInfo => bytes "PLAYER_INFO"
  | .playerStatus => bytes "PLAYER_STATUS"
  | .msg => bytes "MSG"
  | .ping => bytes "PING"
  | .dbPlayerPut => bytes "DB_PLAYER_PUT"
  | .dbPlayerGet => bytes "DB_PLAYER_GET"
  | .dbPlayerSet => bytes "DB_PLAYER_SET"
  | .dbPasswordSet => bytes "DB_PASSWORD_SET"
  | .httpGet => bytes "HTTP_GET"
  | .httpPost => bytes "HTTP_POST"
  | .log => bytes "LOG"

/-- `hoxUtil::stringToRequestType`. -/
def stringToRequestType (input : Bytes) : RequestType :=
  if input = bytes "UNKNOWN" then .unknown
  else if input = bytes "HELLO" then .hello
  else if input = bytes "REGISTER" then .register
  else if input = bytes "LOGIN" then .login
  else if input = bytes "LOGOUT" then .logout
  else if input = bytes "SHUTDOWN" then .shutdown
  else if input = bytes "POLL" then .poll
  else if input = bytes "MOVE" then .move
  else if input = bytes "LIST" then .list
  else if input = bytes "NEW" then .new
  else if input = bytes "JOIN" then .join
  else if input = bytes "LEAVE" then .leave
  else if input = bytes "UPDATE" then .update
  else if input = bytes "RESIGN" then .resign
  else if input = bytes "DRAW" then .draw
  else if input = bytes "RESET" then .reset
  else if input = bytes "E_JOIN" then .eJoin
  else if input = bytes "E_END" then .eEnd
  else if input = bytes "E_SCORE" then .eScore
  else if input = bytes "I_PLAYERS" then .iPlayers
  else if input = bytes "I_TABLE" then .iTable
  else if input = bytes "I_MOVES" then .iMoves
  else if input = bytes "INVITE" then .invite
  else if input = bytes "PLAYER_INFO" then .playerInfo
  else if input = bytes "PLAYER_STATUS" then .playerStatus
  else if input = bytes "MSG" then .msg
  else if input = bytes "PING" then .ping
  else if input = bytes "DB_PLAYER_PUT" then .dbPlayerPut
  else if input = bytes "DB_PLAYER_GET" then .dbPlayerGet
  else if input = bytes "DB_PLAYER_SET" then .dbPlayerSet
  else if input = bytes "DB_PASSWORD_SET" then .dbPasswordSet
  else if input = bytes "HTTP_GET" then .httpGet
  else if input = bytes "HTTP_POST" then .httpPost
  else if input = bytes "LOG" then .log
  else .unknown

/-- `hoxUtil::parse_network_message`. -/
def Request.parse : Bytes → Except EscapedListError (Request RequestType) :=
  parseNetworkMessage .unknown stringToRequestType

/-- `hoxRequest::hoxRequest`, without parameters. -/
def Request.ofType (type : RequestType) : Request RequestType := ⟨type, SortedMap.empty⟩

/-! ## The agent -/

/-- `hoxRequestType` of the agent. -/
inductive Agent.RequestType where
  | unknown | hello | dbPlayerPut | dbPlayerGet | dbPlayerSet | dbProfileSet
  | dbPasswordSet | httpGet | log
  deriving DecidableEq, Repr

/-- `hoxUtil::stringToRequestType` of the agent. -/
def Agent.stringToRequestType (input : Bytes) : Agent.RequestType :=
  if input = bytes "UNKNOWN" then .unknown
  else if input = bytes "HELLO" then .hello
  else if input = bytes "DB_PLAYER_PUT" then .dbPlayerPut
  else if input = bytes "DB_PLAYER_GET" then .dbPlayerGet
  else if input = bytes "DB_PLAYER_SET" then .dbPlayerSet
  else if input = bytes "DB_PROFILE_SET" then .dbProfileSet
  else if input = bytes "DB_PASSWORD_SET" then .dbPasswordSet
  else if input = bytes "HTTP_GET" then .httpGet
  else if input = bytes "LOG" then .log
  else .unknown

/-- `hoxRequest::hoxRequest` of the agent. -/
def Agent.parse : Bytes → Except EscapedListError (Request Agent.RequestType) :=
  parseNetworkMessage .unknown Agent.stringToRequestType

/-- The agent's request type of the same name, where it has one. -/
def RequestType.agent : RequestType → Option Agent.RequestType
  | .unknown => some .unknown
  | .hello => some .hello
  | .dbPlayerPut => some .dbPlayerPut
  | .dbPlayerGet => some .dbPlayerGet
  | .dbPlayerSet => some .dbPlayerSet
  | .dbPasswordSet => some .dbPasswordSet
  | .httpGet => some .httpGet
  | .log => some .log
  | _ => none

/-! ## The requests that the server builds -/

/-- What `_send_request_over_socket` writes, up to the data that follows. -/
def Request.line (request : Request RequestType) : Bytes :=
  request.toString requestTypeToString ++ bytes "\n"

/-- `hoxDbClient::send_HELLO`. -/
def sendHello : Request RequestType := Request.ofType .hello

/-- `hoxDbClient::put_player_info`. -/
def putPlayerInfo (sPlayerId hpassword : Bytes) (score : Int) (sEmail : Bytes) :
    Request RequestType :=
  ((((Request.ofType .dbPlayerPut).setParam (bytes "pid") sPlayerId).setParam
    (bytes "password") hpassword).setParam
    (bytes "score") (intToString score)).setParam
    (bytes "email") sEmail

/-- `hoxDbClient::get_player_info`. -/
def getPlayerInfo (sPlayerId : Bytes) : Request RequestType :=
  (Request.ofType .dbPlayerGet).setParam (bytes "pid") sPlayerId

/-- `hoxDbClient::set_player_info`. -/
def setPlayerInfo (sPlayerId : Bytes) (score : Int) (sGameResult : Bytes) : Request RequestType :=
  (((Request.ofType .dbPlayerSet).setParam (bytes "pid") sPlayerId).setParam
    (bytes "score") (intToString score)).setParam
    (bytes "result") sGameResult

/-- `hoxDbClient::set_player_password`. -/
def setPlayerPassword (sPlayerId hpassword : Bytes) : Request RequestType :=
  ((Request.ofType .dbPasswordSet).setParam (bytes "pid") sPlayerId).setParam
    (bytes "password") hpassword

/-- `hoxDbClient::get_http_file`. -/
def getHttpFile (sPath : Bytes) : Request RequestType :=
  (Request.ofType .httpGet).setParam (bytes "path") sPath

/-- `hoxDbClient::log_msg`; the message follows the request. -/
def logMsg (sMsg : Bytes) : Request RequestType :=
  (Request.ofType .log).setParam (bytes "size") (intToString (toInt32 sMsg.length))

/-- The requests that the server builds for the agent. -/
inductive Built : Request RequestType → Prop
  | sendHello : Built sendHello
  | putPlayerInfo (sPlayerId hpassword : Bytes) (score : Int) (sEmail : Bytes) :
      Built (putPlayerInfo sPlayerId hpassword score sEmail)
  | getPlayerInfo (sPlayerId : Bytes) : Built (getPlayerInfo sPlayerId)
  | setPlayerInfo (sPlayerId : Bytes) (score : Int) (sGameResult : Bytes) :
      Built (setPlayerInfo sPlayerId score sGameResult)
  | setPlayerPassword (sPlayerId hpassword : Bytes) :
      Built (setPlayerPassword sPlayerId hpassword)
  | getHttpFile (sPath : Bytes) : Built (getHttpFile sPath)
  | logMsg (sMsg : Bytes) : Built (logMsg sMsg)

/-! ## Names -/

theorem isPlain_requestTypeToString (type : RequestType) :
    separator.Plain (requestTypeToString type) := by
  cases type <;> decide

theorem not_mem_requestTypeToString (type : RequestType) : 10 ∉ requestTypeToString type := by
  cases type <;> decide

theorem agent_stringToRequestType {type : RequestType} {type' : Agent.RequestType}
    (h : type.agent = some type') :
    Agent.stringToRequestType (requestTypeToString type) = type' := by
  cases type <;> cases h <;> decide

/-- A byte that the agent reads as it is. -/
def plainByte (c : UInt8) : Bool := c ≠ 10 ∧ separator.IsPlain c

/-- A value that the agent reads as it is. -/
def PlainValue (value : Bytes) : Prop := value.all plainByte

instance (value : Bytes) : Decidable (PlainValue value) := inferInstanceAs (Decidable (_ = true))

/-- A name that the agent reads as it is. -/
def PlainName (name : Bytes) : Prop :=
  name ≠ bytes "op" ∧ name.all (fun c => c ≠ 61) ∧ PlainValue name

instance (name : Bytes) : Decidable (PlainName name) := inferInstanceAs (Decidable (_ ∧ _))

theorem plainValue_iff {value : Bytes} :
    PlainValue value ↔ 10 ∉ value ∧ separator.Plain value := by
  simp only [PlainValue, List.all_eq_true, plainByte, decide_eq_true_eq, Separator.Plain,
    forall_and]
  exact and_congr_left fun _ => ⟨fun h hmem => h 10 hmem rfl, fun h c hc he => h (he ▸ hc)⟩

theorem plainName_iff {name : Bytes} :
    PlainName name ↔ name ≠ bytes "op" ∧ 61 ∉ name ∧ PlainValue name := by
  simp only [PlainName, List.all_eq_true, decide_eq_true_eq]
  refine and_congr_right fun _ => and_congr_left fun _ => ?_
  exact ⟨fun h hmem => h 61 hmem rfl, fun h c hc he => h (he ▸ hc)⟩

def Request.PlainNames (request : Request RequestType) : Prop :=
  ∀ parameter ∈ request.parameters.entries, PlainName parameter.1

variable {request : Request RequestType}

theorem Request.plainNames_ofType (type : RequestType) : (Request.ofType type).PlainNames :=
  fun _ h => (List.not_mem_nil h).elim

theorem Request.PlainNames.setParam (h : request.PlainNames) {key value : Bytes}
    (hkey : PlainName key) : (request.setParam key value).PlainNames := by
  intro parameter hmem
  rcases SortedMap.mem_insert hmem with rfl | hmem
  · exact hkey
  · exact h parameter hmem

/-- The names of what the server builds are constants. -/
theorem Built.plainNames (h : Built request) : request.PlainNames := by
  cases h with
  | sendHello => exact Request.plainNames_ofType _
  | putPlayerInfo =>
    exact ((((Request.plainNames_ofType _).setParam (by decide)).setParam (by decide)).setParam
      (by decide)).setParam (by decide)
  | getPlayerInfo => exact (Request.plainNames_ofType _).setParam (by decide)
  | setPlayerInfo =>
    exact (((Request.plainNames_ofType _).setParam (by decide)).setParam (by decide)).setParam
      (by decide)
  | setPlayerPassword =>
    exact ((Request.plainNames_ofType _).setParam (by decide)).setParam (by decide)
  | getHttpFile => exact (Request.plainNames_ofType _).setParam (by decide)
  | logMsg => exact (Request.plainNames_ofType _).setParam (by decide)

/-! ## What the agent reads -/

/-- The agent reads the request as one line, and nothing else. -/
def Request.Arrives (request : Request RequestType) : Prop :=
  ∃ line type, readLine request.line = (.ok, line, []) ∧ request.type.agent = some type ∧
    Agent.parse line = .ok ⟨type, request.parameters⟩

theorem not_mem_toString : 10 ∉ request.toString requestTypeToString ↔
    ∀ parameter ∈ request.parameters.entries, 10 ∉ parameter.1 ∧ 10 ∉ parameter.2 := by
  have hop : (10 : UInt8) ∉ bytes "op=" := by decide
  have hand : (10 : UInt8) ∉ bytes "&" := by decide
  simp [Request.toString, hop, hand, not_mem_requestTypeToString]

/-- The length of a request as text: the type, and for each parameter its
name, its value, an `&` and a `=`. -/
def Request.textLength (request : Request RequestType) : Nat :=
  (requestTypeToString request.type).length + 3 +
    (request.parameters.entries.map fun e => e.1.length + e.2.length + 2).sum

theorem length_toString :
    (request.toString requestTypeToString).length = request.textLength := by
  have hop : (bytes "op=").length = 3 := by decide
  have hand : (bytes "&").length = 1 := by decide
  have hpair : ∀ e : Bytes × Bytes, 1 + (e.1.length + (e.2.length + 1)) =
      e.1.length + e.2.length + 2 := fun e => by omega
  simp [Request.toString, Request.textLength, hop, hand, hpair, List.length_flatMap]
  omega

/-- **When a request arrives**: its names and values are plain, and its text
is shorter than a line may be. -/
theorem arrives_iff (htype : request.type.agent.isSome) : request.Arrives ↔
    (∀ parameter ∈ request.parameters.entries,
      PlainName parameter.1 ∧ PlainValue parameter.2) ∧
    request.textLength < networkMaxMsgSize := by
  rw [← length_toString]
  obtain ⟨type, htype⟩ := Option.isSome_iff_exists.mp htype
  have hparse : Agent.parse (request.toString requestTypeToString) =
      .ok ⟨type, request.parameters⟩ ↔ ∀ e ∈ request.parameters.entries, PlainParameter e :=
    parse_toString (isPlain_requestTypeToString request.type) (agent_stringToRequestType htype)
  have hline : request.line = request.toString requestTypeToString ++ [10] := rfl
  constructor
  · intro ⟨line, type', hread, htype', hagent⟩
    obtain rfl : type = type' := Option.some.inj (htype.symm.trans htype')
    rw [hline, readLine_append] at hread
    obtain ⟨rfl, hend, hlt⟩ := hread
    rw [not_mem_toString] at hend
    refine ⟨fun parameter hmem => ?_, hlt⟩
    obtain ⟨hop, heq, hname, hvalue⟩ := hparse.mp hagent parameter hmem
    obtain ⟨hname', hvalue'⟩ := hend parameter hmem
    exact ⟨plainName_iff.mpr ⟨hop, heq, plainValue_iff.mpr ⟨hname', hname⟩⟩,
      plainValue_iff.mpr ⟨hvalue', hvalue⟩⟩
  · intro ⟨hplain, hlt⟩
    have hread : ∀ parameter ∈ request.parameters.entries,
        (10 ∉ parameter.1 ∧ 10 ∉ parameter.2) ∧ PlainParameter parameter := by
      intro parameter hmem
      obtain ⟨hname, hvalue⟩ := hplain parameter hmem
      obtain ⟨hop, heq, hname⟩ := plainName_iff.mp hname
      obtain ⟨hname', hname⟩ := plainValue_iff.mp hname
      obtain ⟨hvalue', hvalue⟩ := plainValue_iff.mp hvalue
      exact ⟨⟨hname', hvalue'⟩, hop, heq, hname, hvalue⟩
    refine ⟨request.toString requestTypeToString, type, ?_, htype, ?_⟩
    · rw [hline, readLine_append]
      exact ⟨rfl, not_mem_toString.mpr fun e he => (hread e he).1, hlt⟩
    · exact hparse.mpr fun e he => (hread e he).2

/-- **The requests to the agent**, for every request that the server
builds. -/
theorem built_arrives_iff (h : Built request) : request.Arrives ↔
    (∀ parameter ∈ request.parameters.entries, PlainValue parameter.2) ∧
    request.textLength < networkMaxMsgSize := by
  have htype : request.type.agent.isSome := by cases h <;> rfl
  rw [arrives_iff htype]
  exact and_congr_left fun _ => forall₂_congr fun parameter hmem =>
    and_iff_right (h.plainNames parameter hmem)

theorem built_arrives_iff_login : (getPlayerInfo (bytes "red")).Arrives :=
  (built_arrives_iff (.getPlayerInfo (bytes "red"))).mpr (by decide +kernel)

/-- A LOGIN request that sets the password of another player. -/
def loginSettingPassword : Bytes :=
  bytes "op=LOGIN&pid=a\\nop=DB_PASSWORD_SET\\&password=p\\&pid=joe"

/-- Its player id, once the escapes are read. -/
def settingPassword : Bytes := bytes "a\nop=DB_PASSWORD_SET&password=p&pid=joe"

/-- The player id ends the line of the request to the agent, and what is left
is a second request. -/
theorem password_set_by_login :
    (Request.parse loginSettingPassword).map (fun request => request.getParam (bytes "pid")) =
      .ok settingPassword ∧
    readLine (getPlayerInfo settingPassword).line =
      (.ok, bytes "op=DB_PLAYER_GET&pid=a", (setPlayerPassword (bytes "joe") (bytes "p")).line) ∧
    ¬ (getPlayerInfo settingPassword).Arrives := by
  have hread : readLine (getPlayerInfo settingPassword).line = (.ok,
      bytes "op=DB_PLAYER_GET&pid=a", (setPlayerPassword (bytes "joe") (bytes "p")).line) := by
    decide +kernel
  refine ⟨by decide +kernel, hread, ?_⟩
  intro ⟨line, type, hline, _⟩
  rw [hread] at hline
  cases hline

end HoxServer.Net
