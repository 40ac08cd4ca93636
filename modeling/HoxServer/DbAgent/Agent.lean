/-
HoxServer.DbAgent.Agent — the agent's end of a connection
(`dbagent/main.cpp`): the loop of `handle_client_thread` with the request
handlers, and `hoxDBAPI.cpp` over the database.

The loop is a transducer: it reads byte by byte, and answers when it has
read a line, or the data that follows the line of a LOG request. What ends
the loop closes the connection, and so does an exception of the tokenizer,
which nothing catches.

SQLite and the files of the host are a parameter; the statements are those
of `DbAgent.Sql`.
-/
import HoxServer.DbAgent.AttachedData
import HoxServer.DbAgent.PlayerRecord
import HoxServer.DbAgent.Sql
import HoxServer.Lib.SharedChannel

namespace HoxServer.DbAgent

open Lib HoxServer.Net

/-! ## Errors -/

/-- `hoxResult` of the agent, which has no `hoxRC_EINTR`. -/
inductive AgentResult where
  | unknown | ok | err | timeout | handled | closed | notValid | notFound
  | notAllowed | notSupported
  deriving DecidableEq, Repr

def AgentResult.code : AgentResult → Int
  | .unknown => -1
  | .ok => 0
  | .err => 1
  | .timeout => 2
  | .handled => 3
  | .closed => 4
  | .notValid => 5
  | .notFound => 6
  | .notAllowed => 7
  | .notSupported => 8

/-- `hoxError`. -/
structure AgentError where
  code : AgentResult
  what : Bytes

/-- What `hoxResponse::toString` prints before the two newlines, for a
response with this code and content. -/
def responseText (type : Agent.RequestType) (code : AgentResult) (content : Bytes) : Bytes :=
  bytes "op=" ++ requestTypeToString type ++ bytes "&code=" ++ intToString code.code ++
    bytes "&content=" ++ content

/-! ## The database -/

/-- Where the agent keeps its data. -/
structure Storage (δ : Type) where
  /-- `sqlite3_open`, `sqlite3_exec` and `sqlite3_close`: the rows, each a
  list of columns with their values, unless one of them fails. -/
  exec : δ → Bytes → δ × Option (List (List (Bytes × Bytes)))
  /-- `hoxUtil::readFile`. -/
  readFile : δ → Bytes → Option Bytes

/-- `hoxDBAPI::Player_t`. -/
structure Player where
  id : Bytes := []
  hpw : Bytes := []
  score : Int := -1
  wins : Int := 0
  draws : Int := 0
  losses : Int := 0
  email : Bytes := []
  deriving DecidableEq

/-- `_callback_GET`, for one row. -/
def callbackGet (player : Player) (row : List (Bytes × Bytes)) : Player :=
  row.foldl (fun player (sColumn, value) =>
    if sColumn = bytes "score" then { player with score := atoi value }
    else if sColumn = bytes "wins" then { player with wins := atoi value }
    else if sColumn = bytes "draws" then { player with draws := atoi value }
    else if sColumn = bytes "losses" then { player with losses := atoi value }
    else if sColumn = bytes "hpassword" then { player with hpw := value }
    else if sColumn = bytes "email" then { player with email := value }
    else player) player

/-- What `handle_DB_PLAYER_GET` prints of a player. -/
def Player.text (player : Player) : Bytes :=
  player.id ++ bytes ";" ++ intToString player.score ++ bytes ";" ++
    intToString player.wins ++ bytes ";" ++ intToString player.draws ++ bytes ";" ++
    intToString player.losses ++ bytes ";" ++ player.hpw ++ bytes ";" ++ player.email

variable {δ : Type} (S : Storage δ)

/-! ## The handlers -/

/-- What a handler returns: the content of the response before its two
newlines, or the error that it throws. -/
structure Handled (δ : Type) where
  db : δ
  result : Except AgentError Bytes

/-- A statement that changes the database. -/
def update (db : δ) (sSQL what : Bytes) : Handled δ :=
  match S.exec db sSQL with
  | (db, some _) => ⟨db, .ok []⟩
  | (db, none) => ⟨db, .error ⟨.err, what⟩⟩

def handlePlayerPut (db : δ) (request : Request Agent.RequestType) : Handled δ :=
  update S db (putPlayerInfo { id := request.getParam (bytes "pid")
                               hpw := request.getParam (bytes "password")
                               score := atoi (request.getParam (bytes "score")) }
    (request.getParam (bytes "email"))) (bytes "Failed to put NEW player-info")

/-- `hoxDBAPI::get_player_info`. -/
def findPlayer (db : δ) (pid : Bytes) : δ × Option Player :=
  match S.exec db (getPlayerInfo pid) with
  | (db, some rows) => (db, some (rows.foldl callbackGet { id := pid }))
  | (db, none) => (db, none)

def handlePlayerGet (db : δ) (request : Request Agent.RequestType) : Handled δ :=
  match findPlayer S db (request.getParam (bytes "pid")) with
  | (db, none) => ⟨db, .error ⟨.err, bytes "Failed to get player-info"⟩⟩
  | (db, some playerInfo) =>
    if playerInfo.score = -1 then ⟨db, .error ⟨.notFound, bytes "Player not found"⟩⟩
    else ⟨db, .ok playerInfo.text⟩

def handlePlayerSet (db : δ) (request : Request Agent.RequestType) : Handled δ :=
  update S db (setPlayerInfo { id := request.getParam (bytes "pid")
                               score := atoi (request.getParam (bytes "score")) }
    (request.getParam (bytes "result"))) (bytes "Failed to set player-info")

def handleProfileSet (db : δ) (request : Request Agent.RequestType) : Handled δ :=
  update S db (setProfileInfo (request.getParam (bytes "pid")) (request.getParam (bytes "email"))
    (request.getParam (bytes "password"))) (bytes "Failed to set new profile")

def handlePasswordSet (db : δ) (request : Request Agent.RequestType) : Handled δ :=
  update S db (setPlayerPassword { id := request.getParam (bytes "pid")
                                   hpw := request.getParam (bytes "password") })
    (bytes "Failed to set new player-password")

/-- The file that `handle_HTTP_GET` sends. -/
def fileContent (db : δ) (sPath : Bytes) : Bytes :=
  (S.readFile db sPath).getD (bytes "File not found: " ++ sPath)

/-- The code and the content of the response. -/
def Handled.outcome (handled : Handled δ) : AgentResult × Bytes :=
  match handled.result with
  | .ok content => (.ok, content)
  | .error error => (error.code, error.what)

/-- What is written to the connection, the two newlines included. -/
def Handled.text (type : Agent.RequestType) (handled : Handled δ) : δ × Bytes :=
  (handled.db, responseText type handled.outcome.1 handled.outcome.2 ++ bytes "\n\n")

/-- `handle_request`, but for LOG requests, and `write_response`. -/
def handleRequest (db : δ) (request : Request Agent.RequestType) : δ × Bytes :=
  match request.type with
  | .hello => Handled.text .hello ⟨db, .ok (bytes "I_got_it")⟩
  | .dbPlayerPut => Handled.text .dbPlayerPut (handlePlayerPut S db request)
  | .dbPlayerGet => Handled.text .dbPlayerGet (handlePlayerGet S db request)
  | .dbPlayerSet => Handled.text .dbPlayerSet (handlePlayerSet S db request)
  | .dbProfileSet => Handled.text .dbProfileSet (handleProfileSet S db request)
  | .dbPasswordSet => Handled.text .dbPasswordSet (handlePasswordSet S db request)
  | .httpGet =>
    (db, (handleHttpGet (fileContent S db (request.getParam (bytes "path")))).toString)
  | .log | .unknown =>
    Handled.text request.type ⟨db, .error ⟨.notSupported, bytes "Unsupported Request"⟩⟩

/-! ## The loop -/

/-- Where the thread of a connection is. -/
inductive AgentMode where
  /-- In `read_line`, which has read this. -/
  | line (outLine : Bytes)
  /-- In `read_nbytes` of `handle_LOG`. -/
  | data (nSize : Int) (sMsg : Bytes)
  | closed
  deriving DecidableEq

/-- The thread, with the database and the file that messages are logged to. -/
structure Agent (δ : Type) where
  mode : AgentMode := .line []
  db : δ
  serverLog : Bytes := []

namespace Agent

def close (agent : Agent δ) : Agent δ := { agent with mode := .closed }

/-- `handle_LOG`, once the message has been read. -/
def handleLog (agent : Agent δ) (nSize : Int) (sMsg : Bytes) : Agent δ × Bytes :=
  ({ agent with mode := .line [], serverLog := agent.serverLog ++ sMsg },
    responseText .log .ok (bytes "OK: " ++ intToString nSize) ++ bytes "\n\n")

/-- The loop from the end of a line on: what `read_request` makes of the line,
and `handle_request`. -/
def handleLine (agent : Agent δ) (requestStr : Bytes) : Agent δ × Bytes :=
  if requestStr = [] then (agent.close, [])
  else
    match Net.Agent.parse requestStr with
    | .error _ => (agent.close, [])
    | .ok request =>
      if request.type = .unknown then (agent.close, [])
      else if request.type = .log then
        let nSize := atoi (request.getParam (bytes "size"))
        if toSizeT nSize = 0 then agent.handleLog nSize []
        else ({ agent with mode := .data nSize [] }, [])
      else
        let (db, text) := handleRequest S agent.db request
        ({ agent with mode := .line [], db }, text)

/-- The thread reads a byte. -/
def read (agent : Agent δ) (c : UInt8) : Agent δ × Bytes :=
  match agent.mode with
  | .line outLine =>
    if c = 10 then agent.handleLine S outLine
    else if networkMaxMsgSize ≤ (outLine ++ [c]).length then (agent.close, [])
    else ({ agent with mode := .line (outLine ++ [c]) }, [])
  | .data nSize sMsg =>
    if (sMsg ++ [c]).length < toSizeT nSize then
      ({ agent with mode := .data nSize (sMsg ++ [c]) }, [])
    else agent.handleLog nSize (sMsg ++ [c])
  | .closed => (agent, [])

end Agent

/-- `handle_client_thread`. -/
def handleClientThread : Answerer (Agent δ) UInt8 UInt8 where
  read agent c := agent.read S c
  closed agent := agent.mode = .closed
  close agent := agent.close
  closed_close _ := by simp [Agent.close]
  close_of_closed agent h := by
    have hmode : agent.mode = .closed := by simpa using h
    simp [Agent.close, ← hmode]

variable {S} {agent : Agent δ} {outLine text data sMsg : Bytes} {nSize : Int}

@[simp] theorem closed_iff : (handleClientThread S).closed agent = true ↔ agent.mode = .closed := by
  simp [handleClientThread]

theorem closed_eq_false (h : agent.mode ≠ .closed) :
    (handleClientThread S).closed agent = false := by
  simp [handleClientThread, h]

/-- A line is read without an answer. -/
theorem run_line (hmode : agent.mode = .line outLine) (hclean : 10 ∉ text)
    (hlt : (outLine ++ text).length < networkMaxMsgSize) : (handleClientThread S).run agent text =
      ({ agent with mode := .line (outLine ++ text) }, []) := by
  induction text generalizing agent outLine with
  | nil => simp [← hmode]
  | cons c text ih =>
    obtain ⟨hc, hclean⟩ := not_or.mp (mt List.mem_cons.mpr hclean)
    have happend : outLine ++ [c] ++ text = outLine ++ c :: text := by simp
    have hshort : ¬ networkMaxMsgSize ≤ (outLine ++ [c]).length := by
      rw [← happend, List.length_append] at hlt
      omega
    have hread : (handleClientThread S).read agent c =
        ({ agent with mode := .line (outLine ++ [c]) }, []) := by
      simp only [handleClientThread, Agent.read, hmode]
      rw [if_neg (Ne.symm hc), if_neg hshort]
    rw [Answerer.run_cons (closed_eq_false (by simp [hmode])), hread,
      ih rfl hclean (by rwa [happend]), happend]
    rfl

/-- Data is read without an answer, while there is more. -/
theorem run_data (hmode : agent.mode = .data nSize sMsg)
    (hlt : (sMsg ++ data).length < toSizeT nSize) : (handleClientThread S).run agent data =
      ({ agent with mode := .data nSize (sMsg ++ data) }, []) := by
  induction data generalizing agent sMsg with
  | nil => simp [← hmode]
  | cons c data ih =>
    have happend : sMsg ++ [c] ++ data = sMsg ++ c :: data := by simp
    have hmore : (sMsg ++ [c]).length < toSizeT nSize := by
      rw [← happend, List.length_append] at hlt
      omega
    have hread : (handleClientThread S).read agent c =
        ({ agent with mode := .data nSize (sMsg ++ [c]) }, []) := by
      simp only [handleClientThread, Agent.read, hmode]
      rw [if_pos hmore]
    rw [Answerer.run_cons (closed_eq_false (by simp [hmode])), hread, ih rfl (by rwa [happend]),
      happend]
    rfl

/-- The end of a line. -/
theorem read_newline (hmode : agent.mode = .line outLine) :
    (handleClientThread S).read agent 10 = agent.handleLine S outLine := by
  simp [handleClientThread, Agent.read, hmode]

/-- A line, read by a thread that waits for a request. -/
theorem run_request (hmode : agent.mode = .line []) (hclean : 10 ∉ text)
    (hlt : text.length < networkMaxMsgSize) : (handleClientThread S).run agent (text ++ [10]) =
      ({ agent with mode := .line text }.handleLine S text) := by
  have hline : (handleClientThread S).run agent text = ({ agent with mode := .line text }, []) :=
    run_line hmode hclean hlt
  rw [Answerer.run_concat (by rw [hline]; exact closed_eq_false (by simp)), hline,
    read_newline rfl]
  simp

/-! ## The text of a response -/

/-- Before the content there is no newline. -/
theorem responseText_clean {type : Agent.RequestType} {code : AgentResult} {content : Bytes}
    (h : 10 ∉ content) : 10 ∉ responseText type code content := by
  have hop : (10 : UInt8) ∉ bytes "op=" := by decide
  have hcode : (10 : UInt8) ∉ bytes "&code=" := by decide
  have hcontent : (10 : UInt8) ∉ bytes "&content=" := by decide
  have htype : (10 : UInt8) ∉ requestTypeToString type := by cases type <;> decide
  have hnumber : (10 : UInt8) ∉ intToString code.code := not_mem_intToString (by decide) _
  simp [responseText, hop, hcode, hcontent, htype, hnumber, h]

theorem length_responseText (type : Agent.RequestType) (code : AgentResult) (content : Bytes) :
    (responseText type code content).length ≤ content.length + 35 := by
  have hop : (bytes "op=").length = 3 := by decide
  have hcode : (bytes "&code=").length = 6 := by decide
  have hcontent : (bytes "&content=").length = 9 := by decide
  have htype : (requestTypeToString type).length ≤ 15 := by cases type <;> decide
  have hnumber : (intToString code.code).length ≤ 2 := by cases code <;> decide
  simp only [responseText, List.length_append, hop, hcode, hcontent]
  omega

/-- The texts of the source are short. -/
theorem length_responseText_lt {type : Agent.RequestType} {code : AgentResult} {content : Bytes}
    (h : content.length ≤ 64) : (responseText type code content).length < networkMaxMsgSize := by
  have hle := length_responseText type code content
  unfold networkMaxMsgSize
  omega

end HoxServer.DbAgent
