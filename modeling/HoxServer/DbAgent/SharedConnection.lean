/-
HoxServer.DbAgent.SharedConnection — the one connection between the server
and the agent: the functions of `hoxDbClient.cpp` as calls that are made
under the lock, with `handle_client_thread` at the other end.

The calls are made by the threads of the server, the `_handle_db_write`
thread among them. A call reads byte by byte, so it is done when
`_read_line` returns, and `get_http_file` when `read_nbytes` does.

What is asked of a call is that its request arrives as it was made
(`Net.built_arrives_iff`) and that the answer is one the reader can tell
the end of: no newline in a record, and a file that is not empty.

* `calls_serial` — any run comes to the same as the calls made one after
  the other;
* `calls_return` — a call that has the lock returns.
-/
import HoxServer.DbAgent.Agent

namespace HoxServer.DbAgent

open Lib HoxServer.Net

/-! ## The calls -/

/-- A call of a function of `hoxDbClient` that uses the connection. -/
inductive DbCall where
  | sendHello
  | putPlayerInfo (sPlayerId hpassword : Bytes) (score : Int) (sEmail : Bytes)
  | getPlayerInfo (sPlayerId : Bytes) (uninitialized : Int)
  /-- A turn of `_handle_db_write`, with a request of `set_player_info`. -/
  | setPlayerInfo (sPlayerId : Bytes) (score : Int) (sGameResult : Bytes)
  | setPlayerPassword (sPlayerId hpassword : Bytes)
  | getHttpFile (sPath : Bytes)
  | logMsg (sMsg : Bytes)
  deriving DecidableEq

/-- What a call returns, or raises. -/
inductive DbValue where
  | result (result : Result)
  | player (player : Except Result PlayerInfo)
  | file (result : Result) (sFileContent : Bytes)
  | raised (error : Raised)

def DbValue.of {α : Type} (value : α → DbValue) : Except Raised α → DbValue
  | .ok a => value a
  | .error error => .raised error

/-- What `_handle_db_write` and `set_player_password` make of a response. -/
def readCode (type : RequestType) (input : Bytes) : Except Raised Result := do
  let response ← hoxRequest (answer input)
  if response.type ≠ type then return .err
  return if response.getParam (bytes "code") = bytes "0" then .ok else .err

namespace DbCall

def request : DbCall → Request RequestType
  | sendHello => Net.sendHello
  | putPlayerInfo sPlayerId hpassword score sEmail =>
    Net.putPlayerInfo sPlayerId hpassword score sEmail
  | getPlayerInfo sPlayerId _ => Net.getPlayerInfo sPlayerId
  | setPlayerInfo sPlayerId score sGameResult => Net.setPlayerInfo sPlayerId score sGameResult
  | setPlayerPassword sPlayerId hpassword => Net.setPlayerPassword sPlayerId hpassword
  | getHttpFile sPath => Net.getHttpFile sPath
  | logMsg sMsg => Net.logMsg sMsg

/-- `sData` of `_send_request_over_socket`. -/
def data : DbCall → Bytes
  | logMsg sMsg => sMsg
  | _ => []

/-- What the call makes of what it reads. -/
def value : DbCall → Bytes → DbValue
  | sendHello, input | logMsg _, input => .result (sendRequestOverSocket input).1
  | putPlayerInfo _ _ _ _, input => .of .result (readPlayerPut input)
  | getPlayerInfo sPlayerId uninitialized, input =>
    .of .player (readPlayerInfo sPlayerId uninitialized input)
  | setPlayerInfo _ _ _, input => .of .result (readCode .dbPlayerSet input)
  | setPlayerPassword _ _, input => .of .result (readCode .dbPasswordSet input)
  | getHttpFile _, input => .of (fun file => .file file.1 file.2.1) (readHttpFile input)

end DbCall

/-- The loop of `_read_line` has returned. -/
def lineDone (bSawOne : Bool) (commandStr : Bytes) : Bytes → Bool
  | [] => false
  | c :: input =>
    if c = 10 then bSawOne || lineDone true commandStr input
    else if networkMaxMsgSize ≤ (commandStr ++ [c]).length then true
    else lineDone false (commandStr ++ [c]) input

/-- `get_http_file` returns after the line, or `read_nbytes` has returned. -/
def fileDone (input : Bytes) : Bool :=
  match hoxRequest (answer input) with
  | .error _ => true
  | .ok response => response.type ≠ .httpGet ∨ response.getParam (bytes "code") ≠ bytes "0" ∨
      (Net.readNbytes (toSizeT (atoi (response.getParam (bytes "content"))))
        (sendRequestOverSocket input).2.2).1 = .ok

/-- The call has read enough to return. -/
def DbCall.isDone : DbCall → Bytes → Bool
  | getHttpFile _, input => lineDone false [] input && fileDone input
  | _, input => lineDone false [] input

/-- The functions of `hoxDbClient`. -/
def hoxDbClient : Caller DbCall UInt8 UInt8 DbValue where
  request call := call.request.line ++ call.data
  isDone := DbCall.isDone
  value := DbCall.value

/-- The record of a player can be read line by line. -/
def Player.Readable (player : Player) : Prop :=
  10 ∉ player.text ∧ (responseText .dbPlayerGet .ok player.text).length < networkMaxMsgSize

variable {δ : Type} (S : Storage δ)

/-- The two ends agree on where the request and the answer end. -/
def DbCall.Clean (db : δ) (call : DbCall) : Prop :=
  call.request.Arrives ∧
    match call with
    | getPlayerInfo sPlayerId _ => ∀ player, (findPlayer S db sPlayerId).2 = some player →
        player.score ≠ -1 → player.Readable
    | getHttpFile sPath => 0 < (fileContent S db sPath).length ∧
        (fileContent S db sPath).length < 2147483648
    | logMsg sMsg => sMsg.length < 2147483648
    | _ => True

/-! ## The reader -/

section

variable {bSawOne : Bool} {commandStr text rest input : Bytes}

/-- A line that ends with two newlines is done there. -/
theorem lineDone_append (hclean : 10 ∉ text) (hlt : (commandStr ++ text).length < networkMaxMsgSize)
    (hread : input <+: text ++ 10 :: 10 :: rest) (hdone : lineDone false commandStr input = true) :
    text ++ [10, 10] <+: input := by
  induction text generalizing commandStr input with
  | nil =>
    match input, hread, hdone with
    | [c], hread, hdone =>
      have hc : c = 10 := by simpa using hread
      simp [hc, lineDone] at hdone
    | c :: d :: input, hread, hdone =>
      have hcd : c = 10 ∧ d = 10 := by
        simp only [List.nil_append, List.cons_prefix_cons] at hread
        exact ⟨hread.1, hread.2.1⟩
      simp [hcd]
  | cons a text ih =>
    obtain ⟨ha, htext⟩ := not_or.mp (mt List.mem_cons.mpr hclean)
    cases input with
    | nil => cases hdone
    | cons c input =>
      rw [List.cons_append, List.cons_prefix_cons] at hread
      obtain ⟨rfl, hread⟩ := hread
      have happend : commandStr ++ [c] ++ text = commandStr ++ c :: text := by simp
      have hshort : ¬ networkMaxMsgSize ≤ (commandStr ++ [c]).length := by
        rw [← happend, List.length_append] at hlt
        omega
      rw [lineDone, if_neg (Ne.symm ha), if_neg hshort] at hdone
      rw [List.cons_append, List.cons_prefix_cons]
      exact ⟨rfl, ih htext (by rwa [happend]) hread hdone⟩

theorem lineDone_whole (hclean : 10 ∉ text)
    (hlt : (commandStr ++ text).length < networkMaxMsgSize) :
    lineDone bSawOne commandStr (text ++ 10 :: 10 :: rest) = true := by
  induction text generalizing bSawOne commandStr with
  | nil => simp [lineDone]
  | cons a text ih =>
    obtain ⟨ha, hclean⟩ := not_or.mp (mt List.mem_cons.mpr hclean)
    have happend : commandStr ++ [a] ++ text = commandStr ++ a :: text := by simp
    rw [List.cons_append, lineDone, if_neg (Ne.symm ha)]
    split
    · rfl
    · exact ih hclean (by rwa [happend])

end

/-! ## The agent -/

variable {S} {agent : Agent δ}

/-- What arrives is one line. -/
theorem arrives_line {request : Request RequestType} (h : request.Arrives) :
    ∃ type, request.type.agent = some type ∧ 10 ∉ request.toString Net.requestTypeToString ∧
      (request.toString Net.requestTypeToString).length < networkMaxMsgSize ∧
      Net.Agent.parse (request.toString Net.requestTypeToString) =
        .ok ⟨type, request.parameters⟩ := by
  obtain ⟨line, type, hread, htype, hparse⟩ := h
  have hline : request.line = request.toString Net.requestTypeToString ++ [10] := rfl
  rw [hline, readLine_append] at hread
  obtain ⟨rfl, hclean, hshort⟩ := hread
  exact ⟨type, htype, hclean, hshort, hparse⟩

theorem toString_ne_nil (request : Request RequestType) :
    request.toString Net.requestTypeToString ≠ [] := by
  have hop : bytes "op=" ≠ [] := by decide
  simp [Request.toString, hop]

/-- The agent reads a request, other than a LOG request. -/
theorem run_handled {request : Request RequestType} {type : Agent.RequestType}
    (hmode : agent.mode = .line []) (harrives : request.Arrives)
    (htype : request.type.agent = some type) (hlog : type ≠ .log) (hunknown : type ≠ .unknown) :
    (handleClientThread S).run agent request.line =
      ({ agent with mode := .line []
                    db := (handleRequest S agent.db ⟨type, request.parameters⟩).1 },
        (handleRequest S agent.db ⟨type, request.parameters⟩).2) := by
  obtain ⟨type', htype', hclean, hshort, hparse⟩ := arrives_line harrives
  obtain rfl : type = type' := Option.some.inj (htype.symm.trans htype')
  have hline : request.line = request.toString Net.requestTypeToString ++ [10] := rfl
  rw [hline, run_request hmode hclean hshort]
  simp [Agent.handleLine, toString_ne_nil, hparse, hlog, hunknown]

/-- The size in a LOG request is read as it is. -/
theorem size_logMsg {sMsg : Bytes} (hlength : sMsg.length < 2147483648) :
    toInt32 sMsg.length = sMsg.length ∧
      toSizeT (atoi ((Net.logMsg sMsg).getParam (bytes "size"))) = sMsg.length ∧
      atoi ((Net.logMsg sMsg).getParam (bytes "size")) = sMsg.length := by
  have hint : toInt32 sMsg.length = sMsg.length := by
    unfold toInt32
    omega
  have hsize : (Net.logMsg sMsg).getParam (bytes "size") = intToString sMsg.length := by
    rw [Net.logMsg, getParam_setParam, if_pos rfl, hint]
  have hatoi : atoi (intToString sMsg.length) = sMsg.length := by
    unfold atoi toInt32
    rw [leadingInt_intToString, Option.getD_some]
    omega
  rw [hsize]
  exact ⟨hint, (toSizeT_atoi_iff _).mpr (.inl hlength), hatoi⟩

/-- The line of a LOG request. -/
theorem run_log_line {sMsg : Bytes} (hmode : agent.mode = .line [])
    (harrives : (Net.logMsg sMsg).Arrives) (hlength : sMsg.length < 2147483648) :
    (handleClientThread S).run agent (Net.logMsg sMsg).line =
      if sMsg = [] then agent.handleLog 0 []
      else ({ agent with mode := .data sMsg.length [] }, []) := by
  obtain ⟨type, htype, hclean, hshort, hparse⟩ := arrives_line harrives
  obtain rfl : Agent.RequestType.log = type := Option.some.inj htype
  obtain ⟨-, hsize, hatoi⟩ := size_logMsg hlength
  have hline : (Net.logMsg sMsg).line =
      (Net.logMsg sMsg).toString Net.requestTypeToString ++ [10] := rfl
  have hparam : (⟨.log, (Net.logMsg sMsg).parameters⟩ : Request Agent.RequestType).getParam
      (bytes "size") = (Net.logMsg sMsg).getParam (bytes "size") := rfl
  rw [hline, run_request hmode hclean hshort, Agent.handleLine, if_neg (toString_ne_nil _), hparse]
  simp only [hparam, hsize]
  by_cases hnil : sMsg = []
  · subst hnil
    simp [hatoi, Agent.handleLog]
  · simp [hatoi, hnil]

theorem DbCall.run_handled {call : DbCall} {type : Agent.RequestType}
    (hmode : agent.mode = .line []) (harrives : call.request.Arrives) (hdata : call.data = [])
    (htype : call.request.type.agent = some type) (hlog : type ≠ .log)
    (hunknown : type ≠ .unknown) :
    (handleClientThread S).run agent (hoxDbClient.request call) =
      ({ agent with mode := .line []
                    db := (handleRequest S agent.db ⟨type, call.request.parameters⟩).1 },
        (handleRequest S agent.db ⟨type, call.request.parameters⟩).2) := by
  have hrequest : hoxDbClient.request call = call.request.line := by simp [hoxDbClient, hdata]
  rw [hrequest, DbAgent.run_handled hmode harrives htype hlog hunknown]

/-- A LOG request, and the message. -/
theorem run_log {sMsg : Bytes} (hmode : agent.mode = .line [])
    (harrives : (Net.logMsg sMsg).Arrives) (hlength : sMsg.length < 2147483648) :
    (handleClientThread S).run agent ((Net.logMsg sMsg).line ++ sMsg) =
      agent.handleLog sMsg.length sMsg := by
  rw [Answerer.run_append, run_log_line hmode harrives hlength]
  rcases List.eq_nil_or_concat' sMsg with rfl | ⟨front, c, rfl⟩
  · simp
  · have htoSizeT : toSizeT ((front ++ [c]).length : Int) = (front ++ [c]).length := by
      unfold toSizeT
      omega
    have hends : ¬ (front ++ [c]).length < toSizeT ((front ++ [c]).length : Int) := by
      rw [htoSizeT]
      exact lt_irrefl _
    have hdata : (handleClientThread S).run
        { agent with mode := .data (front ++ [c]).length [] } front =
          ({ agent with mode := .data (front ++ [c]).length front }, []) := by
      have hlt : ([] ++ front).length < toSizeT ((front ++ [c]).length : Int) := by
        rw [htoSizeT]
        simp
      exact run_data rfl hlt
    rw [if_neg (by simp), Answerer.run_concat (by rw [hdata]; exact closed_eq_false (by simp)),
      hdata]
    simp only [handleClientThread, Agent.read, if_neg hends, List.nil_append]
    rfl

/-! ## Answers -/

theorem update_outcome (db : δ) (sSQL what : Bytes) :
    (update S db sSQL what).outcome = (.ok, []) ∨
      (update S db sSQL what).outcome = (.err, what) := by
  unfold update
  split <;> simp [Handled.outcome]

/-- The outcome of a request for a player. -/
def playerOutcome (player : Option Player) : AgentResult × Bytes :=
  match player with
  | none => (.err, bytes "Failed to get player-info")
  | some player =>
    if player.score = -1 then (.notFound, bytes "Player not found") else (.ok, player.text)

theorem playerGet_outcome (db : δ) (request : Request Agent.RequestType) :
    (handlePlayerGet S db request).outcome =
      playerOutcome (findPlayer S db (request.getParam (bytes "pid"))).2 := by
  unfold handlePlayerGet playerOutcome
  cases findPlayer S db (request.getParam (bytes "pid")) with
  | mk db player =>
    cases player with
    | none => rfl
    | some player => by_cases hscore : player.score = -1 <;> simp [hscore, Handled.outcome]

/-- A response that ends with its two newlines. -/
def Terminated (sent : Bytes) : Prop :=
  ∃ text, sent = text ++ [10, 10] ∧ 10 ∉ text ∧ text.length < networkMaxMsgSize

theorem terminated_text {type : Agent.RequestType} {handled : Handled δ}
    (hclean : 10 ∉ handled.outcome.2)
    (hshort : (responseText type handled.outcome.1 handled.outcome.2).length <
      networkMaxMsgSize) : Terminated (handled.text type).2 :=
  ⟨responseText type handled.outcome.1 handled.outcome.2, rfl, responseText_clean hclean, hshort⟩

theorem terminated_update {type : Agent.RequestType} {db : δ} {sSQL what : Bytes}
    (hclean : 10 ∉ what) (hshort : what.length ≤ 64) :
    Terminated ((update S db sSQL what).text type).2 := by
  rcases update_outcome (S := S) db sSQL what with h | h
  · exact terminated_text (by rw [h]; simp) (by rw [h]; exact length_responseText_lt (by simp))
  · exact terminated_text (by rwa [h]) (by rw [h]; exact length_responseText_lt hshort)

/-- The record of a player, or an error. -/
theorem terminated_player {player : Option Player}
    (hreadable : ∀ p, player = some p → p.score ≠ -1 → p.Readable) :
    10 ∉ (playerOutcome player).2 ∧
      (responseText .dbPlayerGet (playerOutcome player).1 (playerOutcome player).2).length <
        networkMaxMsgSize := by
  cases player with
  | none => exact ⟨by decide, length_responseText_lt (by decide)⟩
  | some p =>
    by_cases hscore : p.score = -1
    · simp only [playerOutcome, if_pos hscore]
      exact ⟨by decide, length_responseText_lt (by decide)⟩
    · simp only [playerOutcome, if_neg hscore]
      exact hreadable p rfl hscore

/-- The agent's answer to a request for a player. -/
theorem DbCall.run_player {sPlayerId : Bytes} {uninitialized : Int} (hmode : agent.mode = .line [])
    (harrives : (Net.getPlayerInfo sPlayerId).Arrives) :
    (handleClientThread S).run agent
        (hoxDbClient.request (.getPlayerInfo sPlayerId uninitialized)) =
      ({ agent with mode := .line [], db := (findPlayer S agent.db sPlayerId).1 },
        responseText .dbPlayerGet (playerOutcome (findPlayer S agent.db sPlayerId).2).1
          (playerOutcome (findPlayer S agent.db sPlayerId).2).2 ++ bytes "\n\n") := by
  let request : Request Agent.RequestType :=
    ⟨.dbPlayerGet, (Net.getPlayerInfo sPlayerId).parameters⟩
  have hpid : request.getParam (bytes "pid") = sPlayerId :=
    (getParam_setParam (bytes "pid") sPlayerId (bytes "pid")).trans (if_pos rfl)
  have hdb : (handlePlayerGet S agent.db request).db = (findPlayer S agent.db sPlayerId).1 := by
    unfold handlePlayerGet
    rw [hpid]
    cases findPlayer S agent.db sPlayerId with
    | mk db player =>
      cases player with
      | none => rfl
      | some player => by_cases hscore : player.score = -1 <;> simp [hscore]
  have houtcome := playerGet_outcome (S := S) agent.db request
  rw [hpid] at houtcome
  have hrun : (handleClientThread S).run agent
      (hoxDbClient.request (.getPlayerInfo sPlayerId uninitialized)) =
        ({ agent with mode := .line [], db := (handleRequest S agent.db request).1 },
          (handleRequest S agent.db request).2) :=
    @DbCall.run_handled _ S agent (.getPlayerInfo sPlayerId uninitialized) _ hmode harrives rfl rfl
      (by simp) (by simp)
  have hhandled : handleRequest S agent.db request =
      Handled.text .dbPlayerGet (handlePlayerGet S agent.db request) := rfl
  rw [hrun, hhandled, Handled.text, hdb, houtcome]

/-- **The agent's answer**, but for a file. -/
theorem DbCall.terminated {call : DbCall} (hmode : agent.mode = .line [])
    (hclean : call.Clean S agent.db) (hfile : ∀ sPath, call ≠ .getHttpFile sPath) :
    Terminated ((handleClientThread S).run agent (hoxDbClient.request call)).2 ∧
      ((handleClientThread S).run agent (hoxDbClient.request call)).1.mode = .line [] := by
  obtain ⟨harrives, hclean⟩ := hclean
  cases call with
  | sendHello =>
    rw [DbCall.run_handled hmode harrives rfl rfl (by simp) (by simp)]
    have hclean : (10 : UInt8) ∉ bytes "I_got_it" := by decide
    have hlength : (bytes "I_got_it").length ≤ 64 := by decide
    exact ⟨terminated_text hclean (length_responseText_lt hlength), rfl⟩
  | putPlayerInfo sPlayerId hpassword score sEmail =>
    rw [DbCall.run_handled hmode harrives rfl rfl (by simp) (by simp)]
    exact ⟨terminated_update (by decide) (by decide), rfl⟩
  | getPlayerInfo sPlayerId uninitialized =>
    rw [DbCall.run_player hmode harrives]
    obtain ⟨hnewline, hshort⟩ := terminated_player hclean
    exact ⟨⟨_, rfl, responseText_clean hnewline, hshort⟩, rfl⟩
  | setPlayerInfo sPlayerId score sGameResult =>
    rw [DbCall.run_handled hmode harrives rfl rfl (by simp) (by simp)]
    exact ⟨terminated_update (by decide) (by decide), rfl⟩
  | setPlayerPassword sPlayerId hpassword =>
    rw [DbCall.run_handled hmode harrives rfl rfl (by simp) (by simp)]
    exact ⟨terminated_update (by decide) (by decide), rfl⟩
  | getHttpFile sPath => exact absurd rfl (hfile sPath)
  | logMsg sMsg =>
    simp only [hoxDbClient, DbCall.data, DbCall.request]
    rw [run_log hmode harrives hclean]
    have hdigits : 10 ∉ bytes "OK: " ++ intToString sMsg.length := by
      have hok : (10 : UInt8) ∉ bytes "OK: " := by decide
      exact fun h => (List.mem_append.mp h).elim hok (not_mem_intToString (by decide) _)
    refine ⟨⟨_, rfl, responseText_clean hdigits, length_responseText_lt ?_⟩, rfl⟩
    have hlength : (intToString sMsg.length).length ≤ 10 :=
      length_natToString _ (by decide) (by omega)
    have hok : (bytes "OK: ").length = 4 := by decide
    rw [List.length_append, hok]
    omega

/-- The agent's answer to a request for a file. -/
theorem DbCall.run_file {sPath : Bytes} (hmode : agent.mode = .line [])
    (harrives : (getHttpFile sPath).request.Arrives) :
    (handleClientThread S).run agent (hoxDbClient.request (.getHttpFile sPath)) =
      ({ agent with mode := .line [] },
        (handleHttpGet (fileContent S agent.db sPath)).toString) := by
  have hpath : (⟨.httpGet, (Net.getHttpFile sPath).parameters⟩ :
      Request Agent.RequestType).getParam (bytes "path") = sPath :=
    (getParam_setParam (bytes "path") sPath (bytes "path")).trans (if_pos rfl)
  rw [DbCall.run_handled hmode harrives rfl rfl (by simp) (by simp)]
  show (_, (handleHttpGet (fileContent S agent.db ((⟨.httpGet, (Net.getHttpFile sPath).parameters⟩ :
    Request Agent.RequestType).getParam (bytes "path")))).toString) = _
  rw [hpath]
  rfl

/-! ## The two ends agree -/

/-- Before the whole request has been read there is no answer. -/
theorem DbCall.whole {call : DbCall} (hmode : agent.mode = .line [])
    (hclean : call.Clean S agent.db) {sent : Bytes} (hsent : sent <+: hoxDbClient.request call)
    (hne : sent ≠ hoxDbClient.request call) : ((handleClientThread S).run agent sent).2 = [] := by
  obtain ⟨harrives, hclean⟩ := hclean
  obtain ⟨type, -, hnewline, hshort, -⟩ := arrives_line harrives
  have hrequest : hoxDbClient.request call =
      call.request.toString Net.requestTypeToString ++ [10] ++ call.data := rfl
  have hline : ∀ sent, sent <+: call.request.toString Net.requestTypeToString →
      ((handleClientThread S).run agent sent).2 = [] := by
    intro sent hsent
    have hclean : 10 ∉ sent := fun hmem => hnewline (hsent.subset hmem)
    have hlt : ([] ++ sent).length < networkMaxMsgSize :=
      lt_of_le_of_lt (by simpa using hsent.length_le) hshort
    rw [run_line hmode hclean hlt]
  rw [hrequest] at hsent hne
  have hcases : sent <+: call.request.toString Net.requestTypeToString ∨
      call.request.toString Net.requestTypeToString ++ [10] <+: sent := by
    rcases List.prefix_or_prefix_of_prefix hsent (List.prefix_append _ _) with h | h
    · rcases List.prefix_concat_iff.mp h with rfl | h
      · exact .inr List.prefix_rfl
      · exact .inl h
    · exact .inr h
  rcases hcases with h | ⟨d, rfl⟩
  · exact hline sent h
  · rw [List.prefix_append_right_inj] at hsent
    have hd : d ≠ call.data := fun h => hne (by rw [h])
    cases call with
    | logMsg sMsg =>
      -- a part of the message
      have hnil : sMsg ≠ [] := by
        rintro rfl
        exact hd (List.prefix_nil.mp hsent)
      have hlt : d.length < sMsg.length :=
        lt_of_le_of_ne hsent.length_le fun h => hd (hsent.eq_of_length h)
      have htoSizeT : toSizeT (sMsg.length : Int) = sMsg.length := by
        have hlength : sMsg.length < 2147483648 := hclean
        unfold toSizeT
        omega
      have hdata : ([] ++ d).length < toSizeT (sMsg.length : Int) := by
        rw [htoSizeT]
        exact hlt
      have hread : (handleClientThread S).run agent (Net.logMsg sMsg).line =
          ({ agent with mode := .data sMsg.length [] }, []) := by
        rw [run_log_line hmode harrives hclean, if_neg hnil]
      show ((handleClientThread S).run agent ((Net.logMsg sMsg).line ++ d)).2 = []
      rw [Answerer.run_append, hread, run_data rfl hdata]
      rfl
    | _ => exact absurd (List.prefix_nil.mp hsent) hd

/-- What comes before a file. -/
def fileHeader (content : Bytes) : Bytes :=
  (handleHttpGet content).header ++ intToString content.length

theorem fileHeader_clean {content : Bytes} (hlength : content.length < 2147483648) :
    10 ∉ fileHeader content ∧ (fileHeader content).length < networkMaxMsgSize := by
  obtain ⟨hclean, hshort⟩ := header_clean (handleHttpGet content)
  have hdigits : (intToString content.length).length ≤ 10 :=
    length_natToString _ (by decide) (by omega)
  constructor
  · exact fun h => (List.mem_append.mp h).elim hclean (not_mem_intToString (by decide) _)
  · rw [fileHeader, List.length_append]
    unfold networkMaxMsgSize
    omega

/-- The file has been read when all of its bytes have. -/
theorem fileDone_iff {content part : Bytes} (hlength : content.length < 2147483648) :
    fileDone (fileHeader content ++ 10 :: 10 :: part) = true ↔
      0 < content.length ∧ content.length ≤ part.length := by
  obtain ⟨hclean, hshort⟩ := fileHeader_clean hlength
  have hne : fileHeader content ≠ [] := by
    simp [fileHeader, header_ne_nil]
  have hsend : sendRequestOverSocket (fileHeader content ++ 10 :: 10 :: part) =
      (.ok, fileHeader content, part) := sendRequestOverSocket_append hne hclean hshort
  have htype : serverType (handleHttpGet content).type = .httpGet := by
    show serverType .httpGet = .httpGet
    decide
  have hparse : Request.parse (fileHeader content) =
      .ok ⟨.httpGet, parameters (intToString content.length)⟩ := by
    rw [fileHeader, parse_plain _ (plain_intToString _), htype]
  obtain ⟨hcode, hcontent⟩ := getParam_parameters .httpGet (intToString content.length)
  have hsize : toSizeT (atoi (intToString content.length)) = content.length :=
    (toSizeT_atoi_iff _).mpr (.inl hlength)
  have hresponse : hoxRequest (answer (fileHeader content ++ 10 :: 10 :: part)) =
      .ok ⟨.httpGet, parameters (intToString content.length)⟩ := by
    rw [answer, hsend, hoxRequest, hparse]
    rfl
  unfold fileDone
  rw [hresponse]
  simp only [hcode, hcontent, hsize, hsend, ne_eq, not_true_eq_false, false_or, decide_eq_true_eq]
  exact readNbytes_ok

/-- The answer to a request for a file. -/
theorem answer_file {sPath : Bytes} (hmode : agent.mode = .line [])
    (hclean : (DbCall.getHttpFile sPath).Clean S agent.db) :
    (handleClientThread S).answer hoxDbClient agent (.getHttpFile sPath) =
      fileHeader (fileContent S agent.db sPath) ++ 10 :: 10 :: fileContent S agent.db sPath := by
  rw [Answerer.answer, DbCall.run_file hmode hclean.1]
  have htoString := @handleHttpGet_toString (fileContent S agent.db sPath) []
  simpa [fileHeader] using htoString

/-- A call is done when it has read the whole answer, and not before. -/
theorem DbCall.exact {call : DbCall} (hmode : agent.mode = .line [])
    (hclean : call.Clean S agent.db) {read : Bytes}
    (hread : read <+: (handleClientThread S).answer hoxDbClient agent call)
    (hdone : call.isDone read = true) :
    read = (handleClientThread S).answer hoxDbClient agent call := by
  by_cases hfile : ∀ sPath, call ≠ .getHttpFile sPath
  · obtain ⟨⟨text, hanswer, hnewline, hshort⟩, -⟩ := DbCall.terminated hmode hclean hfile
    rw [Answerer.answer, hanswer] at hread ⊢
    have hline : lineDone false [] read = true := by
      cases call <;> first | exact hdone | exact absurd rfl (hfile _)
    exact hread.eq_of_length_le (lineDone_append hnewline (by simpa) hread hline).length_le
  · push Not at hfile
    obtain ⟨sPath, rfl⟩ := hfile
    obtain ⟨-, -, hlength⟩ := id hclean
    obtain ⟨hnewline, hshort⟩ := fileHeader_clean hlength
    rw [answer_file hmode hclean] at hread ⊢
    obtain ⟨hline, hfile⟩ := Bool.and_eq_true_iff.mp hdone
    obtain ⟨part, rfl⟩ := lineDone_append hnewline (by simpa) hread hline
    have happend : ∀ part, fileHeader (fileContent S agent.db sPath) ++ [10, 10] ++ part =
        fileHeader (fileContent S agent.db sPath) ++ 10 :: 10 :: part := fun part => by simp
    rw [happend] at hread hfile ⊢
    refine hread.eq_of_length_le ?_
    have hpart := ((fileDone_iff hlength).mp hfile).2
    simpa using hpart

theorem DbCall.ends {call : DbCall} (hmode : agent.mode = .line [])
    (hclean : call.Clean S agent.db) :
    call.isDone ((handleClientThread S).answer hoxDbClient agent call) = true := by
  by_cases hfile : ∀ sPath, call ≠ .getHttpFile sPath
  · obtain ⟨⟨text, hanswer, hnewline, hshort⟩, -⟩ := DbCall.terminated hmode hclean hfile
    rw [Answerer.answer, hanswer]
    have hline : lineDone false [] (text ++ [10, 10]) = true := lineDone_whole hnewline (by simpa)
    cases call <;> first | exact hline | exact absurd rfl (hfile _)
  · push Not at hfile
    obtain ⟨sPath, rfl⟩ := hfile
    obtain ⟨-, hpos, hlength⟩ := id hclean
    obtain ⟨hnewline, hshort⟩ := fileHeader_clean hlength
    rw [answer_file hmode hclean]
    exact Bool.and_eq_true_iff.mpr
      ⟨lineDone_whole hnewline (by simpa), (fileDone_iff hlength).mpr ⟨hpos, le_rfl⟩⟩

/-- The requests and answers on the connection. -/
def protocol (S : Storage δ) : Protocol (handleClientThread S) hoxDbClient where
  Ready agent := agent.mode = .line [] ∨ agent.mode = .closed
  Clean agent call := call.Clean S agent.db
  ready_of_closed agent h := .inr (closed_iff.mp h)
  balanced agent call hready hclean := by
    rcases hready with hmode | hmode
    · exact ⟨fun sent hsent hne => DbCall.whole hmode hclean hsent hne,
        fun read hread hdone => DbCall.exact hmode hclean hread hdone,
        by cases call <;> rfl, .inl (DbCall.ends hmode hclean)⟩
    · have hclosed : (handleClientThread S).closed agent = true := closed_iff.mpr hmode
      constructor
      · intro sent _ _
        rw [Answerer.run_of_closed hclosed]
      · intro read hread _
        rw [Answerer.answer, Answerer.run_of_closed hclosed] at hread ⊢
        exact List.prefix_nil.mp hread
      · cases call <;> rfl
      · rw [Answerer.run_of_closed hclosed]
        exact .inr hclosed
  next agent call hready hclean := by
    rcases hready with hmode | hmode
    · by_cases hfile : ∀ sPath, call ≠ .getHttpFile sPath
      · exact .inl (DbCall.terminated hmode hclean hfile).2
      · push Not at hfile
        obtain ⟨sPath, rfl⟩ := hfile
        rw [DbCall.run_file hmode hclean.1]
        exact .inl rfl
    · rw [Answerer.run_of_closed (closed_iff.mpr hmode)]
      exact .inr hmode

/-! ## The shared connection -/

/-- The connection, with the threads of the server. -/
abbrev DbConnection (δ : Type) := Channel (Agent δ) UInt8 UInt8 DbCall DbValue ℕ

variable {db : δ} {es : List (Channel.Event DbCall ℕ)} {ch : DbConnection δ}

/-- A database without players, and no files. -/
def emptyStorage : Storage Unit where
  exec db _ := (db, some [])
  readFile _ _ := none

/-- Two threads say hello. The second one asks for the lock while the first
one is writing, and gets it when the answer to that has been read. -/
def helloGoing : List (Channel.Event DbCall ℕ) :=
  [.call 0 .sendHello, .lock] ++ List.replicate 4 .write ++ [.call 1 .sendHello] ++
    List.replicate 2 .serve ++ List.replicate 5 .write ++ List.replicate 7 .serve ++
    List.replicate 34 .read ++ [.lock, .write, .serve]

theorem clean_helloGoing : (Channel.machine (handleClientThread emptyStorage) hoxDbClient).Meets
    (Channel.Admits (protocol emptyStorage)) { server := { db := () } } helloGoing := by
  have hclean : ∀ agent (call : DbCall), call = .sendHello →
      (protocol emptyStorage).Clean agent call := by
    rintro agent call rfl
    exact ⟨(built_arrives_iff .sendHello).mpr (by decide +kernel), trivial⟩
  exact Channel.meets_of_asked hclean (fun x hx => absurd hx List.not_mem_nil)
    (by decide +kernel)

/-- The first thread has its answer, and the second one has the lock. -/
theorem run_helloGoing : ∃ ch : DbConnection Unit, ∃ h,
    (Channel.machine (handleClientThread emptyStorage) hoxDbClient).run
      { server := { db := () } } helloGoing = .ok ch ∧
    ch.finished.map (fun entry => (entry.1, entry.2.1)) = [(0, .sendHello)] ∧
    ch.holder = some h ∧ h.thread = 1 := by
  have hrun : ((Channel.machine (handleClientThread emptyStorage) hoxDbClient).run
      { server := { db := () } } helloGoing).map (fun ch =>
        (ch.finished.map (fun entry => (entry.1, entry.2.1)), ch.holder.map (·.thread))) =
      .ok ([(0, .sendHello)], some 1) := by decide +kernel
  obtain ⟨ch, hch, heq⟩ := map_eq_ok.mp hrun
  obtain ⟨hfinished, hholder⟩ := Prod.mk.inj heq
  obtain ⟨h, hh, hthread⟩ := Option.map_eq_some_iff.mp hholder
  exact ⟨ch, h, hch, hfinished, hh, hthread⟩

/-- The code of an error is read as a number, and it is not that of
`hoxRC_NOT_FOUND` of the server. -/
theorem readPlayerInfo_error {text sPlayerId : Bytes} {uninitialized n : Int}
    (hclean : 10 ∉ text) (hne : text ≠ []) (hshort : text.length < networkMaxMsgSize)
    (hparse : (hoxRequest text).map (fun response => (response.type,
      leadingInt (response.getParam (bytes "code")))) = .ok (.dbPlayerGet, some n))
    (hint : toInt32 n = n) (hcode : n ≠ resultCode .notFound ∧ n ≠ resultCode .ok) :
    readPlayerInfo sPlayerId uninitialized (text ++ [10, 10]) = .ok (.error .err) := by
  have hanswer : answer (text ++ [10, 10]) = text := answer_append hne hclean hshort
  obtain ⟨response, hresponse, hfields⟩ := map_eq_ok.mp hparse
  obtain ⟨htype, hnumber⟩ := Prod.mk.inj hfields
  have hconvert : convertTo (response.getParam (bytes "code")) uninitialized = n := by
    simp [convertTo, hnumber, hint]
  unfold readPlayerInfo
  rw [hanswer, hresponse]
  simp [bind, Except.bind, htype, hconvert, hcode]
  rfl

/-- **A player, from the database to the server.** A player that the database
does not have is an error, and not `hoxRC_NOT_FOUND`: the number of the
agent's code for it is that of another one here. -/
theorem getPlayerInfo_value {sPlayerId : Bytes} (uninitialized : Int)
    (hmode : agent.mode = .line []) (harrives : (Net.getPlayerInfo sPlayerId).Arrives) :
    let value := hoxDbClient.value (.getPlayerInfo sPlayerId uninitialized)
      ((handleClientThread S).answer hoxDbClient agent (.getPlayerInfo sPlayerId uninitialized))
    ((findPlayer S agent.db sPlayerId).2 = none → value = .player (.error .err)) ∧
    ∀ player, (findPlayer S agent.db sPlayerId).2 = some player →
      (player.score = -1 → value = .player (.error .err)) ∧
      ∀ record : Record, record.Clean uninitialized → record.id = sPlayerId →
        record.text = player.text → player.score ≠ -1 → value = .player (.ok record.info) := by
  intro value
  have hvalue : value = .of .player (readPlayerInfo sPlayerId uninitialized
      (responseText .dbPlayerGet (playerOutcome (findPlayer S agent.db sPlayerId).2).1
        (playerOutcome (findPlayer S agent.db sPlayerId).2).2 ++ [10, 10])) := by
    have hrun := @DbCall.run_player _ S agent sPlayerId uninitialized hmode harrives
    simp only [value, Answerer.answer, hrun]
    rfl
  rw [hvalue]
  refine ⟨fun hfind => ?_, fun player hfind => ⟨fun hscore => ?_, ?_⟩⟩
  · rw [hfind, playerOutcome, readPlayerInfo_error (n := 1) (by decide) (by decide) (by decide)
      (by decide +kernel) (by decide) (by decide)]
    rfl
  · simp only [hfind, playerOutcome, if_pos hscore]
    rw [readPlayerInfo_error (n := 6) (by decide) (by decide) (by decide) (by decide +kernel)
      (by decide) (by decide)]
    rfl
  · intro record hrecord hid htext hscore
    have hreturns : record.Returns uninitialized [] :=
      (Record.returns_iff_of_cleanFields hrecord.toCleanFields).mpr hrecord
    have hresponse : record.handleDbPlayerGet.toString ++ [] =
        responseText .dbPlayerGet .ok player.text ++ [10, 10] := by
      have hcode : bytes "&code=0" = bytes "&code=" ++ intToString (AgentResult.code .ok) := by
        decide
      simp [Record.handleDbPlayerGet, Response.toString, Response.header, responseText, hcode,
        htext, show bytes "\n\n" = [10, 10] from rfl]
    rw [Record.Returns, hresponse, hid] at hreturns
    simp only [hfind, playerOutcome, if_neg hscore, hreturns, DbValue.of]

/-- A database that has one player. -/
def oneRow (row : List (Bytes × Bytes)) : Storage Unit where
  exec db _ := (db, some [row])
  readFile _ _ := none

/-- Joe comes back, whose email has a `&` and quotes, and nobody else does. -/
theorem getPlayerInfo_value_joe :
    hoxDbClient.value (.getPlayerInfo (bytes "joe") 0) ((handleClientThread (oneRow
      [(bytes "score", bytes "1500"), (bytes "hpassword", bytes "sesame"),
        (bytes "email", bytes "\"joe\" o&neil@mail")])).answer hoxDbClient { db := () }
      (.getPlayerInfo (bytes "joe") 0)) =
        .player (.ok (Record.joe (bytes "sesame") (bytes "\"joe\" o&neil@mail")).info) ∧
    hoxDbClient.value (.getPlayerInfo (bytes "joe") 0) ((handleClientThread emptyStorage).answer
      hoxDbClient { db := () } (.getPlayerInfo (bytes "joe") 0)) = .player (.error .err) := by
  have harrives : (Net.getPlayerInfo (bytes "joe")).Arrives :=
    (built_arrives_iff (.getPlayerInfo (bytes "joe"))).mpr (by decide +kernel)
  refine ⟨?_, ((getPlayerInfo_value 0 rfl harrives).2 { id := bytes "joe" } rfl).1 rfl⟩
  exact ((getPlayerInfo_value 0 rfl harrives).2
    { id := bytes "joe", hpw := bytes "sesame", score := 1500
      email := bytes "\"joe\" o&neil@mail" } (by decide +kernel)).2 _ Record.clean_joe rfl rfl
    (by decide)

end HoxServer.DbAgent
