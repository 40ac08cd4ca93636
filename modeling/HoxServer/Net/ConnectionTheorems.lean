/-
HoxServer.Net.ConnectionTheorems — what ends the server.

The errors that the handlers of the requests throw are `hoxError`s, and
every one of them is caught. What is left are the places where a text is
tokenized, of the client or of the agent, the one where a file is loaded,
and those where the seats of a table or the socket of a session are read:
each gets past exactly where its text is well escaped, its file delivered,
its seats taken, its socket there (`returns_step`).
-/
import HoxServer.Net.Connection
import HoxServer.Server.Crashes

namespace HoxServer.Net

open Lib

/-! ## What a step tokenizes -/

/-- The request that has been read can be tokenized. -/
def Incoming.Harmless : Incoming → Prop
  | .text sRequest _ _ => separator.WellEscaped sRequest
  | _ => True

/-- The answer of the agent can be tokenized. -/
def HarmlessAnswer (input : Bytes) : Prop := separator.WellEscaped (answer input)

/-- The agent delivers a file: its answer says so, and is followed by as many
bytes as it says, at least one. -/
def Delivered (input : Bytes) : Prop :=
  ∃ response, Request.parse (answer input) = .ok response ∧ response.type = .httpGet ∧
    response.getParam (bytes "code") = bytes "0" ∧
    0 < toSizeT (atoi (response.getParam (bytes "content"))) ∧
    toSizeT (atoi (response.getParam (bytes "content"))) ≤
      (sendRequestOverSocket input).2.2.length

namespace Outside

/-- The session has its socket. -/
def HasSocket (o : Outside) (session : SessionRef) : Prop :=
  (o.server.session session).nfd = true

/-- The call of a table finds the seats that it reads. -/
def FindsSeats (o : Outside) (t : TableRef) (op : TableOp) : Prop :=
  o.server.FindsSeats o.input t op

/-- The call of a table of the player finds the seats that it reads, if he
is at the table. -/
def FindsSeatsAt (o : Outside) (session : SessionRef) (request : Request RequestType)
    (op : TableOp) : Prop :=
  ∀ t, o.playerTable session (request.getParam (bytes "tid")) = some t → o.FindsSeats t op

/-- The call of a table that the request makes finds the seats that it
reads. -/
def FindsSeatsFor (o : Outside) (session : SessionRef) (request : Request RequestType) : Prop :=
  match request.type with
  | .leave => ∀ t, o.server.tableMgr.findTable (request.getParam (bytes "tid")) = some t →
    o.FindsSeats t (.onLeaveFromPlayer (o.player session))
  | .move => o.FindsSeatsAt session request
    (.acceptMove (o.player session) (request.getParam (bytes "move")))
  | .resign => o.FindsSeatsAt session request (.handleResignRequest (o.player session))
  | .draw => o.FindsSeatsAt session request (.handleDrawRequest (o.player session))
  | .reset => o.FindsSeatsAt session request (.handleResetRequest (o.player session))
  | _ => True

/-- A player who leaves all of his tables finds the seats that are read. -/
def FindsSeatsToLeave (o : Outside) (session : SessionRef) : Prop :=
  ∀ t ∈ o.server.tablesOf (o.player session),
    o.FindsSeats t (.onLeaveFromPlayer (o.player session))

end Outside

/-- What a step receives and finds does not end the server. -/
def Harmless (c : Connection) (o : Outside) : Prop :=
  match c.place with
  | .accepted => (firstIncoming o.readEnd o.received).Harmless
  | .gettingFile .. => Delivered (o.agent .httpGet)
  | .registering _ => HarmlessAnswer (o.agent .dbPlayerGet)
  | .putting _ => HarmlessAnswer (o.agent .dbPlayerPut)
  | .authenticating .. => HarmlessAnswer (o.agent .dbPlayerGet)
  | .replacing _ _ session _ => o.FindsSeatsToLeave session
  | .terminating served .. => o.HasSocket served.session
  | .handling _ served request _ => o.FindsSeatsFor served.session request ∧
    (Connection.sessionType o served = .polling → o.HasSocket served.session)
  | .serving served unread => (o.server.session served.session).state = .active →
    o.HasSocket served.session ∧
      (nextIncoming (Connection.sessionType o served) o.readEnd (unread ++ o.received)).Harmless
  | .consuming served .. => o.HasSocket served.session
  | .closing served => Connection.deletes o served = true → o.FindsSeatsToLeave served.session
  | .ended => True

/-! ## Requests -/

/-- What `catch( hoxError error )` takes. -/
def Raised.IsHoxError (e : Raised) : Prop := ∃ error, e.hoxError? = some error

@[simp] theorem raises_throwHoxError {α : Type} (error : HoxError) :
    Raises Raised.IsHoxError (throwHoxError error : Except Raised α) := by
  simp [throwHoxError, Raised.IsHoxError, Raised.hoxError?]

theorem returns_hoxRequest {requestStr : Bytes} :
    Returns (hoxRequest requestStr) ↔ separator.WellEscaped requestStr := by
  rw [hoxRequest, returns_mapError, Request.parse, parseNetworkMessage, returns_map]
  exact Separator.fields_isOk

/-- The tokenizer raises no `hoxError`. -/
theorem raises_hoxRequest {requestStr : Bytes} :
    Raises Raised.IsHoxError (hoxRequest requestStr) ↔ separator.WellEscaped requestStr := by
  rw [raises_iff_returns, returns_hoxRequest]
  intro e he
  rw [hoxRequest] at he
  cases hparse : Request.parse requestStr with
  | ok request => simp [hparse, Except.mapError] at he
  | error error =>
    rw [hparse] at he
    cases he
    simp [Raised.IsHoxError, Raised.hoxError?]

theorem Incoming.returns_parse {incoming : Incoming} :
    Returns incoming.parse ↔ incoming.Harmless := by
  cases incoming with
  | failed result => simp [Incoming.parse, Incoming.Harmless]
  | get httpRequest => simp [Incoming.parse, Incoming.Harmless]
  | text sRequest viaHttp unread =>
    rw [Incoming.parse, returns_bind_of (by simp), returns_hoxRequest]
    rfl

theorem Incoming.raises_parse {incoming : Incoming} :
    Raises Raised.IsHoxError incoming.parse ↔ incoming.Harmless := by
  cases incoming with
  | failed result => simp [Incoming.parse, Incoming.Harmless]
  | get httpRequest => simp [Incoming.parse, Incoming.Harmless]
  | text sRequest viaHttp unread =>
    rw [Incoming.parse, raises_bind_of (by simp), raises_hoxRequest]
    rfl

/-! ## What the thread finds -/

section

variable {o : Outside} {session : SessionRef} {request : Request RequestType}

/-- A crash is no `hoxError`. -/
theorem raises_mapError {ε α : Type} {x : Except ε α} :
    Raises Raised.IsHoxError (x.mapError fun _ => .nullPointer) ↔ Returns x := by
  cases x with
  | ok a => simp [Except.mapError]
  | error e => simp [Except.mapError, Raised.IsHoxError, Raised.hoxError?]

theorem returns_socket : Returns (o.socket session) ↔ o.HasSocket session := by
  unfold Outside.socket Outside.HasSocket
  split <;> simp_all

theorem raises_socket : Raises Raised.IsHoxError (o.socket session) ↔ o.HasSocket session := by
  rw [raises_iff_returns, returns_socket]
  unfold Outside.socket
  split <;> simp [Raised.IsHoxError, Raised.hoxError?]

theorem raises_callTableOk_iff {s : Server} {t : TableRef} {op : TableOp} {error : HoxError} :
    Raises Raised.IsHoxError (o.callTableOk s t op error) ↔ Returns (s.callTable o.input t op) := by
  rw [Outside.callTableOk, raises_bind_of, Outside.callTable, raises_mapError, returns_map]
  intro result
  split <;> simp

theorem raises_callTableOk {t : TableRef} {op : TableOp} {error : HoxError} :
    Raises Raised.IsHoxError (o.callTableOk o.server.toServer t op error) ↔ o.FindsSeats t op :=
  raises_callTableOk_iff.trans (Server.returns_callTable o.server.lawful)

theorem raises_leaveAllTables :
    Raises Raised.IsHoxError (o.leaveAllTables session) ↔ o.FindsSeatsToLeave session := by
  rw [Outside.leaveAllTables, raises_mapError, returns_map]
  exact Server.returns_leaveAllTables

theorem returns_leaveAllTables :
    Returns (o.leaveAllTables session) ↔ o.FindsSeatsToLeave session := by
  rw [Outside.leaveAllTables, returns_mapError, returns_map]
  exact Server.returns_leaveAllTables

@[simp] theorem raises_orError {α : Type} {found : Option α} {error : HoxError} :
    Raises Raised.IsHoxError (orError found error) := by
  cases found <;> simp [orError]

/-- What is done is done with what has been found. -/
theorem raises_orError_bind {α β : Type} {found : Option α} {error : HoxError}
    {f : α → Except Raised β} : Raises Raised.IsHoxError (orError found error >>= f) ↔
      ∀ a, found = some a → Raises Raised.IsHoxError (f a) := by
  cases found with
  | none => exact iff_of_true (raises_throwHoxError error) (by simp)
  | some a =>
    constructor
    · rintro h _ ⟨⟩
      exact h
    · exact fun h => h a rfl

/-! ## Handlers -/

theorem raises_atPlayerTable {op : TableOp} {error : Bytes → HoxError} :
    Raises Raised.IsHoxError (o.atPlayerTable session request op error) ↔
      o.FindsSeatsAt session request op :=
  raises_orError_bind.trans (forall₂_congr fun _ _ => raises_callTableOk)

/-- A new table is joined. -/
theorem raises_handleNew : Raises Raised.IsHoxError (o.handleNew session request) :=
  raises_callTableOk_iff.mpr (Server.returns_callTable_iff.mpr (returns_ok _))

theorem raises_handleJoin : Raises Raised.IsHoxError (o.handleJoin session request) :=
  raises_orError_bind.mpr fun _ _ =>
    raises_callTableOk_iff.mpr (Server.returns_callTable_iff.mpr (returns_ok _))

theorem raises_handleLeave : Raises Raised.IsHoxError (o.handleLeave session request) ↔
    ∀ t, o.server.tableMgr.findTable (request.getParam (bytes "tid")) = some t →
      o.FindsSeats t (.onLeaveFromPlayer (o.player session)) := by
  refine raises_orError_bind.trans (forall₂_congr fun t _ => ?_)
  rw [raises_bind_of fun _ => raises_pure _, Outside.callTable, raises_mapError, returns_map]
  exact Server.returns_callTable o.server.lawful

theorem raises_handleUpdate : Raises Raised.IsHoxError (o.handleUpdate session request) :=
  raises_orError_bind.mpr fun _ _ =>
    raises_callTableOk_iff.mpr (Server.returns_callTable_iff.mpr (returns_ok _))

theorem raises_handleMsg : Raises Raised.IsHoxError (o.handleMsg request) := by
  rw [Outside.handleMsg]
  split
  · exact raises_orError_bind.mpr fun _ _ => raises_pure _
  · exact raises_orError_bind.mpr fun _ _ => raises_pure _

/-- **What a handler raises** is a `hoxError`, exactly if the call of a table
that it makes finds its seats. -/
theorem raises_dispatch :
    Raises Raised.IsHoxError (o.dispatch session request) ↔ o.FindsSeatsFor session request := by
  rw [Outside.dispatch, Outside.FindsSeatsFor]
  cases request.type with
  | leave => exact (raises_bind_of fun _ => raises_pure _).trans raises_handleLeave
  | move => exact (raises_bind_of fun _ => raises_pure _).trans raises_atPlayerTable
  | resign => exact (raises_bind_of fun _ => raises_pure _).trans raises_atPlayerTable
  | draw => exact (raises_bind_of fun _ => raises_pure _).trans raises_atPlayerTable
  | reset => exact (raises_bind_of fun _ => raises_pure _).trans raises_atPlayerTable
  | new => exact iff_true_intro (raises_handleNew.bind fun _ => raises_pure _)
  | join => exact iff_true_intro (raises_handleJoin.bind fun _ => raises_pure _)
  | update => exact iff_true_intro (raises_handleUpdate.bind fun _ => raises_pure _)
  | msg => exact iff_true_intro (raises_handleMsg.bind fun _ => raises_pure _)
  | invite =>
    exact iff_true_intro ((raises_orError.bind fun _ => raises_pure _).bind fun _ => raises_pure _)
  | playerInfo =>
    exact iff_true_intro ((raises_orError.bind fun _ => raises_pure _).bind fun _ => raises_pure _)
  | _ => simp

/-- `hoxSession::handleRequest` returns exactly then. -/
theorem returns_handleRequest :
    Returns (o.handleRequest session request) ↔ o.FindsSeatsFor session request :=
  (returns_catching fun _ => returns_ok _).trans raises_dispatch

theorem raises_handleRequest :
    Raises Raised.IsHoxError (o.handleRequest session request) ↔ o.FindsSeatsFor session request :=
  (raises_iff_returns (raises_catching fun _ => returns_ok _)).trans returns_handleRequest

end

/-! ## The agent -/

theorem raises_readPlayerInfo {sPlayerId input : Bytes} {uninitialized : Int} :
    Raises Raised.IsHoxError (readPlayerInfo sPlayerId uninitialized input) ↔
      HarmlessAnswer input := by
  rw [readPlayerInfo, raises_bind_of, raises_hoxRequest]
  · rfl
  · intro response
    split
    · simp
    · dsimp only
      split
      · simp
      · split <;> simp

theorem raises_readPlayerPut {input : Bytes} :
    Raises Raised.IsHoxError (readPlayerPut input) ↔ HarmlessAnswer input := by
  rw [readPlayerPut, raises_bind_of, raises_hoxRequest]
  · rfl
  · intro response
    split <;> simp

/-- A response with a file that is all there. -/
theorem httpFile_ok {response : Request RequestType} {input : Bytes} :
    (httpFile response input).1 = .ok ↔ response.type = .httpGet ∧
      response.getParam (bytes "code") = bytes "0" ∧
      0 < toSizeT (atoi (response.getParam (bytes "content"))) ∧
      toSizeT (atoi (response.getParam (bytes "content"))) ≤ input.length := by
  rw [httpFile]
  split
  · rename_i htype
    simp [htype]
  · rename_i htype
    split
    · rename_i hcode
      simp [hcode]
    · rename_i hcode
      simp [not_not.mp htype, not_not.mp hcode, ← readNbytes_ok]

/-- A file is loaded exactly if the agent delivers it. -/
theorem returns_loadFile {sFile input : Bytes} :
    Returns (FileMgr.loadFile sFile input) ↔ Delivered input := by
  rw [FileMgr.loadFile, readHttpFile, Delivered]
  cases hparse : Request.parse (answer input) with
  | error e => simp [hoxRequest, hparse, Except.mapError, bind, Except.bind]
  | ok response =>
    have hresponse : hoxRequest (answer input) = .ok response := by
      rw [hoxRequest, hparse]
      rfl
    rw [hresponse]
    simp only [Except.ok.injEq, exists_eq_left', ← httpFile_ok]
    change Returns (if (httpFile response _).1 ≠ .ok then _ else _) ↔ _
    split
    · rename_i hne
      simp [throwHoxError, hne]
    · rename_i hok
      simp [not_not.mp hok]

theorem returns_load {mgr : FileMgr} {sPath input : Bytes} :
    Returns (mgr.load sPath input) ↔ Delivered input := by
  rw [FileMgr.load, returns_catching_of_not fun _ => not_returns_error _, returns_bind_of (by simp),
    returns_loadFile]

/-! ## The thread -/

section

variable {c : Connection} {o : Outside} {request : Request RequestType}

theorem Connection.returns_answering {type : RequestType} {x : Except Raised Connection} :
    Returns (c.answering type x) ↔ Raises Raised.IsHoxError x :=
  returns_catching fun _ => returns_ok _

theorem Connection.returns_inSession {served : Served} {x : Except Raised Connection} :
    Returns (c.inSession served x) ↔ Raises Raised.IsHoxError x :=
  returns_catching fun _ => returns_ok _

theorem raises_createSession {clientType : ClientType} {unread : Bytes} :
    Raises Raised.IsHoxError (c.createSession o request clientType unread) := by
  rw [Connection.createSession]
  split <;> simp

theorem raises_authenticated {clientType : ClientType} {found : Option SessionRef}
    {unread : Bytes} :
    Raises Raised.IsHoxError (c.authenticated o request clientType found unread) := by
  unfold Connection.authenticated
  dsimp only
  split
  · exact raises_createSession
  · split <;> simp

theorem returns_authenticateRequest {clientType : ClientType} {unread : Bytes} :
    Returns (c.authenticateRequest o request clientType unread) := by
  rw [Connection.authenticateRequest, Connection.returns_answering]
  split
  · simp
  · split
    · simp
    · split
      · exact raises_authenticated
      · simp

theorem returns_accept {reading : Reading} : Returns (c.accept o reading) := by
  cases reading with
  | failed result => simp [Connection.accept]
  | get httpRequest => simp [Connection.accept]
  | request request viaHttp unread =>
    rw [Connection.accept]
    split
    · rw [Connection.register, Connection.returns_answering]
      split <;> simp
    · exact returns_authenticateRequest

theorem raises_authenticatePlayer :
    Raises Raised.IsHoxError (Connection.authenticatePlayer o request) ↔
      HarmlessAnswer (o.agent .dbPlayerGet) := by
  rw [Connection.authenticatePlayer, raises_bind_of, raises_readPlayerInfo]
  intro info
  cases info with
  | error result => simp
  | ok playerInfo =>
    dsimp only
    split
    · simp
    · split <;> simp

theorem raises_terminate {served : Served} {input : Bytes} :
    Raises Raised.IsHoxError (c.terminate o served request input) ↔ o.HasSocket served.session :=
  (raises_bind_of fun _ => raises_pure _).trans raises_socket

theorem raises_consume {served : Served} {input : Bytes} :
    Raises Raised.IsHoxError (c.consume o served request input) ↔ o.HasSocket served.session :=
  (raises_bind_of fun _ => raises_pure _).trans raises_socket

theorem raises_handle {bFirst : Bool} {served : Served} {unread : Bytes} :
    Raises Raised.IsHoxError (c.handle o bFirst served request unread) ↔
      o.FindsSeatsFor served.session request ∧
        (Connection.sessionType o served = .polling → o.HasSocket served.session) := by
  have hresponse : ∀ draft, Raises Raised.IsHoxError (do
      if Connection.sessionType o served = .polling then
        o.socket served.session
        if bFirst ∧ o.written = false then throwHoxError .failedToWrite
      return (c.respond draft).goto (.serving served unread)) ↔
        (Connection.sessionType o served = .polling → o.HasSocket served.session) := by
    intro draft
    split
    · rename_i hpolling
      refine (raises_bind_of fun _ => ?_).trans (raises_socket.trans (imp_iff_right hpolling).symm)
      split <;> simp
    · rename_i hpolling
      exact iff_of_true (raises_pure _) fun h => absurd h hpolling
  rw [Connection.handle, raises_bind_iff hresponse, raises_handleRequest, returns_handleRequest]
  exact and_congr_right fun hseats => imp_iff_right hseats

theorem raises_runEventLoop {served : Served} {input : Bytes} :
    Raises Raised.IsHoxError (c.runEventLoop o served input) ↔
      ((o.server.session served.session).state = .active → o.HasSocket served.session ∧
        (nextIncoming (Connection.sessionType o served) o.readEnd input).Harmless) := by
  rw [Connection.runEventLoop]
  split
  · rename_i hactive
    have hread := fun _ : Unit =>
      (raises_bind_of (x := (nextIncoming (Connection.sessionType o served) o.readEnd input).parse)
        fun reading => raises_pure (P := Raised.IsHoxError) (c.serve o served reading)).trans
          Incoming.raises_parse
    refine (raises_bind_iff hread).trans ?_
    rw [raises_socket, returns_socket]
    exact ⟨fun h _ => ⟨h.1, h.2 h.1⟩, fun h => ⟨(h hactive).1, fun _ => (h hactive).2⟩⟩
  · rename_i hactive
    exact iff_of_true (raises_pure _) fun h => absurd h hactive

/-- **A step returns exactly where what it receives and finds is harmless.** -/
theorem returns_step : Returns (c.step o) ↔ Harmless c o := by
  rw [Connection.step, Harmless]
  cases c.place with
  | accepted => exact (returns_bind_of fun _ => returns_accept).trans Incoming.returns_parse
  | gettingFile served sPath => exact (returns_bind_of fun _ => returns_pure _).trans returns_load
  | registering request =>
    change Returns (c.registered o request) ↔ _
    rw [Connection.registered, Connection.returns_answering, raises_bind_of, raises_readPlayerInfo]
    intro info
    cases info <;> simp
  | putting request =>
    change Returns (c.put o request) ↔ _
    rw [Connection.put, Connection.returns_answering, raises_bind_of, raises_readPlayerPut]
    intro result
    split <;> simp
  | authenticating request clientType found unread =>
    rw [Connection.returns_answering, raises_bind_of (fun _ => raises_authenticated),
      raises_authenticatePlayer]
  | replacing request clientType session unread =>
    rw [Connection.returns_answering, raises_bind_of (fun _ => raises_createSession),
      raises_leaveAllTables]
  | terminating served request unread => exact Connection.returns_inSession.trans raises_terminate
  | handling bFirst served request unread =>
    exact Connection.returns_inSession.trans raises_handle
  | serving served unread => exact Connection.returns_inSession.trans raises_runEventLoop
  | consuming served request unread => exact Connection.returns_inSession.trans raises_consume
  | closing served =>
    dsimp only
    split
    · rename_i hdeletes
      rw [returns_bind_of fun _ => returns_pure _, returns_leaveAllTables]
      exact (imp_iff_right hdeletes).symm
    · rename_i hdeletes
      exact iff_of_true (returns_pure _) fun h => absurd h hdeletes
  | ended => simp

end

/-! ## Every run -/

/-- **What ends the server.** For every client, whatever it sends and
whatever happens outside of its thread: nothing gets out of
`handle_session` exactly if each text that is tokenized on the way is well
escaped, each file that a `GET` has to load is delivered, and the seats of
a table and the socket of a session are there where they are read. -/
theorem session_survives_iff (outsides : List Outside) :
    Returns (connections.run {} outsides) ↔ connections.Meets Harmless {} outsides :=
  Machine.returns_run (fun _ _ => returns_step) _ outsides

/-- A first line that is no HTTP request ends the server if it is not well
escaped. -/
theorem not_returns_line {sRequest : Bytes} (hne : sRequest ≠ []) (hline : 10 ∉ sRequest)
    (hlt : sRequest.length < networkMaxMsgSize) (hget : ¬ (bytes "GET").isPrefixOf sRequest)
    (hpost : ¬ (bytes "POST").isPrefixOf sRequest) (hescaped : ¬ separator.WellEscaped sRequest) :
    ¬ Returns (connections.run {} [{ received := sRequest ++ [10] }]) := by
  intro hreturns
  have hmeets := (Machine.returns_run (fun _ _ => returns_step) _ _).mp hreturns
  have hharmless : (firstIncoming .closed (sRequest ++ [10])).Harmless := hmeets.1
  have hread : readLine (sRequest ++ [10]) ReadEnd.closed.result = (.ok, sRequest, []) :=
    readLine_append.mpr ⟨rfl, hline, hlt⟩
  simp [firstIncoming, hread, hne, readHttp, hget, hpost, Incoming.Harmless] at hharmless
  exact hescaped hharmless

/-- A client that logs in with an unknown escape in its name. -/
theorem login_ends_server : ¬ ∀ outsides, Returns (connections.run {} outsides) := by
  intro h
  exact not_returns_line (by decide +kernel) (by decide +kernel) (by decide +kernel)
    (by decide +kernel) (by decide +kernel) (by decide +kernel)
    (h [{ received := bytes "op=LOGIN&pid=a\\q" ++ [10] }])

end HoxServer.Net
