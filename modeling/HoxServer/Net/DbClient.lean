/-
HoxServer.Net.DbClient — the client of the database agent
(`hoxDbClient.cpp`): how the agent's answers are read, and the file
manager over it (`hoxFileMgr.cpp`).

A function takes what the agent sends from the request on. A request that
cannot be written is one that nothing is sent for. The answers are
tokenized like the requests of the clients, so an exception of the
tokenizer may come from here too; `hoxError` is caught where the source
catches it.
-/
import HoxServer.Lib.Exceptions
import HoxServer.Net.Response
import HoxServer.Net.Text

namespace HoxServer.Net

open Lib

/-! ## Exceptions -/

/-- What is raised: a `hoxError`, an exception of the tokenizer, or the end
of the server where an empty file pointer is followed. -/
inductive Raised where
  | hoxError (error : HoxError)
  | escapedListError (error : EscapedListError)
  | nullPointer
  deriving DecidableEq

/-- `throw` of a `hoxError`. -/
def throwHoxError {α : Type} (error : HoxError) : Except Raised α := .error (.hoxError error)

/-- What `catch( hoxError error )` takes. -/
def Raised.hoxError? : Raised → Option HoxError
  | .hoxError error => some error
  | _ => none

/-- `hoxRequest::hoxRequest` on a text. -/
def hoxRequest (requestStr : Bytes) : Except Raised (Request RequestType) :=
  (Request.parse requestStr).mapError .escapedListError

/-! ## Answers -/

/-- The loop of `_read_line`, which has read `commandStr` up to an end of a
line or not. A single end of a line is dropped. -/
def readAnswerFrom (bSawOne : Bool) (commandStr : Bytes) : Bytes → Result × Bytes × Bytes
  | [] => (.err, [], [])
  | c :: input =>
    if c = 10 then
      if bSawOne then (.ok, commandStr, input) else readAnswerFrom true commandStr input
    else if networkMaxMsgSize ≤ (commandStr ++ [c]).length then (.err, [], input)
    else readAnswerFrom false (commandStr ++ [c]) input

/-- `_send_request_over_socket`: the result, the response and what is left to
read. Without a response its text is empty. -/
def sendRequestOverSocket (input : Bytes) : Result × Bytes × Bytes :=
  readAnswerFrom false [] input

/-- The text of the answer. -/
def answer (input : Bytes) : Bytes := (sendRequestOverSocket input).2.1

/-- `Player_t`. -/
structure PlayerInfo where
  id : Bytes := []
  hpw : Bytes := []
  score : Int := 0
  wins : Int := 0
  draws : Int := 0
  losses : Int := 0
  deriving DecidableEq

/-- `_parse_str_player_info`. -/
def parseStrPlayerInfo (input : Bytes) : PlayerInfo :=
  let text (i : Nat) : Bytes := (tokens 59 input)[i]?.getD []
  { id := text 0, score := atoi (text 1), wins := atoi (text 2), draws := atoi (text 3)
    losses := atoi (text 4), hpw := text 5 }

/-- `hoxDbClient::get_player_info`: what is stored into the player, or why
nothing is. -/
def readPlayerInfo (sPlayerId : Bytes) (uninitialized : Int) (input : Bytes) :
    Except Raised (Except Result PlayerInfo) := do
  let response ← hoxRequest (answer input)
  if response.type ≠ .dbPlayerGet then return .error .err
  let nCode := convertTo (response.getParam (bytes "code")) uninitialized
  if nCode = resultCode .notFound then return .error .notFound
  else if nCode ≠ resultCode .ok then return .error .err
  let playerInfo := parseStrPlayerInfo (response.getParam (bytes "content"))
  return if playerInfo.id = sPlayerId then .ok playerInfo else .error .err

/-- `hoxDbClient::put_player_info`. -/
def readPlayerPut (input : Bytes) : Except Raised Result := do
  let response ← hoxRequest (answer input)
  if response.type ≠ .dbPlayerPut then return .err
  return if response.getParam (bytes "code") = bytes "0" then .ok else .err

/-- What `get_http_file` makes of a response: the result, the content of the
file and what is left to read. -/
def httpFile (response : Request RequestType) (input : Bytes) : Result × Bytes × Bytes :=
  if response.type ≠ .httpGet then (.err, [], input)
  else if response.getParam (bytes "code") ≠ bytes "0" then (.err, [], input)
  else
    match readNbytes (toSizeT (atoi (response.getParam (bytes "content")))) input with
    | (result, sFileContent, rest) => (if result = .ok then .ok else .err, sFileContent, rest)

/-- `hoxDbClient::get_http_file`. -/
def readHttpFile (input : Bytes) : Except Raised (Result × Bytes × Bytes) := do
  let response ← hoxRequest (answer input)
  return httpFile response (sendRequestOverSocket input).2.2

/-! ## Files -/

/-- `hoxFile`. -/
structure File where
  sPath : Bytes
  sContent : Bytes
  sType : Bytes
  deriving DecidableEq

/-- `hoxFileMgr`; the files are those whose pointer is not empty. -/
structure FileMgr where
  bCacheEnabled : Bool := false
  bErrorIfNotInCache : Bool := false
  files : Bytes → Option File := fun _ => none

namespace FileMgr

/-- `hoxFileMgr::_getHttpContentType`. -/
def getHttpContentType (sPath : Bytes) : Bytes :=
  -- what follows the last `.`
  let sExtension := if sPath.any (· = 46) then
    (sPath.reverse.takeWhile fun c => c ≠ 46).reverse else []
  if sExtension = bytes "js" then bytes "application/javascript"
  else if sExtension = bytes "png" then bytes "image/png"
  else if sExtension = bytes "css" then bytes "text/css"
  else bytes "text/html"

/-- `hoxFileMgr::_loadFile`. -/
def loadFile (sFile : Bytes) (input : Bytes) : Except Raised File := do
  let (result, sFileContent, _) ← readHttpFile input
  if result ≠ .ok then throwHoxError (.failedToGetFile sFile)
  else return { sPath := sFile, sContent := sFileContent, sType := getHttpContentType sFile }

/-- The file that `hoxFileMgr::getFile` returns without loading one. -/
def cached (mgr : FileMgr) (sPath : Bytes) : Option File :=
  if mgr.bCacheEnabled then
    match mgr.files sPath with
    | some file => some file
    | none =>
      if mgr.bErrorIfNotInCache then
        some { sPath, sContent := bytes "File not found", sType := bytes "text/html" }
      else none
  else none

/-- `hoxFileMgr::getFile` where it loads the file. Its handler writes to the
file that has not been loaded, through the pointer that is still empty. -/
def load (mgr : FileMgr) (sPath : Bytes) (input : Bytes) : Except Raised (FileMgr × File) :=
  catching Raised.hoxError?
    (do
      let file ← loadFile sPath input
      return (if mgr.bCacheEnabled then
        { mgr with files := Function.update mgr.files sPath (some file) } else mgr, file))
    fun _ => .error .nullPointer

/-- `hoxFileMgr::getFile`. -/
def getFile (mgr : FileMgr) (sPath : Bytes) (input : Bytes) : Except Raised (FileMgr × File) :=
  match mgr.cached sPath with
  | some file => .ok (mgr, file)
  | none => mgr.load sPath input

end FileMgr

end HoxServer.Net
