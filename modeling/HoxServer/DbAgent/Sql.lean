/-
HoxServer.DbAgent.Sql — the statements that `hoxDBAPI.cpp` hands to
`sqlite3_exec`, and what SQLite reads of them.

The functions put the texts they are given between quotes as they are.
`Lib.Lexer` says what follows from that; here are the statements, the
tokens that each is meant to have, and which row it is meant for.
-/
import HoxServer.Lib.QuotedText
import HoxServer.Net.DbClient

namespace HoxServer.DbAgent

open Lib HoxServer.Net

/-! ## The tokens of SQLite -/

inductive SqlToken where
  | word (text : Bytes)
  | name (text : Bytes)
  | symbol (c : UInt8)
  deriving DecidableEq

/-- Where the reader of a statement is, outside the literals. -/
inductive SqlMode where
  | between
  | word (text : Bytes)
  | symbol (c : UInt8)
  | lineComment
  | blockComment (sawStar : Bool)
  | name (text : Bytes)
  | nameEnd (text : Bytes)
  deriving DecidableEq

/-- A blank of a statement. -/
def isSqlBlank (c : UInt8) : Bool := c == 32 || c == 9 || c == 10 || c == 12 || c == 13

/-- A character of a word or a number. -/
def isSqlWord (c : UInt8) : Bool :=
  (48 ≤ c && c ≤ 57) || (65 ≤ c && c ≤ 90) || (97 ≤ c && c ≤ 122) || c == 95 || c == 36 || 128 ≤ c

/-- A character with nothing before it. -/
def sqlBegin (c : UInt8) : SqlMode :=
  if isSqlBlank c then .between
  else if isSqlWord c then .word [c]
  else if c = 34 then .name []
  else .symbol c

/-- A character outside the literals. Two `-` begin a comment, and so does a
`*` after a `/`. -/
def sqlStep : SqlMode → UInt8 → List SqlToken × SqlMode
  | .between, c => ([], sqlBegin c)
  | .word text, c =>
    if isSqlWord c then ([], .word (text ++ [c])) else ([.word text], sqlBegin c)
  | .symbol d, c =>
    if d = 45 ∧ c = 45 then ([], .lineComment)
    else if d = 47 ∧ c = 42 then ([], .blockComment false)
    else ([.symbol d], sqlBegin c)
  | .lineComment, c => ([], if c = 10 then .between else .lineComment)
  | .blockComment sawStar, c =>
    ([], if sawStar && c == 47 then .between else .blockComment (c == 42))
  | .name text, c => ([], if c = 34 then .nameEnd text else .name (text ++ [c]))
  | .nameEnd text, c =>
    if c = 34 then ([], .name (text ++ [c])) else ([.name text], sqlBegin c)

/-- The token that a quote or the end of the statement ends. -/
def sqlFlush : SqlMode → List SqlToken
  | .word text => [.word text]
  | .symbol c => [.symbol c]
  | .nameEnd text => [.name text]
  | .between | .lineComment | .blockComment _ | .name _ => []

/-- In a comment or a name a quote opens no literal. -/
def sqlOpens : SqlMode → Option (List SqlToken)
  | .lineComment | .blockComment _ | .name _ => none
  | mode => some (sqlFlush mode)

/-- A name must be closed. -/
def sqlFinish : SqlMode → Option (List SqlToken)
  | .name _ => none
  | mode => some (sqlFlush mode)

/-- How SQLite reads a statement. -/
def sqlite : Lexer UInt8 SqlToken SqlMode where
  quote := 39
  nul := 0
  nul_ne_quote := by decide
  start := .between
  step := sqlStep
  opens := sqlOpens
  finish := sqlFinish

/-- What `sqlite3_exec` reads of a statement. -/
def sqliteTokens (sSQL : Bytes) : Option (List (Lexer.Token UInt8 SqlToken)) := sqlite.tokens sSQL

/-! ## The statements -/

/-- `sSQL` of `put_player_info`. -/
def putPlayerInfo (playerInfo : PlayerInfo) (sEmail : Bytes) : Bytes :=
  bytes "INSERT INTO players (pid, score, hpassword, email) VALUES " ++ bytes "('" ++
    playerInfo.id ++ bytes "'" ++ bytes " ,'" ++ intToString playerInfo.score ++ bytes "'" ++
    bytes " ,'" ++ playerInfo.hpw ++ bytes "'" ++ bytes " ,'" ++ sEmail ++ bytes "'" ++ bytes ")"

/-- `sSQL` of `get_player_info`. -/
def getPlayerInfo (pid : Bytes) : Bytes :=
  bytes "SELECT * FROM players WHERE pid = '" ++ pid ++ bytes "'" ++ bytes "LIMIT 1"

/-- What `set_player_info` appends for the result of a game. -/
def resultSet (sGameResult : Bytes) : Bytes :=
  if sGameResult = bytes "W" then bytes ", wins = wins+1"
  else if sGameResult = bytes "D" then bytes ", draws = draws+1"
  else if sGameResult = bytes "L" then bytes ", losses = losses+1"
  else []

/-- `sSQL` of `set_player_info`. -/
def setPlayerInfo (playerInfo : PlayerInfo) (sGameResult : Bytes) : Bytes :=
  bytes "UPDATE players SET score = '" ++ intToString playerInfo.score ++ bytes "'" ++
    resultSet sGameResult ++ bytes " WHERE pid = '" ++ playerInfo.id ++ bytes "'"

/-- `sSQL` of `set_profile_info`. -/
def setProfileInfo (pid sEmail sPassword : Bytes) : Bytes :=
  bytes "UPDATE players SET email = '" ++ sEmail ++ bytes "'" ++
    (if sPassword = [] then [] else bytes ", hpassword = '" ++ sPassword ++ bytes "'") ++
    bytes " WHERE pid = '" ++ pid ++ bytes "'"

/-- `sSQL` of `set_player_password`. -/
def setPlayerPassword (playerInfo : PlayerInfo) : Bytes :=
  bytes "UPDATE players SET hpassword = '" ++ playerInfo.hpw ++ bytes "'" ++
    bytes " WHERE pid = '" ++ playerInfo.id ++ bytes "'"

/-! ## What they are meant to say -/

/-- A call of one of the five functions. -/
inductive SqlCall where
  | putPlayerInfo (playerInfo : PlayerInfo) (sEmail : Bytes)
  | getPlayerInfo (pid : Bytes)
  | setPlayerInfo (playerInfo : PlayerInfo) (sGameResult : Bytes)
  | setProfileInfo (pid sEmail sPassword : Bytes)
  | setPlayerPassword (playerInfo : PlayerInfo)

/-- The text of `sSQL`. -/
def SqlCall.sSQL : SqlCall → Bytes
  | putPlayerInfo playerInfo sEmail => DbAgent.putPlayerInfo playerInfo sEmail
  | getPlayerInfo pid => DbAgent.getPlayerInfo pid
  | setPlayerInfo playerInfo sGameResult => DbAgent.setPlayerInfo playerInfo sGameResult
  | setProfileInfo pid sEmail sPassword => DbAgent.setProfileInfo pid sEmail sPassword
  | setPlayerPassword playerInfo => DbAgent.setPlayerPassword playerInfo

/-- The ids, hashes and emails that a call puts into its statement. -/
def SqlCall.texts : SqlCall → List Bytes
  | putPlayerInfo playerInfo sEmail => [playerInfo.id, playerInfo.hpw, sEmail]
  | getPlayerInfo pid => [pid]
  | setPlayerInfo playerInfo _ => [playerInfo.id]
  | setProfileInfo pid sEmail sPassword => [sEmail, sPassword, pid]
  | setPlayerPassword playerInfo => [playerInfo.hpw, playerInfo.id]

/-- The id of the row that a statement is for; an INSERT is for none. -/
def SqlCall.pid : SqlCall → Option Bytes
  | putPlayerInfo _ _ => none
  | getPlayerInfo pid => some pid
  | setPlayerInfo playerInfo _ => some playerInfo.id
  | setProfileInfo pid _ _ => some pid
  | setPlayerPassword playerInfo => some playerInfo.id

/-! The tokens that the statements are meant to have. -/

abbrev SqlTokens := List (Lexer.Token UInt8 SqlToken)

def plain (tokens : List SqlToken) : SqlTokens := tokens.map .plain

def literal (value : Bytes) : SqlTokens := [.literal value]

def word (text : String) : SqlToken := .word (bytes text)

def comma : SqlToken := .symbol 44

def leftParen : SqlToken := .symbol 40

def rightParen : SqlToken := .symbol 41

def equals : SqlToken := .symbol 61

def plus : SqlToken := .symbol 43

def star : SqlToken := .symbol 42

/-- The beginning of an UPDATE of a column. -/
def updateTokens (column : String) : List SqlToken :=
  [word "UPDATE", word "players", word "SET", word column, equals]

/-- The beginning of the clause that names the row. -/
def whereTokens : List SqlToken := [word "WHERE", word "pid", equals]

/-- One is added to a column. -/
def countTokens (column : String) : List SqlToken :=
  [comma, word column, equals, word column, plus, word "1"]

def resultTokens (sGameResult : Bytes) : List SqlToken :=
  if sGameResult = bytes "W" then countTokens "wins"
  else if sGameResult = bytes "D" then countTokens "draws"
  else if sGameResult = bytes "L" then countTokens "losses"
  else []

def insertTokens : List SqlToken :=
  [word "INSERT", word "INTO", word "players", leftParen, word "pid", comma, word "score", comma,
    word "hpassword", comma, word "email", rightParen, word "VALUES", leftParen]

def SqlCall.meant : SqlCall → SqlTokens
  | putPlayerInfo playerInfo sEmail =>
    plain insertTokens ++ literal playerInfo.id ++ plain [comma] ++
      literal (intToString playerInfo.score) ++ plain [comma] ++ literal playerInfo.hpw ++
      plain [comma] ++ literal sEmail ++ plain [rightParen]
  | getPlayerInfo pid =>
    plain [word "SELECT", star, word "FROM", word "players"] ++ plain whereTokens ++ literal pid ++
      plain [word "LIMIT", word "1"]
  | setPlayerInfo playerInfo sGameResult =>
    plain (updateTokens "score") ++ literal (intToString playerInfo.score) ++
      plain (resultTokens sGameResult) ++ plain whereTokens ++ literal playerInfo.id
  | setProfileInfo pid sEmail sPassword =>
    plain (updateTokens "email") ++ literal sEmail ++
      (if sPassword = [] then [] else
        plain [comma, word "hpassword", equals] ++ literal sPassword) ++
      plain whereTokens ++ literal pid
  | setPlayerPassword playerInfo =>
    plain (updateTokens "hpassword") ++ literal playerInfo.hpw ++ plain whereTokens ++
      literal playerInfo.id

/-- A statement is restricted to the row of this id: what it says from its
`WHERE` on is that the pid is this one, and at most that one row will do. -/
def RestrictedTo (tokens : SqlTokens) (row : Bytes) : Prop :=
  tokens.dropWhile (fun token => token ≠ .plain (word "WHERE")) = plain whereTokens ++ literal row ∨
    tokens.dropWhile (fun token => token ≠ .plain (word "WHERE")) =
      plain whereTokens ++ literal row ++ plain [word "LIMIT", word "1"]

/-- SQLite reads what is meant, and the statement is restricted to the row
that it is for. -/
def SqlCall.Faithful (call : SqlCall) : Prop :=
  sqliteTokens call.sSQL = some call.meant ∧
    ∀ pid, call.pid = some pid → ∀ row,
      (∃ tokens, sqliteTokens call.sSQL = some tokens ∧ RestrictedTo tokens row) ↔ row = pid

/-! ## The fixed parts of the statements -/

theorem opens_of {text : Bytes} {tokens : List SqlToken}
    (h : text ≠ [] ∧ sqlite.quote ∉ text ∧ sqlite.nul ∉ text ∧
      sqlite.run (.outside sqlite.start) (text ++ [sqlite.quote]) =
        (tokens.map .plain, .inside [])) : sqlite.Opens text tokens :=
  ⟨h.1, h.2.1, h.2.2.1, h.2.2.2⟩

theorem opens_update :
    sqlite.Opens (bytes "UPDATE players SET score = ") (updateTokens "score") ∧
      sqlite.Opens (bytes "UPDATE players SET email = ") (updateTokens "email") ∧
      sqlite.Opens (bytes "UPDATE players SET hpassword = ") (updateTokens "hpassword") :=
  ⟨opens_of (by decide +kernel), opens_of (by decide +kernel), opens_of (by decide +kernel)⟩

theorem opens_where : sqlite.Opens (bytes " WHERE pid = ") whereTokens :=
  opens_of (by decide +kernel)

theorem opens_comma : sqlite.Opens (bytes " ,") [comma] := opens_of (by decide +kernel)

theorem opens_result (sGameResult : Bytes) :
    sqlite.Opens (resultSet sGameResult ++ bytes " WHERE pid = ")
      (resultTokens sGameResult ++ whereTokens) := by
  unfold resultSet resultTokens
  split
  · exact opens_of (by decide +kernel)
  · split
    · exact opens_of (by decide +kernel)
    · split
      · exact opens_of (by decide +kernel)
      · exact opens_where

theorem ends_nil : sqlite.Ends [] [] := ⟨by decide, by decide, by decide⟩

/-! ## What SQLite reads -/

theorem clean_intToString (n : Int) : sqlite.Clean (intToString n) :=
  ⟨not_mem_intToString (by decide) n, not_mem_intToString (by decide) n⟩

variable {start sSQL : Bytes} {opening : List SqlToken} {meant : SqlTokens}
  {piece : Lexer.Piece UInt8 SqlToken} {pieces : List (Lexer.Piece UInt8 SqlToken)}

/-- A statement of fixed texts and quoted values. -/
theorem sqliteTokens_iff (hstart : sqlite.Opens start opening)
    (hfixed : sqlite.Fixed (piece :: pieces))
    (hsql : sSQL = start ++ sqlite.piecesText (piece :: pieces))
    (hmeant : meant = plain opening ++ Lexer.meant (piece :: pieces)) :
    sqliteTokens sSQL = some meant ↔ ∀ p ∈ piece :: pieces, sqlite.Clean p.value := by
  rw [hsql, hmeant]
  exact Lexer.tokens_text hstart hfixed

theorem quoted_texts : bytes "'" = [39] ∧ bytes " ,'" = bytes " ," ++ [39] ∧
    bytes " WHERE pid = '" = bytes " WHERE pid = " ++ [39] ∧
    bytes ", hpassword = '" = bytes ", hpassword = " ++ [39] := by decide

theorem quote_sqlite : sqlite.quote = 39 := rfl

theorem putPlayerInfo_reads (playerInfo : PlayerInfo) (sEmail : Bytes) :
    sqliteTokens (putPlayerInfo playerInfo sEmail) =
        some (SqlCall.putPlayerInfo playerInfo sEmail).meant ↔
      ∀ text ∈ [playerInfo.id, playerInfo.hpw, sEmail], sqlite.Clean text := by
  have hinsert : bytes "('" = bytes "(" ++ [39] := by decide
  have hopens : sqlite.Opens (bytes "INSERT INTO players (pid, score, hpassword, email) VALUES " ++
      bytes "(") insertTokens := opens_of (by decide +kernel)
  have hends : sqlite.Ends (bytes ")") [rightParen] := ⟨by decide, by decide, by decide⟩
  have hfixed : sqlite.Fixed [⟨playerInfo.id, bytes " ,", [comma]⟩,
      ⟨intToString playerInfo.score, bytes " ,", [comma]⟩,
      ⟨playerInfo.hpw, bytes " ,", [comma]⟩, ⟨sEmail, bytes ")", [rightParen]⟩] :=
    ⟨opens_comma, opens_comma, opens_comma, hends⟩
  refine (sqliteTokens_iff hopens hfixed ?_ ?_).trans ?_
  · simp [putPlayerInfo, hinsert, quoted_texts, quote_sqlite, Lexer.piecesText]
  · simp [SqlCall.meant, Lexer.meant, plain, literal]
  · simp [clean_intToString]

theorem getPlayerInfo_reads (pid : Bytes) :
    sqliteTokens (getPlayerInfo pid) = some (SqlCall.getPlayerInfo pid).meant ↔
      ∀ text ∈ [pid], sqlite.Clean text := by
  have hselect : bytes "SELECT * FROM players WHERE pid = '" =
      bytes "SELECT * FROM players WHERE pid = " ++ [39] := by decide
  have hopens : sqlite.Opens (bytes "SELECT * FROM players WHERE pid = ")
      ([word "SELECT", star, word "FROM", word "players"] ++ whereTokens) :=
    opens_of (by decide +kernel)
  have hends : sqlite.Ends (bytes "LIMIT 1") [word "LIMIT", word "1"] :=
    ⟨by decide, by decide, by decide⟩
  have hfixed : sqlite.Fixed [⟨pid, bytes "LIMIT 1", [word "LIMIT", word "1"]⟩] := hends
  refine (sqliteTokens_iff hopens hfixed ?_ ?_).trans ?_
  · simp [getPlayerInfo, hselect, quoted_texts, quote_sqlite, Lexer.piecesText]
  · simp [SqlCall.meant, Lexer.meant, plain, literal]
  · simp

theorem setPlayerInfo_reads (playerInfo : PlayerInfo) (sGameResult : Bytes) :
    sqliteTokens (setPlayerInfo playerInfo sGameResult) =
        some (SqlCall.setPlayerInfo playerInfo sGameResult).meant ↔
      ∀ text ∈ [playerInfo.id], sqlite.Clean text := by
  have hupdate : bytes "UPDATE players SET score = '" =
      bytes "UPDATE players SET score = " ++ [39] := by decide
  have hfixed : sqlite.Fixed [⟨intToString playerInfo.score,
      resultSet sGameResult ++ bytes " WHERE pid = ", resultTokens sGameResult ++ whereTokens⟩,
      ⟨playerInfo.id, [], []⟩] := ⟨opens_result sGameResult, ends_nil⟩
  refine (sqliteTokens_iff opens_update.1 hfixed ?_ ?_).trans ?_
  · simp [setPlayerInfo, hupdate, quoted_texts, quote_sqlite, Lexer.piecesText]
  · simp [SqlCall.meant, Lexer.meant, plain, literal]
  · simp [clean_intToString]

theorem setProfileInfo_reads (pid sEmail sPassword : Bytes) :
    sqliteTokens (setProfileInfo pid sEmail sPassword) =
        some (SqlCall.setProfileInfo pid sEmail sPassword).meant ↔
      ∀ text ∈ [sEmail, sPassword, pid], sqlite.Clean text := by
  have hupdate : bytes "UPDATE players SET email = '" =
      bytes "UPDATE players SET email = " ++ [39] := by decide
  have hopens := opens_update.2.1
  by_cases hpassword : sPassword = []
  · subst hpassword
    have hclean : sqlite.Clean [] := ⟨List.not_mem_nil, List.not_mem_nil⟩
    have hfixed : sqlite.Fixed [⟨sEmail, bytes " WHERE pid = ", whereTokens⟩, ⟨pid, [], []⟩] :=
      ⟨opens_where, ends_nil⟩
    refine (sqliteTokens_iff hopens hfixed ?_ ?_).trans ?_
    · simp [setProfileInfo, hupdate, quoted_texts, quote_sqlite, Lexer.piecesText]
    · simp [SqlCall.meant, Lexer.meant, plain, literal]
    · simp [hclean]
  · have hset : sqlite.Opens (bytes ", hpassword = ") [comma, word "hpassword", equals] :=
      opens_of (by decide +kernel)
    have hfixed : sqlite.Fixed [⟨sEmail, bytes ", hpassword = ", [comma, word "hpassword", equals]⟩,
        ⟨sPassword, bytes " WHERE pid = ", whereTokens⟩, ⟨pid, [], []⟩] :=
      ⟨hset, opens_where, ends_nil⟩
    refine (sqliteTokens_iff hopens hfixed ?_ ?_).trans ?_
    · simp [setProfileInfo, hpassword, hupdate, quoted_texts, quote_sqlite, Lexer.piecesText]
    · simp [SqlCall.meant, hpassword, Lexer.meant, plain, literal]
    · simp

theorem setPlayerPassword_reads (playerInfo : PlayerInfo) :
    sqliteTokens (setPlayerPassword playerInfo) =
        some (SqlCall.setPlayerPassword playerInfo).meant ↔
      ∀ text ∈ [playerInfo.hpw, playerInfo.id], sqlite.Clean text := by
  have hupdate : bytes "UPDATE players SET hpassword = '" =
      bytes "UPDATE players SET hpassword = " ++ [39] := by decide
  have hfixed : sqlite.Fixed [⟨playerInfo.hpw, bytes " WHERE pid = ", whereTokens⟩,
      ⟨playerInfo.id, [], []⟩] := ⟨opens_where, ends_nil⟩
  refine (sqliteTokens_iff opens_update.2.2 hfixed ?_ ?_).trans ?_
  · simp [setPlayerPassword, hupdate, quoted_texts, quote_sqlite, Lexer.piecesText]
  · simp [SqlCall.meant, Lexer.meant, plain, literal]
  · simp

/-- **A statement is read as it is meant** when the texts in it are clean. -/
theorem sSQL_reads (call : SqlCall) :
    sqliteTokens call.sSQL = some call.meant ↔ ∀ text ∈ call.texts, sqlite.Clean text := by
  cases call with
  | putPlayerInfo playerInfo sEmail => exact putPlayerInfo_reads playerInfo sEmail
  | getPlayerInfo pid => exact getPlayerInfo_reads pid
  | setPlayerInfo playerInfo sGameResult => exact setPlayerInfo_reads playerInfo sGameResult
  | setProfileInfo pid sEmail sPassword => exact setProfileInfo_reads pid sEmail sPassword
  | setPlayerPassword playerInfo => exact setPlayerPassword_reads playerInfo

/-! ## The row of a statement -/

/-- What comes before the `WHERE` of a statement. -/
theorem restrictedTo_append {before after : SqlTokens} {pid row : Bytes}
    (hbefore : .plain (word "WHERE") ∉ before)
    (hafter : after = [] ∨ after = plain [word "LIMIT", word "1"]) :
    RestrictedTo (before ++ plain whereTokens ++ literal pid ++ after) row ↔ row = pid := by
  have hdrop : (before ++ plain whereTokens ++ literal pid ++ after).dropWhile
      (fun token => token ≠ .plain (word "WHERE")) =
        plain whereTokens ++ literal pid ++ after := by
    have hall : ∀ token ∈ before, decide (token ≠ .plain (word "WHERE")) = true :=
      fun token htoken => decide_eq_true fun he => hbefore (he ▸ htoken)
    rw [List.append_assoc, List.append_assoc, List.dropWhile_append_of_pos hall]
    simp [plain, whereTokens]
  unfold RestrictedTo
  rw [hdrop]
  rw [@eq_comm _ row]
  rcases hafter with rfl | rfl <;> simp [literal, plain]

theorem where_notMem_result (sGameResult : Bytes) :
    word "WHERE" ∉ resultTokens sGameResult := by
  unfold resultTokens
  split
  · decide
  · split
    · decide
    · split
      · decide
      · exact List.not_mem_nil

theorem plain_notMem_append {token : SqlToken} {front back : SqlTokens} :
    .plain token ∉ front ++ back ↔ .plain token ∉ front ∧ .plain token ∉ back := by
  simp

theorem plain_notMem_plain {token : SqlToken} {tokens : List SqlToken} :
    .plain token ∉ plain tokens ↔ token ∉ tokens := by
  simp [plain]

theorem plain_notMem_literal (token : SqlToken) (value : Bytes) :
    .plain token ∉ literal value := by
  simp [literal]

/-- What a statement is meant to say restricts it to its row. -/
theorem restrictedTo_meant {call : SqlCall} {pid row : Bytes} (hpid : call.pid = some pid) :
    RestrictedTo call.meant row ↔ row = pid := by
  have hrestricted {before : SqlTokens} (h : .plain (word "WHERE") ∉ before) :
      RestrictedTo (before ++ plain whereTokens ++ literal pid) row ↔ row = pid := by
    rw [← restrictedTo_append h (Or.inl rfl), List.append_nil]
  cases call with
  | putPlayerInfo playerInfo sEmail => cases hpid
  | getPlayerInfo pid =>
    cases hpid
    exact restrictedTo_append (by decide +kernel) (Or.inr rfl)
  | setPlayerInfo playerInfo sGameResult =>
    cases hpid
    refine hrestricted (plain_notMem_append.mpr ⟨plain_notMem_append.mpr ⟨?_, ?_⟩, ?_⟩)
    · exact plain_notMem_plain.mpr (by decide)
    · exact plain_notMem_literal _ _
    · exact plain_notMem_plain.mpr (where_notMem_result sGameResult)
  | setProfileInfo pid sEmail sPassword =>
    cases hpid
    refine hrestricted (plain_notMem_append.mpr ⟨plain_notMem_append.mpr ⟨?_, ?_⟩, ?_⟩)
    · exact plain_notMem_plain.mpr (by decide)
    · exact plain_notMem_literal _ _
    · split
      · exact List.not_mem_nil
      · exact plain_notMem_append.mpr
          ⟨plain_notMem_plain.mpr (by decide), plain_notMem_literal _ _⟩
  | setPlayerPassword playerInfo =>
    cases hpid
    refine hrestricted (plain_notMem_append.mpr ⟨?_, ?_⟩)
    · exact plain_notMem_plain.mpr (by decide)
    · exact plain_notMem_literal _ _

/-- **When a statement says what it is meant to say**: when there is neither a
quote nor a zero byte in the id, the hash and the email. -/
theorem SqlCall.faithful_iff (call : SqlCall) :
    call.Faithful ↔ ∀ text ∈ call.texts, 39 ∉ text ∧ 0 ∉ text := by
  have hreads : sqliteTokens call.sSQL = some call.meant ↔
      ∀ text ∈ call.texts, 39 ∉ text ∧ 0 ∉ text := sSQL_reads call
  rw [← hreads]
  refine ⟨fun h => h.1, fun h => ⟨h, fun pid hpid row => ?_⟩⟩
  rw [← restrictedTo_meant hpid, h]
  simp

/-- An id with a quote is every row's. -/
theorem every_row_selected :
    sqliteTokens (getPlayerInfo (bytes "x' OR '1'='1")) =
        some (plain [word "SELECT", star, word "FROM", word "players"] ++ plain whereTokens ++
          literal (bytes "x") ++ plain [word "OR"] ++ literal (bytes "1") ++ plain [equals] ++
          literal (bytes "1") ++ plain [word "LIMIT", word "1"]) ∧
      ¬ (SqlCall.getPlayerInfo (bytes "x' OR '1'='1")).Faithful := by
  refine ⟨by decide +kernel, fun h => ?_⟩
  exact absurd h.1 (by decide +kernel)

end HoxServer.DbAgent
