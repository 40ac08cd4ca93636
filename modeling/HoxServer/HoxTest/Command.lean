/-
HoxServer.HoxTest.Command — how the test client reads a text of the
server: `hoxCommand.cpp`, `hoxCommon.cpp`.

A response is cut at each `&`, and into a name and a value at the first
`=` of each part (`stringToCommand`). Nothing that the server prints is
escaped, so a `&` in a content ends it there. The readers of a content go
through its tokens and count them; `readTokens` is this loop. A time is
read by the server itself too (`stringToTimeInfo`), so there are two
readers for what `timeInfoToString` prints, and both get the time back.
-/
import HoxServer.Lib.Tokens
import HoxServer.Net.Response
import HoxServer.Net.Text
import Mathlib.Data.List.DropRight

namespace HoxServer.HoxTest

open Lib HoxServer.Net

/-! ## The readers -/

/-- The loop of a reader, which has seen `i` tokens: `field` is its
`switch`. -/
def readTokens {α : Type} (field : ℕ → Bytes → α → α) : ℕ → List Bytes → α → α
  | _, [], a => a
  | i, token :: rest, a => readTokens field (i + 1) rest (field i token a)

/-- The `switch` of `StringToTimeInfo`. -/
def timeField (i : ℕ) (token : Bytes) (timeInfo : TimeInfo) : TimeInfo :=
  if i = 0 then { timeInfo with nGame := atoi token }
  else if i = 1 then { timeInfo with nMove := atoi token }
  else if i = 2 then { timeInfo with nFree := atoi token }
  else timeInfo

/-- `hoxUtil::StringToTimeInfo`. -/
def stringToTimeInfo (sInput : Bytes) : TimeInfo :=
  readTokens timeField 0 (Net.tokens 47 sInput) {}

/-- `hoxUtil::StringToGameStatus`. -/
def stringToGameStatus (sInput : Bytes) : GameStatus :=
  if sInput = bytes "UNKNOWN" then .unknown
  else if sInput = bytes "open" then .open
  else if sInput = bytes "ready" then .ready
  else if sInput = bytes "in_progress" then .inProgress
  else if sInput = bytes "red_win" then .redWin
  else if sInput = bytes "black_win" then .blackWin
  else if sInput = bytes "drawn" then .drawn
  else .unknown

/-- What `Parse_InCommand_MOVE` returns. -/
structure InMove where
  tableId : Bytes := []
  playerId : Bytes := []
  sMove : Bytes := []
  gameStatus : GameStatus := .unknown
  deriving DecidableEq

/-- The `switch` of `Parse_InCommand_MOVE`. -/
def moveField (i : ℕ) (token : Bytes) (move : InMove) : InMove :=
  if i = 0 then { move with tableId := token }
  else if i = 1 then { move with playerId := token }
  else if i = 2 then { move with sMove := token }
  else if i = 3 then { move with gameStatus := stringToGameStatus token }
  else move

/-- `hoxCommand::Parse_InCommand_MOVE`. -/
def parseInCommandMove (sInput : Bytes) : InMove :=
  readTokens moveField 0 (Net.tokens 59 sInput) {}

/-! ## Commands -/

/-- `boost::trim_right`. -/
def trimRight (s : Bytes) : Bytes := s.rdropWhile isSpace

/-- `hoxCommand`. -/
structure Command where
  type : Bytes := []
  parameters : Parameters := SortedMap.empty

/-- `hoxCommand::operator[]`. -/
def Command.parameter (command : Command) (paramName : Bytes) : Bytes :=
  (command.parameters.get? paramName).getD []

/-- One round of the loop of `String_To_Command`. -/
def Command.take (command : Command) (token : Bytes) : Command :=
  -- an 'error' token
  if 61 ∉ token then command
  else if (nameValue token).1 = bytes "op" then { command with type := (nameValue token).2 }
  else
    { command with
      parameters := command.parameters.set (nameValue token).1 (trimRight (nameValue token).2) }

/-- `hoxCommand::String_To_Command`. -/
def stringToCommand (sInput : Bytes) : Command :=
  (Net.tokens 38 sInput).foldl Command.take {}

/-- The content of a response as the client has it. -/
def content (draft : Draft) : Bytes :=
  (stringToCommand draft.response.toString).parameter (bytes "content")

theorem Command.parameter_set (command : Command) (name value paramName : Bytes) :
    Command.parameter { command with parameters := command.parameters.set name value } paramName =
      if paramName = name then value else command.parameter paramName := by
  simp only [Command.parameter, SortedMap.get?_set]
  split <;> rfl

/-- A token is stored under its name. -/
theorem Command.parameter_take {command : Command} {token : Bytes} (paramName : Bytes) :
    (command.take token).parameter paramName =
      if 61 ∈ token ∧ (nameValue token).1 ≠ bytes "op" ∧ paramName = (nameValue token).1 then
        trimRight (nameValue token).2
      else command.parameter paramName := by
  unfold Command.take
  split
  · rename_i hno
    rw [if_neg fun h => hno h.1]
  · rename_i heq
    split
    · rename_i hop
      rw [if_neg fun h => h.2.1 hop]
      rfl
    · rename_i hop
      rw [Command.parameter_set]
      simp [not_not.mp heq, hop]

/-- What a command holds is of the tokens. -/
theorem Command.mem_parameter_foldl {c : UInt8} {paramName : Bytes} {tokens : List Bytes}
    {command : Command} (h : c ∈ (tokens.foldl Command.take command).parameter paramName) :
    c ∈ command.parameter paramName ∨ ∃ token ∈ tokens, c ∈ token := by
  induction tokens generalizing command with
  | nil => exact Or.inl h
  | cons token tokens ih =>
    rcases ih h with hc | ⟨token', hmem, hc⟩
    · rw [Command.parameter_take] at hc
      split at hc
      · have hvalue : (nameValue token).2.Sublist token :=
          (List.tail_sublist _).trans (List.dropWhile_sublist _)
        exact Or.inr ⟨token, List.mem_cons_self,
          hvalue.subset ((List.rdropWhile_prefix _ _).subset hc)⟩
      · exact Or.inl hc
    · exact Or.inr ⟨token', List.mem_cons_of_mem _ hmem, hc⟩

/-- **No value of a command has a `&`**: the tokens have none. -/
theorem not_mem_content (draft : Draft) : 38 ∉ content draft := by
  intro h
  rcases Command.mem_parameter_foldl h with h | ⟨token, htoken, h⟩
  · exact absurd h List.not_mem_nil
  · exact (of_mem_tokens htoken).2 h

/-! ## Times -/

/-- A time on the wire, as fields. -/
theorem timeInfoToString_eq (time : TimeInfo) : timeInfoToString time =
    Framing.line 47 [intToString time.nGame, intToString time.nMove, intToString time.nFree] := by
  simp only [timeInfoToString, Framing.line_cons_cons, Framing.line_singleton, List.append_assoc]
  rfl

theorem tokens_timeInfoToString (time : TimeInfo) : Net.tokens 47 (timeInfoToString time) =
    [intToString time.nGame, intToString time.nMove, intToString time.nFree] := by
  rw [timeInfoToString_eq]
  refine tokens_line.mpr fun f hf => ?_
  simp only [List.mem_cons, List.not_mem_nil, or_false] at hf
  rcases hf with rfl | rfl | rfl <;> exact intToString_token (by decide) _

/-- **A time survives the wire**, read by the server or by the client: any
three numbers of an `int` do. -/
theorem time_round_trip {time : TimeInfo} (hgame : toInt32 time.nGame = time.nGame)
    (hmove : toInt32 time.nMove = time.nMove) (hfree : toInt32 time.nFree = time.nFree) :
    Net.stringToTimeInfo (timeInfoToString time) = time ∧
      stringToTimeInfo (timeInfoToString time) = time := by
  constructor
  · simp [Net.stringToTimeInfo, tokens_timeInfoToString, atoi_intToString, hgame, hmove, hfree]
  · simp [stringToTimeInfo, tokens_timeInfoToString, readTokens, timeField, atoi_intToString,
      hgame, hmove, hfree]

theorem time_round_trip_limits :
    Net.stringToTimeInfo (timeInfoToString ⟨2147483647, -2147483648, -1⟩) =
        ⟨2147483647, -2147483648, -1⟩ ∧
      stringToTimeInfo (timeInfoToString ⟨2147483647, -2147483648, -1⟩) =
        ⟨2147483647, -2147483648, -1⟩ :=
  time_round_trip (by decide) (by decide) (by decide)

end HoxServer.HoxTest
