/-
HoxServer.HoxTest.MoveEvents — the moves of a table, written by the
server and read by a client.

A move is printed as it was received. So it is read back as long as its
four characters are not the ones that separate moves, fields and
parameters, `/`, `;` and `&`. The origin of a move that is accepted holds
a piece, so it is written with digits; the destination is not looked at,
and off the board it may be written with these three: `/` is the
coordinate -1, `;` is 11 and `&` is -10.
-/
import HoxServer.HoxTest.Command
import HoxServer.Table.Finished

namespace HoxServer

/-! ## Moves that a table records -/

namespace Table

variable {t t' : Table} {player : PlayerRef} {sMove m : Bytes} {now : Int} {op : TableOp}
  {res : Result} {e : Option GameStatus} {ids : PlayerRef → Bytes}

/-- The player has the turn in a game that is on or about to be, and the
piece may make the move. -/
structure MayMove (t : Table) (player : PlayerRef) (sMove : Bytes) : Prop where
  status : t.status = .ready ∨ t.status = .inProgress
  turn : t.HasTurn player
  passes : ∃ x y X Y r, sMove = [x, y, X, Y] ∧
    t.referee.getPieceAt (Referee.charPosition x y) = some r ∧
    t.referee.Passes r (Referee.charPosition X Y)

theorem MoveMade.mayMove {v : Board.Verdict} {s : GameStatus} (hl : t.referee.Lawful)
    (h : t.MoveMade player sMove v t' s) : t.MayMove player sMove := by
  obtain ⟨r, q, ⟨x, y, X, Y, hs, hr, rfl⟩, hpass, -⟩ :=
    Referee.accepted_cases hl h.verdict h.accepted
  exact ⟨h.status, h.turn, x, y, X, Y, r, hs, hr, hpass⟩

/-- A move that is accepted is put at the end of the list. -/
theorem Effect.accepted (h : t.Effect ids now (.acceptMove player sMove) t' .ok e) :
    t'.moves = t.moves ++ [sMove] ∧ ∃ v t₁ s, t.MoveMade player sMove v t₁ s := by
  cases h with
  | refused hne => exact absurd rfl hne
  | @moved _ _ v t₁ s hmade =>
    obtain ⟨_, _, _, _, _, _, _, _, hrecorded⟩ := hmade.recorded_eq now t.referee.nextColor
    rw [hrecorded]
    exact ⟨rfl, v, t₁, s, hmade⟩
  | @movedLast _ _ v t₁ s hmade =>
    obtain ⟨_, _, _, _, _, _, _, _, hrecorded⟩ := hmade.recorded_eq now t.referee.nextColor
    rw [hrecorded]
    exact ⟨rfl, v, t₁, s, hmade⟩

/-- A move of the list was there, or has just been accepted. -/
theorem Effect.mem_moves (h : t.Effect ids now op t' res e) (hm : m ∈ t'.moves) :
    m ∈ t.moves ∨ res = .ok ∧ ∃ player, op = .acceptMove player m := by
  have hsame : t.SameGame t' → m ∈ t.moves := fun hsame => hsame.1 ▸ hm
  have heffect := h
  cases h with
  | refused | informed | moveRejected | resigned | drawOffered | drawRepeated | drawAgreed
  | switched | notReset | updated | notFlagged | flagged => exact Or.inl hm
  | joined => exact Or.inl (hsame ((t.sameGame_addPlayer _ _).trans (sameGame_updateStatus _)))
  | left => exact Or.inl (hsame ((t.sameGame_removePlayer _).trans (sameGame_updateStatus _)))
  | @leftGame player =>
    have hended : t.SameGame (t.ended (t.lossOf player)) := ⟨rfl, rfl⟩
    exact Or.inl
      (hsame (hended.trans ((sameGame_removePlayer _ _).trans (sameGame_updateStatus _))))
  | @moved player sMove v t₁ s hmade hover =>
    rw [heffect.accepted.1] at hm
    rcases List.mem_append.mp hm with hm | hm
    · exact Or.inl hm
    · exact Or.inr ⟨rfl, player, by rw [List.mem_singleton.mp hm]⟩
  | @movedLast player sMove v t₁ s hmade hover =>
    rw [heffect.accepted.1] at hm
    rcases List.mem_append.mp hm with hm | hm
    · exact Or.inl hm
    · exact Or.inr ⟨rfl, player, by rw [List.mem_singleton.mp hm]⟩
  | restarted => exact absurd hm List.not_mem_nil

end Table

namespace World

variable {w w' : World} {player : PlayerRef} {sMove : Bytes} {now : Int} {res : Result}

/-- **When a move is accepted.** -/
theorem acceptMove_ok_iff (hl : w.table.referee.Lawful)
    (h : w.acceptMove now player sMove = .ok (w', res)) :
    res = .ok ↔ w.table.MayMove player sMove := by
  obtain ⟨e, hcalled⟩ := acceptMove_called hl h
  constructor
  · rintro rfl
    obtain ⟨-, v, t₁, s, hmade⟩ := hcalled.effect.accepted
    exact hmade.mayMove hl
  · rintro ⟨hstatus, hturn, x, y, X, Y, r, rfl, hr, hpass⟩
    unfold acceptMove at h
    simp only at h
    split at h
    · rename_i hnot
      exact absurd hstatus (not_or.mpr hnot)
    · split at h
      · rename_i hnot
        rcases hnot with ⟨hcolor, hne⟩ | ⟨hcolor, hne⟩
        · exact absurd (hturn.1 hcolor) hne
        · exact absurd (hturn.2 hcolor) hne
      · split at h
        · rename_i hinvalid
          rw [Referee.stringToMove_isValid hl hr] at hinvalid
          cases hinvalid
        · obtain ⟨v, hv, h⟩ := Lib.bind_eq_ok.mp h
          have hacc := (Referee.accepted_iff hl hv).mpr ⟨r, hr, hpass⟩
          rw [hacc] at h
          obtain ⟨_, -, h⟩ := Lib.bind_eq_ok.mp h
          obtain ⟨_, -, h⟩ := Lib.bind_eq_ok.mp h
          cases h
          rfl

end World

namespace HoxTest

open Lib HoxServer.Net

variable {tid pid sMove : Bytes} {status : GameStatus} {moves : List Bytes}

/-! ## The list of moves -/

/-- What I_MOVES has of the moves: between the first `;` and the newline at
the end. -/
def movePart (draft : Draft) : Bytes :=
  ((draft.response.content.dropWhile fun c => c ≠ 59).drop 1).dropLast

theorem movePart_createEventIMoves (htid : 59 ∉ tid) :
    movePart (createEventIMoves tid moves) = movesToString moves := by
  have hcontent : (createEventIMoves tid moves).response.content =
      tid ++ 59 :: (movesToString moves ++ [10]) := by
    simp [Draft.response, createEventIMoves, Framing.text]
  have hdrop : tid.dropWhile (fun c => c ≠ 59) = [] :=
    List.dropWhile_eq_nil_iff.mpr fun c hc => by
      simpa using fun he : c = 59 => htid (he ▸ hc)
  rw [movePart, hcontent, List.dropWhile_append, hdrop]
  simp

theorem foldl_moves {sMoves : Bytes} (h : sMoves ≠ []) : moves.foldl
    (fun sMoves move => (if sMoves ≠ [] then sMoves ++ bytes "/" else sMoves) ++ move) sMoves =
      Framing.line 47 (sMoves :: moves) := by
  induction moves generalizing sMoves with
  | nil => simp
  | cons m moves ih =>
    have hslash : bytes "/" = [47] := by decide
    rw [List.foldl_cons, if_pos h, ih (by simp [h]), hslash]
    cases moves with
    | nil => simp
    | cons m' moves => simp

/-- Moves are fields with `/` between. -/
theorem movesToString_eq (h : ∀ m ∈ moves, m ≠ []) :
    movesToString moves = Framing.line 47 moves := by
  cases moves with
  | nil => rfl
  | cons m moves => exact foldl_moves (h m List.mem_cons_self)

theorem tokens_movePart (htid : 59 ∉ tid) (h : ∀ m ∈ moves, m ≠ []) :
    Net.tokens 47 (movePart (createEventIMoves tid moves)) = moves ↔ ∀ m ∈ moves, 47 ∉ m := by
  rw [movePart_createEventIMoves htid, movesToString_eq h]
  exact tokens_line.trans (forall₂_congr fun m hm => and_iff_right (h m hm))

/-! ## The move -/

/-- The text of a status ends with a letter. -/
theorem gameStatusToString_concat (status : GameStatus) :
    ∃ text c, gameStatusToString status = text ++ [c] ∧ isSpace c = false := by
  refine ⟨(gameStatusToString status).dropLast, (gameStatusToString status).getLast?.getD 0, ?_⟩
  cases status <;> decide

theorem stringToGameStatus_gameStatusToString (status : GameStatus) :
    stringToGameStatus (gameStatusToString status) = status := by
  cases status <;> decide

theorem gameStatusToString_token (status : GameStatus) :
    gameStatusToString status ≠ [] ∧ 59 ∉ gameStatusToString status := by
  cases status <;> decide

theorem gameStatusToString_no_ampersand (status : GameStatus) :
    38 ∉ gameStatusToString status := by
  cases status <;> decide

/-- The content of a MOVE is all its fields, if there is no `&` in them. -/
theorem content_createEventMove (hno : 38 ∉ tid ∧ 38 ∉ pid ∧ 38 ∉ sMove) :
    content (createEventMove tid pid sMove status) =
      Framing.line 59 [tid, pid, sMove, gameStatusToString status] := by
  obtain ⟨text, c, htext, hspace⟩ := gameStatusToString_concat status
  have hline : Framing.line 59 [tid, pid, sMove, gameStatusToString status] =
      tid ++ 59 :: (pid ++ 59 :: (sMove ++ 59 :: text)) ++ [c] := by
    rw [htext]
    simp
  have htrim : trimRight (Framing.line 59 [tid, pid, sMove, gameStatusToString status] ++
      [10, 10]) = Framing.line 59 [tid, pid, sMove, gameStatusToString status] := by
    have hnewlines : ([10, 10] : Bytes) = [10] ++ [10] := rfl
    rw [trimRight, hnewlines, ← List.append_assoc, List.rdropWhile_concat_pos _ _ _ (by decide),
      List.rdropWhile_concat_pos _ _ _ (by decide), hline,
      List.rdropWhile_concat_neg _ _ _ (by simp [hspace])]
  -- the response is three parameters
  have hheader : (createEventMove tid pid sMove status).response.header false =
      bytes "op=MOVE" ++ 38 :: (bytes "code=0" ++ 38 :: (bytes "content" ++ [61])) := rfl
  have hcontent : (createEventMove tid pid sMove status).response.content =
      Framing.line 59 [tid, pid, sMove, gameStatusToString status] ++ [10] := by
    simp [Draft.response, createEventMove, Framing.text]
  have hresponse : (createEventMove tid pid sMove status).response.toString =
      Framing.line 38 [bytes "op=MOVE", bytes "code=0", bytes "content" ++ 61 ::
        (Framing.line 59 [tid, pid, sMove, gameStatusToString status] ++ [10, 10])] := by
    have htype : (createEventMove tid pid sMove status).response.type ≠ .poll := by
      simp [Draft.response, createEventMove]
    have hnl : bytes "\n" = [10] := by decide
    rw [Response.toString, if_neg fun h => htype h.1, hheader, hcontent, hnl,
      if_neg (List.append_ne_nil_of_right_ne_nil _ (List.cons_ne_nil _ _))]
    simp
  have hname : 38 ∉ bytes "content" ∧ 61 ∉ bytes "content" ∧ bytes "content" ≠ bytes "op" := by
    decide
  have htokens : Net.tokens 38 (createEventMove tid pid sMove status).response.toString =
      [bytes "op=MOVE", bytes "code=0", bytes "content" ++ 61 ::
        (Framing.line 59 [tid, pid, sMove, gameStatusToString status] ++ [10, 10])] := by
    rw [hresponse]
    refine tokens_line.mpr fun f hf => ?_
    simp only [List.mem_cons, List.not_mem_nil, or_false] at hf
    rcases hf with rfl | rfl | rfl
    · decide
    · decide
    · simp [hname.1, hno, gameStatusToString_no_ampersand status]
  rw [content, stringToCommand, htokens, List.foldl_cons, List.foldl_cons, List.foldl_cons,
    List.foldl_nil, Command.parameter_take, nameValue_append hname.2.1,
    if_pos ⟨by simp, hname.2.2, rfl⟩, htrim]

/-- No token after the fourth is looked at. -/
theorem readTokens_moveField {i : ℕ} (hi : 4 ≤ i) (tokens : List Bytes) (move : InMove) :
    readTokens moveField i tokens move = move := by
  induction tokens generalizing i with
  | nil => rfl
  | cons token tokens ih =>
    have hfield : moveField i token move = move := by
      unfold moveField
      rw [if_neg (by omega), if_neg (by omega), if_neg (by omega), if_neg (by omega)]
    rw [readTokens, hfield]
    exact ih (by omega)

/-- A player and a move that are read are tokens. -/
theorem parseInCommandMove_tokens {sInput : Bytes} (h : (parseInCommandMove sInput).sMove ≠ []) :
    (parseInCommandMove sInput).playerId ∈ Net.tokens 59 sInput ∧
      (parseInCommandMove sInput).sMove ∈ Net.tokens 59 sInput := by
  unfold parseInCommandMove at h ⊢
  match htokens : Net.tokens 59 sInput with
  | [] | [_] | [_, _] =>
    rw [htokens] at h
    exact absurd rfl h
  | [_, _, _] => simp [readTokens, moveField]
  | _ :: _ :: _ :: _ :: rest =>
    rw [readTokens, readTokens, readTokens, readTokens, readTokens_moveField (by omega)]
    simp [moveField]

/-- **A move is read back** exactly when its player has an id and there is
no `;` and no `&` in the id or the move. -/
theorem parseInCommandMove_content (htid : tid ≠ [] ∧ 59 ∉ tid ∧ 38 ∉ tid) (hmove : sMove ≠ []) :
    parseInCommandMove (content (createEventMove tid pid sMove status)) =
        { tableId := tid, playerId := pid, sMove, gameStatus := status } ↔
      (pid ≠ [] ∧ 59 ∉ pid ∧ 38 ∉ pid) ∧ 59 ∉ sMove ∧ 38 ∉ sMove := by
  constructor
  · intro h
    have hread : (parseInCommandMove (content (createEventMove tid pid sMove status))).sMove ≠
        [] := by
      rw [h]
      exact hmove
    obtain ⟨hplayer, hsmove⟩ := parseInCommandMove_tokens hread
    rw [h] at hplayer hsmove
    have hno := not_mem_content (createEventMove tid pid sMove status)
    exact ⟨⟨(of_mem_tokens hplayer).1, (of_mem_tokens hplayer).2,
        fun hc => hno (mem_of_mem_tokens hplayer hc)⟩,
      (of_mem_tokens hsmove).2, fun hc => hno (mem_of_mem_tokens hsmove hc)⟩
  · rintro ⟨⟨hpid, hpid59, hpid38⟩, hsmove59, hsmove38⟩
    have htokens : Net.tokens 59 (Framing.line 59 [tid, pid, sMove, gameStatusToString status]) =
        [tid, pid, sMove, gameStatusToString status] := by
      refine tokens_line.mpr fun f hf => ?_
      simp only [List.mem_cons, List.not_mem_nil, or_false] at hf
      rcases hf with rfl | rfl | rfl | rfl
      · exact ⟨htid.1, htid.2.1⟩
      · exact ⟨hpid, hpid59⟩
      · exact ⟨hmove, hsmove59⟩
      · exact gameStatusToString_token status
    rw [content_createEventMove ⟨htid.2.2, hpid38, hsmove38⟩, parseInCommandMove, htokens]
    simp [readTokens, moveField, stringToGameStatus_gameStatusToString]

/-! ## Runs of a table -/

variable {n : ℤ} {initialTime : TimeInfo} {players : PlayerRef → Player} {w w' : World}
  {now : Int} {op : TableOp} {res : Result} {player : PlayerRef} {ops : List (Int × TableOp)}

/-- The moves of a table are read back from its I_MOVES. -/
def MovesRead (w : World) : Prop :=
  Net.tokens 47 (movePart (createEventIMoves w.table.id w.table.moves)) = w.table.moves

/-- A client reads what happens at the table: all its moves before and after
a call, and a move that is accepted from the MOVE that is posted then. -/
structure Survives (w : World) (call : Int × TableOp) : Prop where
  before : MovesRead w
  after : ∀ w' res, w.call call.1 call.2 = .ok (w', res) → MovesRead w'
  move : ∀ player sMove w', call.2 = .acceptMove player sMove →
    w.call call.1 call.2 = .ok (w', .ok) →
    parseInCommandMove (content (createEventMove w.table.id (w.idOf player) sMove
      w'.table.status)) = ⟨w.table.id, w.idOf player, sMove, w'.table.status⟩

/-- The three separators are coordinates that the board does not have. -/
theorem coordinate_eq_iff (c : UInt8) :
    (coordinate c = -1 ↔ c = 47) ∧ (coordinate c = 11 ↔ c = 59) ∧
      (coordinate c = -10 ↔ c = 38) := by
  have hlt := c.toNat_lt
  simp only [coordinate, toChar, ← UInt8.toNat_inj, UInt8.reduceToNat]
  omega

theorem ne_of_coordinate {c : UInt8} (h : 0 ≤ coordinate c ∧ coordinate c ≤ 9) :
    c ≠ 47 ∧ c ≠ 59 ∧ c ≠ 38 := by
  obtain ⟨hslash, hsemicolon, hampersand⟩ := coordinate_eq_iff c
  exact ⟨fun hc => by have := hslash.mpr hc; omega,
    fun hc => by have := hsemicolon.mpr hc; omega,
    fun hc => by have := hampersand.mpr hc; omega⟩

/-- The separators of a move are in its destination, off the board. -/
theorem MayMove.separators_iff {t : Table} {x y X Y : UInt8}
    (h : t.MayMove player [x, y, X, Y]) :
    47 ∉ [x, y, X, Y] ∧ 59 ∉ [x, y, X, Y] ∧ 38 ∉ [x, y, X, Y] ↔
      (coordinate X ≠ -1 ∧ coordinate Y ≠ -1) ∧ (coordinate X ≠ 11 ∧ coordinate Y ≠ 11) ∧
        coordinate X ≠ -10 ∧ coordinate Y ≠ -10 := by
  obtain ⟨_, _, _, _, r, hs, hr, -⟩ := h.passes
  cases hs
  -- there is a piece on the origin
  have horigin := Position.isValid_iff.mp (Board.isValid_of_getPieceAt hr)
  have hx := ne_of_coordinate (c := x) ⟨horigin.1, horigin.2.1.trans (by decide)⟩
  have hy := ne_of_coordinate (c := y) horigin.2.2
  obtain ⟨hX, hX', hX''⟩ := coordinate_eq_iff X
  obtain ⟨hY, hY', hY''⟩ := coordinate_eq_iff Y
  rw [ne_eq, ne_eq, ne_eq, ne_eq, ne_eq, ne_eq, hX, hX', hX'', hY, hY', hY'']
  simp only [List.mem_cons, List.not_mem_nil, or_false, not_or]
  grind

/-- If the call is a move that the table records, then it can be written:
its player has an id, without a `&`, and none of its characters is a
separator. -/
def Writable (w : World) (call : Int × TableOp) : Prop :=
  ∀ player sMove, call.2 = .acceptMove player sMove → w.table.MayMove player sMove →
    (w.idOf player ≠ [] ∧ 38 ∉ w.idOf player) ∧ 47 ∉ sMove ∧ 59 ∉ sMove ∧ 38 ∉ sMove

/-- The invariant. -/
structure Written (n : ℤ) (players : PlayerRef → Player) (w : World) : Prop where
  replays : w.table.Replays
  id : w.table.id = intToString n
  ids : ∀ player, w.idOf player = (players player).id
  moves : ∀ m ∈ w.table.moves, m ≠ [] ∧ 47 ∉ m

theorem Written.movesRead (h : Written n players w) : MovesRead w := by
  have htid : 59 ∉ w.table.id := h.id ▸ (intToString_token (by decide) n).2
  exact (tokens_movePart htid fun m hm => (h.moves m hm).1).mpr fun m hm => (h.moves m hm).2

/-- A move that a table records is not empty. -/
theorem MayMove.ne_nil {t : Table} (h : t.MayMove player sMove) : sMove ≠ [] := by
  obtain ⟨x, y, X, Y, r, rfl, -⟩ := h.passes
  exact List.cons_ne_nil _ _

theorem Written.call (h : Written n players w) (hcall : w.call now op = .ok (w', res))
    (hop : Writable w (now, op)) : Written n players w' := by
  obtain ⟨e, hcalled⟩ := World.call_called h.replays.lawful hcall
  refine ⟨h.replays.effect hcalled.effect, hcalled.effect.id.trans h.id,
    fun player => by rw [hcalled.ids, h.ids], fun m hm => ?_⟩
  rcases hcalled.effect.mem_moves hm with hm | ⟨rfl, player, rfl⟩
  · exact h.moves m hm
  · have hmay := (World.acceptMove_ok_iff h.replays.lawful hcall).mp rfl
    exact ⟨MayMove.ne_nil hmay, (hop player m rfl hmay).2.1⟩

theorem Written.survives_iff (h : Written n players w) (hids : ∀ player, 59 ∉ (players player).id)
    (hcall : w.call now op = .ok (w', res)) :
    Survives w (now, op) ↔ Writable w (now, op) := by
  have htid : w.table.id ≠ [] ∧ 59 ∉ w.table.id ∧ 38 ∉ w.table.id := by
    rw [h.id]
    exact ⟨intToString_ne_nil n, not_mem_intToString (by decide) n,
      not_mem_intToString (by decide) n⟩
  have hparse : ∀ {player sMove}, w.table.MayMove player sMove → ∀ status,
      parseInCommandMove (content (createEventMove w.table.id (w.idOf player) sMove status)) =
          ⟨w.table.id, w.idOf player, sMove, status⟩ ↔
        (w.idOf player ≠ [] ∧ 38 ∉ w.idOf player) ∧ 59 ∉ sMove ∧ 38 ∉ sMove :=
      fun {player sMove} hmay status => by
    have hid : 59 ∉ w.idOf player := h.ids player ▸ hids player
    rw [parseInCommandMove_content htid (MayMove.ne_nil hmay)]
    exact and_congr_left fun _ => and_congr_right fun _ => and_iff_right hid
  constructor
  · rintro hs player sMove rfl hmay
    obtain rfl := (World.acceptMove_ok_iff h.replays.lawful hcall).mpr hmay
    obtain ⟨e, hcalled⟩ := World.call_called h.replays.lawful hcall
    obtain ⟨hid, hsmove⟩ := (hparse hmay _).mp (hs.move player sMove w' rfl hcall)
    refine ⟨hid, ?_, hsmove⟩
    -- the move is one of those that I_MOVES prints
    have hmoves := hcalled.effect.accepted.1
    have hread := hs.after w' .ok hcall
    unfold MovesRead at hread
    rw [hcalled.effect.id, tokens_movePart htid.2.1] at hread
    · exact hread sMove (by simp [hmoves])
    · intro m hm
      rw [hmoves] at hm
      rcases List.mem_append.mp hm with hm | hm
      · exact (h.moves m hm).1
      · exact List.mem_singleton.mp hm ▸ MayMove.ne_nil hmay
  · refine fun hop => ⟨h.movesRead, fun _ _ hcall => (h.call hcall hop).movesRead, ?_⟩
    rintro player sMove w' rfl hcall
    have hmay := (World.acceptMove_ok_iff h.replays.lawful hcall).mp rfl
    obtain ⟨hid, -, hsmove⟩ := hop player sMove rfl hmay
    exact (hparse hmay _).mpr ⟨hid, hsmove⟩

theorem written_new (n : ℤ) (initialTime : TimeInfo) (players : PlayerRef → Player) :
    Written n players (World.new (intToString n) initialTime players) :=
  ⟨Table.replays_of_nil rfl (World.new_referee _ _ _), rfl, fun _ => rfl,
    fun _ hm => absurd hm List.not_mem_nil⟩

/-- **The moves of a table survive the wire**, exactly: in a run of a new
table whose players have no `;` in their ids, every client reads the moves
and each one that is accepted if and only if every move that the table
records is by a player with an id, without a `&`, and has no separator in
it. -/
theorem moves_survive_iff (hids : ∀ player, 59 ∉ (players player).id)
    (hrun : Table.machine.run (World.new (intToString n) initialTime players) ops = .ok w) :
    Table.machine.Meets Survives (World.new (intToString n) initialTime players) ops ↔
      Table.machine.Meets Writable (World.new (intToString n) initialTime players) ops := by
  refine Machine.meets_iff_meets (I := Written n players) ?_ ?_ (written_new n initialTime players)
    hrun
  · rintro w ⟨now, op⟩ w' hw hstep
    obtain ⟨res, hcall⟩ := World.step_eq.mp hstep
    exact hw.survives_iff hids hcall
  · rintro w ⟨now, op⟩ w' hw hs hstep
    obtain ⟨res, hcall⟩ := World.step_eq.mp hstep
    exact hw.call hcall ((hw.survives_iff hids hcall).mp hs)

/-- `Writable`, computed without a look at the board. -/
def plainMove (w : World) : Int × TableOp → Bool
  | (_, .acceptMove player sMove) =>
    decide ((w.idOf player ≠ [] ∧ 38 ∉ w.idOf player) ∧ 47 ∉ sMove ∧ 59 ∉ sMove ∧ 38 ∉ sMove)
  | _ => true

theorem writable_of_plainMove {call : Int × TableOp} (h : plainMove w call = true) :
    Writable w call := by
  rintro player sMove hcall -
  obtain ⟨now, op⟩ := call
  obtain rfl : op = .acceptMove player sMove := hcall
  exact of_decide_eq_true h

/-- Three moves, the last one a capture with check, on table "1". -/
theorem moves_survive_iff_capture : ∃ w,
    Table.machine.run (World.new (intToString 1) {} World.twoPlayers) World.horseTaken = .ok w ∧
      w.table.moves = [bytes "2625", bytes "5041", bytes "7770"] ∧
      Table.machine.Meets Survives (World.new (intToString 1) {} World.twoPlayers)
        World.horseTaken := by
  have hrun : (Table.machine.run (World.new (intToString 1) {} World.twoPlayers)
      World.horseTaken).map (fun w => w.table.moves) =
      .ok [bytes "2625", bytes "5041", bytes "7770"] := by decide +kernel
  have hplain : Table.machine.Meets (fun w call => plainMove w call = true)
      (World.new (intToString 1) {} World.twoPlayers) World.horseTaken := by decide +kernel
  have hids : ∀ player, 59 ∉ (World.twoPlayers player).id := by
    intro player
    unfold World.twoPlayers
    split <;> decide
  obtain ⟨w, hw, hmoves⟩ := map_eq_ok.mp hrun
  exact ⟨w, hw, hmoves,
    (moves_survive_iff hids hw).mpr (hplain.mono fun _ _ => writable_of_plainMove)⟩

/-- RED's chariot leaves the board by "09/9", and its horse by "190;". -/
def leavingBoard : List (Int × TableOp) :=
  [(0, .assignPlayerAs 1 .red), (0, .assignPlayerAs 2 .black), (0, .acceptMove 1 (bytes "09/9")),
    (0, .acceptMove 2 (bytes "0001"))]

/-- Neither of the two moves is read as it was made. -/
theorem moves_misread : ∃ w w',
    Table.machine.run (World.new (intToString 1) {} World.twoPlayers) leavingBoard = .ok w ∧
      w.table.moves = [bytes "09/9", bytes "0001"] ∧
      Net.tokens 47 (movePart (createEventIMoves w.table.id w.table.moves)) =
        [bytes "09", bytes "9", bytes "0001"] ∧
      w.call 0 (.acceptMove 1 (bytes "190;")) = .ok (w', .ok) ∧
      (parseInCommandMove (content (createEventMove w.table.id (w.idOf 1) (bytes "190;")
        w'.table.status))).sMove = bytes "190" := by
  have hrun : (Table.machine.run (World.new (intToString 1) {} World.twoPlayers)
      leavingBoard).map (fun w => (w.table.moves,
        Net.tokens 47 (movePart (createEventIMoves w.table.id w.table.moves)))) =
      .ok ([bytes "09/9", bytes "0001"], [bytes "09", bytes "9", bytes "0001"]) := by
    decide +kernel
  have hcall : (Table.machine.run (World.new (intToString 1) {} World.twoPlayers)
      leavingBoard).map (fun w => (w.call 0 (.acceptMove 1 (bytes "190;"))).map fun r =>
        (r.2, (parseInCommandMove (content (createEventMove w.table.id (w.idOf 1) (bytes "190;")
          r.1.table.status))).sMove)) = .ok (.ok (.ok, bytes "190")) := by decide +kernel
  obtain ⟨w, hw, hmoves⟩ := map_eq_ok.mp hrun
  rw [hw] at hcall
  obtain ⟨⟨w', res⟩, hcalled, hparse⟩ := map_eq_ok.mp (Except.ok.inj hcall)
  rw [Prod.mk.injEq] at hmoves hparse
  obtain ⟨rfl, hparse⟩ := hparse
  exact ⟨w, w', hw, hmoves.1, hmoves.2, hcalled, hparse⟩

end HoxTest

end HoxServer
