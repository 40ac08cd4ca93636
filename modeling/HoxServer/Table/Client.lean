/-
HoxServer.Table.Client — a client that follows the events of a table.

`Client` keeps seats, members, moves and result as the events tell them;
`Mirrors` says that they are the table's. The functions that change the
seats and the list of players are here, each with the event that says
what it does. An event names a player by his id, and the table knows him
by his object: `OnlyOne` is what is needed of the ids.
-/
import HoxServer.Table.Game

namespace HoxServer

/-! ## The client -/

/-- What a client knows of a table. -/
structure Client where
  red : Option Bytes := none
  black : Option Bytes := none
  members : List Bytes := []
  moves : List Bytes := []
  result : Option GameStatus := none
  deriving DecidableEq, Repr

namespace Client

/-- The player is taken out of any seat. -/
def unseat (c : Client) (pid : Bytes) : Client :=
  { c with
    red := if c.red = some pid then none else c.red
    black := if c.black = some pid then none else c.black }

/-- E_JOIN. -/
def join (c : Client) (pid : Bytes) (color : Color) : Client :=
  let c := c.unseat pid
  let c := { c with members := c.members.insert pid }
  match color with
  | .red => { c with red := some pid }
  | .black => { c with black := some pid }
  | _ => c

/-- LEAVE. -/
def leave (c : Client) (pid : Bytes) : Client :=
  { c.unseat pid with members := c.members.filter (· ≠ pid) }

/-- What a client makes of an event. -/
def onEvent (c : Client) : Event → Client
  | .iTable info =>
    { red := info.red.map Prod.fst
      black := info.black.map Prod.fst
      members := (info.red.map Prod.fst).toList ++ (info.black.map Prod.fst).toList
        ++ info.observers }
  | .iMoves _ moves => { c with moves }
  | .eJoin _ pid _ color => c.join pid color
  | .leave _ pid => c.leave pid
  | .move _ _ sMove status =>
    { c with
      moves := c.moves ++ [sMove]
      result := if Table.IsOver status then some status else c.result }
  | .eEnd _ status _ => { c with result := some status }
  | .reset _ => { c with moves := [], result := none }
  | .draw _ _ _ | .eScore _ _ _ | .update _ _ _ _ => c

/-- The moves that a player appends himself: his own, when accepted. -/
def ownMoves (q : PlayerRef) : TableOp → Result → List Bytes
  | .acceptMove player sMove, .ok => if player = q then [sMove] else []
  | _, _ => []

end Client

namespace Table

variable {ids : PlayerRef → Bytes} {t t' : Table} {c : Client} {player : PlayerRef} {color : Color}

/-- The result of the game, when it has ended. -/
def result (t : Table) : Option GameStatus := if IsOver t.status then some t.status else none

/-- The client knows the table. -/
structure Mirrors (ids : PlayerRef → Bytes) (t : Table) (c : Client) : Prop where
  red : c.red = t.redPlayer.map ids
  black : c.black = t.blackPlayer.map ids
  members : ∀ pid, pid ∈ c.members ↔ ∃ p ∈ t.allPlayers, ids p = pid
  moves : c.moves = t.moves
  result : c.result = t.result

/-- Everybody is in the list once, and who has a seat is in it. -/
structure Listed (t : Table) : Prop where
  nodup : t.allPlayers.Nodup
  red : ∀ p, t.redPlayer = some p → p ∈ t.allPlayers
  black : ∀ p, t.blackPlayer = some p → p ∈ t.allPlayers

/-- Nobody else at the table has the player's id. -/
def OnlyOne (ids : PlayerRef → Bytes) (t : Table) (player : PlayerRef) : Prop :=
  ∀ p ∈ t.allPlayers, ids p = ids player → p = player

instance (ids : PlayerRef → Bytes) (t : Table) (player : PlayerRef) :
    Decidable (t.OnlyOne ids player) :=
  inferInstanceAs (Decidable (∀ p ∈ t.allPlayers, _ → _))

theorem Listed.of_same (h : t.Listed) (hall : t'.allPlayers = t.allPlayers)
    (hred : t'.redPlayer = t.redPlayer) (hblack : t'.blackPlayer = t.blackPlayer) : t'.Listed :=
  ⟨hall ▸ h.nodup, by rw [hall, hred]; exact h.red, by rw [hall, hblack]; exact h.black⟩

theorem Listed.addPlayer (h : t.Listed) (player : PlayerRef) (color : Color) :
    (t.addPlayer player color).1.Listed := by
  have hnodup : player ∉ t.allPlayers → (t.allPlayers ++ [player]).Nodup := by
    intro hnew
    rw [List.nodup_append]
    refine ⟨h.nodup, List.nodup_singleton _, fun a ha b hb => ?_⟩
    rw [List.mem_singleton.mp hb]
    exact fun he => hnew (he ▸ ha)
  have hred := h.red
  have hblack := h.black
  have hall := h.nodup
  unfold Table.addPlayer
  cases color <;> simp only <;> split <;> refine ⟨?_, ?_, ?_⟩ <;> grind

theorem Listed.removePlayer (h : t.Listed) (hdistinct : t.SeatsDistinct) (player : PlayerRef) :
    (t.removePlayer player).Listed := by
  have hred := h.red
  have hblack := h.black
  have hall := h.nodup.filter (fun p => decide (p ≠ player))
  have hp := hdistinct player
  unfold Table.removePlayer
  simp only
  split_ifs <;> refine ⟨hall, ?_, ?_⟩ <;> grind

theorem Mirrors.of_same (h : t.Mirrors ids c) (hall : t'.allPlayers = t.allPlayers)
    (hred : t'.redPlayer = t.redPlayer) (hblack : t'.blackPlayer = t.blackPlayer)
    (hmoves : t'.moves = t.moves) (hresult : t'.result = t.result) : t'.Mirrors ids c :=
  ⟨hred ▸ h.red, hblack ▸ h.black, hall ▸ h.members, hmoves ▸ h.moves, hresult ▸ h.result⟩

/-- A seat is the player's exactly when it has his id. -/
theorem OnlyOne.seat_iff (h : t.OnlyOne ids player) {seat : Option PlayerRef}
    (hseat : ∀ p, seat = some p → p ∈ t.allPlayers) :
    seat.map ids = some (ids player) ↔ seat = some player := by
  cases seat with
  | none => simp
  | some p =>
    simp only [Option.map_some, Option.some.injEq]
    constructor
    · intro he
      exact h p (hseat p rfl) he
    · intro he
      rw [he]

theorem updateStatus_result (t : Table) : t.updateStatus.result = t.result := by
  unfold updateStatus result IsOver
  split
  · rename_i h
    split <;> simp [h]
  · rename_i h
    split <;> simp [h]
  · rfl

theorem Mirrors.updateStatus (h : t.Mirrors ids c) : t.updateStatus.Mirrors ids c := by
  obtain ⟨_, hf⟩ := updateStatus_frame t
  have hresult := updateStatus_result t
  rw [hf] at hresult ⊢
  exact h.of_same rfl rfl rfl rfl hresult

/-- A seat when the player has been taken out of it. -/
def without (seat : Option PlayerRef) (player : PlayerRef) : Option PlayerRef :=
  if seat = some player then none else seat

theorem OnlyOne.map_without (h : t.OnlyOne ids player) {seat : Option PlayerRef}
    (hseat : ∀ p, seat = some p → p ∈ t.allPlayers) :
    (if seat.map ids = some (ids player) then none else seat.map ids) =
      (without seat player).map ids := by
  unfold without
  simp only [h.seat_iff hseat]
  split_ifs <;> rfl

theorem addPlayer_eq (t : Table) (player : PlayerRef) (color : Color) :
    (t.addPlayer player color).1 = { t with
      allPlayers := if player ∈ t.allPlayers then t.allPlayers else t.allPlayers ++ [player]
      redPlayer := if color = .red then some player else without t.redPlayer player
      blackPlayer := if color = .black then some player else without t.blackPlayer player } := by
  unfold addPlayer without
  cases color <;> by_cases hmem : player ∈ t.allPlayers <;> simp [hmem]

theorem join_eq (c : Client) (pid : Bytes) (color : Color) :
    c.join pid color = { c with
      members := c.members.insert pid
      red := if color = .red then some pid else if c.red = some pid then none else c.red
      black := if color = .black then some pid else if c.black = some pid then none else c.black } := by
  unfold Client.join Client.unseat
  cases color <;> simp

/-- E_JOIN says what `_addPlayer` does. -/
theorem Mirrors.addPlayer (h : t.Mirrors ids c) (hlisted : t.Listed) (hone : t.OnlyOne ids player)
    (color : Color) : (t.addPlayer player color).1.Mirrors ids (c.join (ids player) color) := by
  rw [addPlayer_eq, join_eq]
  refine ⟨?_, ?_, fun pid => ?_, h.moves, h.result⟩
  · simp only [h.red, hone.map_without hlisted.red]
    split_ifs <;> rfl
  · simp only [h.black, hone.map_without hlisted.black]
    split_ifs <;> rfl
  · simp only [List.mem_insert_iff, h.members pid]
    constructor
    · intro hor
      rcases hor with he | ⟨p, hp, he⟩
      · refine ⟨player, ?_, he.symm⟩
        split_ifs with hin
        · exact hin
        · simp
      · refine ⟨p, ?_, he⟩
        split_ifs
        · exact hp
        · exact List.mem_append_left _ hp
    · intro ⟨p, hp, he⟩
      split_ifs at hp
      · exact Or.inr ⟨p, hp, he⟩
      · rcases List.mem_append.mp hp with hp | hp
        · exact Or.inr ⟨p, hp, he⟩
        · exact Or.inl (by rw [← he, List.mem_singleton.mp hp])

theorem removePlayer_eq (hdistinct : t.SeatsDistinct) (player : PlayerRef) :
    t.removePlayer player = { t with
      allPlayers := t.allPlayers.filter (· ≠ player)
      redPlayer := without t.redPlayer player
      blackPlayer := without t.blackPlayer player } := by
  have hp := hdistinct player
  unfold removePlayer without
  by_cases hred : t.redPlayer = some player
  · simp [hred, hp hred]
  · by_cases hblack : t.blackPlayer = some player
    · simp [hred, hblack]
    · simp [hred, hblack]

/-- LEAVE says what `_removePlayer` does. -/
theorem Mirrors.removePlayer (h : t.Mirrors ids c) (hlisted : t.Listed)
    (hdistinct : t.SeatsDistinct) (hone : t.OnlyOne ids player) :
    (t.removePlayer player).Mirrors ids (c.leave (ids player)) := by
  rw [removePlayer_eq hdistinct]
  unfold Client.leave Client.unseat
  refine ⟨?_, ?_, fun pid => ?_, h.moves, h.result⟩
  · simp only [h.red, hone.map_without hlisted.red]
  · simp only [h.black, hone.map_without hlisted.black]
  · simp only [List.mem_filter, h.members pid, decide_eq_true_eq]
    constructor
    · intro ⟨⟨p, hp, he⟩, hne⟩
      refine ⟨p, ⟨hp, ?_⟩, he⟩
      intro heq
      exact hne (by rw [← he, heq])
    · intro ⟨p, ⟨hp, hne⟩, he⟩
      refine ⟨⟨p, hp, he⟩, ?_⟩
      intro heq
      exact hne (hone p hp (he.trans heq))

/-- The four E_JOIN of a swap say what it does. -/
theorem Mirrors.swap (h : t.Mirrors ids c) (hlisted : t.Listed) (hone : t.OnlyOne ids player)
    {red : PlayerRef} (hplayer : t.redPlayer = some player) (hred : t.blackPlayer = some red)
    (hne : player ≠ red) :
    ({ t with redPlayer := t.blackPlayer, blackPlayer := some player } : Table).Mirrors ids
      ((((c.join (ids red) .none).join (ids player) .none).join (ids red) .red).join
        (ids player) .black) := by
  have hids : ids red ≠ ids player := fun he => hne (hone red (hlisted.black red hred) he).symm
  have hmem : ids player ∈ c.members := (h.members _).mpr ⟨player, hlisted.red player hplayer, rfl⟩
  have hmem' : ids red ∈ c.members := (h.members _).mpr ⟨red, hlisted.black red hred, rfl⟩
  have hc : (((c.join (ids red) .none).join (ids player) .none).join (ids red) .red).join
      (ids player) .black = { c with red := some (ids red), black := some (ids player) } := by
    simp [join_eq, List.insert_of_mem hmem, List.insert_of_mem hmem', hids]
  rw [hc]
  refine ⟨?_, rfl, h.members, h.moves, h.result⟩
  simp [hred]

theorem Listed.updateStatus (h : t.Listed) : t.updateStatus.Listed :=
  h.of_same t.updateStatus_allPlayers t.updateStatus_redPlayer t.updateStatus_blackPlayer

/-- A player stays who does not leave. -/
theorem Effect.allPlayers {now : Int} {op : TableOp} {res : Result} {e : Option GameStatus}
    (h : t.Effect ids now op t' res e) {q : PlayerRef} (hq : q ∈ t.allPlayers)
    (hstays : op ≠ .onLeaveFromPlayer q) : q ∈ t'.allPlayers := by
  by_cases hres : res = .ok
  · exact (h.mem_allPlayers hres).mpr (Or.inl ⟨hq, hstays⟩)
  · rw [h.allPlayers_of_refused hres]
    exact hq

/-- Every call keeps the list of players. -/
theorem Listed.effect {now : Int} {op : TableOp} {res : Result} {e : Option GameStatus}
    (h : t.Listed) (hdistinct : t.SeatsDistinct) (heffect : t.Effect ids now op t' res e) :
    t'.Listed := by
  have hrecorded : ∀ {player sMove v t₁ s}, t.MoveMade player sMove v t₁ s →
      (t₁.recorded now sMove t.referee.nextColor s).Listed := by
    intro player sMove v t₁ s hmade
    obtain ⟨hred, hblack⟩ := hmade.recorded_seats now t.referee.nextColor
    exact h.of_same (hmade.recorded_allPlayers _ _) hred hblack
  cases heffect with
  | joined => exact (h.addPlayer _ _).updateStatus
  | left => exact (h.removePlayer hdistinct _).updateStatus
  | @leftGame player =>
    have hended : (t.ended (t.lossOf player)).Listed := h.of_same rfl rfl rfl
    exact (hended.removePlayer hdistinct player).updateStatus
  | moved hmade => exact hrecorded hmade
  | movedLast hmade => exact (hrecorded hmade).of_same rfl rfl rfl
  | @switched player red hready hr hb =>
    refine ⟨h.nodup, h.black, fun p hp => ?_⟩
    have hp : some player = some p := hp
    rw [← Option.some.inj hp]
    exact h.red player hr
  | restarted =>
    exact h.of_same t.restarted_allPlayers t.restarted_redPlayer t.restarted_blackPlayer
  | _ => exact h.of_same rfl rfl rfl

end Table

end HoxServer
