/-
HoxServer.Table.Mirror — clients can mirror a table from the events that
are posted to them.

Each operation is looked at once, by what it shows to one player
(`Shows`): the function on clients that the events posted to him amount
to. The simulation is then between this function and what the operation
does to the table (`Simulates`), and the law of runs follows by the
invariant rule with the client as the history.
-/
import HoxServer.Table.Client
import HoxServer.Table.Finished

namespace HoxServer

namespace World

variable {w w' w₁ w₂ : World} {q player : PlayerRef} {c : Client} {event : Event}
  {f g : Client → Client} {now : Int} {op : TableOp} {res : Result}

/-- The events that a player has been posted on the way from `w` to `w'`. -/
def received (q : PlayerRef) (w w' : World) : List Event :=
  ((w'.posted.drop w.posted.length).filter (·.1 = q)).map Prod.snd

/-- What the client of `q` makes of a call. -/
def watch (q : PlayerRef) (w : World) (op : Int × TableOp) (c : Client) : Client :=
  match w.call op.1 op.2 with
  | .error _ => c
  | .ok (w', res) =>
    (received q w w').foldl Client.onEvent { c with moves := c.moves ++ Client.ownMoves q op.2 res }

/-! ## What is shown to a player -/

/-- The events posted to `q` between the two worlds change a client by `f`. -/
def Shows (q : PlayerRef) (w w' : World) (f : Client → Client) : Prop :=
  ∃ posted, w'.posted = w.posted ++ posted ∧
    ∀ c, ((posted.filter (·.1 = q)).map Prod.snd).foldl Client.onEvent c = f c

theorem Shows.received (h : Shows q w w' f) (c : Client) :
    (received q w w').foldl Client.onEvent c = f c := by
  obtain ⟨posted, hposted, hf⟩ := h
  unfold World.received
  rw [hposted, List.drop_left]
  exact hf c

theorem shows_of_posted (h : w'.posted = w.posted) : Shows q w w' id :=
  ⟨[], by simp [h], fun _ => rfl⟩

theorem Shows.trans (h : Shows q w w₁ f) (h' : Shows q w₁ w' g) : Shows q w w' (fun c => g (f c)) := by
  obtain ⟨posted, hposted, hf⟩ := h
  obtain ⟨posted', hposted', hg⟩ := h'
  refine ⟨posted ++ posted', by rw [hposted', hposted, List.append_assoc], fun c => ?_⟩
  rw [List.filter_append, List.map_append, List.foldl_append, hf, hg]

theorem Shows.congr (h : Shows q w w₁ f) (hposted : w'.posted = w₁.posted) : Shows q w w' f := by
  obtain ⟨posted, hp, hf⟩ := h
  exact ⟨posted, hposted.trans hp, hf⟩

/-- Events for one player only. -/
theorem shows_of_posted_to {es : List Event} (h : w'.posted = w.posted ++ es.map (player, ·)) :
    Shows q w w' (fun c => if player = q then es.foldl Client.onEvent c else c) := by
  refine ⟨_, h, fun c => ?_⟩
  by_cases hq : player = q
  · have hall : (es.map (player, ·)).filter (·.1 = q) = es.map (player, ·) := by
      simp [List.filter_eq_self, hq]
    rw [hall, List.map_map]
    simp [hq, Function.comp_def]
  · have hnone : (es.map (player, ·)).filter (·.1 = q) = [] := by
      simp [List.filter_eq_nil_iff, hq]
    rw [hnone]
    simp [hq]

/-- A list without repetition is filtered down to the one. -/
theorem filter_map_eq {l : List PlayerRef} (hnodup : l.Nodup) (hq : q ∈ l) (event : Event) :
    ((l.map (·, event)).filter (·.1 = q)).map Prod.snd = [event] := by
  have hone : l.filter (fun p => decide (p = q)) = [q] := by
    rw [List.filter_eq, List.count_eq_one_of_mem hnodup hq]
    rfl
  rw [List.filter_map]
  have hcomp : ((fun x : PlayerRef × Event => decide (x.1 = q)) ∘ fun p => (p, event)) =
      fun p => decide (p = q) := rfl
  rw [hcomp, hone]
  rfl

theorem shows_postAll (hnodup : w.table.allPlayers.Nodup) (hq : q ∈ w.table.allPlayers)
    (event : Event) : Shows q w (w.postAll event) (fun c => c.onEvent event) := by
  refine ⟨_, rfl, fun c => ?_⟩
  rw [filter_map_eq hnodup hq]
  rfl

theorem Shows.postAll (h : Shows q w w₁ f) (hnodup : w₁.table.allPlayers.Nodup)
    (hq : q ∈ w₁.table.allPlayers) (event : Event) :
    Shows q w (w₁.postAll event) (fun c => (f c).onEvent event) :=
  h.trans (shows_postAll hnodup hq event)

/-- The sender himself is skipped. -/
theorem shows_postOthers (hnodup : w.table.allPlayers.Nodup) (hq : q ∈ w.table.allPlayers)
    (sender : PlayerRef) (event : Event) : Shows q w (w.postOthers sender event)
      (fun c => if sender = q then c else c.onEvent event) := by
  refine ⟨_, rfl, fun c => ?_⟩
  by_cases hsender : sender = q
  · have hnone : ((w.table.allPlayers.filter (· ≠ sender)).map (·, event)).filter
        (·.1 = q) = [] := by
      rw [List.filter_eq_nil_iff, hsender]
      intro e he
      obtain ⟨p, hp, heq⟩ := List.mem_map.mp he
      rw [← heq]
      simpa using (List.mem_filter.mp hp).2
    rw [hnone]
    simp [hsender]
  · have hmem : q ∈ w.table.allPlayers.filter (· ≠ sender) := by
      simp [hq, Ne.symm hsender]
    rw [filter_map_eq (hnodup.filter _) hmem]
    simp [hsender]

/-- The information a player is sent when he joins. -/
def snapshot (w : World) : Client :=
  { red := w.table.redPlayer.map w.idOf
    black := w.table.blackPlayer.map w.idOf
    members := (w.table.redPlayer.map w.idOf).toList ++ (w.table.blackPlayer.map w.idOf).toList
      ++ w.table.getObservers.map w.idOf
    moves := w.table.moves
    result := w.table.result }

/-- The information is that of the table. -/
theorem mirrors_snapshot (hlisted : w.table.Listed) : w.table.Mirrors w.idOf w.snapshot := by
  refine ⟨rfl, rfl, fun pid => ?_, rfl, rfl⟩
  simp only [snapshot, List.mem_append, Option.mem_toList, Option.map_eq_some_iff,
    List.mem_map, Table.getObservers, List.mem_filter, decide_eq_true_eq]
  constructor
  · intro hmem
    rcases hmem with (⟨p, hp, he⟩ | ⟨p, hp, he⟩) | ⟨p, ⟨hp, -⟩, he⟩
    · exact ⟨p, hlisted.red p hp, he⟩
    · exact ⟨p, hlisted.black p hp, he⟩
    · exact ⟨p, hp, he⟩
  · intro ⟨p, hp, he⟩
    by_cases hred : w.table.redPlayer = some p
    · exact Or.inl (Or.inl ⟨p, hred, he⟩)
    by_cases hblack : w.table.blackPlayer = some p
    · exact Or.inl (Or.inr ⟨p, hblack, he⟩)
    · exact Or.inr ⟨p, ⟨hp, Ne.symm hred, Ne.symm hblack⟩, he⟩

theorem shows_sendInfoToPlayer (w : World) (now : Int) (q player : PlayerRef) :
    Shows q w (w.sendInfoToPlayer now player)
      (fun c => if player = q then w.snapshot else c) := by
  have hposted : (w.sendInfoToPlayer now player).posted = w.posted ++
      (w.createEventITable now ::
        ((if w.table.moves ≠ [] then [.iMoves w.table.id w.table.moves] else []) ++
          if Table.IsOver w.table.status
            then [.eEnd w.table.id w.table.status (bytes "Game ended")] else [])).map (player, ·) := by
    unfold sendInfoToPlayer Table.IsOver
    simp only
    split_ifs <;> simp_all [onNewEvent]
  have hseat : ∀ seat : Option PlayerRef,
      Option.map Prod.fst (seat.map (fun p => (w.idOf p, (w.players p).score))) =
        seat.map w.idOf := by
    intro seat
    cases seat <;> rfl
  have hshows := shows_of_posted_to (q := q) hposted
  have hfold : ∀ c, (w.createEventITable now ::
      ((if w.table.moves ≠ [] then [Event.iMoves w.table.id w.table.moves] else []) ++
        if Table.IsOver w.table.status
          then [.eEnd w.table.id w.table.status (bytes "Game ended")] else [])).foldl
        Client.onEvent c = w.snapshot := by
    intro c
    unfold createEventITable snapshot Table.result
    by_cases hmoves : w.table.moves = []
    · by_cases hover : Table.IsOver w.table.status
      · simp [hmoves, hover, Client.onEvent, hseat]
      · simp [hmoves, hover, Client.onEvent, hseat]
    · by_cases hover : Table.IsOver w.table.status
      · simp [hmoves, hover, Client.onEvent, hseat]
      · simp [hmoves, hover, Client.onEvent, hseat]
  simpa only [hfold] using hshows

theorem recordGameResult_posted (w : World) (red black : PlayerRef) :
    (w.recordGameResult red black).1.posted = w.posted := by
  obtain ⟨f, g, rs, bs, -, -, he⟩ := w.recordGameResult_eq red black
  rw [he]
  rfl

/-- New scores say nothing of the table. -/
theorem shows_recordEnd (hnodup : w.table.allPlayers.Nodup) (hq : q ∈ w.table.allPlayers)
    (red black : PlayerRef) : Shows q w (w.recordEnd red black) id := by
  have hquiet := shows_of_posted (q := q) (w.recordGameResult_posted red black)
  have htable := (w.sameTable_recordGameResult red black).table
  unfold recordEnd
  simp only
  split
  · have hnodup₁ : (w.recordGameResult red black).1.table.allPlayers.Nodup := by
      rw [htable]
      exact hnodup
    have hq₁ : q ∈ (w.recordGameResult red black).1.table.allPlayers := by
      rw [htable]
      exact hq
    have hred := shows_postAll hnodup₁ hq₁ (.eScore (w.recordGameResult red black).1.table.id
      ((w.recordGameResult red black).1.idOf red)
      ((w.recordGameResult red black).1.players red).score)
    have hblack := shows_postAll
      (w := (w.recordGameResult red black).1.postAllScoreEvent red) hnodup₁ hq₁
      (.eScore (w.recordGameResult red black).1.table.id
        ((w.recordGameResult red black).1.idOf black)
        ((w.recordGameResult red black).1.players black).score)
    exact (hquiet.trans hred).trans hblack
  · exact hquiet

/-- The end of a game. -/
theorem shows_onGameEnded {status : GameStatus} {sReason : Bytes}
    (h : w.onGameEnded status sReason = .ok w') (hnodup : w.table.allPlayers.Nodup)
    (hq : q ∈ w.table.allPlayers) :
    Shows q w w' (fun c => { c with result := some status }) := by
  have hend : Shows q w (w.announceEnd status sReason)
      (fun c => c.onEvent (.eEnd w.table.id status sReason)) :=
    shows_postAll (w := w) hnodup hq _
  unfold onGameEnded at h
  obtain ⟨bGuestTable, -, h⟩ := Lib.bind_eq_ok.mp h
  split at h
  · obtain ⟨red, -, h⟩ := Lib.bind_eq_ok.mp h
    obtain ⟨black, -, h⟩ := Lib.bind_eq_ok.mp h
    cases h
    exact hend.trans (shows_recordEnd (w := w.announceEnd status sReason) hnodup hq red black)
  · cases h
    exact hend

/-! ## The operations -/

/-- What the call shows to `q` is what it does to the table. -/
def Simulates (q : PlayerRef) (w : World) (op : TableOp) (w' : World) (res : Result) : Prop :=
  ∀ c, w.table.Mirrors w.idOf c → w'.table.Mirrors w.idOf
    ((received q w w').foldl Client.onEvent { c with moves := c.moves ++ Client.ownMoves q op res })

theorem simulates_of_shows (hown : Client.ownMoves q op res = []) (hshows : Shows q w w' f)
    (hf : ∀ c, w.table.Mirrors w.idOf c → w'.table.Mirrors w.idOf (f c)) :
    Simulates q w op w' res := by
  intro c hc
  rw [hown, List.append_nil, hshows.received]
  exact hf c hc

/-- A call that does nothing a client knows of. -/
theorem simulates_self (hown : Client.ownMoves q op res = []) : Simulates q w op w res :=
  simulates_of_shows hown (shows_of_posted rfl) (fun _ hc => hc)

theorem Mirrors.ended {ids : PlayerRef → Bytes} {t : Table} {s : GameStatus}
    (h : t.Mirrors ids c) (hover : Table.IsOver s) :
    (t.ended s).Mirrors ids { c with result := some s } :=
  ⟨h.red, h.black, h.members, h.moves, (if_pos hover).symm⟩

theorem simulates_onGameEnded {s : GameStatus} {sReason : Bytes}
    (h : w.onGameEnded s sReason = .ok w') (hown : Client.ownMoves q op res = [])
    (hlisted : w.table.Listed) (hq : q ∈ w.table.allPlayers) (hover : Table.IsOver s) :
    Simulates q w op w' res := by
  refine simulates_of_shows hown (shows_onGameEnded h hlisted.nodup hq) (fun c hc => ?_)
  rw [(onGameEnded_ended h).table]
  exact Mirrors.ended hc hover

theorem assignPlayerAs_simulates (hlisted : w.table.Listed) (hq : q ∈ w.table.allPlayers)
    (hone : w.table.OnlyOne w.idOf player) (now : Int) (color : Color) :
    Simulates q w (.assignPlayerAs player color) (w.assignPlayerAs now player color).1
      (w.assignPlayerAs now player color).2 := by
  by_cases hc : w.table.Admits color
  · have hjoin := shows_postAll hlisted.nodup hq
      (.eJoin w.table.id (w.idOf player) (w.players player).score color)
    have hshows : Shows q w (w.assignPlayerAs now player color).1
        (fun c => c.join (w.idOf player) color) := by
      unfold Table.Admits at hc
      unfold assignPlayerAs
      simp only [decide_eq_true_eq]
      rw [if_pos hc]
      split
      · rename_i hnew
        -- the information goes to the newcomer
        have hne : player ≠ q := by
          intro he
          subst he
          simp only [Table.addPlayer, decide_eq_true_eq] at hnew
          exact hnew hq
        have hinfo := shows_sendInfoToPlayer ((w.postAllJoinEvent player color).setTable
          (w.table.addPlayer player color).1) now q player
        simp only [if_neg hne] at hinfo
        exact hjoin.trans hinfo
      · exact hjoin.congr rfl
    refine simulates_of_shows rfl hshows (fun c hm => ?_)
    rw [assignPlayerAs_table w now player hc]
    exact (hm.addPlayer hlisted hone color).updateStatus
  · have hrefused : w.assignPlayerAs now player color = (w, .err) := by
      unfold Table.Admits at hc
      unfold assignPlayerAs
      simp [hc]
    rw [hrefused]
    exact simulates_self rfl

theorem unassignPlayer_simulates (hlisted : w.table.Listed) (hdistinct : w.table.SeatsDistinct)
    (hq : q ∈ w.table.allPlayers) (hone : w.table.OnlyOne w.idOf player) :
    Simulates q w (.onLeaveFromPlayer player) (w.unassignPlayer player) .ok := by
  have hleave := shows_postAll hlisted.nodup hq (.leave w.table.id (w.idOf player))
  refine simulates_of_shows rfl hleave (fun c hm => ?_)
  exact (hm.removePlayer hlisted hdistinct hone).updateStatus

theorem onLeaveFromPlayer_simulates (h : w.onLeaveFromPlayer player = .ok w')
    (hlisted : w.table.Listed) (hdistinct : w.table.SeatsDistinct) (hq : q ∈ w.table.allPlayers)
    (hone : w.table.OnlyOne w.idOf player) :
    Simulates q w (.onLeaveFromPlayer player) w' .ok := by
  rcases onLeaveFromPlayer_cases h with ⟨-, w₁, hend, rfl⟩ | ⟨-, rfl⟩
  · have hended := onGameEnded_ended hend
    have hlisted₁ : (w.table.ended (w.table.lossOf player)).Listed := hlisted.of_same rfl rfl rfl
    have hnodup₁ : w₁.table.allPlayers.Nodup := by
      rw [hended.table]
      exact hlisted.nodup
    have hq₁ : q ∈ w₁.table.allPlayers := by
      rw [hended.table]
      exact hq
    have hleave := shows_postAll hnodup₁ hq₁ (.leave w₁.table.id (w₁.idOf player))
    refine simulates_of_shows rfl ((shows_onGameEnded hend hlisted.nodup hq).trans hleave)
      (fun c hm => ?_)
    have hgone := ((Mirrors.ended hm (Table.isOver_lossOf w.table player)).removePlayer hlisted₁
      hdistinct hone).updateStatus
    rw [← hended.table, ← hended.ids] at hgone
    rw [← hended.ids]
    exact hgone
  · exact unassignPlayer_simulates hlisted hdistinct hq hone

theorem handleResignRequest_simulates (h : w.handleResignRequest player = .ok (w', res))
    (hlisted : w.table.Listed) (hq : q ∈ w.table.allPlayers) :
    Simulates q w (.handleResignRequest player) w' res := by
  unfold handleResignRequest at h
  split at h
  · cases h
    exact simulates_self rfl
  split at h
  · obtain ⟨w₁, hend, h⟩ := Lib.bind_eq_ok.mp h
    cases h
    exact simulates_onGameEnded hend rfl hlisted hq (Or.inr (Or.inl rfl))
  split at h
  · obtain ⟨w₁, hend, h⟩ := Lib.bind_eq_ok.mp h
    cases h
    exact simulates_onGameEnded hend rfl hlisted hq (Or.inl rfl)
  · cases h
    exact simulates_self rfl

theorem handleDrawRequest_simulates (h : w.handleDrawRequest player = .ok (w', res))
    (hlisted : w.table.Listed) (hq : q ∈ w.table.allPlayers) :
    Simulates q w (.handleDrawRequest player) w' res := by
  unfold handleDrawRequest at h
  split at h
  · cases h
    exact simulates_self rfl
  split at h
  · cases h
    exact simulates_self rfl
  split at h
  · cases h
    have hdraw := shows_postOthers hlisted.nodup hq player
      (.draw .ok w.table.id (w.idOf player))
    refine simulates_of_shows rfl hdraw (fun c hm => ?_)
    have hsame : (if player = q then c else c.onEvent (.draw .ok w.table.id (w.idOf player))) = c := by
      split_ifs <;> rfl
    rw [hsame]
    exact hm.of_same rfl rfl rfl rfl rfl
  split at h
  · cases h
    exact simulates_self rfl
  · obtain ⟨w₁, hend, h⟩ := Lib.bind_eq_ok.mp h
    cases h
    exact simulates_onGameEnded hend rfl hlisted hq (Or.inr (Or.inr rfl))

theorem checkTimeoutOnMove_simulates (h : w.checkTimeoutOnMove now = .ok w')
    (hlisted : w.table.Listed) (hq : q ∈ w.table.allPlayers) :
    Simulates q w .checkTimeoutOnMove w' .ok := by
  unfold checkTimeoutOnMove at h
  split at h
  · cases h
    exact simulates_self rfl
  split at h
  · cases h
    exact simulates_self rfl
  · exact simulates_onGameEnded h rfl hlisted hq (Table.isOver_timeout _)

theorem handleUpdateRequest_simulates (hlisted : w.table.Listed) (hq : q ∈ w.table.allPlayers)
    (bRatedGame : Bool) (newInitialTime : TimeInfo) :
    Simulates q w (.handleUpdateRequest player bRatedGame newInitialTime)
      (w.handleUpdateRequest player bRatedGame newInitialTime).1
      (w.handleUpdateRequest player bRatedGame newInitialTime).2 := by
  unfold handleUpdateRequest
  split
  · exact simulates_self rfl
  · simp only [decide_eq_true_eq]
    split
    · have hupdate := shows_postAll hlisted.nodup hq (.update w.table.id (w.idOf player)
        (if bRatedGame then .rated else .nonrated) newInitialTime)
      exact simulates_of_shows rfl hupdate (fun c hm => hm.of_same rfl rfl rfl rfl rfl)
    · exact simulates_self rfl

/-- The seats are swapped by four joins. -/
theorem handleResetRequest_simulates (h : w.handleResetRequest player = .ok (w', res))
    (hlisted : w.table.Listed) (hdistinct : w.table.SeatsDistinct) (hq : q ∈ w.table.allPlayers)
    (hone : w.table.OnlyOne w.idOf player) : Simulates q w (.handleResetRequest player) w' res := by
  unfold handleResetRequest at h
  simp only [decide_eq_true_eq, ge_iff_le] at h
  split at h
  · cases h
    exact simulates_self rfl
  split at h
  · cases h
    exact simulates_self rfl
  split at h
  · rename_i hready
    obtain ⟨red, hred, h⟩ := Lib.bind_eq_ok.mp h
    have hred : w.table.blackPlayer = some red := deref_eq_ok.mp hred
    cases h
    have hstart : Shows q w (w.setTable { w.table with
        redPlayer := w.table.blackPlayer, blackPlayer := some player }) id := shows_of_posted rfl
    refine simulates_of_shows rfl ((((hstart.postAll hlisted.nodup hq _).postAll
      hlisted.nodup hq _).postAll hlisted.nodup hq _).postAll hlisted.nodup hq _) (fun c hm => ?_)
    exact hm.swap hlisted hone hready.1 hred (hdistinct.ne hready.1 hred)
  split at h
  · cases h
    exact simulates_self rfl
  · cases h
    have hall := w.table.restarted_allPlayers
    have hstart : Shows q w (w.setTable w.table.restarted) id := shows_of_posted rfl
    have hreset := hstart.postAll (by rw [setTable_table, hall]; exact hlisted.nodup)
      (by rw [setTable_table, hall]; exact hq) (.reset w.table.restarted.id)
    refine simulates_of_shows rfl hreset (fun c hm => ?_)
    have hmem := hm.members
    rw [← hall] at hmem
    have hresult : w.table.restarted.result = none :=
      Table.updateStatus_result { w.table with status := .open, drawPlayerId := [] }
    exact ⟨hm.red.trans (congrArg (Option.map w.idOf) w.table.restarted_redPlayer.symm),
      hm.black.trans (congrArg (Option.map w.idOf) w.table.restarted_blackPlayer.symm),
      hmem, w.table.restarted_moves.symm, hresult.symm⟩

theorem result_of_playable {t : Table} (h : t.status = .ready ∨ t.status = .inProgress) :
    t.result = none := by
  unfold Table.result
  rw [if_neg (fun hover => Table.not_playable_of_isOver hover h)]

/-- A move is shown to all but the mover, who knows it already. -/
theorem recordMove_simulates {sMove sReason : Bytes} {color : Color} {s : GameStatus}
    (h : w₁.recordMove now player sMove color s sReason = .ok w') (hsame : w₁.posted = w.posted)
    (hall : w₁.table.allPlayers = w.table.allPlayers)
    (hred : w₁.table.redPlayer = w.table.redPlayer)
    (hblack : w₁.table.blackPlayer = w.table.blackPlayer) (hmoves : w₁.table.moves = w.table.moves)
    (hplayable : w.table.status = .ready ∨ w.table.status = .inProgress)
    (hlisted : w.table.Listed) (hq : q ∈ w.table.allPlayers) :
    Simulates q w (.acceptMove player sMove) w' .ok := by
  obtain ⟨_, _, _, _, hframe⟩ := resetMoveTimers_frame
    { w₁.table with status := s, moves := w₁.table.moves ++ [sMove] } now color
  unfold recordMove at h
  simp only [hframe] at h
  generalize ht : ({ w₁.table with
    status := s, moves := w₁.table.moves ++ [sMove], redTime := _, blackTime := _,
    lastMoveTime := _, nextMoveExpiry := _ } : Table) = t at h
  have htall : t.allPlayers = w.table.allPlayers := by rw [← ht]; exact hall
  have htmoves : t.moves = w.table.moves ++ [sMove] := by rw [← ht, ← hmoves]
  have hnodup : t.allPlayers.Nodup := htall ▸ hlisted.nodup
  have hqt : q ∈ t.allPlayers := htall ▸ hq
  have hstart : Shows q w (w₁.setTable t) id := shows_of_posted hsame
  have hmove : Shows q w ((w₁.setTable t).postAllMoveEvent player sMove s) (fun c =>
      if player = q then c else c.onEvent (.move t.id ((w₁.setTable t).idOf player) sMove s)) :=
    hstart.trans (shows_postOthers (w := w₁.setTable t) hnodup hqt player _)
  have htable : ((w₁.setTable t).postAllMoveEvent player sMove s).table = t := rfl
  -- the table with the move, and what the client of `q` makes of it
  have hmirrors : ∀ (c : Client) (r : Option GameStatus), w.table.Mirrors w.idOf c →
      t.result = r → t.Mirrors w.idOf { c with moves := c.moves ++ [sMove], result := r } := by
    intro c r hc hr
    refine ⟨?_, ?_, ?_, ?_, hr.symm⟩
    · rw [← ht]
      exact hc.red.trans (by rw [← hred])
    · rw [← ht]
      exact hc.black.trans (by rw [← hblack])
    · rw [htall]
      exact hc.members
    · rw [htmoves, ← hc.moves]
  have hstatus : t.status = s := by rw [← ht]
  split at h
  · rename_i hover
    have hover : Table.IsOver s := hover
    have hend := shows_onGameEnded h hnodup hqt
    intro c hc
    rw [(hmove.trans hend).received, (onGameEnded_ended h).table, htable]
    have hknown := Mirrors.ended (hmirrors c (some s) hc (by
      unfold Table.result
      rw [hstatus, if_pos hover])) hover
    by_cases hplayer : player = q
    · simpa [hplayer, Client.ownMoves] using hknown
    · simpa [hplayer, Client.ownMoves, Client.onEvent] using hknown
  · rename_i hover
    have hover : ¬ Table.IsOver s := hover
    cases h
    intro c hc
    rw [hmove.received, htable]
    have hknown := hmirrors c c.result hc (by
      rw [hc.result, result_of_playable hplayable]
      unfold Table.result
      rw [hstatus, if_neg hover])
    by_cases hplayer : player = q
    · simpa [hplayer, Client.ownMoves] using hknown
    · simpa [hplayer, Client.ownMoves, Client.onEvent, hover] using hknown

theorem acceptMove_simulates {sMove : Bytes} (h : w.acceptMove now player sMove = .ok (w', res))
    (hlisted : w.table.Listed) (hq : q ∈ w.table.allPlayers) :
    Simulates q w (.acceptMove player sMove) w' res := by
  unfold acceptMove at h
  simp only at h
  split at h
  · cases h
    exact simulates_self rfl
  rename_i hstatus
  split at h
  · cases h
    exact simulates_self rfl
  split at h
  · cases h
    exact simulates_self rfl
  obtain ⟨v, -, h⟩ := Lib.bind_eq_ok.mp h
  split at h
  · cases h
    exact simulates_of_shows rfl (shows_of_posted rfl) (fun c hc => hc.of_same rfl rfl rfl rfl rfl)
  · obtain ⟨⟨t, s, sReason⟩, hcount, h⟩ := Lib.bind_eq_ok.mp h
    obtain ⟨w₁, hrec, h⟩ := Lib.bind_eq_ok.mp h
    cases h
    obtain ⟨_, _, _, _, hframe⟩ := countMove_frame hcount
    have hplayable : w.table.status = .ready ∨ w.table.status = .inProgress := by
      by_contra hnot
      exact hstatus (not_or.mp hnot)
    refine recordMove_simulates hrec rfl ?_ ?_ ?_ ?_ hplayable hlisted hq
    · rw [setTable_table, hframe]
    · rw [setTable_table, hframe]
    · rw [setTable_table, hframe]
    · rw [setTable_table, hframe]

/-! ## Every call -/

/-- Nobody at the table but the player himself has the id of a player who
joins, leaves or asks for a RESET. -/
def IdsApart (w : World) : TableOp → Prop
  | .assignPlayerAs player _ => w.table.OnlyOne w.idOf player
  | .onLeaveFromPlayer player => w.table.OnlyOne w.idOf player
  | .handleResetRequest player => w.table.OnlyOne w.idOf player
  | _ => True

instance (w : World) : ∀ op, Decidable (w.IdsApart op)
  | .assignPlayerAs player _ => inferInstanceAs (Decidable (w.table.OnlyOne w.idOf player))
  | .onLeaveFromPlayer player => inferInstanceAs (Decidable (w.table.OnlyOne w.idOf player))
  | .handleResetRequest player => inferInstanceAs (Decidable (w.table.OnlyOne w.idOf player))
  | .sendInfoToPlayer _ | .acceptMove _ _ | .handleResignRequest _ | .handleDrawRequest _
  | .handleUpdateRequest _ _ _ | .checkTimeoutOnMove => instDecidableTrue

/-- **What a call shows to a player at the table is what it does.** -/
theorem call_simulates (h : w.call now op = .ok (w', res)) (hlisted : w.table.Listed)
    (hdistinct : w.table.SeatsDistinct) (hq : q ∈ w.table.allPlayers) (hids : w.IdsApart op) :
    Simulates q w op w' res := by
  cases op with
  | assignPlayerAs player color =>
    have hsim := assignPlayerAs_simulates hlisted hq hids now color
    rw [show w.assignPlayerAs now player color = (w', res) from Except.ok.inj h] at hsim
    exact hsim
  | onLeaveFromPlayer player =>
    obtain ⟨w₁, hleave, he⟩ := Lib.map_eq_ok.mp h
    cases he
    exact onLeaveFromPlayer_simulates hleave hlisted hdistinct hq hids
  | sendInfoToPlayer player =>
    cases h
    refine simulates_of_shows rfl (w.shows_sendInfoToPlayer now q player) (fun c hc => ?_)
    obtain ⟨es, hes⟩ := w.sendInfoToPlayer_eq now player
    rw [hes]
    show w.table.Mirrors w.idOf _
    split
    · exact mirrors_snapshot hlisted
    · exact hc
  | acceptMove player sMove => exact acceptMove_simulates h hlisted hq
  | handleResignRequest player => exact handleResignRequest_simulates h hlisted hq
  | handleDrawRequest player => exact handleDrawRequest_simulates h hlisted hq
  | handleResetRequest player => exact handleResetRequest_simulates h hlisted hdistinct hq hids
  | handleUpdateRequest player bRatedGame newInitialTime =>
    have hsim : Simulates q w (.handleUpdateRequest player bRatedGame newInitialTime) _ _ :=
      handleUpdateRequest_simulates hlisted hq bRatedGame newInitialTime
    rw [show w.handleUpdateRequest player bRatedGame newInitialTime = (w', res) from
      Except.ok.inj h] at hsim
    exact hsim
  | checkTimeoutOnMove =>
    obtain ⟨w₁, hcheck, he⟩ := Lib.map_eq_ok.mp h
    cases he
    exact checkTimeoutOnMove_simulates hcheck hlisted hq

theorem reachable_listed (h : Table.machine.Reachable w) : w.table.Listed := by
  have hall : w.table.Replays ∧ w.table.SeatsDistinct ∧ w.table.Listed := by
    refine h.invariant (I := fun w => w.table.Replays ∧ w.table.SeatsDistinct ∧ w.table.Listed) ?_ ?_
    · intro w hw
      obtain ⟨id, initialTime, players, hw⟩ := hw
      rw [hw]
      refine ⟨(seated_new id initialTime players).replays,
        (seated_new id initialTime players).distinct, List.nodup_nil, fun p hp => ?_, fun p hp => ?_⟩
      · cases hp
      · cases hp
    · intro w op w' hw hstep
      obtain ⟨res, hcall⟩ := step_eq.mp hstep
      obtain ⟨e, hcalled⟩ := call_called hw.1.lawful hcall
      exact ⟨hw.1.effect hcalled.effect, hw.2.1.effect hcalled.effect,
        hw.2.2.effect hw.2.1 hcalled.effect⟩
  exact hall.2.2

theorem watch_of_call (h : w.call now op = .ok (w', res)) (c : Client) :
    watch q w (now, op) c = (received q w w').foldl Client.onEvent
      { c with moves := c.moves ++ Client.ownMoves q op res } := by
  unfold watch
  simp only [h]

/-- Who is not at the table is not posted an event. -/
theorem shows_postAll_absent (hq : q ∉ w.table.allPlayers) (event : Event) :
    Shows q w (w.postAll event) id := by
  refine ⟨_, rfl, fun c => ?_⟩
  have hnone : (w.table.allPlayers.map (·, event)).filter (·.1 = q) = [] := by
    rw [List.filter_eq_nil_iff]
    intro e he
    obtain ⟨p, hp, heq⟩ := List.mem_map.mp he
    rw [← heq]
    simpa using fun he : p = q => hq (he ▸ hp)
  rw [hnone]
  rfl

/-- A newcomer knows the table. -/
theorem mirrors_of_join (hlisted : w.table.Listed) (hnew : q ∉ w.table.allPlayers) {color : Color}
    (hjoin : w.call now (.assignPlayerAs q color) = .ok (w', .ok)) (c : Client) :
    q ∈ w'.table.allPlayers ∧
      w'.table.Mirrors w.idOf (watch q w (now, .assignPlayerAs q color) c) := by
  have hw : w.assignPlayerAs now q color = (w', .ok) := Except.ok.inj hjoin
  have hc : w.table.Admits color := by
    by_contra hc
    unfold Table.Admits at hc
    unfold assignPlayerAs at hw
    simp [hc] at hw
  have htable := assignPlayerAs_table w now q hc
  rw [hw] at htable
  have hall : (w.table.addPlayer q color).1.allPlayers = w.table.allPlayers ++ [q] := by
    rw [Table.addPlayer_eq]
    simp [hnew]
  have hshows : Shows q w w' (fun _ => ((w.postAllJoinEvent q color).setTable
      (w.table.addPlayer q color).1).snapshot) := by
    have hquiet := shows_postAll_absent hnew
      (.eJoin w.table.id (w.idOf q) (w.players q).score color)
    have hinfo := shows_sendInfoToPlayer ((w.postAllJoinEvent q color).setTable
      (w.table.addPlayer q color).1) now q q
    simp only [if_true] at hinfo
    unfold Table.Admits at hc
    unfold assignPlayerAs at hw
    simp only [decide_eq_true_eq] at hw
    rw [if_pos hc] at hw
    have hadded : ((w.postAllJoinEvent q color).table.addPlayer q color).2 = true := by
      show (w.table.addPlayer q color).2 = true
      simp [Table.addPlayer, hnew]
    rw [if_pos hadded] at hw
    cases hw
    exact hquiet.trans hinfo
  constructor
  · rw [htable, Table.updateStatus_allPlayers, hall]
    simp
  · rw [watch_of_call hjoin, hshows.received, htable]
    exact (mirrors_snapshot (w := (w.postAllJoinEvent q color).setTable
      (w.table.addPlayer q color).1) (hlisted.addPlayer q color)).updateStatus

/-- **Clients can mirror the table.** The client of a player who joins
knows the table after every later call, as long as he stays and nobody
else with the same id joins, leaves or resets the game. -/
theorem client_mirrors_table (h : Table.machine.Reachable w) {color : Color}
    (hnew : q ∉ w.table.allPlayers)
    (hjoin : w.call now (.assignPlayerAs q color) = .ok (w₁, .ok))
    {ops : List (Int × TableOp)}
    (hmeets : Table.machine.Meets
      (fun w op => w.IdsApart op.2 ∧ op.2 ≠ .onLeaveFromPlayer q) w₁ ops)
    (hrun : Table.machine.run w₁ ops = .ok w₂) (c : Client) :
    w₂.table.Mirrors w₂.idOf (Table.machine.history (watch q) w₁
      (watch q w (now, .assignPlayerAs q color) c) ops) := by
  have hreach₁ : Table.machine.Reachable w₁ := h.step (step_eq.mpr ⟨.ok, hjoin⟩)
  obtain ⟨hq, hmirrors⟩ := mirrors_of_join (reachable_listed h) hnew hjoin c
  obtain ⟨e, hcalled⟩ := call_called (reachable_lawful h) hjoin
  rw [← hcalled.ids] at hmirrors
  have hstep : ∀ w₁ (op : Int × TableOp) w₂ c, (Table.machine.Reachable w₁ ∧
      q ∈ w₁.table.allPlayers ∧ w₁.table.Mirrors w₁.idOf c) →
      (w₁.IdsApart op.2 ∧ op.2 ≠ .onLeaveFromPlayer q) → Table.machine.step w₁ op = .ok w₂ →
      Table.machine.Reachable w₂ ∧ q ∈ w₂.table.allPlayers ∧
        w₂.table.Mirrors w₂.idOf (watch q w₁ op c) := by
    intro w₁ op w₂ c hw₁ hop hstep
    obtain ⟨hreach, hq, hm⟩ := hw₁
    obtain ⟨now, op⟩ := op
    obtain ⟨res, hcall⟩ := step_eq.mp hstep
    obtain ⟨e, hcalled⟩ := call_called (reachable_lawful hreach) hcall
    refine ⟨hreach.step hstep, hcalled.effect.allPlayers hq hop.2, ?_⟩
    rw [watch_of_call hcall, hcalled.ids]
    exact call_simulates hcall (reachable_listed hreach) (reachable_seatsDistinct hreach) hq hop.1
      c hm
  exact (hmeets.history hstep ⟨hreach₁, hq, hmirrors⟩ hrun).2.2

/-- Players with ids of their own. -/
def numbered (player : PlayerRef) : Player := { id := [48 + UInt8.ofNat player] }

/-- Player 2 looks on, player 1 moves, and player 3 resigns. -/
def lookingOn : List (Int × TableOp) :=
  [(0, .acceptMove 1 (bytes "4948")), (0, .assignPlayerAs 4 .none), (0, .handleResignRequest 3)]

theorem client_mirrors_table_lookingOn : ∃ w w₁ w₂,
    Table.machine.run (new (bytes "t") {} numbered)
        [(0, .assignPlayerAs 1 .red), (0, .assignPlayerAs 3 .black)] = .ok w ∧
      w.call 0 (.assignPlayerAs 2 .none) = .ok (w₁, .ok) ∧
      Table.machine.run w₁ lookingOn = .ok w₂ ∧
      w₂.table.Mirrors w₂.idOf (Table.machine.history (watch 2) w₁
        (watch 2 w (0, .assignPlayerAs 2 .none) {}) lookingOn) := by
  have hnew : (Table.machine.run (new (bytes "t") {} numbered)
      [(0, .assignPlayerAs 1 .red), (0, .assignPlayerAs 3 .black)]).map
        (fun w => decide (2 ∉ w.table.allPlayers)) = .ok true := by decide +kernel
  obtain ⟨w, hw, hnew⟩ := Lib.map_eq_ok.mp hnew
  have hjoin : (Table.machine.run (new (bytes "t") {} numbered)
      [(0, .assignPlayerAs 1 .red), (0, .assignPlayerAs 3 .black)]).map
        (fun w => (w.call 0 (.assignPlayerAs 2 .none)).map (fun r => (r.2,
          decide (Table.machine.Meets (fun w op => w.IdsApart op.2 ∧ op.2 ≠ .onLeaveFromPlayer 2)
            r.1 lookingOn), (Table.machine.run r.1 lookingOn).isOk))) =
      .ok (.ok (.ok, true, true)) := by decide +kernel
  rw [hw] at hjoin
  obtain ⟨⟨w₁, res⟩, hcall, he⟩ := Lib.map_eq_ok.mp (Except.ok.inj hjoin)
  simp only [Prod.mk.injEq, decide_eq_true_eq] at he
  obtain ⟨hres, hmeets, hok⟩ := he
  rw [hres] at hcall
  cases hrun : Table.machine.run w₁ lookingOn with
  | error e => simp [hrun, Except.isOk, Except.toBool] at hok
  | ok w₂ =>
    exact ⟨w, w₁, w₂, hw, hcall, hrun, client_mirrors_table (reachable_of_run hw)
      (of_decide_eq_true hnew) hcall hmeets hrun {}⟩

/-- Players 2 and 3 look on, and 3 leaves. -/
def namesakes : List (Int × TableOp) :=
  [(0, .assignPlayerAs 2 .none), (0, .assignPlayerAs 3 .none), (0, .onLeaveFromPlayer 3)]

/-- Players 2 and 3 have one id. When 3 leaves, the client of player 1
takes the id out, and player 2 is still at the table. -/
theorem client_loses_namesake : ∃ w w₁,
    (new (bytes "t") {} twoPlayers).call 0 (.assignPlayerAs 1 .none) = .ok (w, .ok) ∧
      Table.machine.run w namesakes = .ok w₁ ∧
      ¬ w₁.table.Mirrors w₁.idOf (Table.machine.history (watch 1) w
        (watch 1 (new (bytes "t") {} twoPlayers) (0, .assignPlayerAs 1 .none) {}) namesakes) := by
  have hjoin : ((new (bytes "t") {} twoPlayers).call 0 (.assignPlayerAs 1 .none)).map
      (fun r => (r.2, (Table.machine.history (watch 1) r.1
        (watch 1 (new (bytes "t") {} twoPlayers) (0, .assignPlayerAs 1 .none) {})
        namesakes).members)) = .ok (.ok, [bytes "red"]) := by decide +kernel
  have hrun : ((new (bytes "t") {} twoPlayers).call 0 (.assignPlayerAs 1 .none)).map
      (fun r => (Table.machine.run r.1 namesakes).map (fun w => (w.table.allPlayers, w.idOf 2))) =
      .ok (.ok ([1, 2], bytes "black")) := by decide +kernel
  obtain ⟨⟨w, res⟩, hcall, he⟩ := Lib.map_eq_ok.mp hjoin
  rw [hcall] at hrun
  obtain ⟨w₁, hw₁, he'⟩ := Lib.map_eq_ok.mp (Except.ok.inj hrun)
  simp only [Prod.mk.injEq] at he he'
  obtain ⟨hres, hmembers⟩ := he
  rw [hres] at hcall
  refine ⟨w, w₁, hcall, hw₁, fun hm => ?_⟩
  have hmem := (hm.members (bytes "black")).mpr ⟨2, by rw [he'.1]; decide, he'.2⟩
  rw [hmembers] at hmem
  exact absurd hmem (by decide)

end World

end HoxServer
