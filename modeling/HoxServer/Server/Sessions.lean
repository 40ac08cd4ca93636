/-
HoxServer.Server.Sessions — what the parts of the server do to sessions.

`Sound` says that every reference is to an object that has been made.
`Acts opened closed` is what a part of the server may do from a sound
state: it stays sound, the states of sessions only go to SHUTDOWN, but for
the sessions in `opened`, and `handleShutdown` runs for some sessions in
`closed`, in this order, each of which it leaves in SHUTDOWN. Sessions
enter the registry when they are made, and never again. To tables, players
and the queue it does what `Does` allows.

The functions are taken one by one, from the table calls up to `wake`.
`reopened` and `closed` name the sessions that a step may take out of
their state and those it may shut down.
-/
import HoxServer.Server.Steps
import HoxServer.Table.Effects
import Mathlib.Data.List.TakeWhile

namespace HoxServer

/-- The sessions that a blocked thread has at hand. -/
def Thread.sessions : Thread → List SessionRef
  | .idle => []
  | .authenticating found _ => found.toList
  | .interrupting session _ _ | .resuming session _ | .replacing session _ _
  | .terminating session _ | .answering session _ | .reading session _ | .yielding session _
  | .disconnecting session _ | .deleting session => [session]

/-- The player that a blocked thread has loaded. -/
def Thread.loaded : Thread → Option PlayerRef
  | .replacing _ player _ => some player
  | _ => none

namespace Server

open Lib

variable {s s' s'' : Server} {i : Input} {t : TableRef} {op : TableOp} {res : Result}
  {th : ThreadRef} {session : SessionRef} {player : PlayerRef} {b : Bool}
  {opened opened' closed closed' : List SessionRef}

/-! ## References -/

/-- Every reference is to an object that has been made. -/
structure Sound (s : Server) : Prop where
  sessions : ∀ x ∈ s.sessions, x < s.sessionCount
  nodup : s.sessions.Nodup
  managing : ∀ x, s.managing = some x → x < s.sessionCount
  threads : ∀ th, ∀ x ∈ (s.thread th).sessions, x < s.sessionCount
  loaded : ∀ th p, (s.thread th).loaded = some p → p < s.playerCount
  players : ∀ x, x < s.sessionCount → (s.session x).player < s.playerCount
  logouts : ∀ x ∈ s.logouts, x < s.sessionCount
  active : ∀ x, s.sessionCount ≤ x → (s.session x).state = .active

theorem sound_init (db : Bytes → Option PlayerRow) : Sound { db } where
  sessions x hx := by cases hx
  nodup := List.nodup_nil
  managing x hx := by cases hx
  threads th x hx := by cases hx
  loaded th p hp := by cases hp
  players x hx := by cases hx
  logouts x hx := by cases hx
  active x _ := rfl

theorem Sound.lt_of_thread {t : Thread} (hs : s.Sound) (hth : s.thread th = t) :
    ∀ x ∈ t.sessions, x < s.sessionCount := by
  subst hth
  exact hs.threads th

/-! ## What a part of the server can do -/

/-- Sessions, threads and the ids of the players are the same. -/
structure SameSessions (s s' : Server) : Prop where
  session : s'.session = s.session
  sessionCount : s'.sessionCount = s.sessionCount
  sessions : s'.sessions = s.sessions
  managing : s'.managing = s.managing
  thread : s'.thread = s.thread
  logouts : s'.logouts = s.logouts
  playerCount : s'.playerCount = s.playerCount
  ids : ∀ p, (s'.players p).id = (s.players p).id

theorem SameSessions.refl (s : Server) : s.SameSessions s :=
  ⟨rfl, rfl, rfl, rfl, rfl, rfl, rfl, fun _ => rfl⟩

theorem SameSessions.trans (h : s.SameSessions s') (h' : s'.SameSessions s'') :
    s.SameSessions s'' :=
  ⟨h'.session.trans h.session, h'.sessionCount.trans h.sessionCount,
    h'.sessions.trans h.sessions, h'.managing.trans h.managing, h'.thread.trans h.thread,
    h'.logouts.trans h.logouts, h'.playerCount.trans h.playerCount,
    fun p => (h'.ids p).trans (h.ids p)⟩

/-- A part of the server opens sessions of `opened` only, and has
`handleShutdown` run for sessions of `closed` only. -/
structure Acts (opened closed : List SessionRef) (s s' : Server) : Prop where
  sound : s'.Sound
  sessionCount : s.sessionCount ≤ s'.sessionCount
  playerCount : s.playerCount ≤ s'.playerCount
  sessions : ∀ x ∈ s'.sessions, x ∈ s.sessions ∨ (s.sessionCount ≤ x ∧ x ∈ closed)
  state : ∀ x, x < s.sessionCount →
    (s'.session x).state = (s.session x).state ∨ (s'.session x).state = .shutdown ∨ x ∈ opened
  id : ∀ x, x < s.sessionCount → (s'.session x).id = (s.session x).id
  player : ∀ x, x < s.sessionCount → (s'.session x).player = (s.session x).player
  ids : ∀ p, p < s.playerCount → (s'.players p).id = (s.players p).id
  logouts : ∃ done, s'.logouts = s.logouts ++ done ∧ done.Sublist closed ∧
    ∀ x ∈ done, (s'.session x).state = .shutdown
  does : s.Does s'

theorem Acts.trans (h : s.Acts opened closed s') (h' : s'.Acts opened' closed' s'')
    (hd : ∀ x ∈ closed, x ∉ opened') : s.Acts (opened ++ opened') (closed ++ closed') s'' := by
  have hcount := h.sessionCount
  refine ⟨h'.sound, hcount.trans h'.sessionCount, h.playerCount.trans h'.playerCount,
    fun x hx => ?_, fun x hx => ?_, fun x hx => ?_, fun x hx => ?_, fun p hp => ?_, ?_,
    h.does.trans h'.does⟩
  · rcases h'.sessions x hx with hx | ⟨hle, hc⟩
    · exact (h.sessions x hx).imp_right fun ⟨hle, hc⟩ => ⟨hle, List.mem_append_left _ hc⟩
    · exact Or.inr ⟨hcount.trans hle, List.mem_append_right _ hc⟩
  · rcases h'.state x (hx.trans_le hcount) with he | he | he
    · rcases h.state x hx with he' | he' | he'
      · exact Or.inl (he.trans he')
      · exact Or.inr (Or.inl (he.trans he'))
      · exact Or.inr (Or.inr (List.mem_append_left _ he'))
    · exact Or.inr (Or.inl he)
    · exact Or.inr (Or.inr (List.mem_append_right _ he))
  · exact (h'.id x (hx.trans_le hcount)).trans (h.id x hx)
  · exact (h'.player x (hx.trans_le hcount)).trans (h.player x hx)
  · exact (h'.ids p (hp.trans_le h.playerCount)).trans (h.ids p hp)
  · obtain ⟨done, hdone, hsub, hshut⟩ := h.logouts
    obtain ⟨done', hdone', hsub', hshut'⟩ := h'.logouts
    refine ⟨done ++ done', by rw [hdone', hdone, List.append_assoc], hsub.append hsub', ?_⟩
    intro x hx
    rcases List.mem_append.mp hx with hx | hx
    · -- the second part leaves what the first has closed
      have hlt : x < s'.sessionCount :=
        h.sound.logouts x (hdone ▸ List.mem_append_right _ hx)
      rcases h'.state x hlt with he | he | he
      · exact he.trans (hshut x hx)
      · exact he
      · exact absurd he (hd x (hsub.subset hx))
    · exact hshut' x hx

/-- `Acts.trans` when the second part opens no session. -/
theorem Acts.then (h : s.Acts opened closed s') (h' : s'.Acts [] closed' s'') :
    s.Acts opened (closed ++ closed') s'' := by
  have htrans := h.trans h' (fun x _ hx => by cases hx)
  rwa [List.append_nil] at htrans

theorem Acts.quiet (h : s.Acts opened closed s') (h' : s'.Acts [] [] s'') :
    s.Acts opened closed s'' := by
  have hthen := h.then h'
  rwa [List.append_nil] at hthen

theorem Acts.after (h' : s'.Acts opened closed s'') (h : s.Acts [] [] s') :
    s.Acts opened closed s'' := h.trans h' (fun x hx => by cases hx)

theorem Acts.mono (h : s.Acts opened closed s') (ho : opened ⊆ opened')
    (hc : closed.Sublist closed') : s.Acts opened' closed' s' := by
  obtain ⟨done, hdone, hsub, hshut⟩ := h.logouts
  refine { h with
    sessions := fun x hx => (h.sessions x hx).imp_right fun ⟨hle, hx⟩ => ⟨hle, hc.subset hx⟩
    state := fun x hx => ?_
    logouts := ⟨done, hdone, hsub.trans hc, hshut⟩ }
  rcases h.state x hx with he | he | he
  · exact Or.inl he
  · exact Or.inr (Or.inl he)
  · exact Or.inr (Or.inr (ho he))

theorem SameSessions.acts (h : s.SameSessions s') (hs : s.Sound) (hdoes : s.Does s') :
    s.Acts [] [] s' where
  sound := by
    refine ⟨?_, ?_, ?_, ?_, ?_, ?_, ?_, ?_⟩
    · rw [h.sessions, h.sessionCount]
      exact hs.sessions
    · rw [h.sessions]
      exact hs.nodup
    · rw [h.managing, h.sessionCount]
      exact hs.managing
    · rw [h.thread, h.sessionCount]
      exact hs.threads
    · rw [h.thread, h.playerCount]
      exact hs.loaded
    · rw [h.session, h.sessionCount, h.playerCount]
      exact hs.players
    · rw [h.logouts, h.sessionCount]
      exact hs.logouts
    · rw [h.session, h.sessionCount]
      exact hs.active
  sessionCount := h.sessionCount.ge
  playerCount := h.playerCount.ge
  sessions x hx := Or.inl (h.sessions ▸ hx)
  state x _ := Or.inl (by rw [h.session])
  id x _ := by rw [h.session]
  player x _ := by rw [h.session]
  ids p _ := h.ids p
  logouts := ⟨[], by simp [h.logouts], List.Sublist.refl _, fun x hx => by cases hx⟩
  does := hdoes

/-! ## The functions that call tables -/

theorem same_callTable (h : s.callTable i t op = .ok (s', res)) : s.SameSessions s' := by
  unfold callTable at h
  split at h
  · cases h
  · rename_i w res' hcall
    cases h
    exact ⟨rfl, rfl, rfl, rfl, rfl, rfl, rfl, fun p => congrFun (World.call_ids hcall) p⟩

theorem same_map_callTable (h : (s.callTable i t op).map Prod.fst = .ok s') :
    s.SameSessions s' := by
  obtain ⟨⟨s₁, res⟩, hc, he⟩ := map_eq_ok.mp h
  cases he
  exact same_callTable hc

theorem same_createTable (s : Server) (i : Input) (initialTime : TimeInfo) :
    s.SameSessions (s.createTable i initialTime).1 :=
  ⟨rfl, rfl, rfl, rfl, rfl, rfl, rfl, fun _ => rfl⟩

theorem same_insertTable (s : Server) (player : PlayerRef) (t : TableRef) :
    s.SameSessions (s.insertTable player t) := by
  unfold insertTable
  simp only
  split
  · exact .refl _
  · exact ⟨rfl, rfl, rfl, rfl, rfl, rfl, rfl, fun _ => rfl⟩

theorem same_joinTableAs {c : Color} (h : s.joinTableAs i player t c = .ok s') :
    s.SameSessions s' := by
  obtain ⟨⟨s₁, res⟩, hc, h⟩ := bind_eq_ok.mp h
  have hsame := same_callTable hc
  cases h
  split
  · exact hsame.trans (same_insertTable s₁ player t)
  · exact hsame

theorem same_leaveTable (h : s.leaveTable i player t = .ok s') : s.SameSessions s' := by
  obtain ⟨⟨s₁, res⟩, hc, h⟩ := bind_eq_ok.mp h
  cases h
  exact (same_callTable hc).trans ⟨rfl, rfl, rfl, rfl, rfl, rfl, rfl, fun _ => rfl⟩

theorem same_leaveAllTables (h : s.leaveAllTables i player = .ok s') : s.SameSessions s' :=
  foldlM_invariant (fun _ _ _ hs h => hs.trans (same_leaveTable h)) (s.tablesOf player) (.refl s) h

theorem same_manageTables (h : s.manageTables i = .ok s') : s.SameSessions s' :=
  foldlM_invariant (fun _ _ _ hs h => hs.trans (same_map_callTable h)) _ (.refl s) h

theorem same_atTable {tid : Bytes} (h : s.atTable i player tid op = .ok s') :
    s.SameSessions s' := by
  unfold atTable at h
  split at h
  · cases h
    exact .refl _
  · exact same_map_callTable h

theorem same_runCleanup (s : Server) : s.SameSessions s.runCleanup :=
  ⟨rfl, rfl, rfl, rfl, rfl, rfl, rfl, fun _ => rfl⟩

/-! ## The functions that change sessions and threads -/

theorem Sound.acts (hs : s.Sound) : s.Acts [] [] s := (SameSessions.refl s).acts hs .refl

/-- Only the registry, the thread of a session manager or a client thread
is changed, and to a sound state. -/
theorem Sound.acts_of_session (hs : s'.Sound) (hsession : s'.session = s.session)
    (hcount : s'.sessionCount = s.sessionCount) (hsessions : s'.sessions ⊆ s.sessions)
    (hlogouts : s'.logouts = s.logouts) (hsame : s.SameTables s') : s.Acts [] [] s' where
  sound := hs
  sessionCount := hcount.ge
  playerCount := by
    obtain ⟨_, _, _, _, _, _, rfl⟩ := hsame
    exact le_rfl
  sessions x hx := Or.inl (hsessions hx)
  state x _ := Or.inl (by rw [hsession])
  id x _ := by rw [hsession]
  player x _ := by rw [hsession]
  ids p _ := by
    obtain ⟨_, _, _, _, _, _, rfl⟩ := hsame
    rfl
  logouts := ⟨[], by simp [hlogouts], List.Sublist.refl _, fun x hx => by cases hx⟩
  does := hsame.does

theorem acts_setThread {thread : Thread} (hs : s.Sound)
    (ht : ∀ x ∈ thread.sessions, x < s.sessionCount)
    (hp : ∀ p, thread.loaded = some p → p < s.playerCount) (th : ThreadRef) :
    s.Acts [] [] (s.setThread th thread) := by
  refine Sound.acts_of_session ?_ rfl rfl (fun x hx => hx) rfl ⟨_, _, _, _, _, _, rfl⟩
  refine { hs with threads := fun th' x hx => ?_, loaded := fun th' p hp' => ?_ }
  · by_cases he : th' = th
    · subst he
      simp only [setThread, Function.update_self] at hx
      exact ht x hx
    · simp only [setThread, Function.update_of_ne he] at hx
      exact hs.threads th' x hx
  · by_cases he : th' = th
    · subst he
      simp only [setThread, Function.update_self] at hp'
      exact hp p hp'
    · simp only [setThread, Function.update_of_ne he] at hp'
      exact hs.loaded th' p hp'

/-- A thread that is blocked with a session at hand. -/
theorem acts_setThread_of_session {thread : Thread} (hs : s.Sound) (hx : session < s.sessionCount)
    (ht : thread.sessions = [session]) (hp : thread.loaded = none) (th : ThreadRef) :
    s.Acts [] [] (s.setThread th thread) := by
  refine acts_setThread hs (fun x hx' => ?_) (fun p hp' => ?_) th
  · rw [ht, List.mem_singleton] at hx'
    exact hx' ▸ hx
  · rw [hp] at hp'
    cases hp'

theorem acts_setThread_idle (hs : s.Sound) (th : ThreadRef) : s.Acts [] [] (s.setThread th .idle) :=
  acts_setThread hs (fun x hx => by cases hx) (fun p hp => by cases hp) th

theorem acts_setSession {f : Session → Session} (hs : s.Sound) (hx : session < s.sessionCount)
    (hid : ∀ x, (f x).id = x.id) (hplayer : ∀ x, (f x).player = x.player)
    (hstate : (f (s.session session)).state = (s.session session).state ∨
      (f (s.session session)).state = .shutdown ∨ session ∈ opened) :
    s.Acts opened [] (s.setSession session f) := by
  have hother : ∀ x, x ≠ session → (s.setSession session f).session x = s.session x :=
    fun x hne => by simp [setSession, hne]
  have hself : (s.setSession session f).session session = f (s.session session) := by
    simp [setSession]
  refine ⟨{ hs with players := fun x hx' => ?_, active := fun x hx' => ?_ }, le_rfl, le_rfl,
    fun x hx' => Or.inl hx', fun x _ => ?_, fun x _ => ?_, fun x _ => ?_, fun p _ => rfl,
    ⟨[], by simp [setSession], List.Sublist.refl _, fun x hx' => by cases hx'⟩,
    SameTables.does ⟨_, _, _, _, _, _, rfl⟩⟩
  · by_cases he : x = session
    · rw [he, hself, hplayer]
      exact hs.players session hx
    · rw [hother x he]
      exact hs.players x hx'
  · have hle : s.sessionCount ≤ x := hx'
    rw [hother x (hx.trans_le hle).ne']
    exact hs.active x hx'
  · by_cases he : x = session
    · rw [he, hself]
      exact hstate
    · exact Or.inl (by rw [hother x he])
  · by_cases he : x = session
    · rw [he, hself, hid]
    · rw [hother x he]
  · by_cases he : x = session
    · rw [he, hself, hplayer]
    · rw [hother x he]

theorem acts_setState {state : SessionState} (hs : s.Sound) (hx : session < s.sessionCount) :
    s.Acts [session] [] (s.setState session state) :=
  acts_setSession hs hx (fun _ => rfl) (fun _ => rfl) (Or.inr (Or.inr (List.mem_singleton_self _)))

theorem acts_closedIo (hs : s.Sound) (hx : session < s.sessionCount) :
    s.Acts [] [] (s.closedIo session) :=
  acts_setSession hs hx (fun _ => rfl) (fun _ => rfl) (Or.inl rfl)

theorem acts_closeIo (hs : s.Sound) (hx : session < s.sessionCount) :
    s.Acts [] [] (s.closeIo session).1 := by
  unfold closeIo
  split
  · exact hs.acts
  · split
    · exact acts_setSession (f := fun x => { x with readThread := false }) hs hx (fun _ => rfl)
        (fun _ => rfl) (Or.inl rfl)
    · exact acts_setSession (f := fun x => { x with readThread := false, nfd := false }) hs hx
        (fun _ => rfl) (fun _ => rfl) (Or.inl rfl)

theorem acts_deleteSession (hs : s.Sound) (session : SessionRef) :
    s.Acts [] [] (s.deleteSession session) := by
  have hsub : ((s.deleteSession session).sessions).Sublist s.sessions := List.filter_sublist
  refine Sound.acts_of_session ?_ rfl rfl hsub.subset rfl ⟨_, _, _, _, _, _, rfl⟩
  exact { hs with
    sessions := fun x hx => hs.sessions x (hsub.subset hx)
    nodup := hs.nodup.sublist hsub }

theorem acts_closedSession (hs : s.Sound) (session : SessionRef) :
    s.Acts [] [] (s.closedSession session) :=
  have hcleanup := (same_runCleanup s).acts hs (Does.refl.runCleanup)
  hcleanup.then (acts_deleteSession hcleanup.sound session)

theorem acts_newPlayer (hs : s.Sound) (p : Player) : s.Acts [] [] (s.newPlayer p).1 where
  sound := { hs with
    loaded := fun th p hp => Nat.lt_succ_of_lt (hs.loaded th p hp)
    players := fun x hx => Nat.lt_succ_of_lt (hs.players x hx) }
  sessionCount := le_rfl
  playerCount := Nat.le_succ _
  sessions x hx := Or.inl hx
  state x _ := Or.inl rfl
  id x _ := rfl
  player x _ := rfl
  ids q hq := by
    have hne : q ≠ s.playerCount := hq.ne
    simp [newPlayer, hne]
  logouts := ⟨[], by simp [newPlayer], List.Sublist.refl _, fun x hx => by cases hx⟩
  does := Does.refl.newPlayer p

theorem acts_postLogout (hs : s.Sound) (hx : session < s.sessionCount)
    (hstate : (s.session session).state = .shutdown) :
    s.Acts [] [session] (s.postLogout session) where
  sound := { hs with
    logouts := fun x hx' => by
      rcases List.mem_append.mp hx' with hx' | hx'
      · exact hs.logouts x hx'
      · rw [List.mem_singleton.mp hx']
        exact hx }
  sessionCount := le_rfl
  playerCount := le_rfl
  sessions x hx := Or.inl hx
  state x _ := Or.inl rfl
  id x _ := rfl
  player x _ := rfl
  ids p _ := rfl
  logouts := ⟨[session], rfl, List.Sublist.refl _, fun x hx' => by
    rw [List.mem_singleton.mp hx']
    exact hstate⟩
  does := SameTables.does ⟨_, _, _, _, _, _, rfl⟩

theorem acts_handleShutdown (hs : s.Sound) (hx : session < s.sessionCount)
    (h : s.handleShutdown i session = .ok (s', b)) : s.Acts [] [session] s' := by
  obtain ⟨s₁, hleave, h⟩ := bind_eq_ok.mp h
  have hleft := (same_leaveAllTables hleave).acts hs (does_leaveAllTables hleave)
  have hx₁ := hx.trans_le hleft.sessionCount
  have hshut : s₁.Acts [] [] (s₁.setState session .shutdown) :=
    acts_setSession hleft.sound hx₁ (fun _ => rfl) (fun _ => rfl) (Or.inr (Or.inl rfl))
  have hposted : s₁.Acts [] [session] ((s₁.setState session .shutdown).postLogout session) :=
    hshut.then (acts_postLogout hshut.sound hx₁ (by simp [setState, setSession]))
  simp only [Except.ok.injEq] at h
  split at h
  · have hio := acts_closeIo hposted.sound hx₁
    rw [h] at hio
    exact hleft.then (hposted.then hio)
  · cases h
    exact hleft.then hposted

theorem acts_handleRequest {request : Request} (hs : s.Sound) (hx : session < s.sessionCount)
    (h : s.handleRequest i session request = .ok s') : s.Acts [] [] s' := by
  cases request with
  | login =>
    cases h
    exact hs.acts
  | logout =>
    cases h
    exact acts_setSession hs hx (fun _ => rfl) (fun _ => rfl) (Or.inr (Or.inl rfl))
  | new initialTime color =>
    refine ((same_createTable s i initialTime).trans (same_joinTableAs h)).acts hs ?_
    exact (Does.refl.createTable i initialTime).joinTableAs (hs.players session hx)
      (mem_getTables_createTable s i initialTime) h
  | join tid color =>
    simp only [handleRequest] at h
    split at h
    · cases h
      exact hs.acts
    · rename_i hfind
      exact (same_joinTableAs h).acts hs
        (Does.refl.joinTableAs (hs.players session hx) (mem_getTables hfind) h)
  | leave tid =>
    simp only [handleRequest] at h
    split at h
    · cases h
      exact hs.acts
    · obtain ⟨s₁, hleave, h⟩ := bind_eq_ok.mp h
      cases h
      exact ((same_leaveTable hleave).trans (same_runCleanup s₁)).acts hs
        (Does.refl.leaveTable hleave).runCleanup
  | update => exact (same_atTable h).acts hs (does_atTable h not_false)
  | move => exact (same_atTable h).acts hs (does_atTable h not_false)
  | resign => exact (same_atTable h).acts hs (does_atTable h not_false)
  | draw => exact (same_atTable h).acts hs (does_atTable h not_false)
  | reset => exact (same_atTable h).acts hs (does_atTable h not_false)
  | other =>
    cases h
    exact hs.acts

/-! ## The session manager -/

theorem acts_expireSessions {expired l : List SessionRef} (hs : s.Sound)
    (hl : ∀ x ∈ l, x < s.sessionCount) (h : s.expireSessions i expired l = .ok s') :
    s.Acts [] (l.filter fun x => decide (x ∈ expired)) s' := by
  induction l generalizing s with
  | nil =>
    cases h
    have hdone : Sound { s with managing := none } :=
      { hs with managing := fun x hx => by cases hx }
    exact hdone.acts_of_session rfl rfl (fun x hx => hx) rfl ⟨_, _, _, _, _, _, rfl⟩
  | cons session rest ih =>
    obtain ⟨hx, hrest⟩ := List.forall_mem_cons.mp hl
    unfold expireSessions at h
    split at h
    · rename_i hexpired
      rw [List.filter_cons_of_pos (by simpa using hexpired)]
      obtain ⟨⟨s₁, blocked⟩, hshut, h⟩ := bind_eq_ok.mp h
      have hacts := acts_handleShutdown hs hx hshut
      have hx₁ := hx.trans_le hacts.sessionCount
      simp only at h
      split at h
      · cases h
        have hwait : Sound { s₁ with managing := some session } := { hacts.sound with
          managing := fun x hx' => by
            cases hx'
            exact hx₁ }
        have hwaiting := hacts.quiet
          (hwait.acts_of_session rfl rfl (fun x hx => hx) rfl ⟨_, _, _, _, _, _, rfl⟩)
        exact hwaiting.mono (fun x hx => hx) (List.singleton_sublist.mpr List.mem_cons_self)
      · exact hacts.then (ih hacts.sound (fun x hx' => (hrest x hx').trans_le hacts.sessionCount) h)
    · rename_i hexpired
      rw [List.filter_cons_of_neg (by simpa using hexpired)]
      exact ih hs hrest h

/-- The sessions that stay in the registry when it is purged. -/
def unpurged (s : Server) : List SessionRef :=
  s.sessions.filter fun x => decide ((s.session x).state ≠ .shutdown)

theorem acts_manageSessions {expired : List SessionRef} (hs : s.Sound)
    (h : s.manageSessions i expired = .ok s') :
    s.Acts [] (s.unpurged.filter fun x => decide (x ∈ expired)) s' := by
  unfold manageSessions at h
  split at h
  · cases h
  · have hsub : s.unpurged.Sublist s.sessions := List.filter_sublist
    have hpurged : Sound { s with sessions := s.unpurged } := { hs with
      sessions := fun x hx => hs.sessions x (hsub.subset hx)
      nodup := hs.nodup.sublist hsub }
    have hacts := hpurged.acts_of_session (s := s) rfl rfl hsub.subset rfl ⟨_, _, _, _, _, _, rfl⟩
    exact (acts_expireSessions hpurged hpurged.sessions h).after hacts

/-- The sessions behind one that is being closed. -/
def behind (s : Server) (session : SessionRef) : List SessionRef :=
  (s.sessions.dropWhile fun x => decide (x ≠ session)).tail

theorem behind_sublist (s : Server) (session : SessionRef) :
    (s.behind session).Sublist s.sessions :=
  (List.tail_sublist _).trans (List.dropWhile_sublist _)

theorem acts_manageSessionsJoined {expired : List SessionRef} (hs : s.Sound)
    (h : s.manageSessionsJoined i expired = .ok s') : ∃ session, s.managing = some session ∧
      s.Acts [] ((s.behind session).filter fun x => decide (x ∈ expired)) s' := by
  unfold manageSessionsJoined at h
  split at h
  · cases h
  · rename_i session hmanaging
    simp only at h
    split at h
    · have hclosed := acts_closedIo hs (hs.managing session hmanaging)
      refine ⟨session, hmanaging, Acts.after (acts_expireSessions hclosed.sound ?_ h) hclosed⟩
      exact fun x hx => hs.sessions x ((s.behind_sublist session).subset hx)
    · cases h

/-! ## The client threads -/

theorem acts_endSession {clientType : ClientType} (hs : s.Sound) (hx : session < s.sessionCount)
    (h : s.endSession i th session clientType = .ok s') : s.Acts [] [session] s' := by
  unfold endSession at h
  split at h
  · obtain ⟨⟨s₁, blocked⟩, hshut, h⟩ := bind_eq_ok.mp h
    have hacts := acts_handleShutdown hs hx hshut
    have hx₁ := hx.trans_le hacts.sessionCount
    simp only at h
    split at h
    · cases h
      exact hacts.quiet (acts_setThread_of_session hacts.sound hx₁ rfl rfl th)
    · cases h
      have hdeleted := hacts.quiet (acts_closedSession hacts.sound session)
      exact hdeleted.quiet (acts_setThread_idle hdeleted.sound th)
  · cases h
    exact (acts_setThread_idle hs th).mono (fun x hx => hx) (List.nil_sublist _)

theorem acts_runEventLoop {clientType : ClientType} (hs : s.Sound) (hx : session < s.sessionCount)
    (h : s.runEventLoop i th session clientType = .ok s') : s.Acts [] [session] s' := by
  unfold runEventLoop at h
  split at h
  · cases h
    exact (acts_setThread_of_session hs hx rfl rfl th).mono (fun x hx => hx) (List.nil_sublist _)
  · exact acts_endSession hs hx h

theorem acts_handleFirstRequest {first : FirstRequest} (hs : s.Sound)
    (hx : session < s.sessionCount) (h : s.handleFirstRequest i th session first = .ok s') :
    s.Acts [] [session] s' := by
  unfold handleFirstRequest at h
  split at h
  · cases h
    exact (acts_setThread_of_session hs hx rfl rfl th).mono (fun x hx => hx) (List.nil_sublist _)
  · obtain ⟨s₁, hreq, h⟩ := bind_eq_ok.mp h
    cases h
    have hacts := acts_handleRequest hs hx hreq
    have hset : s₁.Acts [] [] (s₁.setThread th (.answering session first)) :=
      acts_setThread_of_session hacts.sound (hx.trans_le hacts.sessionCount) rfl rfl th
    exact (hacts.quiet hset).mono (fun x hx => hx) (List.nil_sublist _)
  · obtain ⟨s₁, hreq, h⟩ := bind_eq_ok.mp h
    have hacts := acts_handleRequest hs hx hreq
    exact (acts_runEventLoop hacts.sound (hx.trans_le hacts.sessionCount) h).after hacts

/-! ## New sessions -/

theorem mapInsert_subset {key : Nat → Bytes} {a x : Nat} {l : List Nat}
    (h : x ∈ mapInsert key a l) : x = a ∨ x ∈ l := by
  rcases List.mem_append.mp h with h | h
  · exact Or.inr ((List.takeWhile_sublist _).subset h)
  · rcases List.mem_cons.mp h with h | h
    · exact Or.inl h
    · exact Or.inr ((List.dropWhile_sublist _).subset h)

theorem mapInsert_nodup {key : Nat → Bytes} {a : Nat} {l : List Nat} (hl : l.Nodup) (ha : a ∉ l) :
    (mapInsert key a l).Nodup := by
  have hsub : (l.takeWhile (fun x => decide (key x < key a)) ++
      l.dropWhile (fun x => !decide (key a < key x))).Sublist l := by
    have hparts := List.takeWhile_append_dropWhile (p := fun x => decide (key x < key a)) (l := l)
    conv_rhs => rw [← hparts]
    refine (List.Sublist.refl _).append ?_
    -- the second loop goes through all that the first has gone through
    have hskip : ∀ x ∈ l.takeWhile (fun x => decide (key x < key a)),
        (!decide (key a < key x)) = true := by
      intro x hx
      have hlt : key x < key a := by simpa using List.mem_takeWhile_imp hx
      simpa using List.lt_asymm hlt
    conv_lhs => rw [← hparts]
    rw [List.dropWhile_append_of_pos hskip]
    exact List.dropWhile_sublist _
  rw [mapInsert, List.nodup_middle, List.nodup_cons]
  exact ⟨fun hmem => ha (hsub.subset hmem), hl.sublist hsub⟩

theorem createSession_eq {clientType : ClientType}
    (h : s.createSession i clientType player = .ok (s', session)) :
    session = s.sessionCount ∧ ∃ new : Session, new.state = .active ∧ new.player = player ∧
      s' = { s with
        session := Function.update s.session s.sessionCount new
        sessionCount := s.sessionCount + 1
        sessions := mapInsert (fun x => (Function.update s.session s.sessionCount new x).id)
          s.sessionCount s.sessions } := by
  unfold createSession at h
  split at h
  · cases h
  · cases h
    exact ⟨rfl, _, rfl, rfl, rfl⟩

theorem acts_createSession {clientType : ClientType} (hs : s.Sound) (hp : player < s.playerCount)
    (h : s.createSession i clientType player = .ok (s', session)) :
    s.Acts [] [s.sessionCount] s' := by
  obtain ⟨rfl, new, hactive, hplayer, rfl⟩ := createSession_eq h
  have hold : ∀ x, x < s.sessionCount →
      Function.update s.session s.sessionCount new x = s.session x :=
    fun x hx => Function.update_of_ne hx.ne new s.session
  have hnew : s.sessionCount ∉ s.sessions := fun hmem => (hs.sessions _ hmem).false
  exact {
    sound := {
      sessions := fun x hx => by
        rcases mapInsert_subset hx with rfl | hx
        · exact Nat.lt_succ_self _
        · exact Nat.lt_succ_of_lt (hs.sessions x hx)
      nodup := mapInsert_nodup hs.nodup hnew
      managing := fun x hx => Nat.lt_succ_of_lt (hs.managing x hx)
      threads := fun th x hx => Nat.lt_succ_of_lt (hs.threads th x hx)
      loaded := hs.loaded
      players := fun x hx => by
        show (Function.update s.session s.sessionCount new x).player < s.playerCount
        rcases Nat.lt_succ_iff_lt_or_eq.mp hx with hlt | heq
        · rw [hold x hlt]
          exact hs.players x hlt
        · subst heq
          simpa [hplayer] using hp
      logouts := fun x hx => Nat.lt_succ_of_lt (hs.logouts x hx)
      active := fun x hx => by
        have hlt : s.sessionCount < x := hx
        show (Function.update s.session s.sessionCount new x).state = .active
        rw [Function.update_of_ne hlt.ne']
        exact hs.active x hlt.le }
    sessionCount := Nat.le_succ _
    playerCount := le_rfl
    sessions := fun x hx => by
      rcases mapInsert_subset hx with rfl | hx
      · exact Or.inr ⟨le_rfl, List.mem_singleton_self _⟩
      · exact Or.inl hx
    state := fun x hx => Or.inl (congrArg Session.state (hold x hx))
    id := fun x hx => congrArg Session.id (hold x hx)
    player := fun x hx => congrArg Session.player (hold x hx)
    ids := fun p _ => rfl
    logouts := ⟨[], by simp, List.nil_sublist _, fun x hx => by cases hx⟩
    does := SameTables.does ⟨_, _, _, _, _, _, rfl⟩ }

theorem acts_startSession {first : FirstRequest} (hs : s.Sound) (hp : player < s.playerCount)
    (h : s.startSession i th player first = .ok s') : s.Acts [] [s.sessionCount] s' := by
  obtain ⟨⟨s₁, session⟩, hcreate, h⟩ := bind_eq_ok.mp h
  have hmade := acts_createSession hs hp hcreate
  obtain ⟨rfl, new, -, -, rfl⟩ := createSession_eq hcreate
  have hfirst := acts_handleFirstRequest hmade.sound (Nat.lt_succ_self _) h
  have hacts := hmade.then hfirst
  exact { hacts with
    sessions := fun x hx =>
      (hacts.sessions x hx).imp_right fun ⟨hle, hx⟩ => ⟨hle, by simpa using hx⟩
    logouts := hfirst.logouts }

/-! ## Sessions that are opened again -/

/-- `closeIO` waits for the `WRITE` thread. -/
def Waits (s : Server) (session : SessionRef) : Prop :=
  (s.session session).type ≠ .polling ∧ (s.session session).writeThread = true

instance (s : Server) (session : SessionRef) : Decidable (s.Waits session) :=
  inferInstanceAs (Decidable (_ ∧ _))

theorem closeIo_waits (s : Server) (session : SessionRef) :
    (s.closeIo session).2 = decide (s.Waits session) := by
  unfold closeIo Waits
  split
  · rename_i hpolling
    simp [hpolling]
  · rename_i hpolling
    split
    · rename_i hwrite
      simp [hpolling, hwrite]
    · rename_i hwrite
      simp [hwrite]

theorem acts_resumedConnection {first : FirstRequest} (hs : s.Sound) (hx : session < s.sessionCount)
    (h : s.resumedConnection i th session first = .ok s') : s.Acts [session] [session] s' := by
  have hset : s.Acts [session] [] (s.setSession session fun x =>
      { x with nfd := true, readThread := true, state := .active, writeThread := true }) :=
    acts_setSession hs hx (fun _ => rfl) (fun _ => rfl)
      (Or.inr (Or.inr (List.mem_singleton_self _)))
  exact hset.then (acts_handleFirstRequest hset.sound hx h)

theorem acts_closeToResume {first : FirstRequest} (hs : s.Sound) (hx : session < s.sessionCount)
    (h : s.closeToResume i th session first = .ok s') :
    (s.Waits session ∧ s.Acts [] [] s') ∨ (¬ s.Waits session ∧ s.Acts [session] [session] s') := by
  have hio := acts_closeIo hs hx
  have hx₁ := hx.trans_le hio.sessionCount
  unfold closeToResume at h
  simp only [closeIo_waits] at h
  split at h
  · rename_i hwaits
    cases h
    exact Or.inl ⟨by simpa using hwaits,
      hio.quiet (acts_setThread_of_session hio.sound hx₁ rfl rfl th)⟩
  · rename_i hwaits
    exact Or.inr ⟨by simpa using hwaits, (acts_resumedConnection hio.sound hx₁ h).after hio⟩

theorem acts_resumeConnection {first : FirstRequest} (hs : s.Sound) (hx : session < s.sessionCount)
    (h : s.resumeConnection i th session first = .ok s') : s.Acts [session] [session] s' := by
  unfold resumeConnection at h
  split at h
  · have hstate : s.Acts [session] [] (s.setState session .disconnect) := acts_setState hs hx
    simp only at h
    split at h
    · cases h
      exact (hstate.quiet (acts_setThread_of_session hstate.sound hx rfl rfl th)).mono
        (fun x hx => hx) (List.nil_sublist _)
    · rcases acts_closeToResume hstate.sound hx h with ⟨-, hacts⟩ | ⟨-, hacts⟩
      · exact (hstate.quiet hacts).mono (fun x hx => hx) (List.nil_sublist _)
      · exact (hstate.trans hacts (fun x hx => by cases hx)).mono (by simp) (List.Sublist.refl _)
  · exact acts_resumedConnection hs hx h

theorem acts_onDisconnected {clientType : ClientType} (hs : s.Sound) (hx : session < s.sessionCount)
    (h : s.onDisconnected i th session clientType = .ok s') :
    s.Acts (if (s.session session).type = .polling then [] else [session]) [session] s' := by
  unfold onDisconnected at h
  split at h
  · rename_i hpolling
    rw [if_pos hpolling]
    exact acts_endSession hs hx h
  · rename_i hpolling
    rw [if_neg hpolling]
    have hstate : s.Acts [session] [] (s.setState session .disconnect) := acts_setState hs hx
    have hio := hstate.quiet (acts_closeIo hstate.sound hx)
    have hx₁ := hx.trans_le hio.sessionCount
    simp only at h
    split at h
    · cases h
      exact (hio.quiet (acts_setThread_of_session hio.sound hx₁ rfl rfl th)).mono
        (fun x hx => hx) (List.nil_sublist _)
    · exact hio.then (acts_endSession hio.sound hx₁ h)

/-! ## Authentication -/

/-- `_authenticate_player` finds the player, and the password is right. -/
def admits (s : Server) (first : FirstRequest) : Bool :=
  match s.db first.pid with
  | none => false
  | some row => !decide (row.score = -1 ∨ (row.score = 0 ∧ row.hpassword = [])
      ∨ first.hpassword ≠ row.hpassword)

/-- A LOGIN request resumes the session it finds. -/
def Resumes (s : Server) (first : FirstRequest) (session : SessionRef) : Prop :=
  !isGuest first.pid ∧ (s.session session).type ≠ .polling ∧ first.clientType = .hoxchess

instance (s : Server) (first : FirstRequest) (session : SessionRef) :
    Decidable (s.Resumes first session) := inferInstanceAs (Decidable (_ ∧ _))

theorem authenticatePlayer_eq (s : Server) (i : Input) (th : ThreadRef) (found : Option SessionRef)
    (first : FirstRequest) :
    (s.admits first = false ∧
      s.authenticatePlayer i th found first = .ok (s.setThread th .idle)) ∨
    (s.admits first = true ∧ ∃ p : Player, p.id = first.pid ∧
      s.authenticatePlayer i th found first =
        (s.newPlayer p).1.authenticated i th found s.playerCount first) := by
  unfold admits authenticatePlayer
  cases hrow : s.db first.pid with
  | none => exact Or.inl ⟨rfl, rfl⟩
  | some row =>
    simp only
    split
    · rename_i hbad
      exact Or.inl ⟨by rw [decide_eq_true hbad]; rfl, rfl⟩
    · rename_i hgood
      exact Or.inr ⟨by rw [decide_eq_false hgood]; rfl, _, rfl, rfl⟩

theorem handleShutdown_count (h : s.handleShutdown i session = .ok (s', b)) :
    s'.sessionCount = s.sessionCount := by
  obtain ⟨s₁, hleave, h⟩ := bind_eq_ok.mp h
  have hcount := (same_leaveAllTables hleave).sessionCount
  simp only [Except.ok.injEq] at h
  unfold closeIo at h
  split at h
  · split at h
    · cases h
      exact hcount
    · split at h
      · cases h
        exact hcount
      · cases h
        exact hcount
  · cases h
    exact hcount

theorem acts_authenticated {found : Option SessionRef} {first : FirstRequest} (hs : s.Sound)
    (hfound : ∀ x ∈ found.toList, x < s.sessionCount) (hp : player < s.playerCount)
    (h : s.authenticated i th found player first = .ok s') :
    s.Acts (found.toList.filter fun x => decide (s.Resumes first x))
      (found.toList ++ [s.sessionCount]) s' := by
  unfold authenticated at h
  split at h
  · exact acts_startSession hs hp h
  · rename_i session
    have hx : session < s.sessionCount := hfound session (by simp)
    split at h
    · rename_i hresumes
      have hfilter :
          ((some session).toList.filter fun x => decide (s.Resumes first x)) = [session] :=
        List.filter_cons_of_pos (by simpa [Resumes] using hresumes)
      rw [hfilter]
      exact (acts_resumeConnection hs hx h).mono (fun x hx => hx)
        (List.sublist_append_left [session] _)
    · rename_i hresumes
      have hfilter : ((some session).toList.filter fun x => decide (s.Resumes first x)) = [] :=
        List.filter_cons_of_neg (by simpa [Resumes] using hresumes)
      rw [hfilter]
      obtain ⟨⟨s₁, blocked⟩, hshut, h⟩ := bind_eq_ok.mp h
      have hacts := acts_handleShutdown hs hx hshut
      have hp₁ := hp.trans_le hacts.playerCount
      simp only at h
      split at h
      · cases h
        have hset : s₁.Acts [] [] (s₁.setThread th (.replacing session player first)) := by
          refine acts_setThread hacts.sound (fun x hx' => ?_) (fun p hp' => ?_) th
          · rw [List.mem_singleton.mp hx']
            exact hx.trans_le hacts.sessionCount
          · cases hp'
            exact hp₁
        exact (hacts.quiet hset).mono (fun x hx => hx) (List.sublist_append_left [session] _)
      · have hdeleted := hacts.quiet (acts_closedSession hacts.sound session)
        have hstart := hdeleted.then (acts_startSession hdeleted.sound hp₁ h)
        rw [← handleShutdown_count hshut]
        exact hstart

theorem acts_authenticatePlayer {found : Option SessionRef} {first : FirstRequest} (hs : s.Sound)
    (hfound : ∀ x ∈ found.toList, x < s.sessionCount)
    (h : s.authenticatePlayer i th found first = .ok s') :
    s.Acts (if s.admits first then found.toList.filter fun x => decide (s.Resumes first x) else [])
      (if s.admits first then found.toList ++ [s.sessionCount] else []) s' := by
  rcases s.authenticatePlayer_eq i th found first with ⟨hadmits, he⟩ | ⟨hadmits, p, -, he⟩
  · rw [he] at h
    cases h
    rw [hadmits]
    exact acts_setThread_idle hs th
  · rw [he] at h
    rw [hadmits]
    have hplayer := acts_newPlayer hs p
    exact (acts_authenticated hplayer.sound hfound (Nat.lt_succ_self _) h).after hplayer

theorem findSession_mem {pid : Bytes} (h : s.findSession pid = some session) :
    session ∈ s.sessions := List.mem_of_find?_eq_some h

theorem acts_authenticateRequest {first : FirstRequest} (hs : s.Sound)
    (h : s.authenticateRequest i th first = .ok s') :
    s.Acts [] ((s.findSession first.pid).toList ++ [s.sessionCount]) s' := by
  have hfound : ∀ x ∈ (s.findSession first.pid).toList, x < s.sessionCount :=
    fun x hx => hs.sessions x (findSession_mem (Option.mem_toList.mp hx))
  unfold authenticateRequest at h
  simp only at h
  split at h
  · rename_i session hreuse
    have hmem : session ∈ (s.findSession first.pid).toList :=
      Option.mem_toList.mpr (Option.filter_eq_some_iff.mp hreuse).1
    exact (acts_handleFirstRequest hs (hfound session hmem) h).mono (fun x hx => hx)
      ((List.singleton_sublist.mpr hmem).trans (List.sublist_append_left _ _))
  · split at h
    · cases h
      exact hs.acts.mono (fun x hx => hx) (List.nil_sublist _)
    · split at h
      · rename_i hguest
        have hplayer := acts_newPlayer hs
          { id := first.pid, type := .guest, score := newPlayerScore }
        have hacts := acts_authenticated hplayer.sound hfound (Nat.lt_succ_self _) h
        have hnone : ∀ s₁ : Server, ((s.findSession first.pid).toList.filter fun x =>
            decide (s₁.Resumes first x)) = [] := fun s₁ => by simp [Resumes, hguest]
        rw [hnone] at hacts
        exact hacts.after hplayer
      · cases h
        have hset : s.Acts [] [] (s.setThread th
            (.authenticating (s.findSession first.pid) first)) := by
          refine acts_setThread hs ?_ (fun p hp => by cases hp) th
          exact hfound
        exact hset.mono (fun x hx => hx) (List.nil_sublist _)

/-! ## A step -/

/-- The sessions that a step may take out of the state they are in. -/
def reopens (s : Server) : Wake → List SessionRef
  | .playerInfo th =>
    match s.thread th with
    | .authenticating found first =>
      if s.admits first then found.toList.filter fun x => decide (s.Resumes first x) else []
    | _ => []
  | .slept th =>
    match s.thread th with
    | .interrupting session _ waitTimes =>
      if ((s.session session).readThread ∧ waitTimes + 1 < 5) ∨ s.Waits session then []
      else [session]
    | _ => []
  | .joined th =>
    match s.thread th with
    | .resuming session _ => [session]
    | _ => []
  | .readFailed th =>
    match s.thread th with
    | .reading session _ => if (s.session session).type = .polling then [] else [session]
    | _ => []
  | _ => []

/-- The sessions that a step may call `handleShutdown` for, in this order. -/
def shuts (s : Server) : Wake → List SessionRef
  | .connected _ first => (s.findSession first.pid).toList ++ [s.sessionCount]
  | .playerInfo th =>
    match s.thread th with
    | .authenticating found first =>
      if s.admits first then found.toList ++ [s.sessionCount] else []
    | _ => []
  | .slept th => s.reopens (.slept th)
  | .joined th =>
    match s.thread th with
    | .resuming session _ => [session]
    | .replacing _ _ _ => [s.sessionCount]
    | .disconnecting session _ => [session]
    | _ => []
  | .terminated th _ => (s.thread th).sessions
  | .answered th _ => (s.thread th).sessions
  | .readFailed th => (s.thread th).sessions
  | .yielded th => (s.thread th).sessions
  | .sessionManager expired => s.unpurged.filter fun x => decide (x ∈ expired)
  | .sessionManagerJoined expired =>
    s.managing.toList.flatMap fun session => (s.behind session).filter fun x => decide (x ∈ expired)
  | _ => []

theorem acts_joined (hs : s.Sound) (h : s.joined i th = .ok s') :
    s.Acts (s.reopens (.joined th)) (s.shuts (.joined th)) s' := by
  have hthread := hs.threads th
  have hloaded := hs.loaded th
  unfold joined at h
  unfold reopens shuts
  cases hth : s.thread th with
  | resuming session first =>
    simp only [hth, Thread.sessions, List.mem_singleton, forall_eq] at h hthread ⊢
    have hio := acts_closedIo hs hthread
    exact (acts_resumedConnection hio.sound hthread h).after hio
  | replacing session player first =>
    simp only [hth, Thread.sessions, List.mem_singleton, forall_eq] at h hthread ⊢
    have hio := acts_closedIo hs hthread
    have hdeleted := hio.quiet (acts_closedSession hio.sound session)
    have hp : player < s.playerCount := hloaded player (by rw [hth]; rfl)
    exact (acts_startSession hdeleted.sound hp h).after hdeleted
  | disconnecting session clientType =>
    simp only [hth, Thread.sessions, List.mem_singleton, forall_eq] at h hthread ⊢
    have hio := acts_closedIo hs hthread
    exact (acts_endSession hio.sound hthread h).after hio
  | deleting session =>
    simp only [hth, Thread.sessions, List.mem_singleton, forall_eq] at h hthread ⊢
    cases h
    have hio := acts_closedIo hs hthread
    have hdeleted := hio.quiet (acts_closedSession hio.sound session)
    exact hdeleted.quiet (acts_setThread_idle hdeleted.sound th)
  | idle => simp only [hth, reduceCtorEq] at h
  | authenticating => simp only [hth, reduceCtorEq] at h
  | interrupting => simp only [hth, reduceCtorEq] at h
  | terminating => simp only [hth, reduceCtorEq] at h
  | answering => simp only [hth, reduceCtorEq] at h
  | reading => simp only [hth, reduceCtorEq] at h
  | yielding => simp only [hth, reduceCtorEq] at h

theorem acts_slept (hs : s.Sound) (h : s.wake i (.slept th) = .ok s') :
    s.Acts (s.reopens (.slept th)) (s.shuts (.slept th)) s' := by
  simp only [wake] at h
  split at h
  · rename_i session first waitTimes hth
    have hx := hs.lt_of_thread hth session (List.mem_singleton_self _)
    simp only [reopens, shuts, hth]
    split at h
    · rename_i hwait
      cases h
      rw [if_pos (Or.inl hwait)]
      exact acts_setThread_of_session hs hx rfl rfl th
    · rename_i hwait
      rcases acts_closeToResume hs hx h with ⟨hwaits, hacts⟩ | ⟨hwaits, hacts⟩
      · rw [if_pos (Or.inr hwaits)]
        exact hacts
      · rw [if_neg (not_or.mpr ⟨hwait, hwaits⟩)]
        exact hacts
  · cases h

/-- **What a step does to the sessions.** -/
theorem acts_wake {w : Wake} (hs : s.Sound) (h : s.wake i w = .ok s') :
    s.Acts (s.reopens w) (s.shuts w) s' := by
  cases w with
  | joined th => exact acts_joined hs h
  | connected th first =>
    simp only [wake] at h
    split at h
    · exact acts_authenticateRequest hs h
    · cases h
  | playerInfo th =>
    simp only [wake] at h
    split at h
    · rename_i found first hth
      simp only [reopens, shuts, hth]
      exact acts_authenticatePlayer hs (hs.lt_of_thread hth) h
    · cases h
  | slept th => exact acts_slept hs h
  | terminated th ok =>
    simp only [wake] at h
    split at h
    · rename_i session first hth
      have hx := hs.lt_of_thread hth session (List.mem_singleton_self _)
      simp only [reopens, shuts, hth, Thread.sessions]
      split at h
      · obtain ⟨s₁, hreq, h⟩ := bind_eq_ok.mp h
        have hacts := acts_handleRequest hs hx hreq
        exact (acts_runEventLoop hacts.sound (hx.trans_le hacts.sessionCount) h).after hacts
      · exact acts_runEventLoop hs hx h
    · cases h
  | answered th ok =>
    simp only [wake] at h
    split at h
    · rename_i session first hth
      have hx := hs.lt_of_thread hth session (List.mem_singleton_self _)
      simp only [reopens, shuts, hth, Thread.sessions]
      split at h
      · exact acts_runEventLoop hs hx h
      · exact acts_endSession hs hx h
    · cases h
  | requestRead th request =>
    simp only [wake] at h
    split at h
    · rename_i session clientType hth
      have hx := hs.lt_of_thread hth session (List.mem_singleton_self _)
      obtain ⟨s₁, hreq, h⟩ := bind_eq_ok.mp h
      cases h
      have hacts := acts_handleRequest hs hx hreq
      exact hacts.quiet (acts_setThread_of_session hacts.sound (hx.trans_le hacts.sessionCount)
        rfl rfl th)
    · cases h
  | readFailed th =>
    simp only [wake] at h
    split at h
    · rename_i session clientType hth
      have hx := hs.lt_of_thread hth session (List.mem_singleton_self _)
      simp only [reopens, shuts, hth, Thread.sessions]
      exact acts_onDisconnected hs hx h
    · cases h
  | yielded th =>
    simp only [wake] at h
    split at h
    · rename_i session clientType hth
      have hx := hs.lt_of_thread hth session (List.mem_singleton_self _)
      simp only [reopens, shuts, hth, Thread.sessions]
      exact acts_runEventLoop hs hx h
    · cases h
  | writeThreadEnded session =>
    simp only [wake] at h
    split at h
    · rename_i hended
      cases h
      have hx : session < s.sessionCount := by
        by_contra hle
        exact hended.1 (hs.active session (not_lt.mp hle))
      exact acts_setSession hs hx (fun _ => rfl) (fun _ => rfl) (Or.inl rfl)
    · cases h
  | tableManager => exact (same_manageTables h).acts hs (does_manageTables h)
  | sessionManager expired => exact acts_manageSessions hs h
  | sessionManagerJoined expired =>
    obtain ⟨session, hmanaging, hacts⟩ := acts_manageSessionsJoined hs h
    have hshuts : s.shuts (.sessionManagerJoined expired) =
        (s.behind session).filter fun x => decide (x ∈ expired) := by
      simp [shuts, hmanaging]
    rw [hshuts]
    exact hacts
  | requestTaken =>
    have hdoes := Does.refl.takeRequest h
    simp only [wake, takeRequest] at h
    split at h
    · cases h
      exact SameSessions.acts ⟨rfl, rfl, rfl, rfl, rfl, rfl, rfl, fun _ => rfl⟩ hs hdoes
    · cases h
  | requestWritten =>
    have hdoes := Does.refl.setPlayerInfo h
    simp only [wake, setPlayerInfo] at h
    split at h
    · cases h
    · cases h
      exact SameSessions.acts ⟨rfl, rfl, rfl, rfl, rfl, rfl, rfl, fun _ => rfl⟩ hs hdoes

end Server

end HoxServer
