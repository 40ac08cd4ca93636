/-
HoxServer.Server.SessionTheorems — sessions over all runs.

Two laws of the session manager, each with the orders of threads that
break it.

Shutting down is final, and happens once (`shutdown_final_and_once`), in
every run in which a session that is shut down is not opened again and no
thread cleans up a session that has been cleaned up. Neither is checked:
the manager closes a session while its reader thread is blocked in a read
(`shutdown_undone`).

A player has one live session (`one_session_each`), in every run in which
a session is made or opened again only when there is no other one for the
player. `_authenticate_request` looks for a session before the round trip
to the database, and makes one after it (`two_sessions`).
-/
import HoxServer.Server.Ratings
import HoxServer.Server.Sessions

namespace HoxServer

namespace Server

open Lib

variable {s s' : Server} {i : Input} {th : ThreadRef} {x session : SessionRef} {player : PlayerRef}
  {b : Bool} {db : Bytes → Option PlayerRow} {opened closed : List SessionRef}

/-! ## Shutting down -/

/-- The step opens `x` only when it is not shut down, and cleans it up only
when this has not been done. -/
def Orderly (x : SessionRef) (s : Server) (w : Input × Wake) : Prop :=
  (x ∈ s.reopens w.2 → (s.session x).state ≠ .shutdown) ∧ (x ∈ s.shuts w.2 → x ∉ s.logouts)

instance (x : SessionRef) (s : Server) (w : Input × Wake) : Decidable (Orderly x s w) :=
  inferInstanceAs (Decidable (_ ∧ _))

/-- A session that has been cleaned up is shut down, and it has been
cleaned up once. -/
structure ShutOnce (x : SessionRef) (s : Server) : Prop where
  sound : s.Sound
  shut : x ∈ s.logouts → (s.session x).state = .shutdown
  once : s.logouts.count x ≤ 1

theorem shutOnce_init (x : SessionRef) (db : Bytes → Option PlayerRow) : ShutOnce x { db } :=
  ⟨sound_init db, fun hx => (List.not_mem_nil hx).elim, Nat.zero_le 1⟩

theorem nodup_append_new {l : List SessionRef} (hl : ∀ y ∈ l, y < s.sessionCount) (hn : l.Nodup) :
    (l ++ [s.sessionCount]).Nodup := by
  rw [List.nodup_append]
  refine ⟨hn, List.nodup_singleton _, fun a ha c hc => ?_⟩
  rw [List.mem_singleton.mp hc]
  exact (hl a ha).ne

theorem nodup_toList {α : Type} (o : Option α) : o.toList.Nodup := by
  cases o with
  | none => exact List.nodup_nil
  | some a => exact List.nodup_singleton a

theorem nodup_threadSessions (t : Thread) : t.sessions.Nodup := by
  cases t with
  | idle => exact List.nodup_nil
  | authenticating found first => exact nodup_toList found
  | _ => exact List.nodup_singleton _

/-- A step cleans up no session twice. -/
theorem nodup_shuts (hs : s.Sound) (w : Wake) : (s.shuts w).Nodup := by
  have hthread := fun th => hs.threads th
  cases w with
  | connected th first =>
    exact nodup_append_new (fun y hy => hs.sessions y (findSession_mem (Option.mem_toList.mp hy)))
      (nodup_toList _)
  | playerInfo th =>
    simp only [shuts]
    split
    · rename_i found first hth
      split
      · exact nodup_append_new (fun y hy => hthread th y (by rw [hth]; exact hy)) (nodup_toList _)
      · exact List.nodup_nil
    · exact List.nodup_nil
  | slept th =>
    simp only [shuts, reopens]
    split
    · split
      · exact List.nodup_nil
      · exact List.nodup_singleton _
    · exact List.nodup_nil
  | joined th =>
    simp only [shuts]
    split
    · exact List.nodup_singleton _
    · exact List.nodup_singleton _
    · exact List.nodup_singleton _
    · exact List.nodup_nil
  | terminated th ok => exact nodup_threadSessions _
  | answered th ok => exact nodup_threadSessions _
  | readFailed th => exact nodup_threadSessions _
  | yielded th => exact nodup_threadSessions _
  | sessionManager expired => exact (hs.nodup.filter _).filter _
  | sessionManagerJoined expired =>
    simp only [shuts]
    cases s.managing with
    | none => exact List.nodup_nil
    | some session =>
      simpa using (hs.nodup.sublist (s.behind_sublist session)).filter _
  | requestRead => exact List.nodup_nil
  | writeThreadEnded => exact List.nodup_nil
  | tableManager => exact List.nodup_nil
  | requestTaken => exact List.nodup_nil
  | requestWritten => exact List.nodup_nil

/-- An orderly step leaves a session shut down. -/
theorem stays_shut {w : Input × Wake} (hs : s.Sound) (hc : Orderly x s w)
    (h : s.wake w.1 w.2 = .ok s') (hx : (s.session x).state = .shutdown) :
    (s'.session x).state = .shutdown := by
  have hlt : x < s.sessionCount := by
    by_contra hle
    rw [hs.active x (not_lt.mp hle)] at hx
    cases hx
  rcases (acts_wake hs h).state x hlt with he | he | he
  · exact he.trans hx
  · exact he
  · exact absurd hx (hc.1 he)

theorem shutOnce_wake {w : Input × Wake} (hs : ShutOnce x s) (hc : Orderly x s w)
    (h : s.wake w.1 w.2 = .ok s') : ShutOnce x s' := by
  have hacts := acts_wake hs.sound h
  obtain ⟨done, hdone, hsub, hshut⟩ := hacts.logouts
  have hcount : done.count x ≤ 1 :=
    List.nodup_iff_count_le_one.mp ((nodup_shuts hs.sound w.2).sublist hsub) x
  refine ⟨hacts.sound, fun hx => ?_, ?_⟩
  · rw [hdone, List.mem_append] at hx
    rcases hx with hx | hx
    · exact stays_shut hs.sound hc h (hs.shut hx)
    · exact hshut x hx
  · rw [hdone, List.count_append]
    by_cases hx : x ∈ done
    · have hnot : s.logouts.count x = 0 := List.count_eq_zero.mpr (hc.2 (hsub.subset hx))
      omega
    · have hzero : done.count x = 0 := List.count_eq_zero.mpr hx
      have honce := hs.once
      omega

/-- **Shutting down is final and happens once**, in every run whose steps
are orderly for the session. -/
theorem shutdown_final_and_once {ws ws' : List (Input × Wake)}
    (hrun : (machine db).run { db } ws = .ok s) (hrun' : (machine db).run s ws' = .ok s')
    (hc : (machine db).Meets (Orderly x) { db } (ws ++ ws')) :
    ((s.session x).state = .shutdown → (s'.session x).state = .shutdown) ∧
      s'.logouts.count x ≤ 1 := by
  obtain ⟨hfirst, hrest⟩ := Lib.Machine.Meets.append hc hrun
  have hs : ShutOnce x s := Lib.Machine.Meets.run (M := machine db) (I := ShutOnce x)
    (fun s w s' hs hc hstep => shutOnce_wake hs hc hstep) (shutOnce_init x db) hfirst hrun
  have hs' : ShutOnce x s' ∧
      ((s.session x).state = .shutdown → (s'.session x).state = .shutdown) := by
    refine Lib.Machine.Meets.run (M := machine db) (I := fun s' => ShutOnce x s' ∧
      ((s.session x).state = .shutdown → (s'.session x).state = .shutdown)) ?_ ⟨hs, id⟩ hrest hrun'
    intro s₁ w s₂ hs₁ hc hstep
    exact ⟨shutOnce_wake hs₁.1 hc hstep, fun hx => stays_shut hs₁.1.sound hc hstep (hs₁.2 hx)⟩
  exact ⟨hs'.2, hs'.1.once⟩

/-- A desktop client connects and logs in, up to the answer of the agent. -/
def desktopLogin (th : ThreadRef) (pid newSessionId : Bytes) : List (Input × Wake) :=
  [({ now := 0 }, .connected th { pid, hpassword := bytes "pw", clientType := .hoxchess }),
   ({ newSessionId }, .playerInfo th)]

theorem shutdown_final_and_once_logout : ∃ s s',
    (machine twoRows).run { db := twoRows } (desktopLogin 1 (bytes "red") (bytes "1") ++
      [({ now := 0 }, .requestRead 1 .logout)]) = .ok s ∧
    (machine twoRows).run s [({ now := 0 }, .yielded 1), ({ now := 0 }, .writeThreadEnded 0),
      ({ now := 0 }, .joined 1), ({ now := 0 }, .sessionManager [])] = .ok s' ∧
    (s.session 0).state = .shutdown ∧ (s'.session 0).state = .shutdown ∧
      s'.logouts.count 0 = 1 := by
  have hrun : ((machine twoRows).run { db := twoRows } (desktopLogin 1 (bytes "red") (bytes "1") ++
      [({ now := 0 }, .requestRead 1 .logout)])).map (fun s => (s.session 0).state)
        = .ok .shutdown := by decide +kernel
  obtain ⟨s, hs, hshut⟩ := map_eq_ok.mp hrun
  have hrun' : ((machine twoRows).run { db := twoRows } (desktopLogin 1 (bytes "red") (bytes "1") ++
      [({ now := 0 }, .requestRead 1 .logout)] ++ [({ now := 0 }, .yielded 1),
      ({ now := 0 }, .writeThreadEnded 0), ({ now := 0 }, .joined 1),
      ({ now := 0 }, .sessionManager [])])).map (fun s => s.logouts) = .ok [0] := by decide +kernel
  rw [Lib.Machine.run_append hs] at hrun'
  obtain ⟨s', hs', hlogouts⟩ := map_eq_ok.mp hrun'
  have hlaw := shutdown_final_and_once (x := 0) hs hs' (by decide +kernel)
  exact ⟨s, s', hs, hs', hshut, hlaw.1 hshut, by rw [hlogouts]; rfl⟩

/-- RED logs in, and the manager closes his session while he is read from. -/
def expired : List (Input × Wake) :=
  desktopLogin 1 (bytes "red") (bytes "1") ++ [({ now := 0 }, .sessionManager [0]),
    ({ now := 0 }, .writeThreadEnded 0), ({ now := 0 }, .sessionManagerJoined [])]

/-- Then the read fails, or returns a request. -/
theorem shutdown_undone : (∃ s s',
    (machine twoRows).run { db := twoRows } expired = .ok s ∧
    (machine twoRows).run s [({ now := 0 }, .readFailed 1)] = .ok s' ∧
    (s.session 0).state = .shutdown ∧ (s'.session 0).state = .disconnect) ∧
    ∃ s, (machine twoRows).run { db := twoRows } (expired ++ requestOf 1 .other) = .ok s ∧
      s.logouts = [0, 0] := by
  constructor
  · have hrun : ((machine twoRows).run { db := twoRows } expired).map
        (fun s => (s.session 0).state) = .ok .shutdown := by decide +kernel
    obtain ⟨s, hs, hshut⟩ := map_eq_ok.mp hrun
    have hrun' : ((machine twoRows).run { db := twoRows }
        (expired ++ [({ now := 0 }, .readFailed 1)])).map
          (fun s => (s.session 0).state) = .ok .disconnect := by decide +kernel
    rw [Lib.Machine.run_append hs] at hrun'
    obtain ⟨s', hs', hstate⟩ := map_eq_ok.mp hrun'
    exact ⟨s, s', hs, hs', hshut, hstate⟩
  · have hrun : ((machine twoRows).run { db := twoRows }
        (expired ++ requestOf 1 .other)).map (fun s => s.logouts) = .ok [0, 0] := by decide +kernel
    exact map_eq_ok.mp hrun

/-! ## One session for each player -/

/-- The session is not shut down. -/
def Live (s : Server) (x : SessionRef) : Prop := (s.session x).state ≠ .shutdown

instance (s : Server) (x : SessionRef) : Decidable (s.Live x) := inferInstanceAs (Decidable (¬ _))

/-- The id of the player of a session. -/
def playerId (s : Server) (x : SessionRef) : Bytes := (s.players (s.session x).player).id

/-- The registry holds at most one live session for each player. -/
def OneEach (s : Server) : Prop :=
  ∀ x ∈ s.sessions, ∀ y ∈ s.sessions, s.Live x → s.Live y → s.playerId x = s.playerId y → x = y

theorem Acts.playerId (h : s.Acts opened closed s') (hs : s.Sound) (hx : x < s.sessionCount) :
    s'.playerId x = s.playerId x := by
  simp only [Server.playerId, h.player x hx]
  exact h.ids _ (hs.players x hx)

theorem Acts.live (h : s.Acts opened closed s') (hx : x < s.sessionCount) (hl : s'.Live x) :
    s.Live x ∨ x ∈ opened := by
  rcases h.state x hx with he | he | he
  · left
    unfold Live at hl ⊢
    rwa [← he]
  · exact absurd he hl
  · exact Or.inr he

theorem mem_sessions_of_acts {x : SessionRef} (h : s.Acts opened closed s')
    (hclosed : ∀ x ∈ closed, x < s.sessionCount) (hx : x ∈ s'.sessions) : x ∈ s.sessions := by
  rcases h.sessions x hx with hx | ⟨hle, hc⟩
  · exact hx
  · exact absurd (hclosed x hc) (not_lt.mpr hle)

/-- A part of the server that makes no session, and opens sessions whose
players have no other one. -/
theorem OneEach.acts (hone : s.OneEach) (hs : s.Sound) (h : s.Acts opened closed s')
    (hclosed : ∀ x ∈ closed, x < s.sessionCount)
    (hopened : ∀ x ∈ opened, x ∈ s.sessions → ∀ y ∈ s.sessions, s.Live y ∨ y ∈ opened →
      s.playerId y = s.playerId x → y = x) : s'.OneEach := by
  intro x hx y hy hlx hly he
  have hxs := mem_sessions_of_acts h hclosed hx
  have hys := mem_sessions_of_acts h hclosed hy
  rw [h.playerId hs (hs.sessions x hxs), h.playerId hs (hs.sessions y hys)] at he
  have hly' := h.live (hs.sessions y hys) hly
  rcases h.live (hs.sessions x hxs) hlx with hlx' | hox
  · rcases hly' with hly' | hoy
    · exact hone x hxs y hys hlx' hly' he
    · exact hopened y hoy hys x hxs (Or.inl hlx') he
  · exact (hopened x hox hxs y hys hly' he.symm).symm

/-- The same when nothing is opened. -/
theorem OneEach.quiet (hone : s.OneEach) (hs : s.Sound) (h : s.Acts [] closed s')
    (hclosed : ∀ x ∈ closed, x < s.sessionCount) : s'.OneEach :=
  hone.acts hs h hclosed (fun _ hx => (List.not_mem_nil hx).elim)

theorem OneEach.still (hone : s.OneEach) (hs : s.Sound) (h : s.Acts [] [] s') : s'.OneEach :=
  hone.quiet hs h (fun _ hx => (List.not_mem_nil hx).elim)

theorem OneEach.single (hone : s.OneEach) (hs : s.Sound) (h : s.Acts [session] [session] s')
    (hx : session < s.sessionCount)
    (halone : session ∈ s.sessions → ∀ y ∈ s.sessions, s.Live y →
      s.playerId y = s.playerId session → y = session) : s'.OneEach := by
  refine hone.acts hs h (fun x hx' => List.mem_singleton.mp hx' ▸ hx) ?_
  intro x hx' hmem y hy hl he
  rw [List.mem_singleton] at hx' hl
  subst hx'
  rcases hl with hl | hl
  · exact halone hmem y hy hl he
  · exact hl

/-- Nobody with the id has a live session. -/
theorem oneEach_startSession {first : FirstRequest} (hone : s.OneEach) (hs : s.Sound)
    (hp : player < s.playerCount)
    (hnone : ∀ y ∈ s.sessions, s.Live y → s.playerId y ≠ (s.players player).id)
    (h : s.startSession i th player first = .ok s') : s'.OneEach := by
  obtain ⟨⟨s₁, session⟩, hcreate, h⟩ := bind_eq_ok.mp h
  have hmade := acts_createSession hs hp hcreate
  have hnew : s₁.playerId s.sessionCount = (s.players player).id := by
    obtain ⟨-, new, -, hplayer, rfl⟩ := createSession_eq hcreate
    simp [playerId, hplayer]
  have hmem : ∀ x ∈ s₁.sessions, x ∈ s.sessions ∨ x = s.sessionCount := fun x hx =>
    (hmade.sessions x hx).imp_right fun hx => List.mem_singleton.mp hx.2
  have hother : ∀ y ∈ s.sessions, s₁.Live y → s₁.playerId y ≠ s₁.playerId s.sessionCount := by
    intro y hy hl
    have hlt := hs.sessions y hy
    rw [hnew, hmade.playerId hs hlt]
    exact hnone y hy ((hmade.live hlt hl).resolve_right List.not_mem_nil)
  have hone₁ : s₁.OneEach := by
    intro x hx y hy hlx hly he
    rcases hmem x hx with hx | rfl
    · rcases hmem y hy with hy | rfl
      · have hxlt := hs.sessions x hx
        have hylt := hs.sessions y hy
        rw [hmade.playerId hs hxlt, hmade.playerId hs hylt] at he
        exact hone x hx y hy ((hmade.live hxlt hlx).resolve_right List.not_mem_nil)
          ((hmade.live hylt hly).resolve_right List.not_mem_nil) he
      · exact absurd he (hother x hx hlx)
    · rcases hmem y hy with hy | rfl
      · exact absurd he.symm (hother y hy hly)
      · rfl
  have hlt : session < s₁.sessionCount := by
    obtain ⟨rfl, new, -, -, rfl⟩ := createSession_eq hcreate
    exact Nat.lt_succ_self _
  exact hone₁.quiet hmade.sound (acts_handleFirstRequest hmade.sound hlt h)
    (fun x hx => List.mem_singleton.mp hx ▸ hlt)

/-- `handleShutdown` waits for the `WRITE` thread. -/
def Blocks (s : Server) (x : SessionRef) : Prop := (s.session x).nfd = true ∧ s.Waits x

instance (s : Server) (x : SessionRef) : Decidable (s.Blocks x) :=
  inferInstanceAs (Decidable (_ ∧ _))

theorem handleShutdown_blocks (h : s.handleShutdown i session = .ok (s', b)) :
    b = decide (s.Blocks session) := by
  obtain ⟨s₁, hleave, h⟩ := bind_eq_ok.mp h
  have hsession := (same_leaveAllTables hleave).session
  simp only [Except.ok.injEq] at h
  have hb := congrArg Prod.snd h
  split at hb
  · rename_i hnfd
    rw [closeIo_waits] at hb
    simp only [postLogout, setState, setSession, Function.update_self] at hnfd
    simp only [Waits, postLogout, setState, setSession, Function.update_self] at hb
    rw [hsession] at hnfd hb
    simp [← hb, Blocks, Waits, hnfd]
  · rename_i hnfd
    simp only [postLogout, setState, setSession, Function.update_self] at hnfd
    rw [hsession] at hnfd
    have hfalse : b = false := hb.symm
    simp [hfalse, Blocks, hnfd]

theorem not_mem_closedSession {y : SessionRef} (hy : y ∈ (s.closedSession session).sessions) :
    (s.session y).id ≠ (s.session session).id := of_decide_eq_true (List.mem_filter.mp hy).2

/-- A LOGIN request makes a session or resumes one: the live sessions of
the player are then the one resumed, or go with the one replaced. -/
theorem oneEach_authenticated {found : Option SessionRef} {first : FirstRequest} (hone : s.OneEach)
    (hs : s.Sound) (hfound : ∀ x ∈ found.toList, x < s.sessionCount) (hp : player < s.playerCount)
    (hresume : ∀ x ∈ found.toList, s.Resumes first x → x ∈ s.sessions → ∀ y ∈ s.sessions,
      s.Live y → s.playerId y = s.playerId x → y = x)
    (hmake : (∀ x ∈ found.toList, ¬ s.Resumes first x ∧ ¬ s.Blocks x) → ∀ y ∈ s.sessions,
      s.Live y → s.playerId y = (s.players player).id →
        ∃ x ∈ found.toList, (s.session y).id = (s.session x).id)
    (h : s.authenticated i th found player first = .ok s') : s'.OneEach := by
  unfold authenticated at h
  split at h
  · refine oneEach_startSession hone hs hp (fun y hy hl he => ?_) h
    obtain ⟨x, hx, -⟩ := hmake (fun x hx => (List.not_mem_nil hx).elim) y hy hl he
    exact List.not_mem_nil hx
  · rename_i session
    have hx : session < s.sessionCount := hfound session (List.mem_singleton_self _)
    split at h
    · rename_i hresumes
      exact hone.single hs (acts_resumeConnection hs hx h) hx
        (hresume session (List.mem_singleton_self _) (by simpa [Resumes] using hresumes))
    · rename_i hresumes
      obtain ⟨⟨s₁, blocked⟩, hshut, h⟩ := bind_eq_ok.mp h
      have hacts := acts_handleShutdown hs hx hshut
      have hone₁ : s₁.OneEach :=
        hone.quiet hs hacts (fun x hx' => List.mem_singleton.mp hx' ▸ hx)
      have hp₁ := hp.trans_le hacts.playerCount
      have hblocks := handleShutdown_blocks hshut
      simp only at h
      split at h
      · cases h
        have hset : s₁.Acts [] [] (s₁.setThread th (.replacing session player first)) := by
          refine acts_setThread hacts.sound (fun x hx' => ?_) (fun p hp' => ?_) th
          · rw [List.mem_singleton.mp hx']
            exact hx.trans_le hacts.sessionCount
          · cases hp'
            exact hp₁
        exact hone₁.still hacts.sound hset
      · rename_i hnot
        have hdeleted := acts_closedSession hacts.sound session
        have hone₂ : (s₁.closedSession session).OneEach := hone₁.still hacts.sound hdeleted
        refine oneEach_startSession hone₂ hdeleted.sound hp₁ (fun y hy hl he => ?_) h
        have hy₁ : y ∈ s₁.sessions := List.mem_of_mem_filter hy
        have hys : y ∈ s.sessions :=
          mem_sessions_of_acts hacts (fun x hx' => List.mem_singleton.mp hx' ▸ hx) hy₁
        have hlt := hs.sessions y hys
        have hl' : s.Live y := (hacts.live hlt hl).resolve_right List.not_mem_nil
        have he' : s.playerId y = (s.players player).id :=
          (hacts.playerId hs hlt).symm.trans (he.trans (hacts.ids player hp))
        have hfree : ∀ x ∈ (some session).toList, ¬ s.Resumes first x ∧ ¬ s.Blocks x := by
          intro x hx'
          rw [List.mem_singleton.mp hx']
          refine ⟨by simpa [Resumes] using hresumes, ?_⟩
          simpa [hblocks] using hnot
        obtain ⟨x, hx', hid⟩ := hmake hfree y hys hl' he'
        rw [List.mem_singleton.mp hx', ← hacts.id y hlt, ← hacts.id session hx] at hid
        exact not_mem_closedSession hy hid

/-- The player id of the session that a step makes, and the session that it
replaces. The sessions of guests are left out: they are made without a
round trip to the database. -/
def makes (s : Server) : Wake → Option (Bytes × Option SessionRef)
  | .playerInfo th =>
    match s.thread th with
    | .authenticating found first =>
      if s.admits first ∧ ∀ x ∈ found.toList, ¬ s.Resumes first x ∧ ¬ s.Blocks x then
        some (first.pid, found)
      else none
    | _ => none
  | .joined th =>
    match s.thread th with
    | .replacing session player _ => some ((s.players player).id, some session)
    | _ => none
  | _ => none

/-- The step opens or makes a session for a player who has no other one. -/
def OneAtATime (s : Server) (w : Input × Wake) : Prop :=
  (∀ x ∈ s.reopens w.2, x ∈ s.sessions → ∀ y ∈ s.sessions, s.Live y →
    s.playerId y = s.playerId x → y = x) ∧
  ∀ n ∈ (s.makes w.2).toList, ∀ y ∈ s.sessions, s.Live y → s.playerId y = n.1 →
    ∃ x ∈ n.2.toList, (s.session y).id = (s.session x).id

instance (s : Server) (w : Input × Wake) : Decidable (OneAtATime s w) :=
  inferInstanceAs (Decidable (_ ∧ _))

theorem findSession_live {pid : Bytes} (h : s.findSession pid = some session) :
    s.Live session ∧ s.playerId session = pid := by
  have hsome := List.find?_some (show s.sessions.find? _ = some session from h)
  exact of_decide_eq_true hsome

theorem not_live_of_findSession {pid : Bytes} (h : s.findSession pid = none) {y : SessionRef}
    (hy : y ∈ s.sessions) (hl : s.Live y) : s.playerId y ≠ pid := by
  have hnot := List.find?_eq_none.mp h y hy
  intro he
  exact hnot (decide_eq_true ⟨hl, he⟩)

/-- A new player takes part in no session. -/
theorem newPlayer_playerId (hs : s.Sound) (p : Player) {y : SessionRef} (hy : y ∈ s.sessions) :
    (s.newPlayer p).1.playerId y = s.playerId y :=
  (acts_newPlayer hs p).playerId hs (hs.sessions y hy)

theorem oneEach_authenticateRequest {first : FirstRequest} (hone : s.OneEach) (hs : s.Sound)
    (h : s.authenticateRequest i th first = .ok s') : s'.OneEach := by
  have hfound : ∀ x ∈ (s.findSession first.pid).toList, x < s.sessionCount :=
    fun x hx => hs.sessions x (findSession_mem (Option.mem_toList.mp hx))
  unfold authenticateRequest at h
  simp only at h
  split at h
  · rename_i session hreuse
    have hmem : session ∈ (s.findSession first.pid).toList :=
      Option.mem_toList.mpr (Option.filter_eq_some_iff.mp hreuse).1
    exact hone.quiet hs (acts_handleFirstRequest hs (hfound session hmem) h)
      (fun x hx => List.mem_singleton.mp hx ▸ hfound session hmem)
  · split at h
    · cases h
      exact hone
    · split at h
      · rename_i hguest
        have hplayer := acts_newPlayer hs
          { id := first.pid, type := .guest, score := newPlayerScore }
        have hone₁ := hone.still hs hplayer
        refine oneEach_authenticated hone₁ hplayer.sound hfound (Nat.lt_succ_self _)
          (fun x hx hresumes => ?_) (fun _ y hy hl he => ?_) h
        · simp [Resumes, hguest] at hresumes
        · rw [newPlayer_playerId hs _ hy] at he
          have hpid : s.playerId y = first.pid := by simpa [newPlayer] using he
          cases hf : s.findSession first.pid with
          | none => exact absurd hpid (not_live_of_findSession hf hy hl)
          | some session =>
            obtain ⟨hl', hpid'⟩ := findSession_live hf
            refine ⟨session, List.mem_singleton_self _, ?_⟩
            rw [hone y hy session (findSession_mem hf) hl hl' (hpid.trans hpid'.symm)]
      · cases h
        have hset : s.Acts [] [] (s.setThread th
            (.authenticating (s.findSession first.pid) first)) := by
          refine acts_setThread hs ?_ (fun p hp => by cases hp) th
          exact hfound
        exact hone.still hs hset

/-- A step opens at most one session. -/
theorem reopens_eq {w : Wake} {x y : SessionRef} (hx : x ∈ s.reopens w) (hy : y ∈ s.reopens w) :
    x = y := by
  unfold reopens at hx hy
  split at hx
  · split at hx
    · split at hx
      · rename_i th _ found first hth hadmits
        simp only [hth, hadmits, if_true, List.mem_filter, Option.mem_toList] at hx hy
        exact Option.some.inj (hx.1.symm.trans hy.1)
      · exact (List.not_mem_nil hx).elim
    · exact (List.not_mem_nil hx).elim
  · split at hx
    · split at hx
      · exact (List.not_mem_nil hx).elim
      · rename_i th _ session first waitTimes hth hgo
        simp only [hth, if_neg hgo, List.mem_singleton] at hx hy
        exact hx.trans hy.symm
    · exact (List.not_mem_nil hx).elim
  · split at hx
    · rename_i th _ session first hth
      simp only [hth, List.mem_singleton] at hx hy
      exact hx.trans hy.symm
    · exact (List.not_mem_nil hx).elim
  · split at hx
    · rename_i th _ session clientType hth
      simp only [hth] at hx hy
      split at hx
      · exact (List.not_mem_nil hx).elim
      · rename_i hpolling
        simp only [if_neg hpolling, List.mem_singleton] at hx hy
        exact hx.trans hy.symm
    · exact (List.not_mem_nil hx).elim
  · exact (List.not_mem_nil hx).elim

/-- The player's record has come. -/
theorem oneEach_authenticatePlayer {found : Option SessionRef} {first : FirstRequest}
    (hone : s.OneEach) (hs : s.Sound) (hth : s.thread th = .authenticating found first)
    (hc : OneAtATime s (i, .playerInfo th))
    (h : s.authenticatePlayer i th found first = .ok s') : s'.OneEach := by
  obtain ⟨hopen, hmake⟩ := hc
  have hfound : ∀ x ∈ found.toList, x < s.sessionCount := hs.lt_of_thread hth
  rcases s.authenticatePlayer_eq i th found first with ⟨-, he⟩ | ⟨hadmits, p, hpid, he⟩
  · rw [he] at h
    cases h
    exact hone.still hs (acts_setThread_idle hs th)
  · rw [he] at h
    have hplayer := acts_newPlayer hs p
    have hone₁ := hone.still hs hplayer
    refine oneEach_authenticated hone₁ hplayer.sound hfound (Nat.lt_succ_self _)
      (fun x hx hresumes hmem y hy hl he => ?_) (fun hfree y hy hl he => ?_) h
    · rw [newPlayer_playerId hs p hy, newPlayer_playerId hs p hmem] at he
      refine hopen x ?_ hmem y hy hl he
      simp only [reopens, hth, hadmits, if_true, List.mem_filter]
      exact ⟨hx, decide_eq_true hresumes⟩
    · rw [newPlayer_playerId hs p hy] at he
      have he' : s.playerId y = first.pid := by simpa [newPlayer, hpid] using he
      refine hmake (first.pid, found) ?_ y hy hl he'
      simp only [makes, hth]
      rw [if_pos ⟨hadmits, hfree⟩]
      exact List.mem_singleton_self _

/-- The threads of a session that is replaced have ended. -/
theorem oneEach_replaced {first : FirstRequest} (hone : s.OneEach) (hs : s.Sound)
    (hth : s.thread th = .replacing session player first) (hc : OneAtATime s (i, .joined th))
    (h : ((s.closedIo session).closedSession session).startSession i th player first = .ok s') :
    s'.OneEach := by
  have hx := hs.lt_of_thread hth session (List.mem_singleton_self _)
  have hp : player < s.playerCount := hs.loaded th player (by rw [hth]; rfl)
  have hio := acts_closedIo hs hx
  have hdeleted := hio.quiet (acts_closedSession hio.sound session)
  have hone₁ := hone.still hs hdeleted
  refine oneEach_startSession hone₁ hdeleted.sound hp (fun y hy hl he => ?_) h
  have hys : y ∈ s.sessions := List.mem_of_mem_filter hy
  have hlt := hs.sessions y hys
  obtain ⟨x, hx', hid⟩ := hc.2 ((s.players player).id, some session) (by simp [makes, hth]) y hys
    ((hdeleted.live hlt hl).resolve_right List.not_mem_nil)
    ((hdeleted.playerId hs hlt).symm.trans he)
  rw [List.mem_singleton.mp hx', ← hio.id y hlt, ← hio.id session hx] at hid
  exact not_mem_closedSession hy hid

theorem oneEach_wake {w : Input × Wake} (hone : s.OneEach) (hs : s.Sound) (hc : OneAtATime s w)
    (h : s.wake w.1 w.2 = .ok s') : s'.OneEach := by
  obtain ⟨i, w⟩ := w
  obtain ⟨hopen, hmake⟩ := hc
  have hthread := hs.threads
  -- a step that makes no session
  have hsame : (∀ x ∈ s.shuts w, x < s.sessionCount) → s'.OneEach := by
    intro hshuts
    refine hone.acts hs (acts_wake hs h) hshuts (fun x hx hmem y hy hl he => ?_)
    rcases hl with hl | hl
    · exact hopen x hx hmem y hy hl he
    · exact reopens_eq hl hx
  cases w with
  | connected th first =>
    simp only [wake] at h
    split at h
    · exact oneEach_authenticateRequest hone hs h
    · cases h
  | playerInfo th =>
    simp only [wake] at h
    split at h
    · rename_i found first hth
      exact oneEach_authenticatePlayer hone hs hth ⟨hopen, hmake⟩ h
    · cases h
  | joined th =>
    cases hth : s.thread th with
    | replacing session player first =>
      simp only [wake, joined, hth] at h
      exact oneEach_replaced hone hs hth ⟨hopen, hmake⟩ h
    | resuming session first =>
      refine hsame (fun x hx => hthread th x ?_)
      simpa [shuts, hth, Thread.sessions] using hx
    | disconnecting session clientType =>
      refine hsame (fun x hx => hthread th x ?_)
      simpa [shuts, hth, Thread.sessions] using hx
    | _ => exact hsame (fun x hx => by simp [shuts, hth] at hx)
  | slept th =>
    refine hsame (fun x hx => hthread th x ?_)
    simp only [shuts, reopens] at hx
    split at hx
    · rename_i session first waitTimes hth
      split at hx
      · exact (List.not_mem_nil hx).elim
      · rwa [hth]
    · exact (List.not_mem_nil hx).elim
  | terminated th ok => exact hsame (hthread th)
  | answered th ok => exact hsame (hthread th)
  | readFailed th => exact hsame (hthread th)
  | yielded th => exact hsame (hthread th)
  | sessionManager expired =>
    exact hsame (fun x hx => hs.sessions x (List.mem_of_mem_filter (List.mem_of_mem_filter hx)))
  | sessionManagerJoined expired =>
    refine hsame (fun x hx => ?_)
    obtain ⟨session, -, hx⟩ := List.mem_flatMap.mp hx
    exact hs.sessions x ((s.behind_sublist session).subset (List.mem_of_mem_filter hx))
  | requestRead | writeThreadEnded | tableManager | requestTaken | requestWritten =>
    exact hsame (fun _ hx => (List.not_mem_nil hx).elim)

/-- **A player has one live session**, in every run whose steps open and
make sessions one at a time. -/
theorem one_session_each {ws : List (Input × Wake)} (hrun : (machine db).run { db } ws = .ok s)
    (hc : (machine db).Meets OneAtATime { db } ws) : s.OneEach := by
  have hinit : Sound { db } ∧ OneEach { db } :=
    ⟨sound_init db, fun x hx => (List.not_mem_nil hx).elim⟩
  have hlast : s.Sound ∧ s.OneEach := by
    refine Lib.Machine.Meets.run (M := machine db) (I := fun s => s.Sound ∧ s.OneEach) ?_ hinit
      hc hrun
    intro s₁ w s₂ hs₁ hw hstep
    exact ⟨(acts_wake hs₁.1 hstep).sound, oneEach_wake hs₁.2 hs₁.1 hw hstep⟩
  exact hlast.2

/-- RED logs in from a second connection, and his session is resumed. -/
def loginResumed : List (Input × Wake) :=
  desktopLogin 1 (bytes "red") (bytes "1") ++ desktopLogin 2 (bytes "red") (bytes "2") ++
    [({ now := 0 }, .readFailed 1), ({ now := 0 }, .writeThreadEnded 0), ({ now := 0 }, .joined 1),
     ({ now := 0 }, .slept 2)]

theorem one_session_each_resumed : ∃ s,
    (machine twoRows).run { db := twoRows } loginResumed = .ok s ∧ s.sessions = [0] ∧
      s.Live 0 ∧ s.thread 2 = .reading 0 .hoxchess ∧ s.OneEach := by
  have hrun : ((machine twoRows).run { db := twoRows } loginResumed).map (fun s =>
      (s.sessions, decide (s.Live 0), s.thread 2)) = .ok ([0], true, .reading 0 .hoxchess) := by
    decide +kernel
  obtain ⟨s, hs, he⟩ := map_eq_ok.mp hrun
  simp only [Prod.mk.injEq, decide_eq_true_eq] at he
  obtain ⟨hsessions, hlive, hthread⟩ := he
  exact ⟨s, hs, hsessions, hlive, hthread, one_session_each hs (by decide +kernel)⟩

/-- Two connections log in as RED; the agent answers both when neither has
made a session. -/
theorem two_sessions : ∃ s, (machine twoRows).Reachable s ∧
    ∃ x ∈ s.sessions, ∃ y ∈ s.sessions, x ≠ y ∧ s.Live x ∧ s.Live y ∧
      s.playerId x = bytes "red" ∧ s.playerId y = bytes "red" := by
  let first : FirstRequest :=
    { pid := bytes "red", hpassword := bytes "pw", clientType := .hoxchess }
  have hrun : ((machine twoRows).run { db := twoRows }
      [({ now := 0 }, .connected 1 first), ({ now := 0 }, .connected 2 first),
       ({ newSessionId := bytes "1" }, .playerInfo 1),
       ({ newSessionId := bytes "2" }, .playerInfo 2)]).map (fun s => (s.sessions,
        decide (s.Live 0 ∧ s.Live 1 ∧ s.playerId 0 = bytes "red" ∧ s.playerId 1 = bytes "red")))
        = .ok ([0, 1], true) := by decide +kernel
  obtain ⟨s, hs, he⟩ := map_eq_ok.mp hrun
  simp only [Prod.mk.injEq, decide_eq_true_eq] at he
  obtain ⟨hsessions, hlive⟩ := he
  refine ⟨s, Lib.Machine.Reachable.run (.init rfl) hs, 0, by simp [hsessions], 1,
    by simp [hsessions], by decide, hlive⟩

end Server

end HoxServer
