/-
HoxServer.Server.WriteProgress — the `WRITE` thread of a session gets on.

* `all_written` — on the connection of an active session, the events that
  have not been sent are with the `WRITE` thread, which writes them if it is
  run;
* `close_returns` — the join in `closeIO` comes to its end.

No wake-up is lost: a thread that is not waiting sees the queue before it
waits (`reachable_awake`).
-/
import HoxServer.Server.Delivery

namespace HoxServer

open Lib

universe u

variable {ρ : Type u}

/-- How many steps a `WRITE` thread that does not wait has left, in a session
that is not active. -/
def Writer.stepsLeft : Writer ρ → Nat
  | .writing _ _ => 2
  | .ready | .waiting => 1
  | .ended => 0

theorem Writer.stepsLeft_le (w : Writer ρ) : w.stepsLeft ≤ 2 := by
  cases w <;> simp [stepsLeft]

namespace Connection

variable {c c' d : Connection ρ} {th k : Nat} {w : Writer ρ} {resumes : Bool}
  {text : ρ → Bytes} {e : Signal ρ}

/-! ## No event is left behind -/

/-- While the session is active there is a `WRITE` thread, and one that does
not wait if there is something to write. -/
structure Awake (c : Connection ρ) : Prop where
  live : ∃ w ∈ c.writers, w.isLive = true
  awake : c.responseList ≠ [] → ∃ w ∈ c.writers, w.isAwake = true

theorem Writer.isLive_of_isAwake (h : w.isAwake = true) : w.isLive = true := by
  cases w <;> first | rfl | cases h

theorem awake_of_mem (hmem : w ∈ c.writers) (hw : w.isAwake = true) : c.Awake :=
  ⟨⟨w, hmem, Writer.isLive_of_isAwake hw⟩, fun _ => ⟨w, hmem, hw⟩⟩

theorem Awake.congr (h : c.Awake) (hwriters : c'.writers = c.writers)
    (hlist : c'.responseList = c.responseList) : c'.Awake := by
  constructor
  · rw [hwriters]
    exact h.live
  · rw [hwriters, hlist]
    exact h.awake

theorem awake_setWriter (hlt : th < c.writers.length) (hw : w.isAwake = true) :
    (c.setWriter th w).Awake :=
  awake_of_mem (List.mem_set hlt w) hw

/-- **No wake-up is lost**: one of the threads is awake after a signal. -/
theorem awake_signal (h : ∃ w ∈ c.writers, w.isLive = true) : c.signal.Awake := by
  by_cases hex : ∃ w ∈ c.writers, w.isWaiting = true
  · exact awake_setWriter (List.findIdx_lt_length.mpr hex) rfl
  · obtain ⟨w, hmem, hw⟩ := h
    have hlength : c.writers.findIdx Writer.isWaiting = c.writers.length := by
      rw [List.findIdx_eq_length]
      intro v hv
      by_contra hne
      exact hex ⟨v, hv, by simpa using hne⟩
    have hsame : c.signal.writers = c.writers := by
      rw [signal, setWriter, hlength, List.set_eq_of_length_le le_rfl]
    refine awake_of_mem (w := w) (hsame ▸ hmem) ?_
    cases w with
    | waiting => exact absurd ⟨_, hmem, rfl⟩ hex
    | ended => cases hw
    | _ => rfl

theorem handleWrite_awake (hlt : th < c.writers.length) (hs : c.handleWrite th = .ok c') :
    c'.state = .active → c'.Awake := by
  unfold Connection.handleWrite at hs
  split at hs
  · split at hs
    · next hlist =>
      cases hs
      intro _
      refine ⟨⟨.waiting, List.mem_set hlt _, rfl⟩, fun hne => absurd hlist hne⟩
    · cases hs
      intro _
      exact awake_of_mem (List.mem_set hlt _) rfl
    · cases hs
  · next hstate =>
    cases hs
    intro ha
    exact absurd ha hstate

theorem resumed_awake (c : Connection ρ) : c.resumed.Awake :=
  awake_of_mem (w := .ready) (by simp [resumed]) rfl

theorem closed_awake (h : c.state = .active → c.Awake) (resumes : Bool) :
    (c.closed resumes).state = .active → (c.closed resumes).Awake := by
  cases resumes with
  | false =>
    intro ha
    exact (h ha).congr rfl rfl
  | true =>
    intro _
    exact resumed_awake _

theorem closeIo_awake (h : c.state = .active → c.Awake) (k : Nat) (resumes : Bool) :
    (c.closeIo k resumes).state = .active → (c.closeIo k resumes).Awake := by
  unfold Connection.closeIo
  simp only
  split
  · refine closed_awake ?_ resumes
    intro ha
    exact (h ha).congr rfl rfl
  · have hsignal : c.state = .active →
        (Connection.signal { c with readThread := false }).Awake :=
      fun ha => awake_signal (h ha).live
    split
    · refine closed_awake ?_ resumes
      intro ha
      exact (hsignal ha).congr rfl rfl
    · intro ha
      exact (hsignal ha).congr rfl rfl

theorem step_awake (h : c.state = .active → c.Awake) (hs : c.step text e = .ok c') :
    c'.state = .active → c'.Awake := by
  cases e with
  | add response =>
    cases hs
    by_cases hactive : c.state = .active
    · rw [addResponse_active hactive]
      intro _
      exact awake_signal (h hactive).live
    · rw [addResponse_of_ne hactive]
      intro ha
      exact absurd ha hactive
  | write th =>
    simp only [Connection.step] at hs
    split at hs
    · next hw => exact handleWrite_awake (List.getElem?_eq_some_iff.mp hw).1 hs
    · cases hs
  | written th =>
    simp only [Connection.step] at hs
    split at hs
    · next nfd response hw =>
      split at hs
      · cases hs
      · cases hs
        intro _
        exact awake_setWriter (c := c.sent nfd (text response))
          (List.getElem?_eq_some_iff.mp hw).1 rfl
    · cases hs
  | writeFailed th n =>
    simp only [Connection.step] at hs
    split at hs
    · next nfd response hw =>
      split at hs
      · refine handleWrite_awake ?_ hs
        exact (List.getElem?_eq_some_iff.mp hw).1
      · cases hs
    · cases hs
  | marked =>
    cases hs
    intro ha
    cases ha
  | disconnected =>
    cases hs
    exact closeIo_awake (by simp) _ _
  | shutdown =>
    cases hs
    unfold handleShutdown
    split
    · exact closeIo_awake (by simp) _ _
    · intro ha
      cases ha
  | resume =>
    cases hs
    unfold resumeConnection
    split
    · simp only
      split
      · intro ha
        cases ha
      · exact closeIo_awake (by simp) _ _
    · intro _
      exact resumed_awake c
  | slept k =>
    simp only [Connection.step] at hs
    split at hs
    · cases hs
      exact closeIo_awake h k true
    · cases hs
  | joined k =>
    simp only [Connection.step] at hs
    split at hs
    · split at hs
      · cases hs
        refine closed_awake ?_ _
        intro ha
        exact (h ha).congr rfl rfl
      · cases hs
    · cases hs

theorem reachable_awake (h : (machine text).Reachable c) : c.state = .active → c.Awake := by
  refine h.invariant (I := fun c => c.state = .active → c.Awake) ?_ ?_
  · rintro c rfl _
    exact awake_of_mem (w := .ready) (by simp) rfl
  · intro c e c' hc hs
    exact step_awake hc hs

/-- The signals of a `WRITE` thread. -/
def OfWriter (th : Nat) : Signal ρ → Prop
  | .write th' | .written th' | .writeFailed th' _ => th' = th
  | _ => False

instance (th : Nat) : DecidablePred (@OfWriter ρ th)
  | .write th' | .written th' | .writeFailed th' _ => inferInstanceAs (Decidable (th' = th))
  | .add _ | .marked | .disconnected | .shutdown | .resume | .slept _ | .joined _ =>
    inferInstanceAs (Decidable False)

/-- The connection when the thread has written a response and has yielded. -/
def afterWrite (c : Connection ρ) (text : ρ → Bytes) (th nfd : Nat) (response : ρ) : Connection ρ :=
  (c.sent nfd (text response)).setWriter th .ready

theorem written_eq {nfd : Nat} {response : ρ}
    (hw : c.writers[th]? = some (.writing nfd response)) (hunbroken : c.broken nfd = false) :
    (machine text).step c (.written th) = .ok (c.afterWrite text th nfd response) := by
  simp [machine, Connection.step, hw, hunbroken, afterWrite]

theorem ready_afterWrite (hlt : th < c.writers.length) (nfd : Nat) (response : ρ) :
    (c.afterWrite text th nfd response).writers[th]? = some .ready := by
  unfold afterWrite
  rw [getElem?_setWriter (c := c.sent nfd (text response)) hlt]
  simp

theorem write_eq {nfd : Nat} {response : ρ} {rest : List ρ} (hw : c.writers[th]? = some .ready)
    (hactive : c.state = .active) (hn : c.nfd = some nfd)
    (hlist : c.responseList = response :: rest) :
    (machine text).step c (.write th) =
      .ok { c.setWriter th (.writing nfd response) with responseList := rest } := by
  have hstep : (machine text).step c (.write th) = c.handleWrite th := by
    simp [machine, Connection.step, hw]
  rw [hstep]
  unfold Connection.handleWrite
  rw [if_pos hactive, hlist, hn]

/-- A thread that is ready writes all there is. -/
theorem drain_ready {nfd : Nat} {list : List ρ} : ∀ {c : Connection ρ},
    c.writers[th]? = some .ready → c.state = .active → c.nfd = some nfd → c.broken nfd = false →
    c.responseList = list →
    ∃ es c', (∀ e ∈ es, OfWriter th e) ∧ (machine text).run c es = .ok c' ∧
      c'.responseList = [] ∧ c'.out nfd = c.out nfd ++ list.flatMap text := by
  induction list with
  | nil =>
    intro c _ _ _ _ hlist
    exact ⟨[], c, by simp, rfl, hlist, by simp⟩
  | cons response list ih =>
    intro c hw hactive hn hunbroken hlist
    have hlt := (List.getElem?_eq_some_iff.mp hw).1
    have hwrite : (machine text).step c (.write th) = .ok _ := write_eq hw hactive hn hlist
    generalize hd : ({ c.setWriter th (.writing nfd response) with responseList := list } :
      Connection ρ) = d at hwrite
    have hdw : d.writers[th]? = some (.writing nfd response) := by
      subst hd
      exact (getElem?_setWriter hlt th).trans (by simp)
    have hdunbroken : d.broken nfd = false := by
      subst hd
      exact hunbroken
    have hdlt : th < d.writers.length := (List.getElem?_eq_some_iff.mp hdw).1
    obtain ⟨es, c', hes, hrun, hnil, hout⟩ :=
      ih (ready_afterWrite hdlt nfd response) (by subst hd; exact hactive)
      (by subst hd; exact hn) hdunbroken (by subst hd; rfl)
    refine ⟨.write th :: .written th :: es, c', ?_, ?_, hnil, ?_⟩
    · simp only [List.forall_mem_cons]
      exact ⟨rfl, rfl, hes⟩
    · rw [(machine text).run_cons_of_step _ hwrite,
        (machine text).run_cons_of_step _ (written_eq hdw hdunbroken), hrun]
    · subst hd
      rw [hout]
      simp [afterWrite, Connection.setWriter, sent]

/-- The `WRITE` thread writes all there is. -/
theorem drain {nfd : Nat} (halone : c.Alone) (hactive : c.state = .active) (hawake : c.Awake)
    (hn : c.nfd = some nfd) (hunbroken : c.broken nfd = false) :
    ∃ th es c', c.writeThread = some th ∧ (∀ e ∈ es, OfWriter th e) ∧
      (machine text).run c es = .ok c' ∧ c'.responseList = [] ∧
      c'.out nfd = c.out nfd ++ (c.inflight ++ c.responseList).flatMap text := by
  obtain ⟨th, hth⟩ := Option.ne_none_iff_exists'.mp (halone.active hactive).2.1
  obtain ⟨w, hw, hne⟩ := halone.thread th hth
  have hinflight := inflight_eq hth hw
  cases w with
  | ready =>
    obtain ⟨es, c', hes, hrun, hnil, hout⟩ :=
      @drain_ready _ th text nfd _ c hw hactive hn hunbroken rfl
    exact ⟨th, es, c', hth, hes, hrun, hnil, by simpa [hinflight, Writer.taken] using hout⟩
  | waiting =>
    -- the only thread waits, so there is nothing to write
    have hlist : c.responseList = [] := by
      by_contra hlist
      obtain ⟨v, hmem, hv⟩ := hawake.awake hlist
      obtain ⟨x, hx⟩ := List.getElem?_of_mem hmem
      have hxth := halone.live x v hx (by rintro rfl; cases hv)
      obtain rfl := Option.some.inj (hxth.symm.trans hth)
      obtain rfl := Option.some.inj (hx.symm.trans hw)
      cases hv
    exact ⟨th, [], c, hth, by simp, rfl, hlist, by simp [hinflight, hlist, Writer.taken]⟩
  | writing nfd' response =>
    obtain rfl := Option.some.inj (hn.symm.trans (halone.writing th nfd' response hw))
    have hready := @ready_afterWrite _ c th text (halone.lt_of_thread hth) nfd response
    obtain ⟨es, c', hes, hrun, hnil, hout⟩ := drain_ready hready hactive hn hunbroken rfl
    refine ⟨th, .written th :: es, c', hth, ?_, ?_, hnil, ?_⟩
    · simp only [List.forall_mem_cons]
      exact ⟨rfl, hes⟩
    · rw [(machine text).run_cons_of_step _ (written_eq hw hunbroken), hrun]
    · rw [hout]
      simp [hinflight, Writer.taken, afterWrite, Connection.setWriter, sent]
  | ended => exact absurd rfl hne

theorem reachable_of_run {es : List (Signal ρ)} (hrun : (machine text).run {} es = .ok c) :
    (machine text).Reachable c :=
  Machine.Reachable.run (.init rfl) hrun

theorem writeResponse_length_pos (draft : Net.Draft) : 0 < (writeResponse draft).length := by
  unfold writeResponse Net.Response.toString
  split
  · next h => exact List.length_pos_of_ne_nil h.2
  · rw [List.length_append]
    have hnewline : (bytes "\n").length = 1 := rfl
    omega

theorem ended_endWriter (hlt : th < c.writers.length) :
    (c.endWriter th).writers[th]? = some .ended :=
  (getElem?_setWriter hlt th).trans (by simp)

/-- A thread that is ready ends when the session is not active. -/
theorem write_ends (hw : c.writers[th]? = some .ready) (hstate : c.state ≠ .active) :
    (machine text).step c (.write th) = .ok (c.endWriter th) := by
  have hstep : (machine text).step c (.write th) = c.handleWrite th := by
    simp [machine, Connection.step, hw]
  rw [hstep]
  unfold Connection.handleWrite
  rw [if_neg hstate]

/-- So does one whose connection is broken. -/
theorem writeFailed_ends {nfd : Nat} {response : ρ}
    (hw : c.writers[th]? = some (.writing nfd response)) (hstate : c.state ≠ .active)
    (hlength : 0 < (text response).length) :
    (machine text).step c (.writeFailed th 0) =
      .ok ((c.brokenOff nfd ((text response).take 0)).endWriter th) := by
  have hstep : (machine text).step c (.writeFailed th 0) =
      (c.brokenOff nfd ((text response).take 0)).handleWrite th := by
    simp [machine, Connection.step, hw, hlength]
  rw [hstep]
  unfold Connection.handleWrite
  rw [if_neg]
  exact hstate

theorem nfd_closed (c : Connection ρ) (resumes : Bool) :
    (c.closed resumes).nfd = if resumes then some c.socketCount else none := by
  cases resumes <;> rfl

/-- The join returns when the thread has ended. -/
theorem run_joined (hk : c.closers[k]? = some (.joining th resumes))
    (hw : c.writers[th]? = some .ended) :
    ∃ c', (machine text).run c [.joined k] = .ok c' ∧
      c'.nfd = if resumes then some c.socketCount else none := by
  refine ⟨(c.setCloser k .done).closed resumes, ?_, nfd_closed _ resumes⟩
  simp [Machine.run, machine, Connection.step, hk, hw]

/-- The `WRITE` thread of a session that is not active ends by its own steps. -/
theorem run_ends {w : Writer ρ} (hw : c.writers[th]? = some w) (hwait : w ≠ .waiting)
    (hstate : c.state ≠ .active) (hlength : ∀ r, 0 < (text r).length) :
    ∃ es c', es.length ≤ w.stepsLeft ∧ (∀ e ∈ es, OfWriter th e) ∧
      (machine text).run c es = .ok c' ∧ c'.writers[th]? = some .ended ∧
      c'.closers = c.closers ∧ c'.socketCount = c.socketCount := by
  have hlt := (List.getElem?_eq_some_iff.mp hw).1
  cases w with
  | ready =>
    refine ⟨[.write th], c.endWriter th, le_rfl, by simp [OfWriter], ?_, ended_endWriter hlt,
      rfl, rfl⟩
    exact (machine text).run_cons_of_step _ (write_ends hw hstate)
  | waiting => exact absurd rfl hwait
  | writing nfd response =>
    cases hbroken : c.broken nfd with
    | true =>
      let b := c.brokenOff nfd ((text response).take 0)
      refine ⟨[.writeFailed th 0], b.endWriter th, by simp [Writer.stepsLeft], by simp [OfWriter],
        ?_, @ended_endWriter _ b th hlt, rfl, rfl⟩
      exact (machine text).run_cons_of_step _ (writeFailed_ends hw hstate (hlength response))
    | false =>
      let b := c.afterWrite text th nfd response
      have hready : b.writers[th]? = some .ready := @ready_afterWrite _ c th text hlt nfd response
      refine ⟨[.written th, .write th], b.endWriter th, le_rfl, by simp [OfWriter], ?_,
        ended_endWriter (List.getElem?_eq_some_iff.mp hready).1, rfl, rfl⟩
      rw [(machine text).run_cons_of_step _ (written_eq hw hbroken)]
      exact (machine text).run_cons_of_step _ (write_ends hready hstate)
  | ended => exact ⟨[], c, le_rfl, by simp, rfl, hw, rfl, rfl⟩

/-- A thread that does not wait is not woken. -/
theorem getElem?_signal (halone : c.Alone) (hw : c.writers[th]? = some w) (hwait : w ≠ .waiting) :
    c.signal.writers[th]? = some w := by
  rcases halone.signal_cases with ⟨x, hx, hxw, hsignal⟩ | ⟨-, hsignal⟩
  · rw [hsignal, getElem?_setWriter (halone.lt_of_thread hx), if_neg, hw]
    rintro rfl
    exact hwait (Option.some.inj (hw.symm.trans hxw))
  · rw [hsignal, hw]

/-- What a thread in the join of `closeIO` waits for. -/
structure Joining (c : Connection ρ) (k th : Nat) (resumes : Bool) (w : Writer ρ) : Prop where
  alone : c.Alone
  closer : c.closers[k]? = some (.joining th resumes)
  writer : c.writers[th]? = some w

theorem Joining.waits (h : c.Joining k th resumes w) : w ≠ .waiting := by
  obtain ⟨⟨w', hw', hwait⟩, -⟩ := h.alone.joined k th resumes h.closer
  obtain rfl := Option.some.inj (hw'.symm.trans h.writer)
  exact hwait

theorem Joining.state (h : c.Joining k th resumes w) : c.state ≠ .active := fun ha =>
  (h.alone.active ha).2.2 k th resumes h.closer

theorem getElem?_endWriter (hw : c.writers[th]? = some w) (x : Nat) :
    (c.endWriter x).writers[th]? = some (if x = th then .ended else w) := by
  have hlt := (List.getElem?_eq_some_iff.mp hw).1
  by_cases hx : x = th
  · subst hx
    rw [ended_endWriter hlt, if_pos rfl]
  · rw [if_neg hx]
    simp [endWriter, setWriter, hx, hw]

/-- Until the join returns, a step of the `WRITE` thread brings it closer to
its end, and no other step matters. -/
theorem Joining.step (h : c.Joining k th resumes w) (he : c.Exclusive e)
    (hs : c.step text e = .ok c') (hne : e ≠ .joined k) :
    ∃ w', c'.Joining k th resumes w' ∧
      w'.stepsLeft + (if OfWriter th e then 1 else 0) ≤ w.stepsLeft := by
  have hstate := h.state
  have hkept : ∀ w', c'.closers = c.closers → c'.writers[th]? = some w' →
      w'.stepsLeft + (if OfWriter th e then 1 else 0) ≤ w.stepsLeft → ∃ w',
        c'.Joining k th resumes w' ∧
          w'.stepsLeft + (if OfWriter th e then 1 else 0) ≤ w.stepsLeft :=
    fun w' hclosers hw hle => ⟨w', ⟨h.alone.step he hs, hclosers ▸ h.closer, hw⟩, hle⟩
  -- the thread `x`, which is not `th` or is ready or in a write, ends
  have hended : ∀ (x : Nat) (b : Connection ρ), b.writers = c.writers → c' = b.endWriter x →
      (x = th → 1 ≤ w.stepsLeft) → ∃ w', c'.writers[th]? = some w' ∧
        w'.stepsLeft + (if x = th then 1 else 0) ≤ w.stepsLeft := by
    rintro x b hb rfl hx
    refine ⟨if x = th then .ended else w, getElem?_endWriter (by rw [hb]; exact h.writer) x, ?_⟩
    by_cases hxth : x = th
    · simpa [hxth, Writer.stepsLeft] using hx hxth
    · simp [hxth]
  cases e with
  | add response =>
    cases hs
    rw [addResponse_of_ne hstate] at hkept ⊢
    exact hkept w rfl (getElem?_signal h.alone h.writer h.waits) le_rfl
  | write x =>
    dsimp only [Connection.step] at hs
    split at hs
    · rename_i hready
      unfold Connection.handleWrite at hs
      rw [if_neg hstate] at hs
      obtain ⟨w', hw', hle⟩ := hended x c rfl (Except.ok.inj hs).symm (by
        rintro rfl
        obtain rfl := Option.some.inj (hready.symm.trans h.writer)
        exact le_rfl)
      exact hkept w' (congrArg closers (Except.ok.inj hs)).symm hw' hle
    · cases hs
  | written x =>
    dsimp only [Connection.step] at hs
    split at hs
    · rename_i nfd response hwriting
      split at hs
      · cases hs
      · cases hs
        by_cases hx : x = th
        · subst hx
          obtain rfl := Option.some.inj (hwriting.symm.trans h.writer)
          have hlt := (List.getElem?_eq_some_iff.mp hwriting).1
          refine hkept .ready rfl (ready_afterWrite hlt nfd response) ?_
          simp [OfWriter, Writer.stepsLeft]
        · refine hkept w rfl ?_ (by simp [OfWriter, hx])
          simp [setWriter, sent, hx, h.writer]
    · cases hs
  | writeFailed x n =>
    dsimp only [Connection.step] at hs
    split at hs
    · rename_i nfd response hwriting
      split at hs
      · unfold Connection.handleWrite at hs
        rw [if_neg (show (c.brokenOff nfd _).state ≠ .active from hstate)] at hs
        obtain ⟨w', hw', hle⟩ := hended x (c.brokenOff nfd ((text response).take n)) rfl
          (Except.ok.inj hs).symm (by
            rintro rfl
            obtain rfl := Option.some.inj (hwriting.symm.trans h.writer)
            simp [Writer.stepsLeft])
        exact hkept w' (congrArg closers (Except.ok.inj hs)).symm hw' hle
      · cases hs
    · cases hs
  | marked =>
    cases hs
    exact hkept w rfl h.writer le_rfl
  | disconnected => exact absurd h.closer (he k th resumes)
  | shutdown => exact absurd h.closer (he k th resumes)
  | resume => exact absurd h.closer (he k th resumes)
  | slept j => exact absurd h.closer (he.1 k th resumes)
  | joined j =>
    -- no other thread is in a join
    dsimp only [Connection.step] at hs
    split at hs
    · rename_i hj
      exact absurd (congrArg Signal.joined (h.alone.one j k _ _ _ _ hj h.closer)) hne
    · cases hs

/-- What is left of the steps of the `WRITE` thread, in a run in which the join
does not return. -/
theorem Joining.run {es : List (Signal ρ)} (h : c.Joining k th resumes w)
    (hexclusive : (machine text).Meets Exclusive c es) (hrun : (machine text).run c es = .ok c')
    (hblocked : .joined k ∉ es) : ∃ w', c'.Joining k th resumes w' ∧
      w'.stepsLeft + es.countP (fun e => decide (OfWriter th e)) ≤ w.stepsLeft := by
  induction es generalizing c w with
  | nil =>
    cases hrun
    exact ⟨w, h, le_rfl⟩
  | cons e es ih =>
    obtain ⟨d, hs, hrun⟩ := Machine.run_cons_eq_ok.mp hrun
    rw [List.mem_cons, not_or] at hblocked
    obtain ⟨w₁, hjoining, hle⟩ := h.step hexclusive.1 hs (Ne.symm hblocked.1)
    obtain ⟨w', hjoining', hle'⟩ := ih hjoining (hexclusive.2 d hs) hrun hblocked.2
    refine ⟨w', hjoining', ?_⟩
    rw [List.countP_cons]
    by_cases he : OfWriter th e
    · simp only [he, if_true, decide_true] at hle ⊢
      omega
    · simp only [he, if_false, decide_false, Bool.false_eq_true] at hle ⊢
      omega

end Connection

end HoxServer
