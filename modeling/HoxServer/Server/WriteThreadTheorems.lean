/-
HoxServer.Server.WriteThreadTheorems — what the threads of a session rely
on.

There is one `WRITE` thread at most, and it writes to the connection that
is open (`Alone`). Every step keeps this that is taken while no other
thread closes a connection (`Exclusive`), and then no empty pointer is
used.
-/
import HoxServer.Server.WriteThread

namespace HoxServer

open Lib

universe u

variable {ρ : Type u}

namespace Connection

/-- What the threads of a session rely on: there is one `WRITE` thread at
most, it writes to the connection, and a thread in the join of `closeIO` is
the only one there. -/
structure Alone (c : Connection ρ) : Prop where
  live : ∀ (th : Nat) (w : Writer ρ), c.writers[th]? = some w → w ≠ .ended → c.writeThread = some th
  thread : ∀ th : Nat, c.writeThread = some th → ∃ w, c.writers[th]? = some w ∧ w ≠ .ended
  writing : ∀ (th n : Nat) (r : ρ), c.writers[th]? = some (.writing n r) → c.nfd = some n
  free : c.nfd = none → c.writeThread = none ∧ c.Free
  active : c.state = .active → c.nfd ≠ none ∧ c.writeThread ≠ none ∧ c.Free
  joined : ∀ (k th : Nat) (resumes : Bool), c.closers[k]? = some (.joining th resumes) →
    (∃ w, c.writers[th]? = some w ∧ w ≠ .waiting) ∧ ∀ th', c.writeThread = some th' → th' = th
  one : ∀ (k k' th th' : Nat) (resumes resumes' : Bool),
    c.closers[k]? = some (.joining th resumes) →
    c.closers[k']? = some (.joining th' resumes') → k = k'

theorem alone_start : Alone ({} : Connection ρ) where
  live th w h hw := by
    cases th with
    | zero => rfl
    | succ th => simp at h
  thread th h := by
    cases h
    exact ⟨.ready, rfl, by simp⟩
  writing th n r h := by
    cases th with
    | zero => simp at h
    | succ th => simp at h
  free h := by cases h
  active _ := ⟨by simp, by simp, by simp [Free]⟩
  joined k th resumes h := by simp at h
  one k k' th th' resumes resumes' h := by simp at h

variable {c c' d : Connection ρ} {th k : Nat} {w : Writer ρ} {resumes : Bool}
  {text : ρ → Bytes} {e : Signal ρ}

theorem Alone.ended (h : c.Alone) (hnone : c.writeThread = none) :
    ∀ (th : Nat) (w : Writer ρ), c.writers[th]? = some w → w = .ended := by
  intro th w hw
  by_contra hne
  have hlive := h.live th w hw hne
  rw [hnone] at hlive
  cases hlive

/-- A thread is woken if the `WRITE` thread waits. -/
theorem Alone.signal_cases (h : c.Alone) :
    (∃ th, c.writeThread = some th ∧ c.writers[th]? = some .waiting ∧
      c.signal = c.setWriter th .ready) ∨
    ((∀ th : Nat, c.writers[th]? ≠ some .waiting) ∧ c.signal = c) := by
  by_cases hex : ∃ w ∈ c.writers, w.isWaiting = true
  · have hlt := List.findIdx_lt_length.mpr hex
    have hat := List.findIdx_getElem (w := hlt)
    have hwait : c.writers[c.writers.findIdx Writer.isWaiting]? = some .waiting := by
      rw [List.getElem?_eq_getElem hlt]
      cases hw : c.writers[c.writers.findIdx Writer.isWaiting] <;>
        simp [hw, Writer.isWaiting] at hat
      rfl
    exact .inl ⟨_, h.live _ _ hwait (by simp), hwait, rfl⟩
  · have hnone : ∀ th : Nat, c.writers[th]? ≠ some .waiting := by
      intro th hth
      exact hex ⟨_, List.mem_of_getElem? hth, rfl⟩
    have hlength : c.writers.findIdx Writer.isWaiting = c.writers.length := by
      rw [List.findIdx_eq_length]
      intro w hw
      by_contra hne
      exact hex ⟨w, hw, by simpa using hne⟩
    refine .inr ⟨hnone, ?_⟩
    rw [signal, setWriter, hlength, List.set_eq_of_length_le le_rfl]

theorem getElem?_setWriter (hth : th < c.writers.length) (x : Nat) :
    (c.setWriter th w).writers[x]? = if x = th then some w else c.writers[x]? := by
  by_cases hx : x = th
  · subst hx
    simp [setWriter, hth]
  · simp [setWriter, hx, Ne.symm hx]

theorem Alone.lt_of_thread (h : c.Alone) (hth : c.writeThread = some th) :
    th < c.writers.length := by
  obtain ⟨w, hw, -⟩ := h.thread th hth
  exact (List.getElem?_eq_some_iff.mp hw).1

/-- The `WRITE` thread goes on. -/
theorem Alone.setWriter (h : c.Alone) (hth : c.writeThread = some th) (hw : w ≠ .ended)
    (hwriting : ∀ n r, w = .writing n r → c.nfd = some n) (hwaiting : w = .waiting → c.Free) :
    (c.setWriter th w).Alone := by
  have hget := fun x => getElem?_setWriter (w := w) (h.lt_of_thread hth) x
  constructor
  · intro x v hv hne
    rw [hget] at hv
    split at hv
    · next hx => exact hx ▸ hth
    · exact h.live x v hv hne
  · intro x hx
    obtain rfl : x = th := Option.some.inj (hx.symm.trans hth)
    exact ⟨w, by simp [hget], hw⟩
  · intro x n r hv
    rw [hget] at hv
    split at hv
    · exact hwriting n r (Option.some.inj hv)
    · exact h.writing x n r hv
  · exact h.free
  · exact h.active
  · intro x y resumes hx
    obtain ⟨⟨v, hv, hne⟩, hthread⟩ := h.joined x y resumes hx
    refine ⟨?_, hthread⟩
    rw [hget]
    split
    · exact ⟨w, rfl, fun hwait => hwaiting hwait x y resumes hx⟩
    · exact ⟨v, hv, hne⟩
  · exact h.one

theorem Alone.signal (h : c.Alone) : c.signal.Alone := by
  obtain ⟨th, hth, -, heq⟩ | ⟨-, heq⟩ := h.signal_cases
  · rw [heq]
    exact h.setWriter hth (by simp) (by simp) (by simp)
  · rwa [heq]

theorem Alone.addResponse (h : c.Alone) (response : ρ) : (c.addResponse response).Alone := by
  unfold Connection.addResponse
  simp only
  split
  · refine Alone.signal ?_
    exact ⟨h.live, h.thread, h.writing, h.free, h.active, h.joined, h.one⟩
  · exact h.signal

theorem Alone.endWriter (h : c.Alone) (hth : c.writeThread = some th)
    (hstate : c.state ≠ .active) :
    (c.endWriter th).Alone := by
  have hget := fun x => getElem?_setWriter (w := .ended) (h.lt_of_thread hth) x
  have hended : ∀ (x : Nat) (v : Writer ρ), (c.setWriter th .ended).writers[x]? = some v →
      v = .ended := by
    intro x v hv
    rw [hget] at hv
    split at hv
    · exact (Option.some.inj hv).symm
    · next hx =>
      by_contra hne
      exact hx (Option.some.inj ((h.live x v hv hne).symm.trans hth))
  constructor
  · intro x v hv hne
    exact absurd (hended x v hv) hne
  · intro x hx
    cases hx
  · intro x n r hv
    cases hended x _ hv
  · intro hnfd
    exact ⟨rfl, (h.free hnfd).2⟩
  · intro hactive
    exact absurd hactive hstate
  · intro x y resumes hx
    obtain ⟨⟨v, hv, hne⟩, -⟩ := h.joined x y resumes hx
    refine ⟨?_, fun y' hy => by cases hy⟩
    show ∃ w, (c.setWriter th .ended).writers[y]? = some w ∧ w ≠ .waiting
    rw [hget]
    split
    · exact ⟨.ended, rfl, by simp⟩
    · exact ⟨v, hv, hne⟩
  · exact h.one

/-- The `WRITE` thread runs its loop, and has a socket for what it writes. -/
theorem Alone.handleWrite (h : c.Alone) (hth : c.writeThread = some th) :
    ∃ c', c.handleWrite th = .ok c' ∧ c'.Alone := by
  unfold Connection.handleWrite
  split
  · next hactive =>
    obtain ⟨hnfd, -, hfree⟩ := h.active hactive
    split
    · exact ⟨_, rfl, h.setWriter hth (by simp) (by simp) (fun _ => hfree)⟩
    · next response rest nfd _ hn =>
      have hset := h.setWriter (w := .writing nfd response) hth (by simp) (by simp [hn]) (by simp)
      exact ⟨_, rfl, ⟨hset.live, hset.thread, hset.writing, hset.free, hset.active, hset.joined,
        hset.one⟩⟩
    · next hn => exact absurd hn hnfd
  · next hstate => exact ⟨_, rfl, h.endWriter hth hstate⟩

theorem getElem?_setCloser {closer : Closer} (x : Nat) :
    (c.setCloser k closer).closers[x]? =
      if x = k then c.closers[x]?.map fun _ => closer else c.closers[x]? := by
  by_cases hx : x = k
  · subst hx
    by_cases hlt : x < c.closers.length
    · simp [setCloser, hlt]
    · simp [setCloser, hlt]
  · simp [setCloser, hx, Ne.symm hx]

theorem Free.setCloser {closer : Closer} (h : c.Free) (hcloser : ∀ th b, closer ≠ .joining th b) :
    (c.setCloser k closer).Free := by
  intro x y b hx
  rw [getElem?_setCloser] at hx
  split at hx
  · obtain ⟨_, _, hx⟩ := Option.map_eq_some_iff.mp hx
    exact hcloser y b hx
  · exact h x y b hx

/-- The connection is closed, when its `WRITE` thread has ended. -/
theorem alone_closed (hended : ∀ (th : Nat) (w : Writer ρ), c.writers[th]? = some w → w = .ended)
    (hthread : c.writeThread = none) (hfree : c.Free)
    (hstate : resumes = false → c.state ≠ .active) : (c.closed resumes).Alone := by
  cases resumes with
  | false =>
    constructor
    · intro th w hw hne
      exact absurd (hended th w hw) hne
    · intro th hth
      rw [closed, if_neg (by simp), hthread] at hth
      cases hth
    · intro th n r hw
      cases hended th _ hw
    · intro _
      exact ⟨hthread, hfree⟩
    · intro hactive
      exact absurd hactive (hstate rfl)
    · intro x y b hx
      exact absurd hx (hfree x y b)
    · intro x x' y y' b b' hx
      exact absurd hx (hfree x y b)
  | true =>
    -- all threads but the new one have ended
    have hnew : ∀ (th : Nat) (w : Writer ρ), (c.closed true).writers[th]? = some w → w ≠ .ended →
        th = c.writers.length ∧ w = .ready := by
      intro th w hw hne
      have hwriters : (c.closed true).writers = c.writers ++ [.ready] := rfl
      rw [hwriters] at hw
      by_cases hlt : th < c.writers.length
      · rw [List.getElem?_append_left hlt] at hw
        exact absurd (hended th w hw) hne
      · rw [List.getElem?_append_right (by omega)] at hw
        cases hsub : th - c.writers.length with
        | zero =>
          simp only [hsub, List.getElem?_cons_zero, Option.some.injEq] at hw
          exact ⟨by omega, hw.symm⟩
        | succ n => simp [hsub] at hw
    have hthread' : (c.closed true).writeThread = some c.writers.length := rfl
    constructor
    · intro th w hw hne
      rw [(hnew th w hw hne).1, hthread']
    · intro th hth
      cases hthread'.symm.trans hth
      exact ⟨.ready, by simp [closed, resumed], by simp⟩
    · intro th n r hw
      cases (hnew th _ hw (by simp)).2
    · intro hnone
      cases hnone
    · intro _
      exact ⟨by simp [closed, resumed], by simp [hthread'], hfree⟩
    · intro x y b hx
      exact absurd hx (hfree x y b)
    · intro x x' y y' b b' hx
      exact absurd hx (hfree x y b)

theorem Alone.congr (h : c.Alone) (hwriters : c'.writers = c.writers)
    (hthread : c'.writeThread = c.writeThread) (hnfd : c'.nfd = c.nfd)
    (hclosers : c'.closers = c.closers) (hstate : c'.state = .active → c.state = .active) :
    c'.Alone := by
  constructor
  · rw [hwriters, hthread]
    exact h.live
  · rw [hwriters, hthread]
    exact h.thread
  · rw [hwriters, hnfd]
    exact h.writing
  · rw [hnfd, hthread, Free, hclosers]
    exact h.free
  · rw [hnfd, hthread, Free, hclosers]
    exact fun ha => h.active (hstate ha)
  · rw [hwriters, hthread, hclosers]
    exact h.joined
  · rw [hclosers]
    exact h.one

theorem Alone.closeIo (h : c.Alone) (hfree : c.Free) (hstate : c.state ≠ .active) (k : Nat)
    (resumes : Bool) : (c.closeIo k resumes).Alone := by
  have hread : Alone { c with readThread := false } := h.congr rfl rfl rfl rfl (fun ha => ha)
  unfold Connection.closeIo
  simp only
  split
  · next hnone =>
    refine alone_closed (hread.ended hnone) hnone ?_ (fun _ => hstate)
    exact Free.setCloser (c := { c with readThread := false }) hfree (by simp)
  · next th hth =>
    have hsignal := hread.signal
    -- the `WRITE` thread is awake
    have hawake : ∃ w, (Connection.signal { c with readThread := false }).writers[th]? = some w ∧
        w ≠ .waiting := by
      obtain ⟨x, hx, -, heq⟩ | ⟨hnone, heq⟩ := hread.signal_cases
      · obtain rfl : x = th := Option.some.inj (hx.symm.trans hth)
        rw [heq, getElem?_setWriter (hread.lt_of_thread hx)]
        exact ⟨.ready, by simp, by simp⟩
      · obtain ⟨w, hw, -⟩ := hread.thread th hth
        rw [heq]
        exact ⟨w, hw, fun hwait => hnone th (hwait ▸ hw)⟩
    generalize hd : Connection.signal { c with readThread := false } = d at hsignal hawake
    have hclosers : d.closers = c.closers := by
      subst hd
      rfl
    have hdthread : d.writeThread = some th := by
      subst hd
      exact hth
    have hdstate : d.state ≠ .active := by
      subst hd
      exact hstate
    have hdfree : d.Free := by
      unfold Free
      rw [hclosers]
      exact hfree
    have hnotJoined : d.isJoined th = false := by
      unfold isJoined
      rw [List.any_eq_false]
      intro closer hcloser
      obtain ⟨x, hx⟩ := List.getElem?_of_mem hcloser
      cases closer with
      | joining y b => exact absurd hx (hdfree x y b)
      | sleeping => simp
      | done => simp
    rw [hnotJoined, if_neg (by simp)]
    have hjoin : ∀ (x y : Nat) (b : Bool),
        (d.setCloser k (.joining th resumes)).closers[x]? = some (.joining y b) →
        x = k ∧ y = th := by
      intro x y b hx
      rw [getElem?_setCloser] at hx
      split at hx
      · next hxk =>
        obtain ⟨_, _, hx⟩ := Option.map_eq_some_iff.mp hx
        cases hx
        exact ⟨hxk, rfl⟩
      · exact absurd hx (hdfree x y b)
    constructor
    · exact hsignal.live
    · exact hsignal.thread
    · exact hsignal.writing
    · intro hnone
      have hthread := (hsignal.free hnone).1
      rw [hdthread] at hthread
      cases hthread
    · intro hactive
      exact absurd hactive hdstate
    · intro x y b hx
      obtain ⟨-, rfl⟩ := hjoin x y b hx
      exact ⟨hawake, fun th' hth' => Option.some.inj (hth'.symm.trans hdthread)⟩
    · intro x x' y y' b b' hx hx'
      exact (hjoin x y b hx).1.trans (hjoin x' y' b' hx').1.symm

theorem Alone.pushCloser {closer : Closer} (h : c.Alone)
    (hcloser : ∀ th b, closer ≠ .joining th b) :
    Alone { c with closers := c.closers ++ [closer] } := by
  have hold : ∀ (x y : Nat) (b : Bool), (c.closers ++ [closer])[x]? = some (.joining y b) →
      c.closers[x]? = some (.joining y b) := by
    intro x y b hx
    by_cases hlt : x < c.closers.length
    · rwa [List.getElem?_append_left hlt] at hx
    · rw [List.getElem?_append_right (by omega)] at hx
      cases hsub : x - c.closers.length with
      | zero =>
        rw [hsub, List.getElem?_cons_zero] at hx
        exact absurd (Option.some.inj hx) (hcloser y b)
      | succ n => simp [hsub] at hx
  have hfree : c.Free → Free { c with closers := c.closers ++ [closer] } := by
    intro hf x y b hx
    exact hf x y b (hold x y b hx)
  constructor
  · exact h.live
  · exact h.thread
  · exact h.writing
  · intro hnfd
    exact ⟨(h.free hnfd).1, hfree (h.free hnfd).2⟩
  · intro ha
    exact ⟨(h.active ha).1, (h.active ha).2.1, hfree (h.active ha).2.2⟩
  · intro x y b hx
    exact h.joined x y b (hold x y b hx)
  · intro x x' y y' b b' hx hx'
    exact h.one x x' y y' b b' (hold x y b hx) (hold x' y' b' hx')

theorem Free.pushCloser (h : c.Free) : Free { c with closers := c.closers ++ [.done] } := by
  intro x y b hx
  by_cases hlt : x < c.closers.length
  · exact h x y b (by rwa [List.getElem?_append_left hlt] at hx)
  · rw [List.getElem?_append_right (by omega)] at hx
    cases hsub : x - c.closers.length <;> simp [hsub] at hx

theorem Alone.close (h : c.Alone) (hfree : c.Free) (hstate : c.state ≠ .active) (resumes : Bool) :
    (c.close resumes).Alone :=
  Alone.closeIo (h.pushCloser (by simp)) hfree.pushCloser hstate _ resumes

theorem Alone.setState (h : c.Alone) {state : SessionState} (hstate : state ≠ .active) :
    Alone { c with state } :=
  h.congr rfl rfl rfl rfl fun ha => absurd ha hstate

/-- What follows the join. -/
theorem Alone.joinedIo (h : c.Alone) {th : Nat} (hk : c.closers[k]? = some (.joining th resumes))
    (hth : c.writers[th]? = some .ended) : ((c.setCloser k .done).closed resumes).Alone := by
  have hnone : c.writeThread = none := by
    cases hthread : c.writeThread with
    | none => rfl
    | some th' =>
      obtain rfl := (h.joined k th resumes hk).2 th' hthread
      obtain ⟨w, hw, hne⟩ := h.thread th' hthread
      exact absurd (Option.some.inj (hw.symm.trans hth)) hne
  refine alone_closed (h.ended hnone) hnone ?_ ?_
  · intro x y b hx
    rw [getElem?_setCloser] at hx
    split at hx
    · obtain ⟨_, _, hx⟩ := Option.map_eq_some_iff.mp hx
      cases hx
    · next hne => exact hne (h.one x k y th b resumes hx hk)
  · intro _ hactive
    exact (h.active hactive).2.2 k th resumes hk

/-- A `WRITE` thread that has not ended is the session's. -/
theorem Alone.thread_of (h : c.Alone) (hw : c.writers[th]? = some w) (hne : w ≠ .ended) :
    c.writeThread = some th := h.live th w hw hne

theorem Alone.step (h : c.Alone) (he : c.Exclusive e) (hs : c.step text e = .ok c') : c'.Alone := by
  cases e with
  | add response =>
    cases hs
    exact h.addResponse response
  | write th =>
    simp only [Connection.step] at hs
    split at hs
    · next hw =>
      obtain ⟨d, hd, halone⟩ := h.handleWrite (h.thread_of hw (by simp))
      rwa [← Except.ok.inj (hd.symm.trans hs)]
    · cases hs
  | written th =>
    simp only [Connection.step] at hs
    split at hs
    · next nfd response hw =>
      split at hs
      · cases hs
      · cases hs
        refine Alone.setWriter ?_ (h.thread_of hw (by simp)) (by simp) (by simp) (by simp)
        exact h.congr rfl rfl rfl rfl fun ha => ha
    · cases hs
  | writeFailed th n =>
    simp only [Connection.step] at hs
    split at hs
    · next nfd response hw =>
      split at hs
      · have hsent : (c.brokenOff nfd ((text response).take n)).Alone :=
          h.congr rfl rfl rfl rfl fun ha => ha
        obtain ⟨d, hd, halone⟩ := hsent.handleWrite (h.thread_of hw (by simp))
        rwa [← Except.ok.inj (hd.symm.trans hs)]
      · cases hs
    · cases hs
  | marked =>
    cases hs
    exact h.setState (by simp)
  | disconnected =>
    cases hs
    have hclosing : Alone { c with state := .disconnect } := h.setState (by simp)
    exact hclosing.close he (by simp) false
  | shutdown =>
    cases hs
    have hclosing : Alone { c with state := .shutdown } := h.setState (by simp)
    unfold handleShutdown
    split
    · exact hclosing.close he (by simp) false
    · exact hclosing
  | resume =>
    cases hs
    have hclosing : Alone { c with state := .disconnect } := h.setState (by simp)
    unfold resumeConnection
    split
    · simp only
      split
      · exact hclosing.pushCloser (by simp)
      · exact hclosing.close he (by simp) true
    · next hnfd =>
      obtain ⟨hnone, hfree⟩ := h.free (by simpa using hnfd)
      have hclosed : (c.closed true).Alone := alone_closed (h.ended hnone) hnone hfree (by simp)
      exact hclosed.congr rfl rfl rfl rfl fun ha => ha
  | slept k =>
    simp only [Connection.step] at hs
    split at hs
    · cases hs
      exact h.closeIo he.1 he.2 k true
    · cases hs
  | joined k =>
    simp only [Connection.step] at hs
    split at hs
    · next th resumes hk =>
      split at hs
      · next hw =>
        cases hs
        exact h.joinedIo hk hw
      · cases hs
    · cases hs

/-- Nothing is written to a connection that is closed. -/
theorem Alone.not_crashed (h : c.Alone) (fault : Fault) :
    c.step text e ≠ .error (.crashed fault) := by
  intro hs
  cases e with
  | write th =>
    simp only [Connection.step] at hs
    split at hs
    · next hw =>
      obtain ⟨d, hd, -⟩ := h.handleWrite (h.thread_of hw (by simp))
      cases hd.symm.trans hs
    · cases hs
  | writeFailed th n =>
    simp only [Connection.step] at hs
    split at hs
    · next nfd response hw =>
      split at hs
      · have hsent : (c.brokenOff nfd ((text response).take n)).Alone :=
          h.congr rfl rfl rfl rfl fun ha => ha
        obtain ⟨d, hd, -⟩ := hsent.handleWrite (h.thread_of hw (by simp))
        cases hd.symm.trans hs
      · cases hs
    · cases hs
  | written th =>
    simp only [Connection.step] at hs
    split at hs
    · split at hs <;> cases hs
    · cases hs
  | slept k =>
    simp only [Connection.step] at hs
    split at hs <;> cases hs
  | joined k =>
    simp only [Connection.step] at hs
    split at hs
    · split at hs <;> cases hs
    · cases hs
  | _ => cases hs

end Connection

end HoxServer
