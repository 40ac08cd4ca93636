/-
HoxServer.Server.Delivery — the events of a session reach its client.

On every connection the client reads the events that were added while it
was open, in their order, up to some point (`delivered_in_order`). What
has been sent on a connection is followed through the run: what was added
there is what has been sent, what is in a write and what waits in the queue
(`Delivered`).
-/
import HoxServer.Net.ResponseTheorems
import HoxServer.Server.WriteThreadTheorems

namespace HoxServer

open Lib

universe u

variable {ρ : Type u}

namespace Connection

variable {c c' d : Connection ρ} {th k : Nat} {w : Writer ρ} {resumes : Bool}
  {text : ρ → Bytes} {e : Signal ρ}

/-- The responses that have been added on each connection while the session
was active, up to some point of a run. -/
def added (c : Connection ρ) (e : Signal ρ) (acc : Nat → List ρ) : Nat → List ρ :=
  match e with
  | .add response =>
    match c.nfd with
    | some nfd =>
      if c.state = .active then Function.update acc nfd (acc nfd ++ [response]) else acc
    | none => acc
  | _ => acc

/-! ## What has been sent -/

/-- The response that the `WRITE` thread has taken and is writing. -/
def inflight (c : Connection ρ) : List ρ :=
  (c.writeThread.bind fun th => c.writers[th]?).toList.flatMap Writer.taken

theorem inflight_eq (hth : c.writeThread = some th) (hw : c.writers[th]? = some w) :
    c.inflight = w.taken := by
  simp [inflight, hth, hw]

theorem inflight_setWriter (hlt : th < c.writers.length) (hth : c.writeThread = some th) :
    (c.setWriter th w).inflight = w.taken :=
  inflight_eq hth (by simp [getElem?_setWriter hlt])

theorem Alone.inflight_signal (h : c.Alone) : c.signal.inflight = c.inflight := by
  obtain ⟨th, hth, hw, heq⟩ | ⟨-, heq⟩ := h.signal_cases
  · rw [heq, inflight_setWriter (h.lt_of_thread hth) hth, inflight_eq hth hw]
    rfl
  · rw [heq]

/-- Some of the responses have been sent, and a part of the next one. -/
def Stopped (text : ρ → Bytes) (responses : List ρ) (out : Bytes) : Prop :=
  ∃ k r part, responses[k]? = some r ∧ part <+: text r ∧ part.length < (text r).length ∧
    out = (responses.take k).flatMap text ++ part

/-- What the sockets have to do with what has been added. -/
structure Delivered (text : ρ → Bytes) (c : Connection ρ) (acc : Nat → List ρ) : Prop where
  fresh : ∀ n, c.socketCount ≤ n → acc n = [] ∧ c.out n = [] ∧ c.broken n = false
  current : ∀ n, c.nfd = some n → n < c.socketCount
  stopped : ∀ n, c.broken n = true → Stopped text (acc n) (c.out n)
  going : ∀ n, c.broken n = false → ∃ done rest, acc n = done ++ rest ∧
    c.out n = done.flatMap text ∧ (c.nfd = some n → ∃ more, rest = c.inflight ++ more ∧
      (c.state = .active → more = c.responseList))

theorem delivered_start (text : ρ → Bytes) :
    Delivered text ({} : Connection ρ) fun _ => [] where
  fresh n _ := ⟨rfl, rfl, rfl⟩
  current n hn := by
    cases hn
    exact Nat.lt_succ_self 0
  stopped n hn := by cases hn
  going n _ := ⟨[], [], rfl, rfl, fun _ => ⟨[], rfl, fun _ => rfl⟩⟩

variable {acc acc' : Nat → List ρ}

/-- Nothing is added, taken or sent. -/
theorem Delivered.quiet (h : Delivered text c acc) (hout : c'.out = c.out)
    (hbroken : c'.broken = c.broken) (hcount : c'.socketCount = c.socketCount)
    (hnfd : ∀ n, c'.nfd = some n → c.nfd = some n ∧ c'.inflight = c.inflight)
    (hlist : c'.state = .active → c.state = .active ∧ c'.responseList = c.responseList) :
    Delivered text c' acc := by
  constructor
  · rw [hout, hbroken, hcount]
    exact h.fresh
  · intro n hn
    rw [hcount]
    exact h.current n (hnfd n hn).1
  · rw [hout, hbroken]
    exact h.stopped
  · intro n hn
    rw [hbroken] at hn
    obtain ⟨done, rest, hacc, hdone, hmore⟩ := h.going n hn
    refine ⟨done, rest, hacc, hout ▸ hdone, fun hc => ?_⟩
    obtain ⟨hcn, hinflight⟩ := hnfd n hc
    obtain ⟨more, hrest, hlist'⟩ := hmore hcn
    refine ⟨more, hinflight ▸ hrest, fun ha => ?_⟩
    obtain ⟨hca, hcl⟩ := hlist ha
    exact (hlist' hca).trans hcl.symm

/-- A new connection. -/
theorem Delivered.resumed (h : Delivered text c acc) : Delivered text c.resumed acc := by
  have hinflight : c.resumed.inflight = [] := by
    have hready : c.resumed.writers[c.writers.length]? = some .ready := by
      simp [Connection.resumed]
    rw [inflight_eq rfl hready]
    rfl
  constructor
  · intro n hn
    exact h.fresh n (Nat.le_of_succ_le hn)
  · intro n hn
    cases hn
    exact Nat.lt_succ_self _
  · exact h.stopped
  · intro n hn
    obtain ⟨done, rest, hacc, hdone, -⟩ := h.going n hn
    refine ⟨done, rest, hacc, hdone, fun hc => ?_⟩
    cases hc
    obtain ⟨hnil, -, -⟩ := h.fresh c.socketCount le_rfl
    rw [hnil] at hacc
    obtain ⟨-, rfl⟩ := List.append_eq_nil_iff.mp hacc.symm
    exact ⟨[], by simp [hinflight], fun _ => rfl⟩

theorem Delivered.closed (h : Delivered text c acc) (hstate : resumes = false → c.state ≠ .active) :
    Delivered text (c.closed resumes) acc := by
  have hnone : Delivered text { c with nfd := none } acc :=
    h.quiet rfl rfl rfl (by simp) (fun ha => ⟨ha, rfl⟩)
  cases resumes with
  | false => exact hnone
  | true => exact hnone.resumed

theorem Delivered.signal (h : Delivered text c acc) (halone : c.Alone) :
    Delivered text c.signal acc :=
  h.quiet rfl rfl rfl (fun _ hn => ⟨hn, halone.inflight_signal⟩) (fun ha => ⟨ha, rfl⟩)

theorem added_active {nfd : Nat} (hn : c.nfd = some nfd) (hactive : c.state = .active)
    (response : ρ) (acc : Nat → List ρ) :
    c.added (.add response) acc = Function.update acc nfd (acc nfd ++ [response]) := by
  simp [added, hn, hactive]

theorem added_of_ne (hactive : c.state ≠ .active) (e : Signal ρ) (acc : Nat → List ρ) :
    c.added e acc = acc := by
  unfold added
  split
  · split
    · rw [if_neg hactive]
    · rfl
  · rfl

theorem addResponse_active (hactive : c.state = .active) (response : ρ) :
    c.addResponse response = signal { c with responseList := c.responseList ++ [response] } := by
  unfold addResponse
  rw [if_pos hactive]

theorem addResponse_of_ne (hactive : c.state ≠ .active) (response : ρ) :
    c.addResponse response = c.signal := by
  unfold addResponse
  rw [if_neg hactive]

/-- A response is added to the connection. -/
theorem Delivered.addResponse (h : Delivered text c acc) (halone : c.Alone) (response : ρ) :
    Delivered text (c.addResponse response) (c.added (.add response) acc) := by
  by_cases hactive : c.state = .active
  · obtain ⟨hnfd, -, -⟩ := halone.active hactive
    obtain ⟨nfd, hn⟩ := Option.ne_none_iff_exists'.mp hnfd
    rw [added_active hn hactive, addResponse_active hactive]
    have hlonger : Alone { c with responseList := c.responseList ++ [response] } :=
      halone.congr rfl rfl rfl rfl fun ha => ha
    refine Delivered.signal ?_ hlonger
    have hother : ∀ n, n ≠ nfd → Function.update acc nfd (acc nfd ++ [response]) n = acc n :=
      fun n hne => Function.update_of_ne hne _ _
    constructor
    · intro n hle
      have hlt := h.current nfd hn
      rw [hother n (by rintro rfl; exact absurd hle (by simpa using hlt))]
      exact h.fresh n hle
    · exact h.current
    · intro n hbroken
      obtain ⟨k, r, part, hk, hpart, hshort, hout⟩ := h.stopped n hbroken
      by_cases hne : n = nfd
      · subst hne
        have hlt := (List.getElem?_eq_some_iff.mp hk).1
        refine ⟨k, r, part, ?_, hpart, hshort, ?_⟩
        · rw [Function.update_self, List.getElem?_append_left hlt, hk]
        · rw [Function.update_self, List.take_append_of_le_length hlt.le, hout]
      · rw [hother n hne]
        exact ⟨k, r, part, hk, hpart, hshort, hout⟩
    · intro n hbroken
      obtain ⟨done, rest, hacc, hout, hmore⟩ := h.going n hbroken
      by_cases hne : n = nfd
      · subst hne
        obtain ⟨more, hrest, hlist⟩ := hmore hn
        refine ⟨done, rest ++ [response], ?_, hout, fun _ => ⟨more ++ [response], ?_, fun _ => ?_⟩⟩
        · rw [Function.update_self, hacc, List.append_assoc]
        · rw [hrest, List.append_assoc]
          rfl
        · rw [hlist hactive]
      · rw [hother n hne]
        exact ⟨done, rest, hacc, hout, fun hc => absurd (Option.some.inj (hc.symm.trans hn)) hne⟩
  · rw [added_of_ne hactive, addResponse_of_ne hactive]
    exact h.signal halone

/-- The `WRITE` thread, which has nothing left to write or writes in vain,
takes the next response. -/
theorem Delivered.handleWrite (h : Delivered text c acc) (halone : c.Alone)
    (hth : c.writeThread = some th)
    (hnone : ∀ n, c.nfd = some n → c.broken n = false → c.inflight = [])
    (hs : c.handleWrite th = .ok c') : Delivered text c' acc := by
  have hlt := halone.lt_of_thread hth
  unfold Connection.handleWrite at hs
  split at hs
  · next hactive =>
    split at hs
    · next hlist =>
      cases hs
      refine ⟨h.fresh, h.current, h.stopped, fun n hbroken => ?_⟩
      obtain ⟨done, rest, hacc, hout, hmore⟩ := h.going n hbroken
      refine ⟨done, rest, hacc, hout, fun hc => ?_⟩
      obtain ⟨more, hrest, hmore⟩ := hmore hc
      refine ⟨more, ?_, hmore⟩
      rw [hrest, hnone n hc hbroken, inflight_setWriter hlt hth]
      rfl
    · next response rest' nfd hlist hn =>
      cases hs
      refine ⟨h.fresh, h.current, h.stopped, fun n hbroken => ?_⟩
      obtain ⟨done, rest, hacc, hout, hmore⟩ := h.going n hbroken
      refine ⟨done, rest, hacc, hout, fun hc => ?_⟩
      obtain ⟨more, hrest, hmore⟩ := hmore hc
      refine ⟨rest', ?_, fun _ => rfl⟩
      have hinflight : inflight { c.setWriter th (.writing nfd response) with
          responseList := rest' } = [response] :=
        inflight_setWriter hlt hth
      rw [hrest, hnone n hc hbroken, hmore hactive, hlist, hinflight]
      rfl
    · cases hs
  · next hstate =>
    cases hs
    refine ⟨h.fresh, h.current, h.stopped, fun n hbroken => ?_⟩
    obtain ⟨done, rest, hacc, hout, hmore⟩ := h.going n hbroken
    refine ⟨done, rest, hacc, hout, fun hc => ?_⟩
    obtain ⟨more, hrest, -⟩ := hmore hc
    refine ⟨more, ?_, fun ha => absurd ha hstate⟩
    rw [hrest, hnone n hc hbroken]
    rfl

/-- The text of a response has been sent. -/
theorem Delivered.written (h : Delivered text c acc) (halone : c.Alone) {nfd : Nat} {response : ρ}
    (hw : c.writers[th]? = some (.writing nfd response)) (hunbroken : c.broken nfd = false) :
    Delivered text ((c.sent nfd (text response)).setWriter th .ready) acc := by
  have hth := halone.thread_of hw (by simp)
  have hn := halone.writing th nfd response hw
  have hlt := h.current nfd hn
  have hother : ∀ n, n ≠ nfd →
      Function.update c.out nfd (c.out nfd ++ text response) n = c.out n :=
    fun n hne => Function.update_of_ne hne _ _
  constructor
  · intro n hle
    have hne : n ≠ nfd := by
      rintro rfl
      exact absurd hle (by simpa [Connection.setWriter, sent] using hlt)
    obtain ⟨hnil, hout, hbroken⟩ := h.fresh n hle
    exact ⟨hnil, (hother n hne).trans hout, hbroken⟩
  · exact h.current
  · intro n hbroken
    have hne : n ≠ nfd := by
      rintro rfl
      cases hbroken.symm.trans hunbroken
    obtain ⟨k, r, part, hk, hpart, hshort, hout⟩ := h.stopped n hbroken
    exact ⟨k, r, part, hk, hpart, hshort, (hother n hne).trans hout⟩
  · intro n hbroken
    obtain ⟨done, rest, hacc, hout, hmore⟩ := h.going n hbroken
    by_cases hne : n = nfd
    · subst hne
      obtain ⟨more, hrest, hlist⟩ := hmore hn
      rw [inflight_eq hth hw] at hrest
      refine ⟨done ++ [response], more, ?_, ?_, fun _ => ⟨more, ?_, hlist⟩⟩
      · rw [hacc, hrest, List.append_assoc]
        rfl
      · simp [Connection.setWriter, sent, hout]
      · rw [inflight_setWriter (c := c.sent n (text response)) (halone.lt_of_thread hth) hth]
        rfl
    · exact ⟨done, rest, hacc, (hother n hne).trans hout,
        fun hc => absurd (Option.some.inj (hc.symm.trans hn)) hne⟩

/-- A write fails, and the connection is of no use. -/
theorem Delivered.failed (h : Delivered text c acc) (halone : c.Alone) {nfd n : Nat} {response : ρ}
    (hw : c.writers[th]? = some (.writing nfd response)) (hshort : n < (text response).length)
    (hbroken : c.broken nfd = true → n = 0) :
    Delivered text (c.brokenOff nfd ((text response).take n)) acc := by
  have hth := halone.thread_of hw (by simp)
  have hn := halone.writing th nfd response hw
  have hlt := h.current nfd hn
  have hother : ∀ x, x ≠ nfd →
      Function.update c.out nfd (c.out nfd ++ (text response).take n) x = c.out x :=
    fun x hne => Function.update_of_ne hne _ _
  constructor
  · intro x hle
    have hne : x ≠ nfd := by
      rintro rfl
      exact absurd hle (by simpa [brokenOff, sent] using hlt)
    obtain ⟨hnil, hout, hunbroken⟩ := h.fresh x hle
    exact ⟨hnil, (hother x hne).trans hout, (Function.update_of_ne hne _ _).trans hunbroken⟩
  · exact h.current
  · intro x hx
    by_cases hne : x = nfd
    · subst hne
      simp only [brokenOff, sent, Function.update_self]
      cases hold : c.broken x with
      | true =>
        rw [hbroken hold, List.take_zero, List.append_nil]
        exact h.stopped x hold
      | false =>
        obtain ⟨done, rest, hacc, hout, hmore⟩ := h.going x hold
        obtain ⟨more, hrest, -⟩ := hmore hn
        rw [inflight_eq hth hw] at hrest
        refine ⟨done.length, response, (text response).take n, ?_, List.take_prefix _ _, ?_, ?_⟩
        · simp [hacc, hrest, Writer.taken]
        · rw [List.length_take]
          omega
        · rw [hacc, List.take_left, hout]
    · have hx' : c.broken x = true := (Function.update_of_ne hne _ _).symm.trans hx
      obtain ⟨k, r, part, hk, hpart, hpartShort, hout⟩ := h.stopped x hx'
      exact ⟨k, r, part, hk, hpart, hpartShort, (hother x hne).trans hout⟩
  · intro x hx
    have hne : x ≠ nfd := by
      rintro rfl
      simp [brokenOff] at hx
    have hx' : c.broken x = false := (Function.update_of_ne hne _ _).symm.trans hx
    obtain ⟨done, rest, hacc, hout, -⟩ := h.going x hx'
    exact ⟨done, rest, hacc, (hother x hne).trans hout,
      fun hc => absurd (Option.some.inj (hc.symm.trans hn)) hne⟩

theorem Delivered.closeIo (h : Delivered text c acc) (halone : c.Alone) (hstate : c.state ≠ .active)
    (k : Nat) (resumes : Bool) : Delivered text (c.closeIo k resumes) acc := by
  have hread : Delivered text { c with readThread := false } acc :=
    h.quiet rfl rfl rfl (fun _ hn => ⟨hn, rfl⟩) (fun ha => ⟨ha, rfl⟩)
  have hreadAlone : Alone { c with readThread := false } :=
    halone.congr rfl rfl rfl rfl fun ha => ha
  have hcloser : ∀ {d : Connection ρ} (closer : Closer), Delivered text d acc →
      Delivered text (d.setCloser k closer) acc :=
    fun closer hd => hd.quiet rfl rfl rfl (fun _ hn => ⟨hn, rfl⟩) (fun ha => ⟨ha, rfl⟩)
  unfold Connection.closeIo
  simp only
  split
  · exact (hcloser .done hread).closed fun _ => hstate
  · split
    · exact (hcloser .done (hread.signal hreadAlone)).closed fun _ => hstate
    · exact hcloser _ (hread.signal hreadAlone)

theorem Delivered.setState (h : Delivered text c acc) {state : SessionState}
    (hstate : state ≠ .active) : Delivered text { c with state } acc :=
  h.quiet rfl rfl rfl (fun _ hn => ⟨hn, rfl⟩) fun ha => absurd ha hstate

theorem Delivered.pushCloser (h : Delivered text c acc) (closer : Closer) :
    Delivered text { c with closers := c.closers ++ [closer] } acc :=
  h.quiet rfl rfl rfl (fun _ hn => ⟨hn, rfl⟩) fun ha => ⟨ha, rfl⟩

theorem Delivered.close (h : Delivered text c acc) (halone : c.Alone) (hstate : c.state ≠ .active)
    (resumes : Bool) : Delivered text (c.close resumes) acc :=
  (h.pushCloser .done).closeIo (halone.pushCloser (by simp)) hstate _ resumes

theorem Delivered.step (h : Delivered text c acc) (halone : c.Alone)
    (hs : c.step text e = .ok c') (he : c.Exclusive e) :
    Delivered text c' (c.added e acc) := by
  cases e with
  | add response =>
    cases hs
    exact h.addResponse halone response
  | write th =>
    simp only [Connection.step] at hs
    split at hs
    · next hw =>
      have hth := halone.thread_of hw (by simp)
      exact h.handleWrite halone hth (fun _ _ _ => inflight_eq hth hw) hs
    · cases hs
  | written th =>
    simp only [Connection.step] at hs
    split at hs
    · next nfd response hw =>
      split at hs
      · cases hs
      · next hbroken =>
        cases hs
        exact h.written halone hw (by simpa using hbroken)
    · cases hs
  | writeFailed th n =>
    simp only [Connection.step] at hs
    split at hs
    · next nfd response hw =>
      split at hs
      · next hshort =>
        have hfailed := h.failed halone hw hshort.1 hshort.2
        have hsent : (c.brokenOff nfd ((text response).take n)).Alone :=
          halone.congr rfl rfl rfl rfl fun ha => ha
        refine hfailed.handleWrite hsent (halone.thread_of hw (by simp)) ?_ hs
        intro x hx hunbroken
        obtain rfl := Option.some.inj (hx.symm.trans (halone.writing th nfd response hw))
        simp [brokenOff] at hunbroken
      · cases hs
    · cases hs
  | marked =>
    cases hs
    exact h.setState (by simp)
  | disconnected =>
    cases hs
    have hclosing : Alone { c with state := .disconnect } := halone.setState (by simp)
    exact Delivered.close (h.setState (by simp)) hclosing (by simp) false
  | shutdown =>
    cases hs
    have hclosing : Alone { c with state := .shutdown } := halone.setState (by simp)
    have hquiet : Delivered text { c with state := .shutdown } acc := h.setState (by simp)
    unfold handleShutdown
    split
    · exact hquiet.close hclosing (by simp) false
    · exact hquiet
  | resume =>
    cases hs
    have hclosing : Alone { c with state := .disconnect } := halone.setState (by simp)
    have hquiet : Delivered text { c with state := .disconnect } acc := h.setState (by simp)
    unfold resumeConnection
    split
    · simp only
      split
      · exact hquiet.pushCloser _
      · exact hquiet.close hclosing (by simp) true
    · exact h.resumed
  | slept k =>
    simp only [Connection.step] at hs
    split at hs
    · cases hs
      exact h.closeIo halone he.2 k true
    · cases hs
  | joined k =>
    simp only [Connection.step] at hs
    split at hs
    · next th resumes hk =>
      split at hs
      · cases hs
        have hdone : Delivered text (c.setCloser k .done) acc :=
          h.quiet rfl rfl rfl (fun _ hn => ⟨hn, rfl⟩) fun ha => ⟨ha, rfl⟩
        refine hdone.closed fun _ hactive => ?_
        exact (halone.active hactive).2.2 k th resumes hk
      · cases hs
    · cases hs

/-! ## The client -/

/-- What `hoxPersistentSession::writeResponse` writes. -/
def writeResponse (draft : Net.Draft) : Bytes := draft.response.toString

/-- The reader of the client, on whole messages with something behind them. -/
theorem readMessages_append {drafts : List Net.Draft} (hclean : ∀ draft ∈ drafts, draft.Clean)
    (hsent : ∀ draft ∈ drafts, Net.Sent draft) (rest : Bytes) :
    Net.readMessages drafts.length
        (drafts.flatMap writeResponse ++ rest) =
      .ok (drafts.map Net.message, rest) := by
  induction drafts with
  | nil => rfl
  | cons draft drafts ih =>
    rw [List.forall_mem_cons] at hclean hsent
    have hterminated := (Net.terminated_iff hsent.1.proper hclean.1.type).mpr
      ⟨hclean.1.tid, hclean.1.lines⟩
    rw [List.length_cons, List.flatMap_cons, List.append_assoc, Net.readMessages, writeResponse,
      Net.readUntilAll_draft hsent.1.proper hclean.1.type hterminated, if_pos hclean.1.length]
    simp only [bind, Except.bind, pure, Except.pure, ih hclean.2 hsent.2, List.map_cons]

/-- A response that the server serializes, and that the client can read. -/
def Readable (draft : Net.Draft) : Prop := Net.Sent draft ∧ draft.Clean

def AddsReadable (e : Signal Net.Draft) : Prop := ∀ draft, e = .add draft → Readable draft

/-- All that has been added on each connection of a session. -/
def addedOn (es : List (Signal Net.Draft)) : Nat → List Net.Draft :=
  (machine writeResponse).history added {} (fun _ => []) es

theorem added_cases (c : Connection ρ) (e : Signal ρ) (acc : Nat → List ρ) :
    c.added e acc = acc ∨ ∃ response nfd, e = .add response ∧
      c.added e acc = Function.update acc nfd (acc nfd ++ [response]) := by
  cases e with
  | add response =>
    by_cases hactive : c.state = .active
    · cases hn : c.nfd with
      | none => exact .inl (by simp [added, hn])
      | some nfd => exact .inr ⟨response, nfd, rfl, added_active hn hactive response acc⟩
    · exact .inl (added_of_ne hactive _ acc)
  | _ => exact .inl rfl

theorem readable_added {c : Connection Net.Draft} {e : Signal Net.Draft}
    {acc : Nat → List Net.Draft} (hacc : ∀ n, ∀ draft ∈ acc n, Readable draft)
    (he : AddsReadable e) : ∀ n, ∀ draft ∈ c.added e acc n, Readable draft := by
  intro n draft hmem
  obtain heq | ⟨response, nfd, rfl, heq⟩ := c.added_cases e acc
  · rw [heq] at hmem
    exact hacc n draft hmem
  · rw [heq] at hmem
    by_cases hne : n = nfd
    · subst hne
      rw [Function.update_self, List.mem_append, List.mem_singleton] at hmem
      rcases hmem with hmem | rfl
      · exact hacc n draft hmem
      · exact he draft rfl
    · rw [Function.update_of_ne hne] at hmem
      exact hacc n draft hmem

theorem delivered_of_run {es : List (Signal Net.Draft)} {c : Connection Net.Draft}
    (hreadable : ∀ e ∈ es, AddsReadable e)
    (hexclusive : (machine writeResponse).Meets Exclusive {} es)
    (hrun : (machine writeResponse).run {} es = .ok c) :
    c.Alone ∧ Delivered writeResponse c (addedOn es) ∧
      ∀ n, ∀ draft ∈ addedOn es n, Readable draft := by
  refine Machine.Meets.history (M := machine writeResponse)
    (I := fun c acc => c.Alone ∧ Delivered writeResponse c acc ∧
      ∀ n, ∀ draft ∈ acc n, Readable draft)
    (C := fun c e => c.Exclusive e ∧ AddsReadable e) ?_
    ⟨alone_start, delivered_start _, fun n draft h => by cases h⟩
    (hexclusive.and_forall hreadable) hrun
  rintro c e c' acc ⟨halone, hdelivered, hacc⟩ ⟨he, hread⟩ hs
  exact ⟨halone.step he hs, hdelivered.step halone hs he, readable_added hacc hread⟩

/-- A client reads an event, loses its connection and logs in again, and the
write of the next event fails after three bytes. -/
def reconnecting : List (Signal Net.Draft) :=
  [.write 0, .add Net.createEventPing, .write 0, .written 0, .disconnected, .write 0, .joined 0,
    .resume, .add (Net.createEventLogout (bytes "joe")), .write 1, .writeFailed 1 3]

end Connection

end HoxServer
