/-
HoxServer.Lib.SharedChannel — one connection to a server that many threads
use, each for a whole call under a lock.

The server reads what it is sent character by character, and may answer
after each. A call sends its request, and then reads until it is done. In
between the other threads run: they queue for the lock, and the server
runs at its own pace, or dies.

A call is `Balanced` in a state of the server when the server answers
nothing before it has read the whole request, and the call is done exactly
when it has read the whole answer. A `Protocol` says of which calls, in
which states, this holds.

* `serial_of_run` — if every call is one of them when it gets the lock,
  then any run comes to the same as the calls made one after the other, in
  the order in which they were asked for: each returns what it makes of
  the answer to its own request, or, once the server is gone, of a part of
  it;
* `call_ends` — a call that has the lock comes to its end.
-/
import HoxServer.Lib.Machine

namespace Lib

universe u

/-- A server that reads character by character. When it is closed it reads
no more. -/
structure Answerer (σ α β : Type u) where
  read : σ → α → σ × List β
  closed : σ → Bool
  close : σ → σ
  closed_close : ∀ s, closed (close s) = true
  close_of_closed : ∀ s, closed s = true → close s = s

/-- What a call sends, when it has read enough, and what it makes of what it
has read. -/
structure Caller (γ α β ρ : Type u) where
  request : γ → List α
  isDone : γ → List β → Bool
  value : γ → List β → ρ

variable {σ α β γ ρ τ : Type u}

namespace Answerer

variable (A : Answerer σ α β)

/-- The server reads all of this: its state then, and what it has answered. -/
def run : σ → List α → σ × List β
  | s, [] => (s, [])
  | s, a :: as =>
    if A.closed s then (s, [])
    else
      let (s', answer) := A.read s a
      let (s'', answers) := run s' as
      (s'', answer ++ answers)

@[simp] theorem run_nil (s : σ) : A.run s [] = (s, []) := rfl

variable {A}

@[simp] theorem run_of_closed {s : σ} (h : A.closed s = true) (as : List α) :
    A.run s as = (s, []) := by
  cases as with
  | nil => rfl
  | cons a as => simp [run, h]

theorem run_cons {s : σ} {a : α} (h : A.closed s = false) (as : List α) :
    A.run s (a :: as) = ((A.run (A.read s a).1 as).1,
      (A.read s a).2 ++ (A.run (A.read s a).1 as).2) := by
  simp [run, h]

theorem run_append (s : σ) (as bs : List α) :
    A.run s (as ++ bs) = ((A.run (A.run s as).1 bs).1,
      (A.run s as).2 ++ (A.run (A.run s as).1 bs).2) := by
  induction as generalizing s with
  | nil => simp
  | cons a as ih =>
    cases h : A.closed s with
    | true => simp [h]
    | false =>
      rw [List.cons_append, run_cons h, run_cons h, ih]
      simp

theorem run_concat {s : σ} {as : List α} {a : α} (h : A.closed (A.run s as).1 = false) :
    A.run s (as ++ [a]) = ((A.read (A.run s as).1 a).1,
      (A.run s as).2 ++ (A.read (A.run s as).1 a).2) := by
  rw [run_append, run_cons h]
  simp

end Answerer

/-! ## Calls one after the other -/

section

variable (A : Answerer σ α β) (C : Caller γ α β ρ)

/-- What the server answers to a call. -/
def Answerer.answer (s : σ) (c : γ) : List β := (A.run s (C.request c)).2

/-- The server and the call agree on where the request and the answer end. A
server that does not answer closes the connection. -/
structure Balanced (s : σ) (c : γ) : Prop where
  whole : ∀ sent, sent <+: C.request c → sent ≠ C.request c → (A.run s sent).2 = []
  exact : ∀ read, read <+: A.answer C s c → C.isDone c read = true → read = A.answer C s c
  start : C.isDone c [] = false
  ends : C.isDone c (A.answer C s c) = true ∨ A.closed (A.run s (C.request c)).1 = true

/-- The states in which the server waits for a request, and the calls that are
clean there. -/
structure Protocol where
  Ready : σ → Prop
  Clean : σ → γ → Prop
  ready_of_closed : ∀ s, A.closed s = true → Ready s
  balanced : ∀ s c, Ready s → Clean s c → Balanced A C s c
  next : ∀ s c, Ready s → Clean s c → Ready (A.run s (C.request c)).1

/-- Calls made one after the other, each with its value: the state of the
server before and after. It may die at any time, and then a call has read
a part of its answer at most. -/
inductive Serial (start : σ) : List (τ × γ × ρ) → σ → Prop
  | nil : Serial start [] start
  | died {log : List (τ × γ × ρ)} {s : σ} (h : Serial start log s) :
      Serial start log (A.close s)
  | answered {log : List (τ × γ × ρ)} {s : σ} (t : τ) (c : γ) (h : Serial start log s)
      (hdone : C.isDone c (A.answer C s c) = true) :
      Serial start (log ++ [(t, c, C.value c (A.answer C s c))]) (A.run s (C.request c)).1
  | failed {log : List (τ × γ × ρ)} {s : σ} (t : τ) (c : γ) (h : Serial start log s)
      {sent : List α} {read : List β} (hsent : sent <+: C.request c)
      (hread : read <+: A.answer C s c) :
      Serial start (log ++ [(t, c, C.value c read)]) (A.close (A.run s sent).1)

end

/-! ## The connection -/

/-- The call that has the lock. -/
structure Holder (τ γ α β : Type u) where
  thread : τ
  call : γ
  unsent : List α
  read : List β := []

/-- The connection with its two directions, the lock and those who wait for
it, and the calls that have returned. -/
structure Channel (σ α β γ ρ τ : Type u) where
  server : σ
  toServer : List α := []
  toClient : List β := []
  holder : Option (Holder τ γ α β) := none
  waiting : List (τ × γ) := []
  finished : List (τ × γ × ρ) := []

inductive Channel.Event (γ τ : Type u) where
  /-- A thread asks for the lock, to make a call. -/
  | call (t : τ) (c : γ)
  /-- The first one that waits gets the lock. -/
  | lock
  /-- The call sends a character more. -/
  | write
  /-- The server reads a character. -/
  | serve
  /-- The call reads a character. -/
  | read
  /-- There is nothing more to read. -/
  | readFails
  | writeFails
  | died

namespace Channel

section

variable (A : Answerer σ α β) (C : Caller γ α β ρ)

/-- The call returns, and the lock is free. -/
def finish (ch : Channel σ α β γ ρ τ) (h : Holder τ γ α β) (read : List β) :
    Channel σ α β γ ρ τ :=
  { ch with holder := none
            finished := ch.finished ++ [(h.thread, h.call, C.value h.call read)] }

def step (ch : Channel σ α β γ ρ τ) : Event γ τ → Except Unit (Channel σ α β γ ρ τ)
  | .call t c => .ok { ch with waiting := ch.waiting ++ [(t, c)] }
  | .lock =>
    match ch.holder, ch.waiting with
    | none, (t, c) :: rest =>
      .ok { ch with holder := some { thread := t, call := c, unsent := C.request c }
                    waiting := rest }
    | _, _ => .error ()
  | .write =>
    match ch.holder with
    | some { thread, call, unsent := a :: unsent, read } =>
      .ok { ch with toServer := ch.toServer ++ [a]
                    holder := some { thread, call, unsent, read } }
    | _ => .error ()
  | .serve =>
    match A.closed ch.server, ch.toServer with
    | false, a :: rest =>
      .ok { ch with server := (A.read ch.server a).1, toServer := rest
                    toClient := ch.toClient ++ (A.read ch.server a).2 }
    | _, _ => .error ()
  | .read =>
    match ch.holder, ch.toClient with
    | some { thread, call, unsent := [], read }, b :: rest =>
      let h : Holder τ γ α β := { thread, call, unsent := [], read := read ++ [b] }
      let ch := { ch with toClient := rest, holder := some h }
      .ok (if C.isDone call (read ++ [b]) then ch.finish C h (read ++ [b]) else ch)
    | _, _ => .error ()
  | .readFails =>
    match ch.holder, ch.toClient, A.closed ch.server with
    | some { thread, call, unsent := [], read }, [], true =>
      .ok (ch.finish C { thread, call, unsent := [], read } read)
    | _, _, _ => .error ()
  | .writeFails =>
    match ch.holder, A.closed ch.server with
    | some { thread, call, unsent := a :: unsent, read }, true =>
      .ok (ch.finish C { thread, call, unsent := a :: unsent, read } read)
    | _, _ => .error ()
  | .died => .ok { ch with server := A.close ch.server }

def machine : Machine (Channel σ α β γ ρ τ) (Event γ τ) Unit where
  init ch := ∃ s, ch = { server := s }
  step := step A C

variable {A C} (P : Protocol A C)

/-- The call that gets the lock is clean. -/
def Admits (ch : Channel σ α β γ ρ τ) : Event γ τ → Prop
  | .lock => ∀ t c, ch.waiting.head? = some (t, c) → P.Clean ch.server c
  | _ => True

/-- What a call that has the lock has done. -/
structure Going (start : σ) (ch : Channel σ α β γ ρ τ) (h : Holder τ γ α β) (s : σ)
    (sent : List α) : Prop where
  serial : Serial A C start ch.finished s
  balanced : Balanced A C s h.call
  next : P.Ready (A.run s (C.request h.call)).1
  server : ch.server = (A.run s sent).1 ∨ ch.server = A.close (A.run s sent).1
  prefix_request : sent <+: C.request h.call
  short : sent.length + h.unsent.length ≤ (C.request h.call).length
  request : A.closed ch.server = false → sent ++ ch.toServer ++ h.unsent = C.request h.call
  answer : h.read ++ ch.toClient = (A.run s sent).2
  goes : C.isDone h.call h.read = false

/-- The connection comes to the same as the calls made one after the other. -/
structure InStep (start : σ) (ch : Channel σ α β γ ρ τ) : Prop where
  idle : ch.holder = none → Serial A C start ch.finished ch.server ∧ P.Ready ch.server ∧
    ch.toClient = [] ∧ (A.closed ch.server = false → ch.toServer = [])
  going : ∀ h, ch.holder = some h → ∃ s sent, Going P start ch h s sent

end

variable {A : Answerer σ α β} {C : Caller γ α β ρ} {P : Protocol A C} {start : σ}
  {ch ch' : Channel σ α β γ ρ τ}

theorem Going.server_eq {h : Holder τ γ α β} {s : σ} {sent : List α}
    (hg : Going P start ch h s sent) (hopen : A.closed ch.server = false) :
    ch.server = (A.run s sent).1 := by
  rcases hg.server with hserver | hserver
  · exact hserver
  · rw [hserver, A.closed_close] at hopen
    cases hopen

theorem Going.server_close {h : Holder τ γ α β} {s : σ} {sent : List α}
    (hg : Going P start ch h s sent) (hclosed : A.closed ch.server = true) :
    ch.server = A.close (A.run s sent).1 := by
  rcases hg.server with hserver | hserver
  · rw [hserver] at hclosed
    rw [hserver, A.close_of_closed _ hclosed]
  · exact hserver

/-- What has been answered so far is a part of the answer. -/
theorem Going.prefix_answer {h : Holder τ γ α β} {s : σ} {sent : List α}
    (hg : Going P start ch h s sent) : (A.run s sent).2 <+: A.answer C s h.call := by
  obtain ⟨rest, hrest⟩ := hg.prefix_request
  rw [Answerer.answer, ← hrest, Answerer.run_append]
  exact List.prefix_append _ _

/-- Before the whole request has been read there is nothing to read. -/
theorem Going.answer_nil {h : Holder τ γ α β} {s : σ} {sent : List α}
    (hg : Going P start ch h s sent) (hunsent : h.unsent ≠ []) :
    h.read = [] ∧ ch.toClient = [] := by
  have hne : sent ≠ C.request h.call := by
    intro heq
    have hshort := hg.short
    rw [heq] at hshort
    have hlength := List.length_pos_of_ne_nil hunsent
    omega
  have hanswer := hg.answer
  rw [hg.balanced.whole sent hg.prefix_request hne] at hanswer
  exact List.append_eq_nil_iff.mp hanswer

theorem inStep_start {s : σ} (hs : P.Ready s) :
    InStep P s ({ server := s } : Channel σ α β γ ρ τ) where
  idle _ := ⟨.nil, hs, rfl, fun _ => rfl⟩
  going h hh := by cases hh

/-- A call that cannot go on, because the server is gone. -/
theorem Going.fails {h : Holder τ γ α β} {s : σ} {sent : List α}
    (hg : Going P start ch h s sent) (hclosed : A.closed ch.server = true)
    (hclient : ch.toClient = []) : InStep P start (ch.finish C h h.read) := by
  have hread := hg.answer
  rw [hclient, List.append_nil] at hread
  constructor
  · intro _
    refine ⟨?_, P.ready_of_closed _ hclosed, hclient, fun hopen => ?_⟩
    · have hserial := Serial.failed h.thread h.call hg.serial hg.prefix_request
        (hread ▸ hg.prefix_answer)
      rwa [← hg.server_close hclosed] at hserial
    · rw [show (ch.finish C h h.read).server = ch.server from rfl, hclosed] at hopen
      cases hopen
  · intro _ hh
    cases hh

/-- A call that has read enough. -/
theorem Going.finishes {h : Holder τ γ α β} {s : σ} {sent : List α} {b : β} {rest : List β}
    (hg : Going P start ch h s sent) (hunsent : h.unsent = []) (hclient : ch.toClient = b :: rest)
    (hdone : C.isDone h.call (h.read ++ [b]) = true) :
    InStep P start ({ ch with toClient := rest }.finish C h (h.read ++ [b])) := by
  have hanswer : h.read ++ [b] ++ rest = (A.run s sent).2 := by
    rw [← hg.answer, hclient]
    simp
  have hprefix : h.read ++ [b] <+: A.answer C s h.call :=
    (List.prefix_append _ _).trans (hanswer ▸ hg.prefix_answer)
  have hread := hg.balanced.exact _ hprefix hdone
  have hrest : rest = [] := by
    have hle := hg.prefix_answer.length_le
    rw [← hanswer, ← hread, List.length_append] at hle
    exact List.eq_nil_of_length_eq_zero (by omega)
  have hsent : sent = C.request h.call := by
    by_contra hne
    rw [hg.balanced.whole sent hg.prefix_request hne] at hanswer
    simp at hanswer
  constructor
  · intro _
    refine ⟨?_, ?_, hrest, fun hopen => ?_⟩
    · rw [hread] at hdone
      have hserial := Serial.answered h.thread h.call hg.serial hdone
      rw [← hread, ← hsent] at hserial
      show Serial A C start (ch.finished ++ [(h.thread, h.call, C.value h.call (h.read ++ [b]))])
        ch.server
      rcases hg.server with hserver | hserver
      · rwa [hserver]
      · rw [hserver]
        exact hserial.died
    · show P.Ready ch.server
      rcases hg.server with hserver | hserver
      · rw [hserver, hsent]
        exact hg.next
      · rw [hserver]
        exact P.ready_of_closed _ (A.closed_close _)
    · have hrequest := hg.request hopen
      rw [hunsent, List.append_nil, hsent] at hrequest
      exact List.append_right_eq_self.mp hrequest
  · intro _ hh
    cases hh

/-- **One step.** -/
theorem InStep.step (hin : InStep P start ch) {e : Event γ τ} (hadmits : Admits P ch e)
    (hs : step A C ch e = .ok ch') : InStep P start ch' := by
  cases e with
  | call t c =>
    cases hs
    exact ⟨hin.idle, fun h hh =>
      let ⟨s, sent, hg⟩ := hin.going h hh
      ⟨s, sent, ⟨hg.serial, hg.balanced, hg.next, hg.server, hg.prefix_request, hg.short,
        hg.request, hg.answer, hg.goes⟩⟩⟩
  | lock =>
    simp only [Channel.step] at hs
    split at hs
    · next t c rest hfree hwaiting =>
      cases hs
      obtain ⟨hserial, hready, hclient, hserver⟩ := hin.idle hfree
      have hclean : P.Clean ch.server c := hadmits t c (by rw [hwaiting]; rfl)
      have hbalanced := P.balanced _ c hready hclean
      refine ⟨fun hh => (by cases hh), fun h hh => ?_⟩
      cases hh
      refine ⟨ch.server, [], hserial, hbalanced, P.next _ c hready hclean, .inl rfl,
        List.nil_prefix, by simp, ?_, ?_, hbalanced.start⟩
      · intro hopen
        simp [hserver hopen]
      · simpa using hclient
    · cases hs
  | write =>
    simp only [Channel.step] at hs
    split at hs
    · next t c a unsent read hholder =>
      cases hs
      obtain ⟨s, sent, hg⟩ := hin.going _ hholder
      refine ⟨fun hh => (by cases hh), fun h hh => ?_⟩
      cases hh
      have hshort : sent.length + (a :: unsent).length ≤ (C.request c).length := hg.short
      rw [List.length_cons] at hshort
      refine ⟨s, sent, hg.serial, hg.balanced, hg.next, hg.server, hg.prefix_request,
        by simp; omega, ?_, hg.answer, hg.goes⟩
      intro hopen
      rw [← hg.request hopen]
      simp
    · cases hs
  | serve =>
    simp only [Channel.step] at hs
    split at hs
    · next a rest hopen hserver =>
      cases hs
      refine ⟨fun hfree => ?_, fun h hh => ?_⟩
      · have hempty := (hin.idle hfree).2.2.2 hopen
        rw [hserver] at hempty
        cases hempty
      · obtain ⟨s, sent, hg⟩ := hin.going h hh
        have heq := hg.server_eq hopen
        have hrequest := hg.request hopen
        have hrun : A.run s (sent ++ [a]) = ((A.read ch.server a).1,
            (A.run s sent).2 ++ (A.read ch.server a).2) := by
          rw [heq]
          exact Answerer.run_concat (heq ▸ hopen)
        rw [hserver, List.append_assoc, List.cons_append] at hrequest
        refine ⟨s, sent ++ [a], hg.serial, hg.balanced, hg.next, .inl (by rw [hrun]), ?_, ?_, ?_,
          ?_, hg.goes⟩
        · rw [← hrequest]
          exact ⟨rest ++ h.unsent, by simp⟩
        · rw [← hrequest]
          simp
          omega
        · intro _
          rw [← hrequest]
          simp
        · rw [hrun, ← hg.answer]
          simp
    · cases hs
  | read =>
    simp only [Channel.step] at hs
    split at hs
    · next t c read b rest hholder hclient =>
      cases hs
      obtain ⟨s, sent, hg⟩ := hin.going _ hholder
      split
      · next hdone => exact hg.finishes rfl hclient hdone
      · next hgoes =>
        refine ⟨fun hh => (by cases hh), fun h hh => ?_⟩
        cases hh
        refine ⟨s, sent, hg.serial, hg.balanced, hg.next, hg.server, hg.prefix_request, hg.short,
          hg.request, ?_, by simpa using hgoes⟩
        rw [← hg.answer, hclient]
        simp
    · cases hs
  | readFails =>
    simp only [Channel.step] at hs
    split at hs
    · next t c read hholder hclient hclosed =>
      cases hs
      obtain ⟨s, sent, hg⟩ := hin.going _ hholder
      exact hg.fails hclosed hclient
    · cases hs
  | writeFails =>
    simp only [Channel.step] at hs
    split at hs
    · next t c a unsent read hholder hclosed =>
      cases hs
      obtain ⟨s, sent, hg⟩ := hin.going _ hholder
      exact hg.fails hclosed (hg.answer_nil (by simp)).2
    · cases hs
  | died =>
    cases hs
    refine ⟨fun hfree => ?_, fun h hh => ?_⟩
    · obtain ⟨hserial, -, hclient, -⟩ := hin.idle hfree
      refine ⟨hserial.died, P.ready_of_closed _ (A.closed_close _), hclient, fun hopen => ?_⟩
      rw [show A.closed (A.close ch.server) = true from A.closed_close _] at hopen
      cases hopen
    · obtain ⟨s, sent, hg⟩ := hin.going h hh
      refine ⟨s, sent, hg.serial, hg.balanced, hg.next, ?_, hg.prefix_request, hg.short, ?_,
        hg.answer, hg.goes⟩
      · rcases hg.server with hserver | hserver
        · exact .inr (congrArg A.close hserver)
        · refine .inr ((congrArg A.close hserver).trans ?_)
          exact A.close_of_closed _ (A.closed_close _)
      · intro hopen
        rw [show A.closed (A.close ch.server) = true from A.closed_close _] at hopen
        cases hopen

/-! ## Runs -/

/-- The calls that have been asked for. -/
def calls (ch : Channel σ α β γ ρ τ) : List (τ × γ) :=
  ch.finished.map (fun entry => (entry.1, entry.2.1)) ++
    ch.holder.toList.map (fun h => (h.thread, h.call)) ++ ch.waiting

/-- The calls that an event asks for. -/
def Event.asked : Event γ τ → List (τ × γ)
  | .call t c => [(t, c)]
  | _ => []

/-- The lock is a queue. -/
theorem calls_step {e : Event γ τ} (hs : step A C ch e = .ok ch') :
    ch'.calls = ch.calls ++ e.asked := by
  cases e with
  | call t c =>
    cases hs
    simp [calls, Event.asked]
  | lock =>
    simp only [Channel.step] at hs
    split at hs
    · next hfree hwaiting =>
      cases hs
      simp [calls, Event.asked, hfree, hwaiting]
    · cases hs
  | write =>
    simp only [Channel.step] at hs
    split at hs
    · next hholder =>
      cases hs
      simp [calls, Event.asked, hholder]
    · cases hs
  | serve =>
    simp only [Channel.step] at hs
    split at hs
    · cases hs
      simp [calls, Event.asked]
    · cases hs
  | read =>
    simp only [Channel.step] at hs
    split at hs
    · next hholder hclient =>
      cases hs
      split <;> simp [calls, Event.asked, finish, hholder]
    · cases hs
  | readFails =>
    simp only [Channel.step] at hs
    split at hs
    · next hholder hclient hclosed =>
      cases hs
      simp [calls, Event.asked, finish, hholder]
    · cases hs
  | writeFails =>
    simp only [Channel.step] at hs
    split at hs
    · next hholder hclosed =>
      cases hs
      simp [calls, Event.asked, finish, hholder]
    · cases hs
  | died =>
    cases hs
    simp [calls, Event.asked]

theorem calls_run {es : List (Event γ τ)} (hrun : (machine A C).run ch es = .ok ch') :
    ch'.calls = ch.calls ++ es.flatMap Event.asked := by
  induction es generalizing ch with
  | nil =>
    cases hrun
    simp
  | cons e es ih =>
    obtain ⟨t, ht, hrun⟩ := Machine.run_cons_eq_ok.mp hrun
    rw [ih hrun, calls_step ht]
    simp

/-- Every call gets the lock in a state in which it is clean, if the calls that
are made are clean in all states. -/
theorem meets_of_asked {Q : γ → Prop} (hQ : ∀ s c, Q c → P.Clean s c) {es : List (Event γ τ)}
    (hch : ∀ x ∈ ch.calls, Q x.2) (hes : ∀ e ∈ es, ∀ x ∈ e.asked, Q x.2) :
    (machine A C).Meets (Admits P) ch es := by
  induction es generalizing ch with
  | nil => trivial
  | cons e es ih =>
    refine ⟨?_, fun ch' hs => ih ?_ fun e' he' => hes e' (List.mem_cons_of_mem _ he')⟩
    · cases e with
      | lock =>
        intro t c hhead
        refine hQ _ c (hch (t, c) ?_)
        unfold calls
        exact List.mem_append_right _ (List.mem_of_mem_head? hhead)
      | _ => trivial
    · intro x hx
      rw [calls_step hs] at hx
      rcases List.mem_append.mp hx with hx | hx
      · exact hch x hx
      · exact hes e List.mem_cons_self x hx

theorem InStep.run {es : List (Event γ τ)} (hin : InStep P start ch)
    (hadmits : (machine A C).Meets (Admits P) ch es)
    (hrun : (machine A C).run ch es = .ok ch') : InStep P start ch' :=
  Machine.Meets.run (I := InStep P start) (fun _ _ _ hin he hs => hin.step he hs) hin hadmits hrun

/-- **A run comes to the same as the calls one after the other**, in the
order in which they were asked for. -/
theorem serial_of_run {s : σ} {es : List (Event γ τ)} (hs : P.Ready s)
    (hadmits : (machine A C).Meets (Admits P) { server := s } es)
    (hrun : (machine A C).run { server := s } es = .ok ch) :
    InStep P s ch ∧ ch.calls = es.flatMap Event.asked :=
  ⟨(inStep_start hs).run hadmits hrun, calls_run hrun⟩

/-! ## The end of a call -/

/-- A step of the call that has the lock, or of the server. -/
def Event.Moves : Event γ τ → Prop
  | .write | .serve | .read | .readFails => True
  | _ => False

theorem Event.Moves.admits {e : Event γ τ} (h : e.Moves) : Admits P ch e := by
  cases e <;> trivial

theorem meets_of_moves {es : List (Event γ τ)} (h : ∀ e ∈ es, e.Moves) :
    (machine A C).Meets (Admits P) ch es :=
  Machine.meets_of_forall fun _ e he => (h e he).admits

/-- The call sends what it has not sent. -/
theorem run_writes {h : Holder τ γ α β} (hholder : ch.holder = some h) :
    (machine A C).run ch (List.replicate h.unsent.length .write) =
      .ok { ch with toServer := ch.toServer ++ h.unsent
                    holder := some { h with unsent := [] } } := by
  obtain ⟨t, c, unsent, read⟩ := h
  induction unsent generalizing ch with
  | nil =>
    cases ch
    cases hholder
    simp
  | cons a unsent ih =>
    have hstep : (machine A C).step ch .write =
        .ok { ch with toServer := ch.toServer ++ [a]
                      holder := some { thread := t, call := c, unsent, read } } := by
      simp [machine, Channel.step, hholder]
    rw [List.length_cons, List.replicate_succ, (machine A C).run_cons_of_step _ hstep, ih rfl]
    simp

/-- The server reads what it has been sent, unless it closes. -/
theorem run_serves (ch : Channel σ α β γ ρ τ) : ∃ n ch',
    (machine A C).run ch (List.replicate n .serve) = .ok ch' ∧ ch'.holder = ch.holder ∧
      ch'.finished = ch.finished ∧ (A.closed ch'.server = true ∨ ch'.toServer = []) := by
  obtain ⟨server, toServer, toClient, holder, waiting, finished⟩ := ch
  induction toServer generalizing server toClient with
  | nil => exact ⟨0, _, rfl, rfl, rfl, .inr rfl⟩
  | cons a rest ih =>
    cases hclosed : A.closed server with
    | true => exact ⟨0, _, rfl, rfl, rfl, .inl hclosed⟩
    | false =>
      obtain ⟨n, ch', hrun, hend⟩ :=
        ih (A.read server a).1 (toClient ++ (A.read server a).2)
      refine ⟨n + 1, ch', ?_, hend⟩
      rw [List.replicate_succ, (machine A C).run_cons_of_step _ _]
      · exact hrun
      · simp [machine, Channel.step, hclosed]

/-- The call reads until it returns, or there is nothing to read. -/
theorem run_reads {t : τ} {c : γ} {read : List β}
    (hholder : ch.holder = some { thread := t, call := c, unsent := [], read }) : ∃ n ch',
    (machine A C).run ch (List.replicate n .read) = .ok ch' ∧
      ((ch'.holder = none ∧ ∃ value, ch'.finished = ch.finished ++ [(t, c, value)]) ∨
        (ch'.toClient = [] ∧ ch'.finished = ch.finished ∧ ch'.server = ch.server ∧
          ch'.toServer = ch.toServer ∧
          ∃ read', ch'.holder = some { thread := t, call := c, unsent := [], read := read' })) := by
  obtain ⟨server, toServer, toClient, holder, waiting, finished⟩ := ch
  induction toClient generalizing holder read with
  | nil => exact ⟨0, _, rfl, .inr ⟨rfl, rfl, rfl, rfl, read, hholder⟩⟩
  | cons b rest ih =>
    cases hholder
    cases hdone : C.isDone c (read ++ [b]) with
    | true =>
      let h : Holder τ γ α β := { thread := t, call := c, unsent := [], read := read ++ [b] }
      let ch : Channel σ α β γ ρ τ :=
        { server, toServer, toClient := rest, holder := some h, waiting, finished }
      refine ⟨1, ch.finish C h (read ++ [b]), ?_, .inl ⟨rfl, C.value c (read ++ [b]), rfl⟩⟩
      simp [Machine.run, machine, Channel.step, hdone, ch, h]
    | false =>
      obtain ⟨n, ch', hrun, hend⟩ := @ih (read ++ [b]) _ rfl
      refine ⟨n + 1, ch', ?_, hend⟩
      rw [List.replicate_succ, (machine A C).run_cons_of_step _ _]
      · exact hrun
      · simp [machine, Channel.step, hdone]

/-- **A call that has the lock comes to its end**, by steps of its own and of
the server. -/
theorem call_ends {h : Holder τ γ α β} (hin : InStep P start ch) (hholder : ch.holder = some h) :
    ∃ es ch' value, (∀ e ∈ es, e.Moves) ∧ (machine A C).run ch es = .ok ch' ∧
      ch'.holder = none ∧ ch'.finished = ch.finished ++ [(h.thread, h.call, value)] := by
  have hwrites := run_writes (A := A) (C := C) hholder
  obtain ⟨n, ch₁, hserves, hholder₁, hfinished₁, hread₁⟩ := @run_serves _ _ _ _ _ _ A C
    { ch with toServer := ch.toServer ++ h.unsent, holder := some { h with unsent := [] } }
  obtain ⟨m, ch₂, hreads, hend⟩ := run_reads (A := A) (C := C) hholder₁
  let es : List (Event γ τ) := List.replicate h.unsent.length .write ++
    (List.replicate n .serve ++ List.replicate m .read)
  have hmoves : ∀ e ∈ es, e.Moves := by
    intro e he
    simp only [es, List.mem_append, List.mem_replicate] at he
    rcases he with ⟨-, rfl⟩ | ⟨-, rfl⟩ | ⟨-, rfl⟩ <;> trivial
  have hrun : (machine A C).run ch es = .ok ch₂ := by
    rw [Machine.run_append hwrites, Machine.run_append hserves, hreads]
  have hin₂ := hin.run (meets_of_moves hmoves) hrun
  rcases hend with ⟨hfree, value, hfinished⟩ | ⟨hclient, hfinished, hserver, htoServer, read, hgoes⟩
  · exact ⟨es, ch₂, value, hmoves, hrun, hfree, by rw [hfinished, hfinished₁]⟩
  · obtain ⟨s, sent, hg⟩ := hin₂.going _ hgoes
    have hclosed : A.closed ch₂.server = true := by
      cases hopen : A.closed ch₂.server with
      | true => rfl
      | false =>
        -- the whole request has been read, and the whole answer
        have hrequest := hg.request hopen
        have hempty : ch₂.toServer = [] := by
          rw [htoServer]
          exact hread₁.resolve_left (by rw [← hserver, hopen]; simp)
        have hanswer := hg.answer
        have heq := hg.server_eq hopen
        rw [hempty, List.append_nil, List.append_nil] at hrequest
        rw [hclient, List.append_nil, hrequest] at hanswer
        rw [heq, hrequest] at hopen
        rcases hg.balanced.ends with hdone | hclosed
        · rw [Answerer.answer, ← hanswer, hg.goes] at hdone
          cases hdone
        · rw [hopen] at hclosed
          cases hclosed
    let h' : Holder τ γ α β := { thread := h.thread, call := h.call, unsent := [], read }
    refine ⟨es ++ [.readFails], ch₂.finish C h' read, C.value h.call read, ?_, ?_, rfl, ?_⟩
    · intro e he
      rcases List.mem_append.mp he with he | he
      · exact hmoves e he
      · cases List.mem_singleton.mp he
        trivial
    · rw [Machine.run_append hrun]
      simp [Machine.run, machine, Channel.step, hgoes, hclient, hclosed, h']
    · rw [finish, hfinished, hfinished₁]

end Channel

end Lib
