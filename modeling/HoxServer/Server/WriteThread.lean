/-
HoxServer.Server.WriteThread — the queue, the `WRITE` thread and the
connections of a `hoxPersistentSession` (`hoxSession.cpp`).

Any thread may add a response to the session. The `WRITE` thread takes the
responses one after the other and writes them to the socket, and waits on a
condition variable when there are none. A session outlives its connection:
`onDisconnected` and `handleShutdown` close it, `resumeConnection` opens
another one with a new `WRITE` thread. A thread that closes a connection
joins the `WRITE` thread first, and may be blocked there while the others
run; a `WRITE` thread that is joined already makes the join fail at once.

The connections of a session are numbered; `out` is what has been sent on
each. A write that fails has sent a part of the text, and nothing more is
sent on that connection.
-/
import HoxServer.Server.Server

namespace HoxServer

open Lib

universe u

variable {ρ : Type u}

/-- Where a `WRITE` thread is. -/
inductive Writer (ρ : Type u) where
  /-- Before the test of its loop: it is new, it has been signalled, or it
  has yielded. -/
  | ready
  /-- In `st_cond_wait`. -/
  | waiting
  /-- In `st_write`, on a socket. -/
  | writing (nfd : Nat) (response : ρ)
  | ended
  deriving DecidableEq

def Writer.isWaiting : Writer ρ → Bool
  | .waiting => true
  | _ => false

/-- A thread that is there, and one that does not wait. -/
def Writer.isLive : Writer ρ → Bool
  | .ended => false
  | _ => true

def Writer.isAwake : Writer ρ → Bool
  | .ready | .writing _ _ => true
  | .waiting | .ended => false

/-- The response that a thread is writing. -/
def Writer.taken : Writer ρ → List ρ
  | .writing _ response => [response]
  | _ => []

/-- A thread in `resumeConnection`, `onDisconnected` or `handleShutdown`. -/
inductive Closer where
  /-- In `resumeConnection`, waiting for the `READ` thread to end. -/
  | sleeping
  /-- In the join of `closeIO`. -/
  | joining (th : Nat) (resumes : Bool)
  | done
  deriving DecidableEq

def Closer.isJoining : Closer → Bool
  | .joining _ _ => true
  | _ => false

/-- What `hoxPersistentSession` knows of its connection, with the threads
that have to do with it, and the sockets. -/
structure Connection (ρ : Type u) where
  state : SessionState := .active
  nfd : Option Nat := some 0
  /-- `_readThread` is not `NULL`. -/
  readThread : Bool := true
  responseList : List ρ := []
  writeThread : Option Nat := some 0
  writers : List (Writer ρ) := [.ready]
  closers : List Closer := []
  socketCount : Nat := 1
  out : Nat → Bytes := fun _ => []
  broken : Nat → Bool := fun _ => false

/-- A thread runs up to its next blocking call. -/
inductive Signal (ρ : Type u) where
  /-- `addResponse`. -/
  | add (response : ρ)
  /-- A `WRITE` thread runs its loop. -/
  | write (th : Nat)
  /-- `st_write` returns, and all has been sent. -/
  | written (th : Nat)
  /-- `st_write` fails when so many bytes have been sent. -/
  | writeFailed (th n : Nat)
  /-- `markForShutdown`. -/
  | marked
  /-- `onDisconnected`. -/
  | disconnected
  /-- `handleShutdown`. -/
  | shutdown
  /-- `resumeConnection`, up to its first sleep if there is a connection. -/
  | resume
  /-- The sleeps of `resumeConnection` are over. -/
  | slept (k : Nat)
  /-- `st_thread_join` returns. -/
  | joined (k : Nat)
  deriving DecidableEq

namespace Connection

section

variable (c : Connection ρ)

def setWriter (th : Nat) (w : Writer ρ) : Connection ρ :=
  { c with writers := c.writers.set th w }

def setCloser (k : Nat) (closer : Closer) : Connection ρ :=
  { c with closers := c.closers.set k closer }

/-- `st_cond_signal( _writeCond )`: a thread that waits is woken, if there
is one. -/
def signal : Connection ρ :=
  c.setWriter (c.writers.findIdx Writer.isWaiting) .ready

/-- `hoxPersistentSession::addResponse`. -/
def addResponse (response : ρ) : Connection ρ :=
  let c := if c.state = .active then { c with responseList := c.responseList ++ [response] } else c
  c.signal

/-- The `WRITE` thread ends. -/
def endWriter (th : Nat) : Connection ρ := { c.setWriter th .ended with writeThread := none }

/-- `hoxPersistentSession::handleWrite`, from the test of the loop to the
next blocking call. A write needs a socket. -/
def handleWrite (th : Nat) : Except Stop (Connection ρ) :=
  if c.state = .active then
    match c.responseList, c.nfd with
    | [], _ => .ok (c.setWriter th .waiting)
    | response :: rest, some nfd =>
      .ok { c.setWriter th (.writing nfd response) with responseList := rest }
    | _ :: _, none => .error (.crashed .nullPointer)
  else .ok (c.endWriter th)

/-- `hoxPersistentSession::resumeConnection` when the old connection is
closed: "Remove old events." -/
def resumed : Connection ρ :=
  { c with
    nfd := some c.socketCount
    socketCount := c.socketCount + 1
    readThread := true
    responseList := []
    state := .active
    writeThread := some c.writers.length
    writers := c.writers ++ [.ready] }

/-- `hoxPersistentSession::closeIO` after the join, and what follows it. -/
def closed (resumes : Bool) : Connection ρ :=
  if resumes then resumed { c with nfd := none } else { c with nfd := none }

/-- Another thread is in the join of this one. -/
def isJoined (th : Nat) : Bool :=
  c.closers.any fun closer =>
    match closer with
    | .joining th' _ => decide (th' = th)
    | _ => false

/-- `hoxPersistentSession::closeIO`. "Multiple threads can't wait on the
same joinable thread": their join fails. -/
def closeIo (k : Nat) (resumes : Bool) : Connection ρ :=
  let c := { c with readThread := false }
  match c.writeThread with
  | none => (c.setCloser k .done).closed resumes
  | some th =>
    let c := c.signal
    if c.isJoined th then (c.setCloser k .done).closed resumes
    else c.setCloser k (.joining th resumes)

/-- A thread comes to close the connection. -/
def close (resumes : Bool) : Connection ρ :=
  closeIo { c with closers := c.closers ++ [.done] } c.closers.length resumes

/-- `hoxPersistentSession::onDisconnected`. -/
def onDisconnected : Connection ρ := close { c with state := .disconnect } false

/-- `hoxSession::handleShutdown`, as far as the connection is concerned. -/
def handleShutdown : Connection ρ :=
  if c.nfd ≠ none then close { c with state := .shutdown } false else { c with state := .shutdown }

/-- `hoxPersistentSession::resumeConnection`, up to its first sleep. -/
def resumeConnection : Connection ρ :=
  if c.nfd ≠ none then
    let c := { c with state := .disconnect }
    if c.readThread then { c with closers := c.closers ++ [.sleeping] } else c.close true
  else c.resumed

/-- `st_write` sends the first bytes of a text. -/
def sent (nfd : Nat) (data : Bytes) : Connection ρ :=
  { c with out := Function.update c.out nfd (c.out nfd ++ data) }

/-- `st_write` fails, when the first bytes of a text have been sent. -/
def brokenOff (nfd : Nat) (data : Bytes) : Connection ρ :=
  { c.sent nfd data with broken := Function.update c.broken nfd true }

/-- What runs from a signal to the next blocking call; `text` is how a
response is written. -/
def step (text : ρ → Bytes) : Signal ρ → Except Stop (Connection ρ)
  | .add response => .ok (c.addResponse response)
  | .write th =>
    match c.writers[th]? with
    | some .ready => c.handleWrite th
    | _ => .error .disabled
  | .written th =>
    match c.writers[th]? with
    | some (.writing nfd response) =>
      if c.broken nfd then .error .disabled
      else .ok ((c.sent nfd (text response)).setWriter th .ready)
    | _ => .error .disabled
  | .writeFailed th n =>
    match c.writers[th]? with
    | some (.writing nfd response) =>
      if n < (text response).length ∧ (c.broken nfd → n = 0) then
        (c.brokenOff nfd ((text response).take n)).handleWrite th
      else .error .disabled
    | _ => .error .disabled
  | .marked => .ok { c with state := .shutdown }
  | .disconnected => .ok c.onDisconnected
  | .shutdown => .ok c.handleShutdown
  | .resume => .ok c.resumeConnection
  | .slept k =>
    match c.closers[k]? with
    | some .sleeping => .ok (c.closeIo k true)
    | _ => .error .disabled
  | .joined k =>
    match c.closers[k]? with
    | some (.joining th resumes) =>
      match c.writers[th]? with
      | some .ended => .ok ((c.setCloser k .done).closed resumes)
      | _ => .error .disabled
    | _ => .error .disabled

end

/-- No thread is in the join of `closeIO`. -/
def Free (c : Connection ρ) : Prop :=
  ∀ (k th : Nat) (resumes : Bool), c.closers[k]? ≠ some (.joining th resumes)

/-- A thread closes the connection while no other one is closing it, nor has
opened a new one in the meantime. -/
def Exclusive (c : Connection ρ) : Signal ρ → Prop
  | .disconnected | .shutdown | .resume => c.Free
  | .slept _ => c.Free ∧ c.state ≠ .active
  | _ => True

instance (c : Connection ρ) : Decidable c.Free :=
  decidable_of_iff (∀ closer ∈ c.closers, closer.isJoining = false) <| by
    constructor
    · intro h k th resumes hk
      simpa [Closer.isJoining] using h _ (List.mem_of_getElem? hk)
    · intro h closer hmem
      obtain ⟨k, hk⟩ := List.getElem?_of_mem hmem
      cases closer with
      | joining th resumes => exact absurd hk (h k th resumes)
      | sleeping => rfl
      | done => rfl

instance (c : Connection ρ) : DecidablePred c.Exclusive
  | .disconnected | .shutdown | .resume => inferInstanceAs (Decidable c.Free)
  | .slept _ => inferInstanceAs (Decidable (c.Free ∧ c.state ≠ .active))
  | .add _ | .write _ | .written _ | .writeFailed _ _ | .marked | .joined _ => isTrue trivial

/-- The runs of a session from its first connection on. -/
def machine (text : ρ → Bytes) : Machine (Connection ρ) (Signal ρ) Stop where
  init c := c = {}
  step c := c.step text

end Connection

end HoxServer
