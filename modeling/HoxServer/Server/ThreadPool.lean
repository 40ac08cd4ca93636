/-
HoxServer.Server.ThreadPool — the threads that accept connections,
`start_threads` and `handle_connections` of `main.cpp`.

A thread waits in `st_accept` or is busy in `handle_session`. The counters
of a listening socket are what the threads read; which thread runs next is
not theirs to say. A `Thread` is where a thread stands between two blocking
calls, and `Pool.step` is what it runs from one to the next. What the system
decides is in the events: which thread goes on, whether a connection is
accepted, and whether `st_thread_create` succeeds.

* `ordered_setThreadThrottling` — the limits that a process works with;
* `pool_bounds` — the counters are the numbers of threads, within the
  limits, in whatever order the threads run; the number of requests and
  the ids of the threads are `int`s that nothing bounds, so these wrap;
* `pool_ready` — while threads can be created, a connection finds a thread
  that waits for it, unless all that are allowed are busy.
-/
import HoxServer.Lib.Machine
import HoxServer.Player

namespace HoxServer

open Lib

/-! ## The limits -/

/-- "Thread throttling parameters (all numbers are per listening socket).
Zero values mean use default." -/
structure Throttling where
  maxThreads : Nat := 0
  maxWaitThreads : Nat := 0
  minWaitThreads : Nat := 2
  deriving DecidableEq, Repr

/-- `MAX_WAIT_THREADS_DEFAULT`. -/
def maxWaitThreadsDefault : Nat := 8

/-- `FD_PER_THREAD`. -/
def fdPerThread : Nat := 2

/-- The share of a process, rounded up. -/
def perProcess (n vpCount : Nat) : Nat :=
  if n % vpCount ≠ 0 then n / vpCount + 1 else n / vpCount

/-- "if ( n > bound ) n = bound". -/
def capped (n bound : Nat) : Nat := if n > bound then bound else n

/-- `set_thread_throttling`. -/
def setThreadThrottling (vpCount skCount fdLimit : Nat) (t : Throttling) : Throttling :=
  let maxWait := if t.maxWaitThreads = 0 then maxWaitThreadsDefault * vpCount else t.maxWaitThreads
  let max := if t.maxThreads = 0 then fdLimit * vpCount / fdPerThread / skCount else t.maxThreads
  let maxWait := perProcess (capped maxWait max) vpCount
  { maxThreads := perProcess max vpCount
    maxWaitThreads := maxWait
    minWaitThreads := capped t.minWaitThreads maxWait }

/-- What `set_thread_throttling` gives a process: its limits are in order. -/
structure Throttling.Ordered (t : Throttling) : Prop where
  min_le : t.minWaitThreads ≤ t.maxWaitThreads
  wait_le : t.maxWaitThreads ≤ t.maxThreads

theorem capped_le (n bound : Nat) : capped n bound ≤ bound := by
  unfold capped
  split <;> omega

theorem capped_pos {n bound : Nat} (hn : 0 < n) (hbound : 0 < bound) : 0 < capped n bound := by
  unfold capped
  split <;> omega

theorem perProcess_eq {vpCount : Nat} (h : 0 < vpCount) (n : Nat) :
    perProcess n vpCount = (n + (vpCount - 1)) / vpCount := by
  have hdiv := Nat.div_add_mod n vpCount
  have hlt := Nat.mod_lt n h
  unfold perProcess
  symm
  split
  · rw [Nat.div_eq_iff h, Nat.add_mul, Nat.mul_comm (n / vpCount)]
    omega
  · rw [Nat.div_eq_iff h, Nat.mul_comm (n / vpCount)]
    omega

theorem perProcess_mono {m n vpCount : Nat} (h : 0 < vpCount) (hmn : m ≤ n) :
    perProcess m vpCount ≤ perProcess n vpCount := by
  rw [perProcess_eq h, perProcess_eq h]
  exact Nat.div_le_div_right (by omega)

theorem ordered_setThreadThrottling {vpCount : Nat} (h : 0 < vpCount) (skCount fdLimit : Nat)
    (t : Throttling) : (setThreadThrottling vpCount skCount fdLimit t).Ordered where
  min_le := capped_le _ _
  wait_le := perProcess_mono h (capped_le _ _)

/-! ## The threads -/

/-- Where a connection thread is. -/
inductive PoolThread where
  /-- Created, and not yet run. -/
  | created
  /-- In `st_accept`, with its `my_thread_id`. -/
  | accepting (id : Int)
  /-- In `handle_session`. -/
  | serving (id : Int)
  | ended (id : Int)
  deriving DecidableEq, Repr

namespace PoolThread

def isWaiting : PoolThread → Bool
  | .created | .accepting _ => true
  | .serving _ | .ended _ => false

def isBusy : PoolThread → Bool
  | .serving _ => true
  | .created | .accepting _ | .ended _ => false

def id? : PoolThread → Option Int
  | .created => none
  | .accepting id | .serving id | .ended id => some id

/-- The thread has been run. -/
def hasStarted (thread : PoolThread) : Bool := thread.id?.isSome

end PoolThread

/-- A listening socket of a process: the counters of `socket_info`, and the
threads in the order of their creation. -/
structure Pool where
  waitThreads : Int := 0
  busyThreads : Int := 0
  rqstCount : Int := 0
  nextThreadId : Int := 0
  threads : List PoolThread := []
  deriving DecidableEq, Repr

/-- What the system decides. -/
inductive PoolEvent where
  /-- A new thread is run. -/
  | started (th : Nat)
  /-- `st_accept` returns a connection; `created` is what `st_thread_create`
  says if it is called. -/
  | accepted (th : Nat) (created : Bool)
  | acceptFailed (th : Nat)
  /-- `handle_session` returns. -/
  | sessionEnded (th : Nat)
  deriving DecidableEq, Repr

/-- A run in which `st_thread_create` does not fail. -/
def PoolEvent.creates : PoolEvent → Bool
  | .accepted _ created => created
  | _ => true

def PoolEvent.isAccepted : PoolEvent → Bool
  | .accepted _ _ => true
  | _ => false

namespace Pool

/-- `TOTAL_THREADS`. -/
def totalThreads (p : Pool) : Int := p.waitThreads + p.busyThreads

def setThread (p : Pool) (th : Nat) (thread : PoolThread) : Pool :=
  { p with threads := p.threads.set th thread }

/-- `st_thread_create( handle_connections, .. )` and the count of it. -/
def createThread (p : Pool) (created : Bool) : Pool :=
  if created then
    { p with waitThreads := p.waitThreads + 1, threads := p.threads ++ [.created] }
  else p

/-- The test of the loop of `handle_connections`. -/
def loop (t : Throttling) (p : Pool) (th : Nat) (id : Int) : Pool :=
  if p.waitThreads ≤ t.maxWaitThreads then p.setThread th (.accepting id)
  else { p.setThread th (.ended id) with waitThreads := p.waitThreads - 1 }

/-- `handle_connections` up to the loop. -/
def started (t : Throttling) (p : Pool) (th : Nat) : Pool :=
  loop t { p with nextThreadId := toInt32 (p.nextThreadId + 1) } th p.nextThreadId

/-- `handle_connections` from `st_accept` to `handle_session`. -/
def accepted (t : Throttling) (p : Pool) (th : Nat) (id : Int) (created : Bool) : Pool :=
  let p : Pool := { p.setThread th (.serving id) with
    waitThreads := p.waitThreads - 1, busyThreads := p.busyThreads + 1 }
  if p.waitThreads < t.minWaitThreads ∧ p.totalThreads < t.maxThreads then p.createThread created
  else p

/-- `handle_connections` from `handle_session` to the loop. -/
def sessionEnded (t : Throttling) (p : Pool) (th : Nat) (id : Int) : Pool :=
  loop t { p with
    rqstCount := toInt32 (p.rqstCount + 1)
    waitThreads := p.waitThreads + 1
    busyThreads := p.busyThreads - 1 } th id

/-- What runs when a blocking call of a thread returns; an event of a thread
that is not blocked there does not occur. -/
def step (t : Throttling) (p : Pool) : PoolEvent → Except Unit Pool
  | .started th =>
    match p.threads[th]? with
    | some .created => .ok (p.started t th)
    | _ => .error ()
  | .accepted th created =>
    match p.threads[th]? with
    | some (.accepting id) => .ok (p.accepted t th id created)
    | _ => .error ()
  | .acceptFailed th =>
    match p.threads[th]? with
    | some (.accepting id) => .ok (p.loop t th id)
    | _ => .error ()
  | .sessionEnded th =>
    match p.threads[th]? with
    | some (.serving id) => .ok (p.sessionEnded t th id)
    | _ => .error ()

/-- `start_threads` for a listening socket: `created` says which calls of
`st_thread_create` succeed. -/
def startThreads (created : List Bool) : Pool := created.foldl createThread {}

/-- A process whose threads are started: with none it exits. -/
def Starts (t : Throttling) (p : Pool) : Prop :=
  ∃ created : List Bool, created.length = t.maxWaitThreads ∧ true ∈ created ∧
    p = startThreads created

def machine (t : Throttling) : Machine Pool PoolEvent Unit where
  init := Starts t
  step := step t

variable {t : Throttling} {p p' : Pool} {th : Nat} {id : Int} {old thread : PoolThread}
  {created : Bool} {e : PoolEvent}

/-! ## Counting -/

/-- A flag, as a number. -/
def one (b : Bool) : Int := if b then 1 else 0

theorem countP_set (f : PoolThread → Bool) {l : List PoolThread} (h : l[th]? = some old)
    (thread : PoolThread) :
    ((l.set th thread).countP f : Int) = l.countP f - one (f old) + one (f thread) := by
  obtain ⟨hth, hold⟩ := List.getElem?_eq_some_iff.mp h
  rw [List.countP_set hth, hold]
  have hpos : f old = true → 0 < l.countP f := by
    intro hf
    rw [List.countP_pos_iff]
    exact ⟨old, hold ▸ List.getElem_mem hth, hf⟩
  cases hf : f old <;> cases hf' : f thread <;> simp [one] <;> have := hpos hf <;> omega

theorem toInt32_toInt32_add (n m : Int) : toInt32 (toInt32 n + m) = toInt32 (n + m) := by
  unfold toInt32
  omega

/-- The id of a thread of the pool. -/
def idOf (p : Pool) (th : Nat) : Option Int := p.threads[th]?.bind PoolThread.id?

/-- How many threads of the pool have been run. -/
def startedThreads (p : Pool) : Nat := p.threads.countP PoolThread.hasStarted

/-- The ids are given one after another: `order` is the place of each thread
among those that have been run. -/
structure Numbered (p : Pool) (order : Nat → Nat) : Prop where
  id : ∀ th id, p.idOf th = some id → id = toInt32 (order th)
  lt : ∀ th id, p.idOf th = some id → order th < p.startedThreads
  inj : ∀ th th' id id', p.idOf th = some id → p.idOf th' = some id' → order th = order th' →
    th = th'

/-- The counters are the numbers of threads, and the ids are given one after
another. -/
structure Counted (p : Pool) : Prop where
  wait : p.waitThreads = p.threads.countP PoolThread.isWaiting
  busy : p.busyThreads = p.threads.countP PoolThread.isBusy
  next : p.nextThreadId = toInt32 p.startedThreads
  numbered : ∃ order, p.Numbered order

/-- No two threads have one id, unless more threads have been run than there
are `int`s. -/
theorem Counted.id_inj (hp : p.Counted) (hfew : p.startedThreads ≤ 4294967296) {th' : Nat}
    (h : p.idOf th = some id) (h' : p.idOf th' = some id) : th = th' := by
  obtain ⟨order, hnumbered⟩ := hp.numbered
  refine hnumbered.inj th th' id id h h' ?_
  have hlt := hnumbered.lt th id h
  have hlt' := hnumbered.lt th' id h'
  have heq : toInt32 (order th) = toInt32 (order th') :=
    (hnumbered.id th id h).symm.trans (hnumbered.id th' id h')
  unfold toInt32 at heq
  omega

theorem idOf_of_set (h : p.threads[th]? = some old) (hset : p'.threads = p.threads.set th thread)
    (x : Nat) : p'.idOf x = if x = th then thread.id? else p.idOf x := by
  obtain ⟨hth, -⟩ := List.getElem?_eq_some_iff.mp h
  unfold idOf
  rw [hset]
  by_cases hx : x = th
  · subst hx
    simp [hth]
  · simp [hx, Ne.symm hx]

/-- A thread goes on and keeps its id. -/
theorem Counted.moved (hp : p.Counted) (h : p.threads[th]? = some old)
    (hset : p'.threads = p.threads.set th thread) (hid : thread.id? = old.id?)
    (hwait : p'.waitThreads = p.waitThreads - one old.isWaiting + one thread.isWaiting)
    (hbusy : p'.busyThreads = p.busyThreads - one old.isBusy + one thread.isBusy)
    (hnext : p'.nextThreadId = p.nextThreadId) : p'.Counted := by
  have hsame : ∀ x, p'.idOf x = p.idOf x := by
    intro x
    rw [idOf_of_set h hset x]
    split
    · next hx =>
      subst hx
      rw [hid, idOf, h]
      rfl
    · rfl
  have hstarted : p'.startedThreads = p.startedThreads := by
    have hcount := countP_set PoolThread.hasStarted h thread
    unfold PoolThread.hasStarted at hcount
    rw [hid] at hcount
    unfold startedThreads
    rw [hset]
    unfold PoolThread.hasStarted
    omega
  obtain ⟨order, hnumbered⟩ := hp.numbered
  refine ⟨?_, ?_, ?_, order, ?_, ?_, ?_⟩
  · rw [hwait, hset, countP_set _ h, hp.wait]
  · rw [hbusy, hset, countP_set _ h, hp.busy]
  · rw [hnext, hstarted, hp.next]
  · intro x id hx
    exact hnumbered.id x id (hsame x ▸ hx)
  · intro x id hx
    rw [hstarted]
    exact hnumbered.lt x id (hsame x ▸ hx)
  · intro x x' id id' hx hx'
    exact hnumbered.inj x x' id id' (hsame x ▸ hx) (hsame x' ▸ hx')

/-- A thread that is new is given the next id. -/
theorem Counted.named (hp : p.Counted) (h : p.threads[th]? = some .created)
    (hset : p'.threads = p.threads.set th thread) (hid : thread.id? = some p.nextThreadId)
    (hwait : p'.waitThreads = p.waitThreads - 1 + one thread.isWaiting)
    (hbusy : p'.busyThreads = p.busyThreads + one thread.isBusy)
    (hnext : p'.nextThreadId = toInt32 (p.nextThreadId + 1)) : p'.Counted := by
  have hidOf := idOf_of_set h hset
  have hstarted : p'.startedThreads = p.startedThreads + 1 := by
    have hcount := countP_set PoolThread.hasStarted h thread
    have hthread : thread.hasStarted = true := by simp [PoolThread.hasStarted, hid]
    rw [hthread] at hcount
    unfold startedThreads
    rw [hset]
    simp only [PoolThread.hasStarted, PoolThread.id?, Option.isSome_none, one, if_true,
      Bool.false_eq_true, if_false] at hcount ⊢
    omega
  obtain ⟨order, hnumbered⟩ := hp.numbered
  refine ⟨?_, ?_, ?_, Function.update order th p.startedThreads, ?_, ?_, ?_⟩
  · rw [hwait, hset, countP_set _ h, hp.wait]
    rfl
  · rw [hbusy, hset, countP_set _ h, hp.busy]
    simp [one, PoolThread.isBusy]
  · rw [hnext, hstarted, hp.next, toInt32_toInt32_add]
    rfl
  · intro x id hx
    rw [hidOf] at hx
    split at hx
    · next hx' =>
      rw [hid] at hx
      cases hx
      rw [hx', Function.update_self, hp.next]
    · next hx' =>
      rw [Function.update_of_ne hx']
      exact hnumbered.id x id hx
  · intro x id hx
    rw [hidOf] at hx
    split at hx
    · next hx' =>
      rw [hx', Function.update_self]
      omega
    · next hx' =>
      rw [Function.update_of_ne hx']
      have hlt := hnumbered.lt x id hx
      omega
  · intro x x' id id' hx hx' horder
    rw [hidOf] at hx hx'
    -- the new thread is behind all the others
    split at hx <;> split at hx'
    · simp_all
    · next hth hth' =>
      rw [hth, Function.update_self, Function.update_of_ne hth'] at horder
      have hlt := hnumbered.lt x' id' hx'
      omega
    · next hth hth' =>
      rw [hth', Function.update_self, Function.update_of_ne hth] at horder
      have hlt := hnumbered.lt x id hx
      omega
    · next hth hth' =>
      rw [Function.update_of_ne hth, Function.update_of_ne hth'] at horder
      exact hnumbered.inj x x' id id' hx hx' horder

theorem Counted.createThread (hp : p.Counted) (created : Bool) :
    (p.createThread created).Counted := by
  unfold Pool.createThread
  split
  · have hidOf : ∀ x id, (p.threads ++ [PoolThread.created])[x]?.bind PoolThread.id? = some id →
        p.idOf x = some id := by
      intro x id hx
      by_cases hlt : x < p.threads.length
      · rwa [List.getElem?_append_left hlt] at hx
      · rw [List.getElem?_append_right (by omega)] at hx
        cases hsub : x - p.threads.length <;> simp [hsub, PoolThread.id?] at hx
    have hstarted : (p.threads ++ [PoolThread.created]).countP PoolThread.hasStarted =
        p.startedThreads := by
      simp [startedThreads, PoolThread.hasStarted, PoolThread.id?]
    obtain ⟨order, hnumbered⟩ := hp.numbered
    refine ⟨?_, ?_, ?_, order, ?_, ?_, ?_⟩
    · simp [hp.wait, PoolThread.isWaiting]
    · simp [hp.busy, PoolThread.isBusy]
    · rw [startedThreads, hstarted]
      exact hp.next
    · intro x id hx
      exact hnumbered.id x id (hidOf x id hx)
    · intro x id hx
      rw [startedThreads, hstarted]
      exact hnumbered.lt x id (hidOf x id hx)
    · intro x x' id id' hx hx'
      exact hnumbered.inj x x' id id' (hidOf x id hx) (hidOf x' id' hx')
  · exact hp

/-- The pool is within its limits, and some thread is left. -/
structure Within (t : Throttling) (p : Pool) : Prop where
  pos : 1 ≤ p.totalThreads
  total : p.totalThreads ≤ t.maxThreads
  spare : p.waitThreads ≤ t.maxWaitThreads

/-- The invariant of the pool. -/
structure Sound (t : Throttling) (p : Pool) : Prop where
  counted : p.Counted
  within : p.Within t

/-! ## One step -/

theorem loop_of_le (h : p.waitThreads ≤ t.maxWaitThreads) (th : Nat) (id : Int) :
    p.loop t th id = p.setThread th (.accepting id) := by
  simp [loop, h]

theorem loop_of_lt (h : (t.maxWaitThreads : Int) < p.waitThreads) (th : Nat) (id : Int) :
    p.loop t th id =
      { p.setThread th (.ended id) with waitThreads := p.waitThreads - 1 } := by
  simp [loop, h]

theorem Sound.started (hp : p.Sound t) (h : p.threads[th]? = some .created) :
    (p.started t th).Sound t := by
  have hle : (Pool.waitThreads { p with nextThreadId := toInt32 (p.nextThreadId + 1) }) ≤
      t.maxWaitThreads := hp.within.spare
  unfold Pool.started
  rw [loop_of_le hle]
  constructor
  · refine hp.counted.named h rfl rfl ?_ ?_ rfl <;> simp [setThread, one, PoolThread.isWaiting,
      PoolThread.isBusy]
  · exact ⟨hp.within.pos, hp.within.total, hp.within.spare⟩

/-- A thread whose `st_accept` fails calls it again. -/
theorem Sound.acceptFailed (hp : p.Sound t) (h : p.threads[th]? = some (.accepting id)) :
    p.loop t th id = p := by
  obtain ⟨hth, hold⟩ := List.getElem?_eq_some_iff.mp h
  rw [loop_of_le hp.within.spare, setThread, ← hold, List.set_getElem_self]

/-- The pool when a connection has been accepted, before a spare thread is
created for it. -/
def taken (p : Pool) (th : Nat) (id : Int) : Pool :=
  { p.setThread th (.serving id) with
    waitThreads := p.waitThreads - 1, busyThreads := p.busyThreads + 1 }

@[simp] theorem totalThreads_taken (p : Pool) (th : Nat) (id : Int) :
    (p.taken th id).totalThreads = p.totalThreads := by
  simp only [taken, totalThreads]
  omega

theorem accepted_eq (t : Throttling) (p : Pool) (th : Nat) (id : Int) (created : Bool) :
    p.accepted t th id created =
      if p.waitThreads - 1 < t.minWaitThreads ∧ p.totalThreads < t.maxThreads then
        (p.taken th id).createThread created
      else p.taken th id := by
  rw [← totalThreads_taken p th id]
  rfl

theorem Counted.taken (hp : p.Counted) (h : p.threads[th]? = some (.accepting id)) :
    (p.taken th id).Counted := by
  refine hp.moved h rfl rfl ?_ ?_ rfl <;>
    simp [Pool.taken, one, PoolThread.isWaiting, PoolThread.isBusy]

theorem createThread_waitThreads (p : Pool) (created : Bool) :
    (p.createThread created).waitThreads = p.waitThreads + one created := by
  cases created <;> simp [createThread, one]

theorem createThread_totalThreads (p : Pool) (created : Bool) :
    (p.createThread created).totalThreads = p.totalThreads + one created := by
  cases created <;> simp [createThread, one, totalThreads]
  omega

theorem one_bounds (b : Bool) : 0 ≤ one b ∧ one b ≤ 1 := by
  cases b <;> simp [one]

theorem Sound.accepted (ht : t.Ordered) (hp : p.Sound t)
    (h : p.threads[th]? = some (.accepting id)) (created : Bool) :
    (p.accepted t th id created).Sound t := by
  have hmin := ht.min_le
  have hone := one_bounds created
  obtain ⟨hcounted, hpos, htotal, hspare⟩ := hp
  have hwait : (p.taken th id).waitThreads = p.waitThreads - 1 := rfl
  have hall := totalThreads_taken p th id
  rw [accepted_eq]
  split
  · next hfew =>
    refine ⟨(hcounted.taken h).createThread created, ?_, ?_, ?_⟩
    · rw [createThread_totalThreads]
      omega
    · rw [createThread_totalThreads]
      omega
    · rw [createThread_waitThreads]
      omega
  · exact ⟨hcounted.taken h, by omega, by omega, by omega⟩

/-- The pool when `handle_session` has returned, before the test of the loop. -/
def served (p : Pool) : Pool :=
  { p with
    rqstCount := toInt32 (p.rqstCount + 1)
    waitThreads := p.waitThreads + 1
    busyThreads := p.busyThreads - 1 }

theorem Sound.sessionEnded (hwait : 0 < t.maxWaitThreads) (hp : p.Sound t)
    (h : p.threads[th]? = some (.serving id)) : (p.sessionEnded t th id).Sound t := by
  obtain ⟨hcounted, hpos, htotal, hspare⟩ := hp
  have hserved : p.served.waitThreads = p.waitThreads + 1 := rfl
  have hall : p.served.totalThreads = p.totalThreads := by
    simp only [served, totalThreads]
    omega
  have hstart : p.sessionEnded t th id = p.served.loop t th id := rfl
  rw [hstart]
  by_cases hle : p.served.waitThreads ≤ t.maxWaitThreads
  · rw [loop_of_le hle]
    refine ⟨?_, hall ▸ hpos, hall ▸ htotal, hle⟩
    refine hcounted.moved h rfl rfl ?_ ?_ rfl <;>
      simp [setThread, served, one, PoolThread.isWaiting, PoolThread.isBusy]
  · rw [loop_of_lt (by omega)]
    -- the thread ends, and the spare threads are as many as allowed
    have hended : Pool.Counted { p.served.setThread th (.ended id) with
        waitThreads := p.served.waitThreads - 1 } := by
      refine hcounted.moved h rfl rfl ?_ ?_ rfl <;>
        simp [setThread, served, one, PoolThread.isWaiting, PoolThread.isBusy]
    have hbusy := hended.busy
    refine ⟨hended, ?_, ?_, ?_⟩ <;>
      simp only [setThread, served, totalThreads] at hbusy htotal hle ⊢ <;> omega

/-- What an event does. -/
theorem step_cases (h : p.step t e = .ok p') :
    (∃ th, e = .started th ∧ p.threads[th]? = some .created ∧ p' = p.started t th) ∨
    (∃ th id created, e = .accepted th created ∧ p.threads[th]? = some (.accepting id) ∧
      p' = p.accepted t th id created) ∨
    (∃ th id, e = .acceptFailed th ∧ p.threads[th]? = some (.accepting id) ∧
      p' = p.loop t th id) ∨
    (∃ th id, e = .sessionEnded th ∧ p.threads[th]? = some (.serving id) ∧
      p' = p.sessionEnded t th id) := by
  cases e with
  | started th =>
    simp only [step] at h
    split at h
    · next hth => exact .inl ⟨th, rfl, hth, by simpa using h.symm⟩
    · cases h
  | accepted th created =>
    simp only [step] at h
    split at h
    · next id hth => exact .inr (.inl ⟨th, id, created, rfl, hth, by simpa using h.symm⟩)
    · cases h
  | acceptFailed th =>
    simp only [step] at h
    split at h
    · next id hth => exact .inr (.inr (.inl ⟨th, id, rfl, hth, by simpa using h.symm⟩))
    · cases h
  | sessionEnded th =>
    simp only [step] at h
    split at h
    · next id hth => exact .inr (.inr (.inr ⟨th, id, rfl, hth, by simpa using h.symm⟩))
    · cases h

theorem Sound.step (ht : t.Ordered) (hwait : 0 < t.maxWaitThreads) (hp : p.Sound t)
    (h : p.step t e = .ok p') : p'.Sound t := by
  obtain ⟨th, rfl, hth, rfl⟩ | ⟨th, id, created, rfl, hth, rfl⟩ | ⟨th, id, rfl, hth, rfl⟩ |
    ⟨th, id, rfl, hth, rfl⟩ := step_cases h
  · exact hp.started hth
  · exact hp.accepted ht hth created
  · rwa [hp.acceptFailed hth]
  · exact hp.sessionEnded hwait hth

/-- The spare threads are not too few, or all threads that are allowed are
there. -/
def Ready (t : Throttling) (p : Pool) : Prop :=
  (t.minWaitThreads : Int) ≤ p.waitThreads ∨ p.totalThreads = t.maxThreads

/-- The limits are kept from below as long as threads can be created. -/
theorem Ready.step (ht : t.Ordered) (hp : p.Sound t) (hr : p.Ready t) (hc : e.creates = true)
    (h : p.step t e = .ok p') : p'.Ready t := by
  have hmin := ht.min_le
  obtain ⟨th, rfl, hth, rfl⟩ | ⟨th, id, created, rfl, hth, rfl⟩ | ⟨th, id, rfl, hth, rfl⟩ |
    ⟨th, id, rfl, hth, rfl⟩ := step_cases h
  · unfold Pool.started
    rwa [loop_of_le (p := { p with nextThreadId := toInt32 (p.nextThreadId + 1) }) hp.within.spare]
  · cases hc
    have htotal := hp.within.total
    rw [accepted_eq]
    split
    · next hfew =>
      rcases hr with hr | hr
      · refine Or.inl ?_
        rw [createThread_waitThreads]
        simp only [taken, one, if_true]
        omega
      · omega
    · next hmany =>
      unfold Ready
      rw [totalThreads_taken]
      simp only [taken]
      omega
  · rwa [hp.acceptFailed hth]
  · have hstart : p.sessionEnded t th id = p.served.loop t th id := rfl
    rw [hstart]
    by_cases hle : p.served.waitThreads ≤ t.maxWaitThreads
    · rw [loop_of_le hle]
      simp only [Ready, setThread, served, totalThreads] at hr ⊢
      omega
    · rw [loop_of_lt (by omega)]
      simp only [Ready, setThread, served] at hle ⊢
      omega

/-- Of the connections that were accepted, so many, those that are not being
served have been counted. -/
def Requests (p : Pool) (nAccepted : Int) : Prop :=
  p.rqstCount = toInt32 (nAccepted - p.busyThreads)

theorem Requests.step (hp : p.Sound t) (h : p.step t e = .ok p') {nAccepted : Int}
    (hr : p.Requests nAccepted) : p'.Requests (nAccepted + one e.isAccepted) := by
  unfold Requests at hr ⊢
  obtain ⟨th, rfl, hth, rfl⟩ | ⟨th, id, created, rfl, hth, rfl⟩ | ⟨th, id, rfl, hth, rfl⟩ |
    ⟨th, id, rfl, hth, rfl⟩ := step_cases h
  · unfold Pool.started
    rw [loop_of_le (p := { p with nextThreadId := toInt32 (p.nextThreadId + 1) }) hp.within.spare]
    simpa [setThread, PoolEvent.isAccepted, one] using hr
  · have htaken : p.rqstCount = toInt32 (nAccepted + 1 - (p.busyThreads + 1)) := by
      rw [hr]
      congr 1
      omega
    rw [accepted_eq]
    cases created <;> split <;>
      simpa [taken, setThread, createThread, PoolEvent.isAccepted, one] using htaken
  · rw [hp.acceptFailed hth]
    simpa [PoolEvent.isAccepted, one] using hr
  · have hstart : p.sessionEnded t th id = p.served.loop t th id := rfl
    have hserved : toInt32 (p.rqstCount + 1) = toInt32 (nAccepted - (p.busyThreads - 1)) := by
      rw [hr, toInt32_toInt32_add]
      congr 1
      omega
    rw [hstart]
    unfold loop
    split <;> simpa [setThread, served, PoolEvent.isAccepted, one] using hserved

/-! ## Whole runs -/

theorem startThreads_append (l : List Bool) (created : Bool) :
    startThreads (l ++ [created]) = (startThreads l).createThread created := by
  simp [startThreads, List.foldl_append]

theorem counted_startThreads (l : List Bool) : (startThreads l).Counted := by
  induction l using List.reverseRecOn with
  | nil =>
    refine ⟨rfl, rfl, by decide, id, ?_, ?_, ?_⟩
    · intro x id hx
      cases hx
    · intro x id hx
      cases hx
    · intro x x' id id' hx
      cases hx
  | append_singleton l created ih =>
    rw [startThreads_append]
    exact ih.createThread created

theorem startThreads_counters (l : List Bool) :
    (startThreads l).waitThreads = l.count true ∧ (startThreads l).busyThreads = 0 ∧
      (startThreads l).rqstCount = 0 := by
  induction l using List.reverseRecOn with
  | nil => exact ⟨rfl, rfl, rfl⟩
  | append_singleton l created ih =>
    obtain ⟨hwait, hbusy, hrqst⟩ := ih
    rw [startThreads_append]
    refine ⟨?_, ?_, ?_⟩
    · rw [createThread_waitThreads, hwait, List.count_append]
      cases created <;> simp [one]
    · cases created <;> simpa [createThread] using hbusy
    · cases created <;> simpa [createThread] using hrqst

theorem Starts.sound (ht : t.Ordered) (h : Starts t p) :
    p.Sound t ∧ 0 < t.maxWaitThreads ∧ p.rqstCount = 0 ∧ p.busyThreads = 0 := by
  obtain ⟨l, hlength, htrue, rfl⟩ := h
  obtain ⟨hwait, hbusy, hrqst⟩ := startThreads_counters l
  have hle : l.count true ≤ l.length := List.count_le_length
  have hpos : 0 < l.count true := List.count_pos_iff.mpr htrue
  have hmax := ht.wait_le
  refine ⟨⟨counted_startThreads l, ?_, ?_, ?_⟩, by omega, hrqst, hbusy⟩ <;>
    simp only [totalThreads, hwait, hbusy] <;> omega

/-- **The counters tell the truth.** Whatever limits are asked for and in
whatever order the threads run, accept, fail to accept and end, the counters
of a socket are the numbers of threads that wait and that are busy, some
thread is left, there are no more threads and no more spare threads than
allowed, and `rqst_count` is the number of connections that were accepted
and are not being served any more, as an `int`. No two threads have one id
as long as no more threads have been run than there are `int`s. -/
theorem pool_bounds {vpCount : Nat} (hvp : 0 < vpCount) (skCount fdLimit : Nat)
    (limits : Throttling) {p₀ p : Pool} {es : List PoolEvent}
    (hstart : Starts (setThreadThrottling vpCount skCount fdLimit limits) p₀)
    (hrun : (machine (setThreadThrottling vpCount skCount fdLimit limits)).run p₀ es = .ok p) :
    p.waitThreads = p.threads.countP PoolThread.isWaiting ∧
      p.busyThreads = p.threads.countP PoolThread.isBusy ∧
      p.Within (setThreadThrottling vpCount skCount fdLimit limits) ∧
      p.rqstCount = toInt32 (es.countP PoolEvent.isAccepted - p.busyThreads) ∧
      (p.startedThreads ≤ 4294967296 → ∀ th th' id, p.idOf th = some id → p.idOf th' = some id →
        th = th') := by
  have ht := ordered_setThreadThrottling hvp skCount fdLimit limits
  revert hstart hrun ht
  generalize setThreadThrottling vpCount skCount fdLimit limits = t
  intro hstart hrun ht
  obtain ⟨hp₀, hwait, hrqst, hbusy⟩ := hstart.sound ht
  -- the counts of the start and of the run so far
  have hall : ∀ {es : List PoolEvent} {q : Pool} {n : Int}, q.Sound t → q.Requests n →
      (machine t).run q es = .ok p →
      p.Sound t ∧ p.Requests (n + es.countP PoolEvent.isAccepted) := by
    intro es
    induction es with
    | nil =>
      intro q n hq hn hr
      cases hr
      exact ⟨hq, by simpa using hn⟩
    | cons e es ih =>
      intro q n hq hn hr
      obtain ⟨q', hq', hr⟩ := Machine.run_cons_eq_ok.mp hr
      obtain ⟨hp, hcount⟩ := ih (hq.step ht hwait hq') (hn.step hq hq') hr
      refine ⟨hp, ?_⟩
      have hadd : n + ((e :: es).countP PoolEvent.isAccepted : Int) =
          n + one e.isAccepted + es.countP PoolEvent.isAccepted := by
        rw [List.countP_cons]
        cases e.isAccepted <;> simp [one]
        omega
      rw [hadd]
      exact hcount
  have hstarted : p₀.Requests 0 := by
    rw [Requests, hrqst, hbusy]
    rfl
  obtain ⟨hp, hcount⟩ := hall hp₀ hstarted hrun
  rw [zero_add] at hcount
  exact ⟨hp.counted.wait, hp.counted.busy, hp.within, hcount,
    fun hfew _ _ _ h h' => hp.counted.id_inj hfew h h'⟩

/-- One process with default limits on a small system: two threads in all.
One serves a connection, and the other, whose first connection is gone,
waits again. -/
theorem pool_bounds_small :
    ∃ p : Pool, (machine (setThreadThrottling 1 1 4 {})).run (startThreads [true, true])
        [.started 1, .started 0, .acceptFailed 0, .accepted 0 true, .accepted 1 false,
          .sessionEnded 0] = .ok p ∧
      p.Within (setThreadThrottling 1 1 4 {}) ∧ p.rqstCount = toInt32 (2 - p.busyThreads) ∧
      p.busyThreads = 1 ∧
      (∀ th th' id, p.idOf th = some id → p.idOf th' = some id → th = th') := by
  have hrun : (machine (setThreadThrottling 1 1 4 {})).run (startThreads [true, true])
      [.started 1, .started 0, .acceptFailed 0, .accepted 0 true, .accepted 1 false,
        .sessionEnded 0] =
      .ok { waitThreads := 1, busyThreads := 1, rqstCount := 1, nextThreadId := 2
            threads := [.accepting 1, .serving 0] } := by
    decide
  have hstart : Starts (setThreadThrottling 1 1 4 {}) (startThreads [true, true]) :=
    ⟨[true, true], by decide, by decide, rfl⟩
  obtain ⟨-, -, hwithin, hrqst, hids⟩ := pool_bounds (by decide) 1 4 {} hstart hrun
  exact ⟨_, hrun, hwithin, hrqst, rfl, hids (by decide)⟩

/-- **A connection is waited for.** While no `st_thread_create` fails, some
thread is there to accept the next connection, unless as many threads as are
allowed are busy. -/
theorem pool_ready {vpCount : Nat} (hvp : 0 < vpCount) (skCount fdLimit : Nat)
    (limits : Throttling) (hmin : 0 < limits.minWaitThreads)
    (hwait : 0 < (setThreadThrottling vpCount skCount fdLimit limits).maxWaitThreads)
    {p : Pool} {es : List PoolEvent} (hes : ∀ e ∈ es, e.creates = true)
    (hrun : (machine (setThreadThrottling vpCount skCount fdLimit limits)).run
      (startThreads (List.replicate
        (setThreadThrottling vpCount skCount fdLimit limits).maxWaitThreads true)) es = .ok p) :
    (∃ thread ∈ p.threads, thread.isWaiting = true) ∨
      p.threads.countP PoolThread.isBusy =
        (setThreadThrottling vpCount skCount fdLimit limits).maxThreads := by
  have ht := ordered_setThreadThrottling hvp skCount fdLimit limits
  have hminWait : 0 < (setThreadThrottling vpCount skCount fdLimit limits).minWaitThreads :=
    capped_pos hmin hwait
  revert hwait hrun ht hminWait
  generalize setThreadThrottling vpCount skCount fdLimit limits = t
  intro hwait hrun ht hminWait
  have hstart : Starts t (startThreads (List.replicate t.maxWaitThreads true)) :=
    ⟨_, by simp, by simp [List.mem_replicate]; omega, rfl⟩
  have hready : (startThreads (List.replicate t.maxWaitThreads true)).Ready t := by
    refine Or.inl ?_
    rw [(startThreads_counters _).1, List.count_replicate_self]
    exact_mod_cast ht.min_le
  obtain ⟨hp, hr⟩ : p.Sound t ∧ p.Ready t :=
    Machine.Meets.run (I := fun q => q.Sound t ∧ q.Ready t)
      (fun q e q' hq hc hs => ⟨hq.1.step ht hwait hs, hq.2.step ht hq.1 hc hs⟩)
      ⟨(hstart.sound ht).1, hready⟩ (Machine.meets_of_forall fun _ e he => hes e he) hrun
  have hcounted := hp.counted.wait
  by_cases hnone : 0 < p.threads.countP PoolThread.isWaiting
  · exact Or.inl (by simpa [List.countP_pos_iff] using hnone)
  · refine Or.inr ?_
    have hbusy := hp.counted.busy
    simp only [Ready, totalThreads] at hr
    omega

/-- The second connection takes the last thread that is allowed. -/
theorem pool_ready_small :
    (∃ thread ∈ [PoolThread.serving 0, .serving 1], thread.isWaiting = true) ∨
      [PoolThread.serving 0, .serving 1].countP PoolThread.isBusy = 2 := by
  have hrun : (machine (setThreadThrottling 1 1 4 {})).run (startThreads [true, true])
      [.started 0, .started 1, .acceptFailed 0, .accepted 0 true, .accepted 1 true] =
      .ok { busyThreads := 2, nextThreadId := 2, threads := [.serving 0, .serving 1] } := by
    decide
  exact pool_ready (by decide : 0 < 1) 1 4 {} (by decide) (by decide) (by decide) hrun

end Pool

end HoxServer
