/-
HoxServer.Server.Ratings — are ratings lost?

A game writes the scores of its two players as absolute values, computed
from the `hoxPlayer` objects at the table. A write is fresh when the
object had the score that was written last for its player. `ratings_kept`
is the law of every run whose rating changes are all fresh: with the
queue worked off, a stored score is the initial one plus all changes.

The law fails without the condition. `_authenticate_request` loads a new
object before it closes the session that exists, and closing that session
may end a game (`rating_lost`).

The invariant is that of every table with the balance of the scores; the
functions that tables, queue and database go through (`Does`) keep it, one
by one.
-/
import HoxServer.Server.Sessions
import HoxServer.Table.TableTheorems

namespace HoxServer

namespace Server

open Lib WriteBehind

variable {s s' s'' : Server} {i : Input} {t : TableRef} {op : TableOp} {res : Result}
  {th : ThreadRef} {session : SessionRef} {player : PlayerRef} {b : Bool}

/-- The same queue and database, and the same tables but for new ones. -/
structure SameRatings (s s' : Server) : Prop where
  table : ∀ t, s'.table t = s.table t ∨ ∃ id initialTime, s'.table t = Table.new id initialTime
  requestList : s'.requestList = s.requestList
  writing : s'.writing = s.writing
  db : s'.db = s.db
  commits : s'.commits = s.commits

theorem sameRatings_of_table (htable : s'.table = s.table)
    (hrequests : s'.requestList = s.requestList) (hwriting : s'.writing = s.writing)
    (hdb : s'.db = s.db) (hcommits : s'.commits = s.commits) : s.SameRatings s' :=
  ⟨fun t => Or.inl (by rw [htable]), hrequests, hwriting, hdb, hcommits⟩

theorem SameTables.sameRatings (h : s.SameTables s') : s.SameRatings s' := by
  obtain ⟨_, _, _, _, _, _, rfl⟩ := h
  exact sameRatings_of_table rfl rfl rfl rfl rfl

theorem sameRatings_createTable (s : Server) (i : Input) (initialTime : TimeInfo) :
    s.SameRatings (s.createTable i initialTime).1 := by
  refine ⟨fun t => ?_, rfl, rfl, rfl, rfl⟩
  by_cases ht : t = s.tableCount
  · right
    subst ht
    exact ⟨(s.tableMgr.createTable s.tableCount).2, initialTime, by simp [createTable]⟩
  · left
    simp [createTable, ht]

theorem sameRatings_insertTable (s : Server) (player : PlayerRef) (t : TableRef) :
    s.SameRatings (s.insertTable player t) := by
  unfold insertTable
  simp only
  split
  · exact sameRatings_of_table rfl rfl rfl rfl rfl
  · exact sameRatings_of_table rfl rfl rfl rfl rfl

/-! ## The invariant -/

/-- The stored scores of a database. -/
def scoresOf (db : Bytes → Option PlayerRow) (pid : Bytes) : Option Int :=
  (db pid).map PlayerRow.score

/-- The invariants of the tables, and the balance of the scores as long as
all rating changes are fresh. -/
structure Kept (db : Bytes → Option PlayerRow) (s : Server) : Prop where
  replays : ∀ t, (s.table t).Replays
  distinct : ∀ t, (s.table t).SeatsDistinct
  balanced : (∀ c ∈ s.commits, c.Fresh) → Balanced (scoresOf db) (changes s.commits) s.scores

variable {db : Bytes → Option PlayerRow}

theorem replays_newTable (id : Bytes) (initialTime : TimeInfo) :
    (Table.new id initialTime).Replays :=
  Table.replays_of_nil rfl (by simp only [Table.new])

theorem distinct_newTable (id : Bytes) (initialTime : TimeInfo) :
    (Table.new id initialTime).SeatsDistinct := by
  intro p hp
  cases hp

theorem kept_init (db : Bytes → Option PlayerRow) : Kept db { db } := by
  refine ⟨fun t => replays_newTable _ _, fun t => distinct_newTable _ _, fun _ => ?_⟩
  exact balanced_init (scoresOf db)

theorem SameRatings.kept (h : s.SameRatings s') (hs : Kept db s) : Kept db s' := by
  have hscores : s'.scores = s.scores := by
    simp only [scores, h.writing, h.requestList, h.db]
  refine ⟨fun t => ?_, fun t => ?_, ?_⟩
  · rcases h.table t with ht | ⟨id, initialTime, ht⟩
    · rw [ht]
      exact hs.replays t
    · rw [ht]
      exact replays_newTable id initialTime
  · rcases h.table t with ht | ⟨id, initialTime, ht⟩
    · rw [ht]
      exact hs.distinct t
    · rw [ht]
      exact distinct_newTable id initialTime
  · rw [h.commits, hscores]
    exact hs.balanced

theorem Kept.of_table (hs : Kept db s) (htable : s'.table = s.table)
    (hrequests : s'.requestList = s.requestList) (hwriting : s'.writing = s.writing)
    (hdb : s'.db = s.db) (hcommits : s'.commits = s.commits) : Kept db s' :=
  (sameRatings_of_table htable hrequests hwriting hdb hcommits).kept hs

/-- A call queues the scores it has computed. -/
theorem callTable_scores (hs : Kept db s) (h : s.callTable i t op = .ok (s', res)) :
    ∃ ws, s'.commits = s.commits ++ s.scores.commits ws ∧ s'.scores = s.scores.pushAll ws := by
  unfold callTable at h
  split at h
  · cases h
  · rename_i w res' hcall
    cases h
    obtain ⟨e, hcalled⟩ := World.call_called (hs.replays t).lawful hcall
    obtain ⟨requests, cs, hrequests, hchanges, hids⟩ := hcalled.records (hs.distinct t)
    refine ⟨s.writesOf w, rfl, ?_⟩
    have hpushed : (s.writesOf w).map (fun x => (x.1, x.2.1 + x.2.2))
        = w.requests.map fun r => (r.pid, r.score) := by
      rw [hrequests, writesOf, hchanges]
      simpa [world, Function.comp_def] using hids.symm
    rw [pushAll_eq, hpushed]
    simp [scores]

theorem callTable_table (hs : Kept db s) (h : s.callTable i t op = .ok (s', res)) (x : TableRef) :
    (s'.table x).Replays ∧ (s'.table x).SeatsDistinct := by
  unfold callTable at h
  split at h
  · cases h
  · rename_i w res' hcall
    cases h
    obtain ⟨e, hcalled⟩ := World.call_called (hs.replays t).lawful hcall
    by_cases hx : x = t
    · subst hx
      simp only [Function.update_self]
      exact ⟨(hs.replays x).effect hcalled.effect, (hs.distinct x).effect hcalled.effect⟩
    · simp only [Function.update_of_ne hx]
      exact ⟨hs.replays x, hs.distinct x⟩

theorem kept_callTable (hs : Kept db s) (h : s.callTable i t op = .ok (s', res)) : Kept db s' := by
  refine ⟨fun x => (callTable_table hs h x).1, fun x => (callTable_table hs h x).2, fun hfresh => ?_⟩
  obtain ⟨ws, hcommits, hscores⟩ := callTable_scores hs h
  rw [hcommits] at hfresh
  have hbefore := hs.balanced (fun c hc => hfresh c (List.mem_append_left _ hc))
  have hafter := hbefore.pushAll (fun c hc => hfresh c (List.mem_append_right _ hc))
  rw [hcommits, hscores]
  simpa [changes] using hafter

/-- Taking a request from the queue does not change what waits. -/
theorem kept_takeRequest (hs : Kept db s) (h : s.takeRequest = .ok s') : Kept db s' := by
  unfold takeRequest at h
  split at h
  · rename_i r rest hwriting hqueue
    cases h
    refine ⟨hs.replays, hs.distinct, fun hfresh => ?_⟩
    have hbalanced := hs.balanced hfresh
    simpa [scores, hwriting, hqueue] using hbalanced
  · cases h

theorem updateRow_score (r : PlayerSetRequest) (row : PlayerRow) :
    (updateRow r row).score = r.score := by
  unfold updateRow
  simp only
  split_ifs <;> rfl

/-- Writing a request to the database works off the head of the queue. -/
theorem setPlayerInfo_scores {r : PlayerSetRequest} (hwriting : s.writing = some r) :
    ({ s with
        writing := none
        db := Function.update s.db r.pid ((s.db r.pid).map (updateRow r)) }
      : Server).scores.drained = s.scores.drained := by
  have hpending : s.scores.pending
      = (r.pid, r.score) :: s.requestList.map fun r => (r.pid, r.score) := by
    simp [scores, hwriting]
  rw [← drained_overwrite hpending]
  refine congrArg drained ?_
  simp only [scores, Option.toList_none, List.nil_append, WriteBehind.mk.injEq, and_true]
  funext pid
  by_cases hpid : pid = r.pid
  · subst hpid
    simp [overwrite, Function.comp_def, updateRow_score]
  · simp [overwrite, hpid]

theorem kept_setPlayerInfo (hs : Kept db s) (h : s.setPlayerInfo = .ok s') : Kept db s' := by
  unfold setPlayerInfo at h
  split at h
  · cases h
  · rename_i r hwriting
    cases h
    refine ⟨hs.replays, hs.distinct, fun hfresh pid v hv => ?_⟩
    rw [setPlayerInfo_scores hwriting]
    exact hs.balanced hfresh pid v hv

theorem kept_joinTableAs {c : Color} (hs : Kept db s) (h : s.joinTableAs i player t c = .ok s') :
    Kept db s' := by
  obtain ⟨⟨s₁, res⟩, hcall, h⟩ := bind_eq_ok.mp h
  have hs₁ := kept_callTable hs hcall
  cases h
  split
  · exact (sameRatings_insertTable s₁ player t).kept hs₁
  · exact hs₁

theorem kept_leaveTable (hs : Kept db s) (h : s.leaveTable i player t = .ok s') : Kept db s' := by
  obtain ⟨⟨s₁, res⟩, hcall, h⟩ := bind_eq_ok.mp h
  cases h
  exact (kept_callTable hs hcall).of_table rfl rfl rfl rfl rfl

/-- Whatever a part of the server does, it keeps the balance. -/
theorem Does.kept (h : s.Does s') (hs : Kept db s) : Kept db s' := by
  induction h with
  | refl => exact hs
  | quiet _ hsame ih => exact hsame.sameRatings.kept ih
  | newPlayer _ p ih => exact ih.of_table rfl rfl rfl rfl rfl
  | createTable _ i initialTime ih => exact (sameRatings_createTable _ i initialTime).kept ih
  | joinTableAs _ _ _ hjoin ih => exact kept_joinTableAs ih hjoin
  | leaveTable _ hleave ih => exact kept_leaveTable ih hleave
  | callTable _ _ hcall ih => exact kept_callTable ih hcall
  | runCleanup _ ih => exact ih.of_table rfl rfl rfl rfl rfl
  | takeRequest _ htake ih => exact kept_takeRequest ih htake
  | setPlayerInfo _ hset ih => exact kept_setPlayerInfo ih hset

theorem reachable_kept (h : (machine db).Reachable s) : Kept db s := by
  have hboth : s.Sound ∧ Kept db s := by
    induction h with
    | init hs =>
      cases hs
      exact ⟨sound_init db, kept_init db⟩
    | step _ hstep ih =>
      have hacts := acts_wake ih.1 hstep
      exact ⟨hacts.sound, hacts.does.kept ih.2⟩
  exact hboth.2

/-- **Ratings are kept**, whatever the order of the threads, as long as
every rating change is made to the score written last: with the queue
worked off, a stored score is the initial one plus all changes. -/
theorem ratings_kept (h : (machine db).Reachable s) (hfresh : ∀ c ∈ s.commits, c.Fresh)
    (hqueue : s.requestList = []) (hwriting : s.writing = none) {pid : Bytes} {row : PlayerRow}
    (hrow : db pid = some row) :
    ∃ row', s.db pid = some row' ∧ row'.score = row.score + total (changes s.commits) pid := by
  have hbalanced := (reachable_kept h).balanced hfresh pid row.score (by simp [scoresOf, hrow])
  rw [drained_of_empty (by simp [scores, hqueue, hwriting])] at hbalanced
  exact Option.map_eq_some_iff.mp hbalanced

/-- **One call, exactly.** After fresh changes only, a call that changes
the scores of different registered players keeps the balance if and only
if its changes are fresh too. -/
theorem callTable_balanced_iff (h : (machine db).Reachable s) (hfresh : ∀ c ∈ s.commits, c.Fresh)
    (hcall : s.callTable i t op = .ok (s', res)) {cs : List (Commit Bytes Int)}
    (hcs : s'.commits = s.commits ++ cs) (hnodup : (cs.map Commit.key).Nodup)
    (hregistered : ∀ c ∈ cs, ∃ row, db c.key = some row) :
    Balanced (scoresOf db) (changes s'.commits) s'.scores ↔ ∀ c ∈ cs, c.Fresh := by
  have hs := reachable_kept h
  obtain ⟨ws, hcommits, hscores⟩ := callTable_scores hs hcall
  have he : cs = s.scores.commits ws := List.append_cancel_left (hcs.symm.trans hcommits)
  have hkeys : (s.scores.commits ws).map Commit.key = ws.map Prod.fst := by
    have hchanges := congrArg (List.map Prod.fst) (changes_commits s.scores ws)
    simpa [changes, Function.comp_def] using hchanges
  subst he
  rw [hcommits, hscores, changes, List.map_append]
  refine balanced_pushAll_iff (hs.balanced hfresh) (by rwa [← hkeys]) (fun w hw => ?_)
  have hw' : w.1 ∈ (s.scores.commits ws).map Commit.key := by
    rw [hkeys]
    exact List.mem_map_of_mem hw
  obtain ⟨c, hc, hck⟩ := List.mem_map.mp hw'
  obtain ⟨row, hrow⟩ := hregistered c hc
  exact ⟨row.score, by rw [← hck]; simp [scoresOf, hrow]⟩

/-! ## Runs -/

/-- Two registered players. -/
def twoRows (pid : Bytes) : Option PlayerRow :=
  if pid = bytes "red" ∨ pid = bytes "black" then some { score := 1500, hpassword := bytes "pw" }
  else none

/-- A flash client connects and logs in, up to the answer of the agent. -/
def loginOf (th : ThreadRef) (pid newSessionId : Bytes) : List (Input × Wake) :=
  [({ now := 0 }, .connected th { pid, hpassword := bytes "pw", clientType := .flash }),
   ({ newSessionId }, .playerInfo th)]

def requestOf (th : ThreadRef) (request : Request) : List (Input × Wake) :=
  [({ now := 0 }, .requestRead th request), ({ now := 0 }, .yielded th)]

/-- The write thread writes the two scores of a game. -/
def writeBoth : List (Input × Wake) :=
  [({ now := 0 }, .requestTaken), ({ now := 0 }, .requestWritten),
   ({ now := 0 }, .requestTaken), ({ now := 0 }, .requestWritten)]

/-- Two players log in, start a game and make a move each. -/
def gameStarted : List (Input × Wake) :=
  loginOf 1 (bytes "red") (bytes "1") ++ [({ now := 0 }, .terminated 1 true)] ++
    loginOf 2 (bytes "black") (bytes "2") ++ [({ now := 0 }, .terminated 2 true)] ++
    requestOf 1 (.new {} .red) ++ requestOf 2 (.join (bytes "1") .black) ++
    requestOf 1 (.move (bytes "1") (bytes "4948")) ++
    requestOf 2 (.move (bytes "1") (bytes "4041"))

theorem ratings_kept_resigned : ∃ s,
    (machine twoRows).run { db := twoRows }
        (gameStarted ++ requestOf 1 (.resign (bytes "1")) ++ writeBoth) = .ok s ∧
      changes s.commits = [(bytes "red", -12), (bytes "black", 12)] ∧
      ∃ row, s.db (bytes "red") = some row ∧
        row.score = 1500 + total (changes s.commits) (bytes "red") := by
  have hrun : ((machine twoRows).run { db := twoRows }
      (gameStarted ++ requestOf 1 (.resign (bytes "1")) ++ writeBoth)).map (fun s =>
        (changes s.commits, s.requestList, s.writing, s.commits.all fun c => decide c.Fresh))
      = .ok ([(bytes "red", -12), (bytes "black", 12)], [], none, true) := by decide +kernel
  obtain ⟨s, hs, he⟩ := map_eq_ok.mp hrun
  simp only [Prod.mk.injEq, List.all_eq_true, decide_eq_true_eq] at he
  obtain ⟨hchanges, hqueue, hwriting, hfresh⟩ := he
  refine ⟨s, hs, hchanges, ?_⟩
  exact ratings_kept (Lib.Machine.Reachable.run (.init rfl) hs) hfresh hqueue hwriting
    (show twoRows (bytes "red") = some { score := 1500, hpassword := bytes "pw" } by decide)

/-- RED logs in again while he plays. The object of the new session has
been loaded before the old session is closed, which loses the game for
RED; his next game starts from the score before that loss. -/
def loginAgain : List (Input × Wake) :=
  gameStarted ++ loginOf 3 (bytes "red") [] ++
    [({ now := 0 }, .writeThreadEnded 0), ({ newSessionId := bytes "3" }, .joined 3),
     ({ now := 0 }, .terminated 3 true)] ++ writeBoth ++
    requestOf 3 (.join (bytes "1") .red) ++ requestOf 2 (.reset (bytes "1")) ++
    requestOf 3 (.move (bytes "1") (bytes "4948")) ++ requestOf 3 (.resign (bytes "1")) ++ writeBoth

/-- RED has lost twice, 12 points each time, and is left with 1488. -/
theorem rating_lost : ∃ s row, (machine twoRows).run { db := twoRows } loginAgain = .ok s ∧
    s.requestList = [] ∧ s.writing = none ∧
    total (changes s.commits) (bytes "red") = -24 ∧
    s.db (bytes "red") = some row ∧ row.score = 1488 ∧
    ∀ row₀, twoRows (bytes "red") = some row₀ →
      row.score ≠ row₀.score + total (changes s.commits) (bytes "red") := by
  have hrun : ((machine twoRows).run { db := twoRows } loginAgain).map (fun s =>
      (s.requestList, s.writing, total (changes s.commits) (bytes "red"),
        (s.db (bytes "red")).map PlayerRow.score)) = .ok ([], none, -24, some 1488) := by
    decide +kernel
  obtain ⟨s, hs, he⟩ := map_eq_ok.mp hrun
  simp only [Prod.mk.injEq, Option.map_eq_some_iff] at he
  obtain ⟨hqueue, hwriting, htotal, row, hrow, hscore⟩ := he
  refine ⟨s, row, hs, hqueue, hwriting, htotal, hrow, hscore, fun row₀ hrow₀ => ?_⟩
  have hstored : row₀.score = 1500 := by
    rw [show twoRows (bytes "red") = some { score := 1500, hpassword := bytes "pw" } by decide]
      at hrow₀
    cases hrow₀
    rfl
  rw [hscore, htotal, hstored]
  decide

end Server

end HoxServer
