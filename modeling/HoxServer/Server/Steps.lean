/-
HoxServer.Server.Steps — what the parts of the server do to tables,
players and the queue.

`Does` is a run of the few functions that change any of them. Whatever
else the server does between them is `SameTables`: it has to do with
sessions and threads only. An invariant of tables, players and the queue
that these functions keep is kept by every step (`Acts.does`).
-/
import HoxServer.Server.Server

namespace HoxServer

/-- A player comes to the table, or leaves it. -/
def TableOp.MovesPlayer : TableOp → Prop
  | .assignPlayerAs _ _ | .onLeaveFromPlayer _ => True
  | _ => False

namespace Server

open Lib

variable {s s' s'' : Server} {i : Input} {t : TableRef} {op : TableOp} {res : Result}
  {player : PlayerRef}

/-- Only sessions and threads are changed. -/
def SameTables (s s' : Server) : Prop :=
  ∃ session sessionCount sessions thread managing logouts,
    s' = { s with session, sessionCount, sessions, thread, managing, logouts }

/-- Calls of tables, new objects and steps of the queue, one after the
other. A player who joins has been made, and the table has an id. -/
inductive Does (s : Server) : Server → Prop
  | refl : Does s s
  | quiet {s' s'' : Server} (h : Does s s') (hsame : s'.SameTables s'') : Does s s''
  | newPlayer {s' : Server} (h : Does s s') (p : Player) : Does s (s'.newPlayer p).1
  | createTable {s' : Server} (h : Does s s') (i : Input) (initialTime : TimeInfo) :
      Does s (s'.createTable i initialTime).1
  | joinTableAs {s' s'' : Server} {i : Input} {player : PlayerRef} {t : TableRef} {c : Color}
      (h : Does s s') (hplayer : player < s'.playerCount) (ht : t ∈ s'.tableMgr.getTables)
      (hjoin : s'.joinTableAs i player t c = .ok s'') : Does s s''
  | leaveTable {s' s'' : Server} {i : Input} {player : PlayerRef} {t : TableRef}
      (h : Does s s') (hleave : s'.leaveTable i player t = .ok s'') : Does s s''
  | callTable {s' s'' : Server} {i : Input} {t : TableRef} {op : TableOp} {res : Result}
      (h : Does s s') (hop : ¬ op.MovesPlayer) (hcall : s'.callTable i t op = .ok (s'', res)) :
      Does s s''
  | runCleanup {s' : Server} (h : Does s s') : Does s s'.runCleanup
  | takeRequest {s' s'' : Server} (h : Does s s') (htake : s'.takeRequest = .ok s'') : Does s s''
  | setPlayerInfo {s' s'' : Server} (h : Does s s') (hset : s'.setPlayerInfo = .ok s'') :
      Does s s''

theorem Does.trans (h : s.Does s') (h' : s'.Does s'') : s.Does s'' := by
  induction h' with
  | refl => exact h
  | quiet _ hsame ih => exact ih.quiet hsame
  | newPlayer _ p ih => exact ih.newPlayer p
  | createTable _ i initialTime ih => exact ih.createTable i initialTime
  | joinTableAs _ hplayer ht hjoin ih => exact ih.joinTableAs hplayer ht hjoin
  | leaveTable _ hleave ih => exact ih.leaveTable hleave
  | callTable _ hop hcall ih => exact ih.callTable hop hcall
  | runCleanup _ ih => exact ih.runCleanup
  | takeRequest _ htake ih => exact ih.takeRequest htake
  | setPlayerInfo _ hset ih => exact ih.setPlayerInfo hset

theorem SameTables.does (h : s.SameTables s') : s.Does s' := Does.refl.quiet h

theorem does_map_callTable (h : (s.callTable i t op).map Prod.fst = .ok s')
    (hop : ¬ op.MovesPlayer) : s.Does s' := by
  obtain ⟨⟨s₁, res⟩, hcall, he⟩ := map_eq_ok.mp h
  cases he
  exact Does.refl.callTable hop hcall

theorem does_manageTables (h : s.manageTables i = .ok s') : s.Does s' :=
  foldlM_invariant (fun _ _ _ hs h => hs.trans (does_map_callTable h not_false)) _ .refl h

theorem does_leaveAllTables (h : s.leaveAllTables i player = .ok s') : s.Does s' :=
  foldlM_invariant (fun _ _ _ hs h => hs.leaveTable h) _ .refl h

theorem does_atTable {tid : Bytes} (h : s.atTable i player tid op = .ok s')
    (hop : ¬ op.MovesPlayer) : s.Does s' := by
  unfold atTable at h
  split at h
  · cases h
    exact .refl
  · exact does_map_callTable h hop

/-- A table that is found is in the map. -/
theorem mem_getTables {tid : Bytes} (h : s.tableMgr.findTable tid = some t) :
    t ∈ s.tableMgr.getTables :=
  List.mem_map_of_mem (SortedMap.mem_of_get? h)

/-- A table that is created is in the map. -/
theorem mem_getTables_createTable (s : Server) (i : Input) (initialTime : TimeInfo) :
    s.tableCount ∈ (s.createTable i initialTime).1.tableMgr.getTables :=
  List.mem_map_of_mem (SortedMap.mem_set_self (k := (s.tableMgr.createTable s.tableCount).2))

end Server

end HoxServer
