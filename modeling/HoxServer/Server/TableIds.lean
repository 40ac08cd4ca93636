/-
HoxServer.Server.TableIds — the ids that the table manager gives out.

Whatever tables are created and deleted, and whichever are empty when the
cleanup runs, every table is in the map under its own id, and the ids of
the map and the free ones are the first `n` numbers (`Keyed`). A number is
an `int`: those behind `2 ^ 31 - 1` are negative, and the one behind
`2 ^ 32` is 1 again, so a table that is created when all the numbers are
in use takes the place of another.
-/
import HoxServer.Server.Server

namespace HoxServer

open Lib Net

/-- A call of `hoxTableMgr`. -/
inductive TableMgrCall where
  | createTable (i : Input) (initialTime : TimeInfo)
  | deleteTable (tableId : Bytes)
  /-- By then the tables have these players. -/
  | runCleanup (players : TableRef → List PlayerRef)

namespace Server

variable {s s' : Server}

def setPlayers (s : Server) (players : TableRef → List PlayerRef) : Server :=
  { s with table := fun t => { s.table t with allPlayers := players t } }

/-- `hoxTableMgr::deleteTable`. -/
def deleteTable (s : Server) (tableId : Bytes) : Server :=
  { s with tableMgr := (s.tableMgr.deleteTable tableId).1 }

def callTableMgr (s : Server) : TableMgrCall → Server
  | .createTable i initialTime => (s.createTable i initialTime).1
  | .deleteTable tableId => s.deleteTable tableId
  | .runCleanup players => (s.setPlayers players).runCleanup

/-- The table manager, under any calls. -/
def tableMgrMachine : Lib.Machine Server TableMgrCall Stop where
  init s := s.tableMgr = {}
  step s call := .ok (s.callTableMgr call)

/-! ## The tables of the map -/

/-- Every table of the map is there under its own id, and the ids are
numbered. -/
structure Keyed (s : Server) : Prop where
  numbered : s.tableMgr.Numbered
  idCount : s.tableMgr.idCount ≤ 4294967296
  ids : ∀ e ∈ s.tableMgr.tableMap.entries, (s.table e.2).id = e.1
  lt : ∀ e ∈ s.tableMgr.tableMap.entries, e.2 < s.tableCount

theorem keyed_of_empty (h : s.tableMgr = {}) : s.Keyed := by
  refine ⟨?_, ?_, ?_, ?_⟩
  · rw [h]
    exact TableMgr.numbered_empty
  · simp [h, TableMgr.idCount, SortedMap.keys]
  · simp [h]
  · simp [h]

/-- The tables keep their ids, and no table is new. -/
theorem Keyed.of_same (h : s.Keyed) (hmgr : s'.tableMgr = s.tableMgr)
    (hid : ∀ t, (s'.table t).id = (s.table t).id) (hcount : s'.tableCount = s.tableCount) :
    s'.Keyed := by
  refine ⟨by rw [hmgr]; exact h.numbered, by rw [hmgr]; exact h.idCount, ?_, ?_⟩
  · rw [hmgr]
    exact fun e he => (hid e.2).trans (h.ids e he)
  · rw [hmgr, hcount]
    exact h.lt

/-- Tables go out of the map. -/
theorem Keyed.of_subset (h : s.Keyed) (m : TableMgr)
    (hnumbered : m.Numbered ∧ m.idCount = s.tableMgr.idCount)
    (hsub : m.tableMap.entries ⊆ s.tableMgr.tableMap.entries) :
    ({ s with tableMgr := m } : Server).Keyed :=
  ⟨hnumbered.1, hnumbered.2.trans_le h.idCount, fun e he => h.ids e (hsub he),
    fun e he => h.lt e (hsub he)⟩

theorem Keyed.runCleanup (h : s.Keyed) : s.runCleanup.Keyed := by
  refine h.of_subset _ (h.numbered.runCleanup h.ids) ?_
  rw [TableMgr.entries_runCleanup]
  exact List.filter_sublist.subset

theorem Keyed.idCount_runCleanup (h : s.Keyed) :
    s.runCleanup.tableMgr.idCount = s.tableMgr.idCount := (h.numbered.runCleanup h.ids).2

theorem Keyed.deleteTable (h : s.Keyed) (tableId : Bytes) : (s.deleteTable tableId).Keyed := by
  refine h.of_subset _ (h.numbered.deleteTable tableId) ?_
  unfold TableMgr.deleteTable
  split
  · exact List.Subset.refl _
  · exact List.filter_sublist.subset

/-- What the map has after a table is created: the new table under its id,
and the tables of other ids. -/
theorem mem_createTable {i : Input} {initialTime : TimeInfo} {e : Bytes × TableRef} :
    e ∈ (s.createTable i initialTime).1.tableMgr.tableMap.entries ↔
      e = ((s.tableMgr.createTable s.tableCount).2, s.tableCount) ∨
        e ∈ s.tableMgr.tableMap.entries ∧ e.1 ≠ (s.tableMgr.createTable s.tableCount).2 := by
  have hmap : s.tableMgr.generateNewTableId.1.tableMap = s.tableMgr.tableMap := by
    unfold TableMgr.generateNewTableId
    split
    · rfl
    · rfl
  simp only [Server.createTable, TableMgr.createTable, SortedMap.mem_set, hmap]

theorem Keyed.createTable (h : s.Keyed) (i : Input) (initialTime : TimeInfo) :
    (s.createTable i initialTime).1.Keyed := by
  obtain ⟨hnumbered, -, hcount⟩ := h.numbered.createTable s.tableCount h.idCount
  refine ⟨hnumbered, hcount, fun e he => ?_, fun e he => ?_⟩
  · rcases mem_createTable.mp he with rfl | ⟨he, -⟩
    · simp [Server.createTable, Table.new]
    · have hne : e.2 ≠ s.tableCount := (h.lt e he).ne
      simpa [Server.createTable, hne] using h.ids e he
  · rcases mem_createTable.mp he with rfl | ⟨he, -⟩
    · exact Nat.lt_succ_self _
    · exact (h.lt e he).trans (Nat.lt_succ_self _)

theorem Keyed.callTableMgr (h : s.Keyed) (call : TableMgrCall) : (s.callTableMgr call).Keyed := by
  cases call with
  | createTable i initialTime => exact h.createTable i initialTime
  | deleteTable tableId => exact h.deleteTable tableId
  | runCleanup players =>
    have hplayers : (s.setPlayers players).Keyed := h.of_same rfl (fun _ => rfl) rfl
    exact hplayers.runCleanup

theorem keyed_of_reachable (h : tableMgrMachine.Reachable s) : s.Keyed := by
  induction h with
  | init hs => exact keyed_of_empty hs
  | step _ hstep ih =>
    cases hstep
    exact ih.callTableMgr _

end Server

/-! ## The numbers of the ids -/

namespace TableMgr

variable {m : TableMgr}

theorem atoi_intToString_free (h : m.Numbered) {nId : Int} (hfree : nId ∈ m.freeIdList) :
    atoi (intToString nId) = nId := by
  obtain ⟨k, -, hk⟩ := Lib.Numbered.exists_name h
    (List.mem_append_right _ (List.mem_map_of_mem hfree))
  rw [tableName] at hk
  rw [← hk, ← intToString_injective hk]
  exact atoi_tableName k

/-- The ids of the tables, and the free ones, as numbers. -/
theorem Numbered.numbers (h : m.Numbered) : (m.tableMap.keys.map atoi ++ m.freeIdList).Perm
    ((List.range m.idCount).map fun k : ℕ => toInt32 (k + 1)) := by
  have hfree : (m.freeIdList.map intToString).map atoi = m.freeIdList := by
    rw [List.map_map]
    refine (List.map_congr_left fun nId hfree => ?_).trans (List.map_id _)
    exact atoi_intToString_free h hfree
  have hnumbers : ((List.range m.idCount).map tableName).map atoi =
      (List.range m.idCount).map fun k : ℕ => toInt32 (k + 1) := by
    rw [List.map_map]
    refine List.map_congr_left fun k _ => ?_
    rw [Function.comp_apply, atoi_tableName]
  have hperm := List.Perm.map atoi h
  rw [List.map_append, hfree, List.length_map] at hperm
  rw [← hnumbers]
  exact hperm

/-- Below `2 ^ 31` they are the numbers from 1. -/
theorem Numbered.numbers_of_lt (h : m.Numbered) (hn : m.idCount < 2147483648) :
    (m.tableMap.keys.map atoi ++ m.freeIdList).Perm
      ((List.range m.idCount).map fun k : ℕ => (k : Int) + 1) := by
  refine h.numbers.trans (List.Perm.of_eq (List.map_congr_left fun k hk => ?_))
  have hlt := List.mem_range.mp hk
  unfold toInt32
  omega

theorem Numbered.numbers_nodup (h : m.Numbered) (hn : m.idCount ≤ 4294967296) :
    (m.tableMap.keys.map atoi ++ m.freeIdList).Nodup := by
  refine h.numbers.nodup_iff.mpr (List.Nodup.map_on (fun k hk l hl hkl => ?_) List.nodup_range)
  have hk' := List.mem_range.mp hk
  have hl' := List.mem_range.mp hl
  unfold toInt32 at hkl
  omega

theorem createTable_decimal (m : TableMgr) (newTable : TableRef) :
    ∃ nId : Int, (m.createTable newTable).2 = intToString nId := by
  cases hfree : m.freeIdList with
  | nil => exact ⟨_, by rw [createTable_count hfree, tableName]⟩
  | cons nId rest => exact ⟨nId, by rw [createTable_reuse hfree]⟩

end TableMgr

namespace Server

theorem id_createTable (s : Server) (i : Input) (initialTime : TimeInfo) :
    ((s.createTable i initialTime).1.table (s.createTable i initialTime).2).id =
      (s.tableMgr.createTable s.tableCount).2 := by
  simp [Server.createTable, Table.new]

/-- **The ids of the tables.** In the map and in the list of the free ids
are the first numbers, as an `int` has them, each once and each the number
of its text in the map; a new table gets a decimal id that is not in the
map, as long as there are fewer than all the numbers. -/
theorem table_ids (h : tableMgrMachine.Reachable s) :
    ((s.tableMgr.tableMap.keys.map atoi ++ s.tableMgr.freeIdList).Perm
        ((List.range s.tableMgr.idCount).map fun k : ℕ => toInt32 (k + 1)) ∧
      (s.tableMgr.tableMap.keys.map atoi ++ s.tableMgr.freeIdList).Nodup ∧
      ∀ key ∈ s.tableMgr.tableMap.keys, intToString (atoi key) = key) ∧
    (s.tableMgr.idCount < 2147483648 →
      (s.tableMgr.tableMap.keys.map atoi ++ s.tableMgr.freeIdList).Perm
        ((List.range s.tableMgr.idCount).map fun k : ℕ => (k : Int) + 1)) ∧
    ∀ i initialTime, ∃ id,
      ((s.createTable i initialTime).1.table (s.createTable i initialTime).2).id = id ∧
      (∃ nId : Int, id = intToString nId) ∧
      (s.tableMgr.idCount < 4294967296 → id ∉ s.tableMgr.tableMap.keys) := by
  have hkeyed := keyed_of_reachable h
  have hnumbered := hkeyed.numbered
  refine ⟨⟨hnumbered.numbers, hnumbered.numbers_nodup hkeyed.idCount, ?_⟩, ?_, ?_⟩
  · exact fun key hkey => hnumbered.intToString_atoi hkey
  · exact hnumbered.numbers_of_lt
  · intro i initialTime
    refine ⟨(s.tableMgr.createTable s.tableCount).2, s.id_createTable i initialTime, ?_, ?_⟩
    · exact s.tableMgr.createTable_decimal s.tableCount
    · exact hnumbered.createTable_fresh s.tableCount

/-- Two tables are created, the first is purged, and its id is given out
again. -/
def purgeCalls : List TableMgrCall :=
  [.createTable {} {}, .createTable {} {}, .runCleanup fun t => if t = 0 then [] else [7],
    .createTable {} {}]

theorem table_ids_purged : ∃ s,
    tableMgrMachine.run { db := fun _ => none } purgeCalls = .ok s ∧
    ((s.tableMgr.tableMap.keys.map atoi ++ s.tableMgr.freeIdList).Perm
        ((List.range s.tableMgr.idCount).map fun k : ℕ => toInt32 (k + 1)) ∧
      (s.tableMgr.tableMap.keys.map atoi ++ s.tableMgr.freeIdList).Nodup ∧
      ∀ key ∈ s.tableMgr.tableMap.keys, intToString (atoi key) = key) := by
  have hrun : ∃ s, tableMgrMachine.run { db := fun _ => none } purgeCalls = .ok s := ⟨_, rfl⟩
  obtain ⟨s, hrun⟩ := hrun
  exact ⟨s, hrun, (table_ids (Lib.Machine.Reachable.run (.init rfl) hrun)).1⟩

/-- So many tables are created. -/
theorem run_createTables {n : ℕ} (hn : n ≤ 4294967296) (hs : s.tableMgr = {}) :
    ∃ s', tableMgrMachine.run s (List.replicate n (.createTable {} {})) = .ok s' ∧
      s'.Keyed ∧ s'.tableMgr.freeIdList = [] ∧ s'.tableMgr.idCount = n := by
  induction n with
  | zero =>
    have hcount : s.tableMgr.idCount = 0 := by simp [hs, TableMgr.idCount, SortedMap.keys]
    exact ⟨s, rfl, keyed_of_empty hs, by rw [hs], hcount⟩
  | succ n ih =>
    obtain ⟨s₁, hrun, hkeyed, hfree, hcount⟩ := ih (by omega)
    have hnext := hkeyed.numbered.createTable_next s₁.tableCount hfree (by omega)
    refine ⟨(s₁.createTable {} {}).1, ?_, hkeyed.createTable {} {}, hnext.1, ?_⟩
    · rw [List.replicate_succ', Lib.Machine.run_append hrun]
      rfl
    · rw [← hcount]
      exact hnext.2

/-- The id behind 2147483647 is -2147483648, and the one behind -1 and 0 is
that of the first table. -/
theorem table_ids_overflow :
    (∃ s, tableMgrMachine.run { db := fun _ => none }
        (List.replicate 2147483648 (.createTable {} {})) = .ok s ∧
      ¬ (s.tableMgr.tableMap.keys.map atoi ++ s.tableMgr.freeIdList).Perm
        ((List.range s.tableMgr.idCount).map fun k : ℕ => (k : Int) + 1)) ∧
    ∃ s, tableMgrMachine.run { db := fun _ => none }
        (List.replicate 4294967296 (.createTable {} {})) = .ok s ∧
      ((s.createTable {} {}).1.table (s.createTable {} {}).2).id ∈ s.tableMgr.tableMap.keys := by
  constructor
  · obtain ⟨s, hrun, hkeyed, -, hcount⟩ := run_createTables (n := 2147483648)
      (s := { db := fun _ => none }) (by norm_num) rfl
    refine ⟨s, hrun, fun hperm => ?_⟩
    have hlast : toInt32 ((2147483647 : ℕ) + 1) ∈
        (List.range s.tableMgr.idCount).map fun k : ℕ => toInt32 (k + 1) :=
      List.mem_map_of_mem (List.mem_range.mpr (by omega))
    have hid := hkeyed.numbered.numbers.mem_iff.mpr hlast
    obtain ⟨k, -, hk⟩ := List.mem_map.mp (hperm.mem_iff.mp hid)
    have hnegative : toInt32 ((2147483647 : ℕ) + 1) = -2147483648 := by decide
    omega
  · obtain ⟨s, hrun, hkeyed, hfree, hcount⟩ := run_createTables (n := 4294967296)
      (s := { db := fun _ => none }) (by norm_num) rfl
    refine ⟨s, hrun, ?_⟩
    rw [id_createTable]
    exact hkeyed.numbered.createTable_taken s.tableCount hfree hcount

end Server

end HoxServer
