/-
HoxServer.Table.TableMgr — `hoxTableMgr` (`hoxTable.h`, `hoxTable.cpp`).

The manager has the tables by their ids and a list of the ids that are
free. An id is an `int` in that list and a text in the map, and a new one
is counted on from the size of the map when no id is free.

The ids are those of an `IdPool`: whatever is created, deleted and cleaned
up, the ids of the map and the free ones are the first `n` of the texts
`tableName`, each once (`Numbered`). The texts come round after `2 ^ 32`
of them, and only a table that is created then takes the id of another.
-/
import HoxServer.Lib.IdPool
import HoxServer.Net.Text

namespace HoxServer

open Lib Net

/-- A `hoxTable_SPtr` that is not empty. -/
abbrev TableRef := Nat

/-- `hoxTableMgr`. -/
structure TableMgr where
  tableMap : SortedMap Bytes TableRef := SortedMap.empty
  freeIdList : List Int := []

namespace TableMgr

/-- `hoxTableMgr::_generateNewTableId`. -/
def generateNewTableId (m : TableMgr) : TableMgr × Bytes :=
  match m.freeIdList with
  | [] => (m, intToString (toInt32 (m.tableMap.entries.length + 1)))
  | nId :: rest => ({ m with freeIdList := rest }, intToString nId)

/-- `hoxTableMgr::createTable`, and the id that the new table has. -/
def createTable (m : TableMgr) (newTable : TableRef) : TableMgr × Bytes :=
  let (m, newTableId) := m.generateNewTableId
  ({ m with tableMap := m.tableMap.set newTableId newTable }, newTableId)

/-- `hoxTableMgr::deleteTable`. -/
def deleteTable (m : TableMgr) (tableId : Bytes) : TableMgr × Bool :=
  match m.tableMap.get? tableId with
  | none => (m, false)
  | some _ =>
    ({ tableMap := m.tableMap.erase tableId
       freeIdList := m.freeIdList ++ [atoi tableId] }, true)

/-- `hoxTableMgr::findTable`. -/
def findTable (m : TableMgr) (tableId : Bytes) : Option TableRef := m.tableMap.get? tableId

/-- `hoxTableMgr::getTables`. -/
def getTables (m : TableMgr) : List TableRef := m.tableMap.entries.map Prod.snd

/-- A turn of the loop of `runCleanup`. -/
def cleanup (isEmpty : TableRef → Bool) (getId : TableRef → Bytes) (m : TableMgr)
    (it : Bytes × TableRef) : TableMgr :=
  if isEmpty it.2 then
    { tableMap := m.tableMap.erase it.1
      freeIdList := m.freeIdList ++ [atoi (getId it.2)] }
  else m

/-- `hoxTableMgr::runCleanup`: the iterator goes on before its entry is
erased, so the loop sees every entry there was. -/
def runCleanup (m : TableMgr) (isEmpty : TableRef → Bool) (getId : TableRef → Bytes) : TableMgr :=
  m.tableMap.entries.foldl (cleanup isEmpty getId) m

variable {m : TableMgr} {isEmpty : TableRef → Bool} {getId : TableRef → Bytes}

/-! ## Ids -/

/-- The ids in the order in which they are first given out. -/
def tableName (k : ℕ) : Bytes := intToString (toInt32 (k + 1))

/-- How many ids there are, in use and free. -/
def idCount (m : TableMgr) : ℕ := m.tableMap.keys.length + m.freeIdList.length

/-- The ids of the tables and the free ones are the first ones, each once. -/
def Numbered (m : TableMgr) : Prop :=
  Lib.Numbered tableName m.tableMap.keys (m.freeIdList.map intToString)

theorem tableName_injOn {n : ℕ} (hn : n ≤ 4294967296) : Set.InjOn tableName (Set.Iio n) := by
  intro k hk l hl hkl
  have heq := intToString_injective hkl
  rw [Set.mem_Iio] at hk hl
  unfold toInt32 at heq
  omega

/-- The texts come round. -/
theorem tableName_round : tableName 4294967296 = tableName 0 := by
  have hround : toInt32 ((4294967296 : ℕ) + 1) = toInt32 ((0 : ℕ) + 1) := by decide
  rw [tableName, hround, tableName]

theorem atoi_tableName (k : ℕ) : atoi (tableName k) = toInt32 (k + 1) := by
  refine atoi_intToString ?_
  unfold toInt32
  omega

theorem numbered_empty : ({} : TableMgr).Numbered := Lib.Numbered.nil

theorem Numbered.nodup_idCount (h : m.Numbered) (hn : m.idCount ≤ 4294967296) :
    (m.tableMap.keys ++ m.freeIdList.map intToString).Nodup := by
  refine Lib.Numbered.nodup h (tableName_injOn ?_)
  simpa [idCount] using hn

/-- An id of the manager is the text of its number. -/
theorem Numbered.intToString_atoi (h : m.Numbered) {key : Bytes} (hkey : key ∈ m.tableMap.keys) :
    intToString (atoi key) = key := by
  obtain ⟨k, -, rfl⟩ := Lib.Numbered.exists_name h (List.mem_append_left _ hkey)
  rw [atoi_tableName]
  rfl

/-! ## The cleanup -/

/-- What is left in the map after the loop has seen some entries. -/
theorem entries_foldl_cleanup (l : List (Bytes × TableRef)) :
    (l.foldl (cleanup isEmpty getId) m).tableMap.entries =
      m.tableMap.entries.filter fun e => !l.any fun it => isEmpty it.2 && it.1 == e.1 := by
  induction l generalizing m with
  | nil => simp
  | cons it l ih =>
    rw [List.foldl_cons, ih, cleanup]
    split
    · rename_i hit
      rw [SortedMap.erase, List.filter_filter]
      refine List.filter_congr fun e _ => ?_
      by_cases he : it.1 = e.1
      · simp [hit, he]
      · simp [he, Ne.symm he]
    · rename_i hit
      simp [hit]

theorem freeIdList_foldl_cleanup (l : List (Bytes × TableRef)) :
    (l.foldl (cleanup isEmpty getId) m).freeIdList =
      m.freeIdList ++ (l.filter fun it => isEmpty it.2).map fun it => atoi (getId it.2) := by
  induction l generalizing m with
  | nil => simp
  | cons it l ih =>
    rw [List.foldl_cons, ih, cleanup]
    split
    · rename_i hit
      simp [hit]
    · rename_i hit
      simp [hit]

/-- The cleanup purges the empty tables. -/
theorem entries_runCleanup : (m.runCleanup isEmpty getId).tableMap.entries =
    m.tableMap.entries.filter fun e => !isEmpty e.2 := by
  rw [runCleanup, entries_foldl_cleanup]
  refine List.filter_congr fun e he => ?_
  congr 1
  rw [Bool.eq_iff_iff, List.any_eq_true]
  constructor
  · rintro ⟨it, hit, h⟩
    rw [Bool.and_eq_true, beq_iff_eq] at h
    rw [← SortedMap.eq_of_key hit he h.2]
    exact h.1
  · exact fun h => ⟨e, he, by simp [h]⟩

theorem freeIdList_runCleanup (hid : ∀ e ∈ m.tableMap.entries, getId e.2 = e.1) :
    (m.runCleanup isEmpty getId).freeIdList =
      m.freeIdList ++ ((m.tableMap.entries.filter fun e => isEmpty e.2).map Prod.fst).map atoi := by
  rw [runCleanup, freeIdList_foldl_cleanup, List.map_map]
  congr 1
  refine List.map_congr_left fun e he => ?_
  rw [hid e (List.mem_of_mem_filter he)]
  rfl

/-! ## The calls keep the ids -/

/-- Keys are taken out of the map, and their numbers are free. -/
theorem Numbered.release {m' : TableMgr} (h : m.Numbered) {freed : List Bytes}
    (hsplit : m.tableMap.keys.Perm (m'.tableMap.keys ++ freed))
    (hfree : m'.freeIdList = m.freeIdList ++ freed.map atoi) :
    m'.Numbered ∧ m'.idCount = m.idCount := by
  have htexts : freed.map (intToString ∘ atoi) = freed := by
    refine (List.map_congr_left fun key hkey => ?_).trans (List.map_id freed)
    exact h.intToString_atoi (hsplit.mem_iff.mpr (List.mem_append_right _ hkey))
  constructor
  · unfold Numbered
    rw [hfree, List.map_append, List.map_map, htexts]
    exact Lib.Numbered.release h hsplit
  · have hlength := hsplit.length_eq
    rw [List.length_append] at hlength
    rw [idCount, idCount, hfree, List.length_append, List.length_map]
    omega

theorem Numbered.runCleanup (h : m.Numbered)
    (hid : ∀ e ∈ m.tableMap.entries, getId e.2 = e.1) :
    (m.runCleanup isEmpty getId).Numbered ∧ (m.runCleanup isEmpty getId).idCount = m.idCount := by
  refine h.release ?_ (freeIdList_runCleanup hid)
  rw [SortedMap.keys, SortedMap.keys, entries_runCleanup, ← List.map_append]
  refine List.Perm.map _ ?_
  have hsplit := List.filter_append_perm (fun e => !isEmpty e.2) m.tableMap.entries
  simpa using hsplit.symm

theorem Numbered.deleteTable (h : m.Numbered) (tableId : Bytes) :
    (m.deleteTable tableId).1.Numbered ∧ (m.deleteTable tableId).1.idCount = m.idCount := by
  unfold TableMgr.deleteTable
  split
  · exact ⟨h, rfl⟩
  · rename_i hget
    have hkey : tableId ∈ m.tableMap.keys := by
      by_contra hnot
      rw [SortedMap.get?_eq_none.mpr hnot] at hget
      exact Option.some_ne_none _ hget.symm
    exact h.release (SortedMap.keys_erase hkey) rfl

theorem createTable_reuse {nId : Int} {rest : List Int} (hfree : m.freeIdList = nId :: rest)
    (newTable : TableRef) : m.createTable newTable =
      (⟨m.tableMap.set (intToString nId) newTable, rest⟩, intToString nId) := by
  simp only [createTable, generateNewTableId, hfree]

theorem createTable_count (hfree : m.freeIdList = []) (newTable : TableRef) :
    m.createTable newTable =
      (⟨m.tableMap.set (tableName m.tableMap.keys.length) newTable, []⟩,
        tableName m.tableMap.keys.length) := by
  simp only [createTable, generateNewTableId, hfree, tableName, SortedMap.keys, List.length_map]

/-- The id of a new table is not in use, as long as there are fewer than all
the ids. -/
theorem Numbered.createTable_fresh (h : m.Numbered) (newTable : TableRef)
    (hn : m.idCount < 4294967296) : (m.createTable newTable).2 ∉ m.tableMap.keys := by
  have hnodup := h.nodup_idCount hn.le
  cases hfree : m.freeIdList with
  | cons nId rest =>
    rw [createTable_reuse hfree]
    rw [hfree] at hnodup
    exact fun hmem => (List.nodup_append.mp hnodup).2.2 _ hmem _ List.mem_cons_self rfl
  | nil =>
    rw [createTable_count hfree]
    unfold Numbered at h
    simp only [idCount, hfree, List.length_nil] at hn
    have hle : m.tableMap.keys.length + 1 ≤ 4294967296 := by omega
    rw [hfree] at h
    have hnot := Lib.Numbered.not_mem_fresh h (tableName_injOn hle)
    simpa only using hnot

/-- When all the ids are in use, a new table has the id of another. -/
theorem Numbered.createTable_taken (h : m.Numbered) (newTable : TableRef)
    (hfree : m.freeIdList = []) (hn : m.idCount = 4294967296) :
    (m.createTable newTable).2 ∈ m.tableMap.keys := by
  have hkeys : m.tableMap.keys.length = 4294967296 := by simpa [idCount, hfree] using hn
  unfold Numbered at h
  rw [hfree] at h
  have hmem := Lib.Numbered.name_mem h (k := 0) (by simp [hkeys])
  rw [List.map_nil, List.append_nil, ← tableName_round] at hmem
  rw [createTable_count hfree, hkeys]
  exact hmem

/-- When no id is free, a new table adds one. -/
theorem Numbered.createTable_next (h : m.Numbered) (newTable : TableRef)
    (hfree : m.freeIdList = []) (hn : m.idCount < 4294967296) :
    (m.createTable newTable).1.freeIdList = [] ∧
      (m.createTable newTable).1.idCount = m.idCount + 1 := by
  have hnot := h.createTable_fresh newTable hn
  rw [createTable_count hfree] at hnot ⊢
  simp only at hnot ⊢
  have hcount := (SortedMap.keys_set_of_not_mem (v := newTable) hnot).length_eq
  rw [List.length_cons] at hcount
  simp only [idCount, hfree, List.length_nil, Nat.add_zero]
  exact ⟨trivial, hcount⟩

/-- A new table adds an id, or takes a free one. -/
theorem Numbered.createTable (h : m.Numbered) (newTable : TableRef)
    (hn : m.idCount ≤ 4294967296) : (m.createTable newTable).1.Numbered ∧
      m.idCount ≤ (m.createTable newTable).1.idCount ∧
      (m.createTable newTable).1.idCount ≤ 4294967296 := by
  have hnodup := h.nodup_idCount hn
  have htaken := h.createTable_taken newTable
  unfold Numbered at h
  cases hfree : m.freeIdList with
  | cons nId rest =>
    rw [hfree] at h hnodup
    have hkey : intToString nId ∉ m.tableMap.keys :=
      fun hmem => (List.nodup_append.mp hnodup).2.2 _ hmem _ List.mem_cons_self rfl
    have hkeys := SortedMap.keys_set_of_not_mem (v := newTable) hkey
    have hcount := hkeys.length_eq
    rw [createTable_reuse hfree]
    simp only [idCount, hfree, List.length_cons] at hn hcount ⊢
    exact ⟨(Lib.Numbered.reuse h).perm hkeys (List.Perm.refl _), by omega, by omega⟩
  | nil =>
    rw [hfree] at h
    rw [createTable_count hfree] at htaken ⊢
    simp only [idCount, hfree, List.length_nil] at hn htaken ⊢
    by_cases hkey : tableName m.tableMap.keys.length ∈ m.tableMap.keys
    · -- the id of another table: no id is new
      have hkeys := SortedMap.keys_set_of_mem (v := newTable) hkey
      have hcount := hkeys.length_eq
      exact ⟨h.perm hkeys (List.Perm.refl _), by omega, by omega⟩
    · have hkeys := SortedMap.keys_set_of_not_mem (v := newTable) hkey
      have hcount := hkeys.length_eq
      rw [List.length_cons] at hcount
      have hne : m.tableMap.keys.length ≠ 4294967296 :=
        fun he => hkey (htaken trivial (by omega))
      exact ⟨(Lib.Numbered.fresh h).perm hkeys (List.Perm.refl _), by omega, by omega⟩

end TableMgr

end HoxServer
