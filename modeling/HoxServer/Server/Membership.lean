/-
HoxServer.Server.Membership — who is at which table.

A player has a set of tables and a table a list of players, and the table
manager has a map of the tables. `Membered` says that they agree: a table
is in the set of the players that are in its list, and in the map under
its id. Every function that changes one of them keeps this (`Does`), as
long as a new table gets an id that no other table has; a table that a
player holds is then found by its id, and is not purged.

The ids come round, so the map loses a table when one is created while
`2 ^ 32` ids are in use (`table_lost`).
-/
import HoxServer.Server.Ratings
import HoxServer.Server.TableIds
import HoxServer.Table.Game

namespace HoxServer

namespace Server

open Lib Net

variable {s s' s'' : Server} {i : Input} {t : TableRef} {op : TableOp} {res : Result}
  {player : PlayerRef} {db : Bytes → Option PlayerRow}

/-- Players and tables agree: who is at a table has it in his set. -/
structure Seated (s : Server) : Prop where
  mem : ∀ player t, player ∈ (s.table t).allPlayers ↔ t ∈ s.tablesOf player
  lt : ∀ player, ∀ t ∈ s.tablesOf player, t < s.tableCount
  made : ∀ player, s.playerCount ≤ player → s.tablesOf player = []

/-- The table manager has the tables of the players under their ids. -/
def Registered (s : Server) : Prop :=
  ∀ player, ∀ t ∈ s.tablesOf player, ((s.table t).id, t) ∈ s.tableMgr.tableMap.entries

/-! ## Calls of a table -/

/-- What a call changes of players, tables and the manager: the players of
the table. -/
structure CallsTable (s : Server) (t : TableRef) (op : TableOp) (res : Result) (s' : Server) :
    Prop where
  tableMgr : s'.tableMgr = s.tableMgr
  tableCount : s'.tableCount = s.tableCount
  playerCount : s'.playerCount = s.playerCount
  tablesOf : s'.tablesOf = s.tablesOf
  id : ∀ x, (s'.table x).id = (s.table x).id
  other : ∀ x, x ≠ t → (s'.table x).allPlayers = (s.table x).allPlayers
  refused : res ≠ .ok → (s'.table t).allPlayers = (s.table t).allPlayers
  granted : res = .ok → ∀ q, q ∈ (s'.table t).allPlayers ↔
    (q ∈ (s.table t).allPlayers ∧ op ≠ .onLeaveFromPlayer q) ∨ ∃ c, op = .assignPlayerAs q c

theorem callsTable_of_callTable (hs : Kept db s) (h : s.callTable i t op = .ok (s', res)) :
    s.CallsTable t op res s' := by
  unfold callTable at h
  split at h
  · cases h
  · rename_i w res' hcall
    cases h
    obtain ⟨e, hcalled⟩ := World.call_called (hs.replays t).lawful hcall
    have heffect := hcalled.effect
    refine ⟨rfl, rfl, rfl, rfl, fun x => ?_, fun x hx => ?_, fun hres => ?_, fun hres q => ?_⟩
    · by_cases hx : x = t
      · subst hx
        simpa [world] using heffect.id
      · simp [hx]
    · simp [hx]
    · simpa [world] using heffect.allPlayers_of_refused hres
    · simpa [world] using heffect.mem_allPlayers hres

theorem CallsTable.keyed (h : s.CallsTable t op res s') (hs : s.Keyed) : s'.Keyed :=
  hs.of_same h.tableMgr h.id h.tableCount

/-- A call that moves no player. -/
theorem CallsTable.allPlayers (h : s.CallsTable t op res s') (hop : ¬ op.MovesPlayer)
    (x : TableRef) (q : PlayerRef) :
    q ∈ (s'.table x).allPlayers ↔ q ∈ (s.table x).allPlayers := by
  by_cases hx : x = t
  · subst hx
    by_cases hres : res = .ok
    · rw [h.granted hres]
      constructor
      · rintro (⟨hq, -⟩ | ⟨c, rfl⟩)
        · exact hq
        · exact absurd trivial hop
      · refine fun hq => Or.inl ⟨hq, ?_⟩
        rintro rfl
        exact hop trivial
    · rw [h.refused hres]
  · rw [h.other x hx]

/-- A player who leaves has left. -/
theorem callTable_leave_ok (h : s.callTable i t (.onLeaveFromPlayer player) = .ok (s', res)) :
    res = .ok := by
  unfold callTable at h
  split at h
  · cases h
  · rename_i w res' hcall
    cases h
    obtain ⟨_, -, he⟩ := map_eq_ok.mp hcall
    cases he
    rfl

/-! ## The set of tables of a player -/

theorem insertTable_frame (s : Server) (player : PlayerRef) (t : TableRef) :
    ∃ tables, s.insertTable player t = s.setTables player tables := by
  unfold insertTable
  simp only
  split
  · exact ⟨s.tablesOf player, by simp [setTables]⟩
  · exact ⟨_, rfl⟩

theorem mem_insertTable {x : TableRef} {q : PlayerRef} :
    x ∈ (s.insertTable player t).tablesOf q ↔ x ∈ s.tablesOf q ∨ q = player ∧ x = t := by
  unfold insertTable
  simp only
  split
  · rename_i hmem
    refine ⟨Or.inl, fun h => h.elim (fun hx => hx) ?_⟩
    rintro ⟨rfl, rfl⟩
    exact hmem
  · by_cases hq : q = player
    · subst hq
      have hparts : ∀ p : TableRef → Bool, x ∈ s.tablesOf q ↔
          x ∈ (s.tablesOf q).takeWhile p ∨ x ∈ (s.tablesOf q).dropWhile p := fun p => by
        rw [← List.mem_append, List.takeWhile_append_dropWhile]
      rw [hparts fun x => decide (s.address x < s.address t)]
      simp only [setTables, Function.update_self, List.mem_append, List.mem_cons]
      tauto
    · simp [setTables, hq]

theorem mem_eraseTable {x : TableRef} {q : PlayerRef} :
    x ∈ (s.eraseTable player t).tablesOf q ↔ x ∈ s.tablesOf q ∧ ¬ (q = player ∧ x = t) := by
  by_cases hq : q = player
  · subst hq
    simp [eraseTable, setTables]
  · simp [eraseTable, setTables, hq]

/-! ## Every function keeps the agreement -/

theorem Seated.of_same (h : s.Seated)
    (hall : ∀ t q, q ∈ (s'.table t).allPlayers ↔ q ∈ (s.table t).allPlayers)
    (htables : s'.tablesOf = s.tablesOf) (htablecount : s'.tableCount = s.tableCount)
    (hcount : s'.playerCount = s.playerCount) : s'.Seated := by
  refine ⟨fun q t => ?_, fun q t ht => ?_, fun q hq => ?_⟩
  · rw [hall, htables]
    exact h.mem q t
  · rw [htables] at ht
    rw [htablecount]
    exact h.lt q t ht
  · rw [htables]
    exact h.made q (hcount ▸ hq)

theorem Registered.of_same (h : s.Registered) (hid : ∀ t, (s'.table t).id = (s.table t).id)
    (htables : ∀ player, ∀ t ∈ s'.tablesOf player, t ∈ s.tablesOf player)
    (hmgr : s'.tableMgr = s.tableMgr) : s'.Registered := by
  intro q t ht
  rw [hid, hmgr]
  exact h q t (htables q t ht)

theorem tablesOf_newPlayer (h : s.Seated) (p : Player) :
    (s.newPlayer p).1.tablesOf = s.tablesOf := by
  funext q
  by_cases hq : q = s.playerCount
  · subst hq
    simp [Server.newPlayer, h.made s.playerCount le_rfl]
  · simp [Server.newPlayer, hq]

theorem Seated.newPlayer (h : s.Seated) (p : Player) : (s.newPlayer p).1.Seated := by
  have htables := tablesOf_newPlayer h p
  refine ⟨fun q t => ?_, fun q t ht => ?_, fun q hq => ?_⟩
  · rw [htables]
    exact h.mem q t
  · rw [htables] at ht
    exact h.lt q t ht
  · rw [htables]
    exact h.made q (Nat.le_of_succ_le hq)

theorem table_createTable (s : Server) (i : Input) (initialTime : TimeInfo) {t : TableRef}
    (ht : t ≠ s.tableCount) : (s.createTable i initialTime).1.table t = s.table t := by
  simp [Server.createTable, ht]

/-- A new table has no players, and is nobody's. -/
theorem Seated.createTable (h : s.Seated) (i : Input) (initialTime : TimeInfo) :
    (s.createTable i initialTime).1.Seated := by
  refine ⟨fun q t => ?_, fun q t ht => (h.lt q t ht).trans (Nat.lt_succ_self _), h.made⟩
  by_cases ht : t = s.tableCount
  · subst ht
    have hnone : s.tableCount ∉ s.tablesOf q := fun hmem => lt_irrefl _ (h.lt q _ hmem)
    have hempty : ((s.createTable i initialTime).1.table s.tableCount).allPlayers = [] := by
      simp [Server.createTable, Table.new]
    rw [hempty]
    exact ⟨fun hq => absurd hq List.not_mem_nil, fun hmem => absurd hmem hnone⟩
  · rw [table_createTable s i initialTime ht]
    exact h.mem q t

/-- Its id is of no other table. -/
theorem Registered.createTable (h : s.Registered) (hseated : s.Seated) (hkeyed : s.Keyed)
    (hn : s.tableMgr.idCount < 4294967296) (i : Input) (initialTime : TimeInfo) :
    (s.createTable i initialTime).1.Registered := by
  have hfresh := hkeyed.numbered.createTable_fresh s.tableCount hn
  intro q t ht
  rw [table_createTable s i initialTime (hseated.lt q t ht).ne]
  have hmem := h q t ht
  refine mem_createTable.mpr (Or.inr ⟨hmem, fun hid => hfresh ?_⟩)
  rw [← hid]
  exact List.mem_map_of_mem hmem

/-- A table with a player is not purged. -/
theorem Registered.runCleanup (h : s.Registered) (hseated : s.Seated) :
    s.runCleanup.Registered := by
  intro q t ht
  have hplayer : (s.table t).allPlayers ≠ [] := List.ne_nil_of_mem ((hseated.mem q t).mpr ht)
  have hentries : s.runCleanup.tableMgr.tableMap.entries =
      s.tableMgr.tableMap.entries.filter fun e => !decide ((s.table e.2).allPlayers = []) :=
    TableMgr.entries_runCleanup
  rw [hentries]
  exact List.mem_filter.mpr ⟨h q t ht, by simpa using hplayer⟩

theorem CallsTable.seated (h : s.CallsTable t op res s') (hop : ¬ op.MovesPlayer)
    (hs : s.Seated) : s'.Seated :=
  hs.of_same (h.allPlayers hop) h.tablesOf h.tableCount h.playerCount

theorem CallsTable.registered (h : s.CallsTable t op res s') (hs : s.Registered) :
    s'.Registered :=
  hs.of_same h.id (fun q x hx => by rwa [h.tablesOf] at hx) h.tableMgr

/-- The set of a player is all that changes when a table is put into it. -/
theorem insertTable_same (s : Server) (player : PlayerRef) (t : TableRef) :
    (s.insertTable player t).table = s.table ∧
    (s.insertTable player t).tableMgr = s.tableMgr ∧
    (s.insertTable player t).tableCount = s.tableCount ∧
    (s.insertTable player t).playerCount = s.playerCount := by
  obtain ⟨_, hframe⟩ := s.insertTable_frame player t
  rw [hframe]
  exact ⟨rfl, rfl, rfl, rfl⟩

/-- A player who is granted the table has it in his set. -/
theorem CallsTable.seated_join {c : Color}
    (h : s.CallsTable t (.assignPlayerAs player c) .ok s') (hs : s.Seated)
    (hplayer : player < s.playerCount) (ht : t < s.tableCount) :
    (s'.insertTable player t).Seated := by
  obtain ⟨htable, -, htablecount, hcount⟩ := s'.insertTable_same player t
  refine ⟨fun q x => ?_, fun q x hx => ?_, fun q hq => ?_⟩
  · rw [mem_insertTable, htable, h.tablesOf]
    by_cases hx : x = t
    · subst hx
      rw [h.granted rfl, hs.mem]
      simp [eq_comm]
    · rw [h.other x hx, hs.mem]
      simp [hx]
  · rw [mem_insertTable, h.tablesOf] at hx
    rw [htablecount, h.tableCount]
    rcases hx with hx | ⟨-, rfl⟩
    · exact hs.lt q x hx
    · exact ht
  · rw [hcount, h.playerCount] at hq
    refine List.eq_nil_iff_forall_not_mem.mpr fun x hx => ?_
    rw [mem_insertTable, h.tablesOf, hs.made q hq] at hx
    rcases hx with hx | ⟨rfl, -⟩
    · exact List.not_mem_nil hx
    · exact absurd hplayer (not_lt.mpr hq)

theorem CallsTable.registered_join {c : Color}
    (h : s.CallsTable t (.assignPlayerAs player c) .ok s') (hs : s.Registered) (hkeyed : s.Keyed)
    (ht : t ∈ s.tableMgr.getTables) : (s'.insertTable player t).Registered := by
  obtain ⟨htable, hmgr, -, -⟩ := s'.insertTable_same player t
  intro q x hx
  rw [mem_insertTable, h.tablesOf] at hx
  rw [htable, hmgr, h.id, h.tableMgr]
  rcases hx with hx | ⟨rfl, rfl⟩
  · exact hs q x hx
  · obtain ⟨e, he, rfl⟩ := List.mem_map.mp ht
    rw [hkeyed.ids e he]
    exact he

/-- A player who is refused the table is not at it. -/
theorem CallsTable.seated_refused (h : s.CallsTable t op res s') (hres : res ≠ .ok)
    (hs : s.Seated) : s'.Seated := by
  refine hs.of_same (fun x q => ?_) h.tablesOf h.tableCount h.playerCount
  by_cases hx : x = t
  · subst hx
    rw [h.refused hres]
  · rw [h.other x hx]

theorem CallsTable.seated_leave (h : s.CallsTable t (.onLeaveFromPlayer player) .ok s')
    (hs : s.Seated) : (s'.eraseTable player t).Seated := by
  refine ⟨fun q x => ?_, fun q x hx => ?_, fun q hq => ?_⟩
  · rw [mem_eraseTable, h.tablesOf]
    show q ∈ (s'.table x).allPlayers ↔ _
    by_cases hx : x = t
    · subst hx
      rw [h.granted rfl, hs.mem]
      simp [eq_comm]
    · rw [h.other x hx, hs.mem]
      simp [hx]
  · rw [mem_eraseTable, h.tablesOf] at hx
    show x < s'.tableCount
    rw [h.tableCount]
    exact hs.lt q x hx.1
  · have hq' : s.playerCount ≤ q := h.playerCount ▸ hq
    refine List.eq_nil_iff_forall_not_mem.mpr fun x hx => ?_
    rw [mem_eraseTable, h.tablesOf, hs.made q hq'] at hx
    exact List.not_mem_nil hx.1

theorem CallsTable.registered_leave (h : s.CallsTable t (.onLeaveFromPlayer player) .ok s')
    (hs : s.Registered) : (s'.eraseTable player t).Registered := by
  refine hs.of_same h.id (fun q x hx => ?_) h.tableMgr
  rw [mem_eraseTable, h.tablesOf] at hx
  exact hx.1

/-- The invariant. The ids of the tables are told apart while there are
fewer than all of them. -/
structure Agrees (db : Bytes → Option PlayerRow) (s : Server) : Prop where
  kept : Kept db s
  keyed : s.Keyed
  seated : s.Seated
  registered : s.tableMgr.idCount < 4294967296 → s.Registered

theorem Agrees.next (h : s.Agrees db) (hkept : Kept db s') (hkeyed : s'.Keyed)
    (hseated : s'.Seated) (hcount : s.tableMgr.idCount ≤ s'.tableMgr.idCount)
    (hregistered : s.tableMgr.idCount < 4294967296 → s.Registered → s'.Registered) :
    s'.Agrees db :=
  ⟨hkept, hkeyed, hseated, fun hn =>
    hregistered (hcount.trans_lt hn) (h.registered (hcount.trans_lt hn))⟩

/-- Players, tables and the manager are the same. -/
theorem Agrees.of_same (h : s.Agrees db) (hkept : Kept db s') (htable : s'.table = s.table)
    (htables : s'.tablesOf = s.tablesOf) (hmgr : s'.tableMgr = s.tableMgr)
    (hcount : s'.tableCount = s.tableCount) (hplayers : s'.playerCount = s.playerCount) :
    s'.Agrees db := by
  refine h.next hkept ?_ ?_ (by rw [hmgr]) fun _ hs => ?_
  · exact h.keyed.of_same hmgr (fun t => by rw [htable]) hcount
  · exact h.seated.of_same (fun t q => by rw [htable]) htables hcount hplayers
  · exact hs.of_same (fun t => by rw [htable]) (fun q t ht => by rwa [htables] at ht) hmgr

theorem Does.agrees (h : s.Does s') (hs : s.Agrees db) : s'.Agrees db := by
  induction h with
  | refl => exact hs
  | quiet hd hsame ih =>
    have hkept := (hd.quiet hsame).kept hs.kept
    obtain ⟨_, _, _, _, _, _, rfl⟩ := hsame
    exact ih.of_same hkept rfl rfl rfl rfl rfl
  | newPlayer hd p ih =>
    refine ih.next ((hd.newPlayer p).kept hs.kept) ?_ (ih.seated.newPlayer p) le_rfl fun _ h => ?_
    · exact ih.keyed.of_same rfl (fun _ => rfl) rfl
    · exact h.of_same (fun _ => rfl) (fun q t ht => by
        rwa [tablesOf_newPlayer ih.seated p] at ht) rfl
  | @createTable s₁ hd i initialTime ih =>
    have hnext := ih.keyed.numbered.createTable s₁.tableCount ih.keyed.idCount
    exact ih.next ((hd.createTable i initialTime).kept hs.kept)
      (ih.keyed.createTable i initialTime) (ih.seated.createTable i initialTime) hnext.2.1
      fun hn h => h.createTable ih.seated ih.keyed hn i initialTime
  | @joinTableAs s₁ s₂ i player t c hd hplayer ht hjoin ih =>
    have hkept := (hd.joinTableAs hplayer ht hjoin).kept hs.kept
    obtain ⟨⟨s₃, res⟩, hcall, hjoin⟩ := bind_eq_ok.mp hjoin
    have hcalls := callsTable_of_callTable ih.kept hcall
    have hkeyed := hcalls.keyed ih.keyed
    have hlt : t < s₁.tableCount := by
      obtain ⟨e, he, rfl⟩ := List.mem_map.mp ht
      exact ih.keyed.lt e he
    cases hjoin
    by_cases hres : res = .ok
    · subst hres
      obtain ⟨htable, hmgr, hcount, -⟩ := s₃.insertTable_same player t
      refine ih.next hkept ?_ (hcalls.seated_join ih.seated hplayer hlt) ?_ fun _ h =>
        hcalls.registered_join h ih.keyed ht
      · exact hkeyed.of_same hmgr (fun x => by rw [if_pos rfl, htable]) hcount
      · rw [if_pos rfl, hmgr, hcalls.tableMgr]
    · rw [if_neg hres] at hkept ⊢
      exact ih.next hkept hkeyed (hcalls.seated_refused hres ih.seated)
        (hcalls.tableMgr ▸ le_rfl) fun _ h => hcalls.registered h
  | @leaveTable s₁ s₂ i player t hd hleave ih =>
    have hkept := (hd.leaveTable hleave).kept hs.kept
    obtain ⟨⟨s₃, res⟩, hcall, hleave⟩ := bind_eq_ok.mp hleave
    obtain rfl := callTable_leave_ok hcall
    have hcalls := callsTable_of_callTable ih.kept hcall
    cases hleave
    refine ih.next hkept ?_ (hcalls.seated_leave ih.seated) (hcalls.tableMgr ▸ le_rfl) fun _ h =>
      hcalls.registered_leave h
    exact (hcalls.keyed ih.keyed).of_same rfl (fun _ => rfl) rfl
  | callTable hd hop hcall ih =>
    have hcalls := callsTable_of_callTable ih.kept hcall
    exact ih.next ((hd.callTable hop hcall).kept hs.kept) (hcalls.keyed ih.keyed)
      (hcalls.seated hop ih.seated) (hcalls.tableMgr ▸ le_rfl) fun _ h => hcalls.registered h
  | @runCleanup s₁ hd ih =>
    have hseated : s₁.runCleanup.Seated :=
      ih.seated.of_same (fun _ _ => Iff.rfl) rfl rfl rfl
    exact ih.next (hd.runCleanup.kept hs.kept) ih.keyed.runCleanup hseated
      ih.keyed.idCount_runCleanup.ge fun _ h => h.runCleanup ih.seated
  | takeRequest hd htake ih =>
    have hkept := (hd.takeRequest htake).kept hs.kept
    unfold Server.takeRequest at htake
    split at htake
    · cases htake
      exact ih.of_same hkept rfl rfl rfl rfl rfl
    · cases htake
  | setPlayerInfo hd hset ih =>
    have hkept := (hd.setPlayerInfo hset).kept hs.kept
    unfold Server.setPlayerInfo at hset
    split at hset
    · cases hset
    · cases hset
      exact ih.of_same hkept rfl rfl rfl rfl rfl

theorem agrees_init (db : Bytes → Option PlayerRow) : Agrees db { db } := by
  have hnone : ∀ q : PlayerRef, ∀ t : TableRef, t ∉ ({ db } : Server).tablesOf q :=
    fun _ _ => List.not_mem_nil
  refine ⟨kept_init db, keyed_of_empty rfl, ⟨fun q t => ?_, ?_, fun q _ => rfl⟩, fun _ => ?_⟩
  · exact ⟨fun hq => absurd hq List.not_mem_nil, fun ht => absurd ht (hnone q t)⟩
  · exact fun q t ht => absurd ht (hnone q t)
  · exact fun q t ht => absurd ht (hnone q t)

theorem reachable_agrees (h : (machine db).Reachable s) : s.Sound ∧ s.Agrees db := by
  induction h with
  | init hs =>
    cases hs
    exact ⟨sound_init db, agrees_init db⟩
  | step _ hstep ih =>
    have hacts := acts_wake ih.1 hstep
    exact ⟨hacts.sound, hacts.does.agrees ih.2⟩

/-- **Players, tables and the table manager agree** in every reachable
state: a player is at a table exactly when he has it in his set. While
there are fewer than all the ids, the manager finds a player's table by
its id, no other table of the player has this id, and the cleanup keeps
it. -/
theorem membership_agrees (h : (machine db).Reachable s) :
    (∀ player t, player ∈ (s.table t).allPlayers ↔ t ∈ s.tablesOf player) ∧
    (s.tableMgr.idCount < 4294967296 → ∀ player, ∀ t ∈ s.tablesOf player,
      s.tableMgr.findTable (s.table t).id = some t ∧
      (∀ t' ∈ s.tablesOf player, (s.table t').id = (s.table t).id → t' = t) ∧
      s.runCleanup.tableMgr.findTable (s.table t).id = some t) := by
  have hs := (reachable_agrees h).2
  refine ⟨hs.seated.mem, fun hn player t ht => ?_⟩
  have hregistered := hs.registered hn
  refine ⟨?_, fun t' ht' hid => ?_, ?_⟩
  · exact SortedMap.get?_of_mem (hregistered player t ht)
  · have hentry := SortedMap.eq_of_key (hregistered player t' ht') (hregistered player t ht) hid
    exact congrArg Prod.snd hentry
  · exact SortedMap.get?_of_mem (hregistered.runCleanup hs.seated player t ht)

/-! ## Runs -/

/-- A guest connects. -/
def guestConnected : List (Input × Wake) :=
  [({}, .connected 0 { pid := bytes "Guest#1", clientType := .hoxchess })]

def tableRequested : List (Input × Wake) :=
  [({}, .requestRead 0 (.new {} .none)), ({}, .yielded 0)]

/-- Two guests are at two tables. The first leaves one of them, logs out
and so leaves the other; the second leaves it too, and makes a table that is
given its id. -/
def guestsLeave : List (Input × Wake) :=
  guestConnected ++
    [({ newSessionId := bytes "2", newAddress := 1 },
      .connected 1 { pid := bytes "Guest#2", clientType := .hoxchess })] ++
    requestOf 0 (.new {} .red) ++ requestOf 1 (.join (bytes "1") .black) ++
    requestOf 0 (.new {} .none) ++ requestOf 1 (.join (bytes "2") .none) ++
    requestOf 0 (.leave (bytes "1")) ++ requestOf 0 .logout ++
    [({ now := 0 }, .writeThreadEnded 0), ({ now := 0 }, .joined 0)] ++
    requestOf 1 (.leave (bytes "2")) ++ [({ now := 0 }, .tableManager)] ++
    requestOf 1 (.new {} .none)

theorem membership_agrees_guests : ∃ s,
    (machine fun _ => none).run { db := fun _ => none } guestsLeave = .ok s ∧
    s.tablesOf 0 = [] ∧ s.tablesOf 1 = [2, 0] ∧
    s.tableMgr.findTable (bytes "2") = some 2 ∧ s.tableMgr.idCount = 2 ∧
    (∀ player t, player ∈ (s.table t).allPlayers ↔ t ∈ s.tablesOf player) ∧
    ∀ player, ∀ t ∈ s.tablesOf player,
      s.tableMgr.findTable (s.table t).id = some t ∧
      (∀ t' ∈ s.tablesOf player, (s.table t').id = (s.table t).id → t' = t) ∧
      s.runCleanup.tableMgr.findTable (s.table t).id = some t := by
  have hrun : ((machine fun _ => none).run { db := fun _ => none } guestsLeave).map (fun s =>
      (s.tablesOf 0, s.tablesOf 1, s.tableMgr.findTable (bytes "2"), s.tableMgr.idCount)) =
      .ok ([], [2, 0], some 2, 2) := by decide +kernel
  obtain ⟨s, hs, he⟩ := map_eq_ok.mp hrun
  simp only [Prod.mk.injEq] at he
  obtain ⟨hfirst, hsecond, hreused, hcount⟩ := he
  obtain ⟨hmem, hfound⟩ := membership_agrees (Lib.Machine.Reachable.run (.init rfl) hs)
  exact ⟨s, hs, hfirst, hsecond, hreused, hcount, hmem, hfound (by rw [hcount]; decide)⟩

/-- The guest is at every table, and none has been purged. -/
structure Creates (s : Server) : Prop where
  reachable : (machine fun _ => none).Reachable s
  thread : s.thread 0 = .reading 0 .hoxchess
  active : (s.session 0).state = .active
  player : (s.session 0).player = 0
  free : s.tableMgr.freeIdList = []
  held : ∀ e ∈ s.tableMgr.tableMap.entries, e.2 ∈ s.tablesOf 0

theorem assignPlayerAs_none (w : World) (now : Int) (player : PlayerRef) :
    ∃ w', w.call now (.assignPlayerAs player .none) = .ok (w', .ok) := by
  refine ⟨(w.assignPlayerAs now player .none).1, ?_⟩
  have hok : (w.assignPlayerAs now player .none).2 = .ok := by
    unfold World.assignPlayerAs
    simp
  rw [← hok]
  rfl

/-- The request for another table. -/
theorem Creates.request (h : s.Creates) : ∃ s',
    (machine fun _ => none).run s tableRequested = .ok s' ∧
    s'.thread 0 = .reading 0 .hoxchess ∧ s'.session = s.session ∧
    s'.tableMgr = (s.createTable {} {}).1.tableMgr ∧
    (∀ x, x ∈ s'.tablesOf 0 ↔ x ∈ s.tablesOf 0 ∨ x = s.tableCount) ∧
    ∀ x, (s'.table x).id = ((s.createTable {} {}).1.table x).id := by
  have hkept := ((reachable_agrees h.reachable).2).kept
  have hcreated : Kept (fun _ => none) (s.createTable {} {}).1 :=
    (sameRatings_createTable s {} {}).kept hkept
  obtain ⟨w, hw⟩ := assignPlayerAs_none ((s.createTable {} {}).1.world s.tableCount) 0 0
  have hcall : ∃ s₂, (s.createTable {} {}).1.callTable {} s.tableCount (.assignPlayerAs 0 .none) =
      .ok (s₂, .ok) := by
    unfold callTable
    rw [hw]
    exact ⟨_, rfl⟩
  obtain ⟨s₂, hcall⟩ := hcall
  have hcalls := callsTable_of_callTable hcreated hcall
  have hsame := same_callTable hcall
  have hjoin : (s.createTable {} {}).1.joinTableAs {} 0 s.tableCount .none =
      .ok (s₂.insertTable 0 s.tableCount) := by
    unfold joinTableAs
    rw [hcall]
    rfl
  have hrequest : s.handleRequest {} 0 (.new {} .none) = .ok (s₂.insertTable 0 s.tableCount) := by
    unfold handleRequest
    rw [h.player]
    exact hjoin
  -- the request is answered, and the guest waits for the next one
  have hjoined := ((same_createTable s {} {}).trans hsame).trans
    (same_insertTable s₂ 0 s.tableCount)
  have hread : s.wake {} (.requestRead 0 (.new {} .none)) =
      .ok ((s₂.insertTable 0 s.tableCount).setThread 0 (.yielding 0 .hoxchess)) := by
    simp only [wake, h.thread, hrequest]
    rfl
  have hyield : ((s₂.insertTable 0 s.tableCount).setThread 0 (.yielding 0 .hoxchess)).wake {}
      (.yielded 0) = .ok (((s₂.insertTable 0 s.tableCount).setThread 0
        (.yielding 0 .hoxchess)).setThread 0 (.reading 0 .hoxchess)) := by
    have hactive : ((s₂.insertTable 0 s.tableCount).session 0).state = .active := by
      rw [hjoined.session]
      exact h.active
    simp [wake, setThread, runEventLoop, hactive]
  obtain ⟨_, hframe⟩ := s₂.insertTable_frame 0 s.tableCount
  refine ⟨((s₂.insertTable 0 s.tableCount).setThread 0 (.yielding 0 .hoxchess)).setThread 0
    (.reading 0 .hoxchess), ?_, by simp [setThread], hjoined.session, ?_, fun x => ?_, fun x => ?_⟩
  · simp only [tableRequested, Lib.Machine.run, machine, hread, hyield]
  · rw [← hcalls.tableMgr, hframe]
    rfl
  · show x ∈ (s₂.insertTable 0 s.tableCount).tablesOf 0 ↔ _
    rw [mem_insertTable, hcalls.tablesOf]
    simp [createTable]
  · rw [← hcalls.id x, hframe]
    rfl

theorem creates_guest : ∃ s, Creates s ∧ s.tableMgr.idCount = 0 := by
  have hrun : ((machine fun _ => none).run { db := fun _ => none } guestConnected).map (fun s =>
      (s.thread 0, (s.session 0).state)) = .ok (.reading 0 .hoxchess, .active) := by
    decide +kernel
  have htables : ((machine fun _ => none).run { db := fun _ => none } guestConnected).map (fun s =>
      ((s.session 0).player, s.tableMgr.freeIdList, s.tableMgr.tableMap.entries)) =
      .ok (0, [], []) := by decide +kernel
  obtain ⟨s, hs, he⟩ := map_eq_ok.mp hrun
  simp only [Prod.mk.injEq] at he
  obtain ⟨hthread, hactive⟩ := he
  rw [hs] at htables
  simp only [Except.map, Except.ok.injEq, Prod.mk.injEq] at htables
  obtain ⟨hplayer, hfree, hentries⟩ := htables
  refine ⟨s, ⟨Lib.Machine.Reachable.run (.init rfl) hs, hthread, hactive, hplayer, hfree, ?_⟩, ?_⟩
  · simp [hentries]
  · simp [TableMgr.idCount, SortedMap.keys, hentries, hfree]

/-- The guest asks for so many tables. -/
theorem creates_tables {n : ℕ} (hn : n ≤ 4294967296) :
    ∃ s, Creates s ∧ s.tableMgr.idCount = n := by
  induction n with
  | zero => exact creates_guest
  | succ n ih =>
    obtain ⟨s, hs, hcount⟩ := ih (by omega)
    obtain ⟨s', hrun, hthread, hsession, hmgr, htables, hid⟩ := hs.request
    have hkeyed := (reachable_agrees hs.reachable).2.keyed
    have hnext := hkeyed.numbered.createTable_next s.tableCount hs.free (by omega)
    refine ⟨s', ⟨hs.reachable.run hrun, hthread, by rw [hsession]; exact hs.active,
      by rw [hsession]; exact hs.player, by rw [hmgr]; exact hnext.1, fun e he => ?_⟩, ?_⟩
    · rw [hmgr] at he
      rw [htables]
      rcases mem_createTable.mp he with rfl | ⟨he, -⟩
      · exact Or.inr rfl
      · exact Or.inl (hs.held e he)
    · rw [hmgr, ← hcount]
      exact hnext.2

/-- With all the ids in use, the next table has the id of another, which
its player still holds. -/
theorem table_lost : ∃ s player t, (machine fun _ => none).Reachable s ∧
    t ∈ s.tablesOf player ∧ s.tableMgr.findTable (s.table t).id ≠ some t := by
  obtain ⟨s, hs, hcount⟩ := creates_tables (n := 4294967296) le_rfl
  obtain ⟨s', hrun, -, -, hmgr, htables, hid⟩ := hs.request
  have hkeyed := (reachable_agrees hs.reachable).2.keyed
  have htaken := hkeyed.numbered.createTable_taken s.tableCount hs.free hcount
  obtain ⟨⟨key, t⟩, he, hkey⟩ := List.mem_map.mp htaken
  have hne : t ≠ s.tableCount := (hkeyed.lt _ he).ne
  refine ⟨s', 0, t, hs.reachable.run hrun, (htables t).mpr (Or.inl (hs.held _ he)), fun hfind => ?_⟩
  have hmem := SortedMap.mem_of_get? hfind
  rw [hmgr] at hmem
  have hold : (s'.table t).id = key := by
    rw [hid]
    simpa [createTable, hne] using hkeyed.ids _ he
  rcases mem_createTable.mp hmem with heq | ⟨-, hother⟩
  · exact hne (congrArg Prod.snd heq)
  · exact hother (hold.trans hkey)

end Server

end HoxServer
