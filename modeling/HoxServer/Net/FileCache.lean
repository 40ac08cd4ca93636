/-
HoxServer.Net.FileCache — the cache of the file manager over whole runs
(`hoxFileMgr.cpp`).

The entries of the map are modelled as they are: a lookup of a path that
has none leaves an empty pointer there, and a pointer that is empty is no
file. `FileMgr` is what is left when the two are not told apart, and
`getFile_toFileMgr` says that the cache returns what it does.

A call is given what the agent sends for it, so every outcome of a fetch
is covered, and a call that ends in an exception still leaves a state.
-/
import HoxServer.Net.ConnectionTheorems

namespace HoxServer.Net

open Lib

/-- `hoxFileMgr`. The map has a pointer for some paths, and the pointer may be
empty. -/
structure FileCache where
  bCacheEnabled : Bool := false
  bErrorIfNotInCache : Bool := false
  sLocation : Bytes := []
  files : Bytes → Option (Option File) := fun _ => none

namespace FileCache

/-! ## The functions -/

/-- The file that the pointer of a path points to. -/
def found (cache : FileCache) (sPath : Bytes) : Option File := (cache.files sPath).join

/-- `_files[sPath]`, which leaves an empty pointer where there is none. -/
def lookedUp (cache : FileCache) (sPath : Bytes) : FileCache :=
  { cache with files := Function.update cache.files sPath (some (cache.found sPath)) }

/-- `_files[sPath] = pFile`. -/
def store (cache : FileCache) (sPath : Bytes) (file : File) : FileCache :=
  { cache with files := Function.update cache.files sPath (some (some file)) }

/-- `hoxFileMgr::preloadFile`. -/
def preloadFile (cache : FileCache) (sFile input : Bytes) : FileCache × Except Raised Unit :=
  match FileMgr.loadFile (cache.sLocation ++ sFile) input with
  | .ok file => (cache.store sFile file, .ok ())
  | .error e => (cache, if e.hoxError?.isSome then .ok () else .error e)

/-- `hoxFileMgr::getFile` from "load the file from disk" on. The handler
writes to the file through a pointer that is still empty. -/
def load (cache : FileCache) (sPath input : Bytes) : FileCache × Except Raised File :=
  match FileMgr.loadFile sPath input with
  | .ok file => (if cache.bCacheEnabled then cache.store sPath file else cache, .ok file)
  | .error e => (cache, .error (if e.hoxError?.isSome then .nullPointer else e))

/-- `hoxFileMgr::getFile`. -/
def getFile (cache : FileCache) (sPath input : Bytes) : FileCache × Except Raised File :=
  if cache.bCacheEnabled then
    match cache.found sPath with
    | some file => (cache.lookedUp sPath, .ok file)
    | none =>
      if cache.bErrorIfNotInCache then
        (cache.lookedUp sPath,
          .ok { sPath, sContent := bytes "File not found", sType := bytes "text/html" })
      else (cache.lookedUp sPath).load sPath input
  else cache.load sPath input

/-- `hoxFileMgr::clearCache`. -/
def clearCache (cache : FileCache) : FileCache := { cache with files := fun _ => none }

end FileCache

/-- A call of the manager, with what the agent sends for it; the flags and
the location are set when the configuration is read. -/
inductive FileCall where
  | preloadFile (sFile input : Bytes)
  | getFile (sPath input : Bytes)
  | clearCache
  | setFlags (bCacheEnabled bErrorIfNotInCache : Bool)
  | setLocation (s : Bytes)

namespace FileCache

/-- The cache after a call. -/
def after (cache : FileCache) : FileCall → FileCache
  | .preloadFile sFile input => (cache.preloadFile sFile input).1
  | .getFile sPath input => (cache.getFile sPath input).1
  | .clearCache => cache.clearCache
  | .setFlags bCacheEnabled bErrorIfNotInCache => { cache with bCacheEnabled, bErrorIfNotInCache }
  | .setLocation s => { cache with sLocation := s }

/-- The calls, of which `getFile` must return a file. -/
def machine : Machine FileCache FileCall Raised where
  init cache := cache = {}
  step cache call :=
    match call with
    | .getFile sPath input => ((cache.getFile sPath input).2).map fun _ => cache.after call
    | call => .ok (cache.after call)

variable {cache cache' : FileCache} {sPath sFile input : Bytes} {file : File}

/-! ## What is meant -/

/-- A path is served without a load: from the cache, or with the answer that
there is no such file in it. -/
def answers (cache : FileCache) (sPath : Bytes) : Bool :=
  cache.bCacheEnabled && ((cache.found sPath).isSome || cache.bErrorIfNotInCache)

/-- A file that is needed is delivered by the agent. -/
def Supplied (cache : FileCache) : FileCall → Prop
  | .getFile sPath input => cache.answers sPath ∨ Delivered input
  | _ => True

/-- The load of a call fails. -/
def Fails (cache : FileCache) : FileCall → Prop
  | .preloadFile sFile input => ¬ Returns (FileMgr.loadFile (cache.sLocation ++ sFile) input)
  | .getFile sPath input => ¬ cache.answers sPath ∧ ¬ Returns (FileMgr.loadFile sPath input)
  | _ => False

/-- The file that a path is served from the cache. -/
def served (cache : FileCache) (sPath : Bytes) : Option File :=
  if cache.bCacheEnabled then cache.found sPath else none

/-- A file that is loaded is the last one of its path. -/
def loaded (last : Bytes → Option File) (sPath : Bytes) (result : Except Raised File) :
    Bytes → Option File :=
  match result with
  | .ok file => Function.update last sPath (some file)
  | .error _ => last

/-- The last file that was loaded and stored for each path since the cache
was cleared. -/
def lastLoaded (cache : FileCache) (call : FileCall) (last : Bytes → Option File) :
    Bytes → Option File :=
  match call with
  | .preloadFile sFile input =>
    loaded last sFile (FileMgr.loadFile (cache.sLocation ++ sFile) input)
  | .getFile sPath input =>
    if cache.bCacheEnabled && !cache.answers sPath then
      loaded last sPath (FileMgr.loadFile sPath input)
    else last
  | .clearCache => fun _ => none
  | _ => last

/-! ## One call -/

@[simp] theorem found_lookedUp : (cache.lookedUp sPath).found = cache.found := by
  funext p
  by_cases hp : p = sPath
  · subst hp
    simp [found, lookedUp]
  · simp [found, lookedUp, hp]

@[simp] theorem found_store :
    (cache.store sPath file).found = Function.update cache.found sPath (some file) := by
  funext p
  by_cases hp : p = sPath
  · subst hp
    simp [found, store]
  · simp [found, store, hp]

theorem loaded_of_not_returns {last : Bytes → Option File} {result : Except Raised File}
    (h : ¬ Returns result) : loaded last sPath result = last := by
  cases result with
  | ok file => exact absurd (returns_ok file) h
  | error e => rfl

/-- A preloaded file is stored. -/
theorem found_preloadFile : (cache.preloadFile sFile input).1.found =
    loaded cache.found sFile (FileMgr.loadFile (cache.sLocation ++ sFile) input) := by
  unfold preloadFile
  cases FileMgr.loadFile (cache.sLocation ++ sFile) input with
  | ok file => exact found_store
  | error e => rfl

/-- A loaded file is stored, if the cache is enabled. -/
theorem found_load : (cache.load sPath input).1.found =
    if cache.bCacheEnabled then loaded cache.found sPath (FileMgr.loadFile sPath input)
    else cache.found := by
  unfold load
  cases FileMgr.loadFile sPath input with
  | ok file =>
    by_cases henabled : cache.bCacheEnabled <;> simp [henabled, loaded]
  | error e => simp [loaded]

theorem returns_load : Returns (cache.load sPath input).2 ↔ Delivered input := by
  rw [← @returns_loadFile sPath]
  unfold load
  cases FileMgr.loadFile sPath input <;> simp

/-- What is in the cache is returned. -/
theorem getFile_of_answers (h : cache.answers sPath = true) :
    (cache.getFile sPath input).1.found = cache.found ∧
      Returns (cache.getFile sPath input).2 := by
  obtain ⟨henabled, h⟩ := (Bool.and_eq_true _ _).mp h
  rw [getFile, if_pos henabled]
  cases hfound : cache.found sPath with
  | some f => exact ⟨found_lookedUp, returns_ok f⟩
  | none =>
    rw [hfound, Option.isSome_none, Bool.false_or] at h
    simp [h]

/-- And what is not is loaded. -/
theorem getFile_of_not_answers (h : cache.answers sPath = false) :
    ∃ start : FileCache, start.found = cache.found ∧
      start.bCacheEnabled = cache.bCacheEnabled ∧
      cache.getFile sPath input = start.load sPath input := by
  by_cases henabled : cache.bCacheEnabled
  · refine ⟨cache.lookedUp sPath, found_lookedUp, rfl, ?_⟩
    rw [answers, henabled, Bool.true_and, Bool.or_eq_false_iff] at h
    have hfound : cache.found sPath = none := by simpa using h.1
    rw [getFile, if_pos henabled, hfound]
    simp [h.2]
  · exact ⟨cache, rfl, rfl, if_neg henabled⟩

/-- **A file is returned** when it need not be loaded, or is delivered. -/
theorem returns_getFile :
    Returns (cache.getFile sPath input).2 ↔ cache.answers sPath ∨ Delivered input := by
  cases h : cache.answers sPath with
  | true => simpa using (getFile_of_answers h).2
  | false =>
    obtain ⟨start, -, -, hload⟩ := @getFile_of_not_answers cache sPath input h
    rw [hload, returns_load]
    simp

/-- **What is cached after a call** is the last that has been loaded. -/
theorem found_after (call : FileCall) :
    (cache.after call).found = cache.lastLoaded call cache.found := by
  cases call with
  | preloadFile sFile input => exact found_preloadFile
  | getFile sPath input =>
    show (cache.getFile sPath input).1.found = if _ then _ else _
    cases h : cache.answers sPath with
    | true => simpa using (getFile_of_answers h).1
    | false =>
      obtain ⟨start, hfound, henabled, hload⟩ := @getFile_of_not_answers cache sPath input h
      rw [hload, found_load, hfound, henabled]
      simp
  | clearCache => rfl
  | setFlags bCacheEnabled bErrorIfNotInCache => rfl
  | setLocation s => rfl

/-- A failed load changes nothing that is cached. -/
theorem found_after_of_fails {call : FileCall} (h : cache.Fails call) :
    (cache.after call).found = cache.found := by
  rw [found_after]
  cases call with
  | preloadFile sFile input => exact loaded_of_not_returns h
  | getFile sPath input =>
    simp only [lastLoaded, loaded_of_not_returns h.2, ite_self]
  | clearCache | setFlags | setLocation => exact h.elim

/-- A cached file is returned as it is. -/
theorem getFile_of_served (h : cache.served sPath = some file) :
    (cache.getFile sPath input).2 = .ok file := by
  unfold served at h
  split at h
  · rename_i henabled
    rw [getFile, if_pos henabled, h]
  · cases h

/-! ## The manager without empty pointers -/

/-- The manager that has the same files. -/
def toFileMgr (cache : FileCache) : FileMgr where
  bCacheEnabled := cache.bCacheEnabled
  bErrorIfNotInCache := cache.bErrorIfNotInCache
  files := cache.found

theorem toFileMgr_lookedUp : (cache.lookedUp sPath).toFileMgr = cache.toFileMgr := by
  unfold toFileMgr
  rw [found_lookedUp]
  rfl

theorem toFileMgr_store : (cache.store sPath file).toFileMgr =
    { cache.toFileMgr with
      files := Function.update cache.toFileMgr.files sPath (some file) } := by
  unfold toFileMgr
  rw [found_store]
  rfl

theorem load_toFileMgr : cache.toFileMgr.load sPath input =
    (cache.load sPath input).2.map fun file => ((cache.load sPath input).1.toFileMgr, file) := by
  unfold FileMgr.load load
  cases FileMgr.loadFile sPath input with
  | ok f =>
    have hmgr : cache.toFileMgr.bCacheEnabled = cache.bCacheEnabled := rfl
    cases henabled : cache.bCacheEnabled with
    | true => simp [catching, Except.map, hmgr, henabled, toFileMgr_store, bind, Except.bind,
        pure, Except.pure]
    | false => simp [catching, Except.map, hmgr, henabled, bind, Except.bind, pure, Except.pure]
  | error e =>
    cases he : e.hoxError? with
    | none => simp [catching, Except.map, he, bind, Except.bind]
    | some error => simp [catching, Except.map, he, bind, Except.bind]

/-- **An empty pointer is no file**: the manager without them returns the
same, and has the same files after it. -/
theorem getFile_toFileMgr : cache.toFileMgr.getFile sPath input =
    (cache.getFile sPath input).2.map fun file =>
      ((cache.getFile sPath input).1.toFileMgr, file) := by
  have hfiles : cache.toFileMgr.files = cache.found := rfl
  have henabled : cache.toFileMgr.bCacheEnabled = cache.bCacheEnabled := rfl
  have herror : cache.toFileMgr.bErrorIfNotInCache = cache.bErrorIfNotInCache := rfl
  cases hcache : cache.bCacheEnabled with
  | false =>
    simp only [FileMgr.getFile, FileMgr.cached, getFile, henabled, hcache, Bool.false_eq_true,
      if_false]
    exact load_toFileMgr
  | true =>
    cases hfound : cache.found sPath with
    | some f =>
      simp [FileMgr.getFile, FileMgr.cached, getFile, hfiles, henabled, hcache, hfound,
        toFileMgr_lookedUp, Except.map]
    | none =>
      cases hcached : cache.bErrorIfNotInCache with
      | true =>
        simp [FileMgr.getFile, FileMgr.cached, getFile, hfiles, henabled, herror, hcache, hfound,
          hcached, toFileMgr_lookedUp, Except.map]
      | false =>
        simp only [FileMgr.getFile, FileMgr.cached, getFile, hfiles, henabled, herror, hcache,
          hfound, hcached, Bool.false_eq_true, if_false, if_true]
        rw [← load_toFileMgr, toFileMgr_lookedUp]

/-! ## Runs -/

theorem step_getFile : machine.step cache (.getFile sPath input) =
    (cache.getFile sPath input).2.map fun _ => (cache.getFile sPath input).1 := rfl

theorem step_preloadFile : machine.step cache (.preloadFile sFile input) =
    .ok (cache.preloadFile sFile input).1 := rfl

/-- A call gets past when its file is supplied. -/
theorem machine_step (cache : FileCache) (call : FileCall) :
    (∃ cache', machine.step cache call = .ok cache') ↔ cache.Supplied call := by
  cases call with
  | getFile sPath input =>
    rw [Supplied, ← returns_getFile]
    exact returns_map
  | preloadFile | clearCache | setFlags | setLocation => exact iff_of_true ⟨_, rfl⟩ trivial

theorem eq_after {call : FileCall} (h : machine.step cache call = .ok cache') :
    cache' = cache.after call := by
  cases call with
  | getFile sPath input =>
    obtain ⟨file, -, hafter⟩ := map_eq_ok.mp h
    exact hafter.symm
  | preloadFile | clearCache | setFlags | setLocation => exact (Except.ok.inj h).symm

/-- What is cached in a run is what has been loaded in it. -/
theorem found_eq_history {calls : List FileCall} (h : machine.run {} calls = .ok cache) :
    cache.found = machine.history lastLoaded {} (fun _ => none) calls := by
  have hsupplied : machine.Meets Supplied {} calls :=
    (Machine.run_ok_iff_meets machine_step).mp ⟨cache, h⟩
  have hstep : ∀ (c : FileCache) (call : FileCall) (c' : FileCache) (last : Bytes → Option File),
      c.found = last → c.Supplied call → machine.step c call = .ok c' →
        c'.found = c.lastLoaded call last := by
    intro c call c' last hlast _ hc
    rw [eq_after hc, found_after, hlast]
  exact Machine.Meets.history hstep rfl hsupplied h

/-- **The file cache in every run.** Each call of `getFile` returns a file
exactly when the files that must be loaded are supplied; a path is served
the file that was loaded last for it; and a failed load changes nothing
that is cached. -/
theorem runs_iff (calls : List FileCall) :
    ((∃ cache, machine.run {} calls = .ok cache) ↔ machine.Meets Supplied {} calls) ∧
      ∀ cache, machine.run {} calls = .ok cache →
        (∀ sPath file, cache.served sPath = some file →
          machine.history lastLoaded {} (fun _ => none) calls sPath = some file ∧
            ∀ input, (cache.getFile sPath input).2 = .ok file) ∧
        ∀ call, cache.Fails call → (cache.after call).found = cache.found := by
  refine ⟨Machine.run_ok_iff_meets machine_step, fun cache h => ⟨fun sPath file hserved => ?_,
    fun call hfails => found_after_of_fails hfails⟩⟩
  refine ⟨?_, fun input => getFile_of_served hserved⟩
  rw [← found_eq_history h]
  unfold served at hserved
  split at hserved
  · exact hserved
  · cases hserved

/-- What the agent answers for a file of this content. -/
def fetched (content : String) : Bytes :=
  bytes "op=HTTP_GET&code=0&content=2\n\n" ++ bytes content

/-- The file `a`. -/
def fileA : File := ⟨bytes "a", bytes "v1", bytes "text/html"⟩

/-- A file is preloaded, and served. -/
def servedRun : List FileCall :=
  [.setFlags true false, .preloadFile (bytes "a") (fetched "v1"), .getFile (bytes "a") []]

theorem loadFile_fileA : FileMgr.loadFile (bytes "a") (fetched "v1") = .ok fileA := by
  decide +kernel

theorem run_servedRun : machine.run {} servedRun =
    .ok ((store { bCacheEnabled := true } (bytes "a") fileA).lookedUp (bytes "a")) := by
  have hload : ({ bCacheEnabled := true } : FileCache).preloadFile (bytes "a") (fetched "v1") =
      (store { bCacheEnabled := true } (bytes "a") fileA, .ok ()) := by
    unfold preloadFile
    rw [show ({ bCacheEnabled := true } : FileCache).sLocation ++ bytes "a" = bytes "a" from rfl,
      loadFile_fileA]
  have hget : (store { bCacheEnabled := true } (bytes "a") fileA).getFile (bytes "a") [] =
      ((store { bCacheEnabled := true } (bytes "a") fileA).lookedUp (bytes "a"), .ok fileA) := by
    rw [getFile, if_pos (by rfl), found_store, Function.update_self]
  have hpreload : machine.step { bCacheEnabled := true }
      (.preloadFile (bytes "a") (fetched "v1")) =
        .ok (store { bCacheEnabled := true } (bytes "a") fileA) := by
    rw [step_preloadFile, hload]
  have hserve : machine.step (store { bCacheEnabled := true } (bytes "a") fileA)
      (.getFile (bytes "a") []) =
        .ok ((store { bCacheEnabled := true } (bytes "a") fileA).lookedUp (bytes "a")) := by
    rw [step_getFile, hget]
    rfl
  have hflags : machine.step {} (.setFlags true false) =
      .ok ({ bCacheEnabled := true } : FileCache) := rfl
  rw [servedRun, Machine.run_cons_of_step _ _ hflags, Machine.run_cons_of_step _ _ hpreload,
    Machine.run_cons_of_step _ _ hserve, Machine.run_nil]

theorem runs_iff_served :
    machine.Meets Supplied {} servedRun ∧
      machine.history lastLoaded {} (fun _ => none) servedRun (bytes "a") = some fileA := by
  obtain ⟨hruns, hserved⟩ := runs_iff servedRun
  have hfound : served ((store { bCacheEnabled := true } (bytes "a") fileA).lookedUp (bytes "a"))
      (bytes "a") = some fileA := by
    rw [served, if_pos (by rfl), found_lookedUp, found_store, Function.update_self]
  exact ⟨hruns.mp ⟨_, run_servedRun⟩, ((hserved _ run_servedRun).1 _ _ hfound).1⟩

/-- A file that cannot be loaded ends the server. -/
theorem empty_pointer_followed :
    (getFile {} (bytes "a") []).2 = .error .nullPointer ∧
      ¬ ∃ cache, machine.run {} [.getFile (bytes "a") []] = .ok cache := by
  have hgetFile : (getFile {} (bytes "a") []).2 = .error .nullPointer := by decide +kernel
  refine ⟨hgetFile, fun h => ?_⟩
  have hsupplied := ((Machine.run_ok_iff_meets machine_step).mp h).1
  have hreturns := returns_getFile.mpr hsupplied
  rw [hgetFile] at hreturns
  exact not_returns_error _ hreturns

end FileCache

end HoxServer.Net
