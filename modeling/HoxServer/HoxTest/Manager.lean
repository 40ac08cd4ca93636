/-
HoxServer.HoxTest.Manager — how the test manager pairs its players
(`Manager.cpp` of the test client), for the threads of `session.cpp`.

The manager keeps a pointer to the game that waits for a second player.
A thread is given a player and a game, and hands both back when the
player has left. A pointer to a game is its place in the list, which does
not change once it has been loaded; a pointer to a player is its place
among the players that have been made.

The pointer is right as long as the one who waits does not leave: it is
not taken back then, and whoever comes next sits down with nobody
(`paired_iff`).
-/
import HoxServer.HoxTest.Command

namespace HoxServer.HoxTest

open Lib HoxServer.Net

/-! ## Random numbers -/

/-- What `rand` returns, below `RAND_MAX + 1`. -/
abbrev Rand := Fin 2147483648

/-- `hoxUtil::generateRandomNumber`. -/
def generateRandomNumber (maxValue : ℕ) (rand : Rand) : ℕ := 1 + maxValue * rand.val / 2147483648

/-! ## Players and games -/

/-- `hoxPlayerType`. -/
inductive PlayerType where
  | inviter | invitee
  deriving DecidableEq

/-- `TestPlayer`. -/
structure TestPlayer where
  id : Bytes := []
  password : Bytes := []
  type : PlayerType := .inviter
  friendId : Bytes := []
  moves : List Bytes := []

/-- `Game`. -/
structure Game where
  id : ℕ
  moves : List Bytes
  red : Option ℕ := none
  black : Option ℕ := none
  status : GameStatus := .unknown

/-- `Manager`, and the players there are. -/
structure Manager where
  games : List Game
  availableIDs : List Bytes
  groupPassword : Bytes
  openGame : Option ℕ := none
  players : List TestPlayer := []

/-- A pointer that is followed is empty. -/
inductive NullPointer where
  | nullPointer
  deriving DecidableEq

/-- The games of `_loadGames` from this line on, when `i` are loaded. -/
def loadGames (i : ℕ) : List Bytes → List Game
  | [] => []
  | sLine :: lines =>
    if sLine = [] ∨ sLine.head? = some 35 then loadGames i lines
    else { id := i + 1, moves := Net.tokens 47 sLine } :: loadGames (i + 1) lines

namespace Manager

/-- `Manager::Manager`. -/
def load (lines groupTestIds : List Bytes) (groupPassword : Bytes) : Manager :=
  { games := loadGames 0 lines, availableIDs := groupTestIds, groupPassword }

def player (mgr : Manager) (p : ℕ) : TestPlayer := mgr.players.getD p {}

def setGame (mgr : Manager) (g : ℕ) (f : Game → Game) : Manager :=
  { mgr with games := mgr.games.modify g f }

def setFriendId (mgr : Manager) (p : ℕ) (friendId : Bytes) : Manager :=
  { mgr with players := mgr.players.modify p fun player => { player with friendId } }

def setupMoves (mgr : Manager) (p : ℕ) (moves : List Bytes) : Manager :=
  { mgr with players := mgr.players.modify p fun player => { player with moves } }

/-- `Manager::_selectFreeGame`. -/
def selectFreeGame (mgr : Manager) (rand : Rand) : Option ℕ :=
  let freeGames := mgr.games.findIdxs fun game =>
    game.status = .unknown ∧ game.red = none ∧ game.black = none
  freeGames[generateRandomNumber freeGames.length rand - 1]?

/-- The guest id of `%04u%d`. -/
def guestId (randNum : ℕ) (threadId : Int) : Bytes :=
  let digits := natToString randNum
  bytes "Guest#t" ++ List.replicate (4 - digits.length) 48 ++ digits ++ intToString threadId

/-- `Manager::_generatePlayerInfo`: an id and its password, and the ids that
are left. -/
def generatePlayerInfo (mgr : Manager) (threadId : Int) (rand : Rand) :
    (Bytes × Bytes) × List Bytes :=
  match mgr.availableIDs with
  | pid :: availableIDs => ((pid, mgr.groupPassword), availableIDs)
  | [] => ((guestId (generateRandomNumber 9999 rand) threadId, bytes "_dummy_password_"), [])

/-- `new Inviter` or `new Invitee` with this information. -/
def newPlayer (mgr : Manager) (type : PlayerType) (threadId : Int) (rand : Rand) : Manager :=
  let info := mgr.generatePlayerInfo threadId rand
  let player : TestPlayer := { id := info.1.1, password := info.1.2, type }
  { mgr with availableIDs := info.2, players := mgr.players ++ [player] }

/-- An inviter sits down. -/
def sitRed (p : ℕ) (game : Game) : Game := { game with status := .open, red := some p }

/-- An invitee joins. -/
def sitBlack (p : ℕ) (game : Game) : Game := { game with status := .ready, black := some p }

/-- `Manager::_assignPlayerToGame`. -/
def assignPlayerToGame (mgr : Manager) (p g : ℕ) : Except NullPointer Manager :=
  let moves := (mgr.games[g]?.map Game.moves).getD []
  match (mgr.player p).type with
  | .inviter =>
    .ok ((mgr.setGame g (sitRed p)).setupMoves p moves)
  | .invitee =>
    let mgr := mgr.setGame g (sitBlack p)
    match mgr.games[g]?.bind Game.red with
    | none => .error .nullPointer
    | some red =>
      .ok (((mgr.setFriendId p (mgr.player red).id).setFriendId red (mgr.player p).id).setupMoves p
        moves)

/-- `Manager::createTestPlayer`: the player and the game, if there are any. -/
def createTestPlayer (mgr : Manager) (threadId : Int) (gameRand guestRand : Rand) :
    Except NullPointer (Manager × Option (ℕ × ℕ)) :=
  match mgr.openGame with
  | none =>
    match mgr.selectFreeGame gameRand with
    | none => .ok ({ mgr with openGame := none }, none)
    | some g =>
      ((({ mgr with openGame := some g }).newPlayer .inviter threadId guestRand).assignPlayerToGame
        mgr.players.length g).map fun mgr' => (mgr', some (mgr.players.length, g))
  | some g =>
    ((({ mgr with openGame := none }).newPlayer .invitee threadId guestRand).assignPlayerToGame
      mgr.players.length g).map fun mgr' => (mgr', some (mgr.players.length, g))

/-- What `onPlayerDisconnected` does to the game. -/
def leave (p : ℕ) (game : Game) : Game :=
  let left :=
    if game.red = some p then { game with red := none }
    else if game.black = some p then { game with black := none }
    else game
  if left.red = none ∧ left.black = none then { left with status := .unknown } else left

/-- `Manager::onPlayerDisconnected`. -/
def onPlayerDisconnected (mgr : Manager) (p g : ℕ) : Manager :=
  { (mgr.setGame g (leave p)).setFriendId p [] with
    availableIDs := mgr.availableIDs ++ [(mgr.player p).id] }

end Manager

/-! ## The threads -/

/-- The manager, and the player and the game that each thread was last
given. -/
structure TestRun where
  manager : Manager
  threads : ℕ → Option (ℕ × ℕ)

/-- A round of `handle_session`: a thread gets rid of the player that it has,
and then asks for a new one. -/
inductive TestStep where
  | onPlayerDisconnected (thread : ℕ)
  | createTestPlayer (thread : ℕ) (gameRand guestRand : Rand)

namespace TestRun

/-- The threads have no players yet. -/
def start (lines groupTestIds : List Bytes) (groupPassword : Bytes) : TestRun where
  manager := Manager.load lines groupTestIds groupPassword
  threads := fun _ => none

/-- The steps of the threads, in any order; a step that is not up to its
thread does nothing. -/
def machine : Machine TestRun TestStep NullPointer where
  init run := ∃ lines groupTestIds groupPassword, run = start lines groupTestIds groupPassword
  step run step :=
    match step with
    | .onPlayerDisconnected thread =>
      match run.threads thread with
      | none => .ok run
      | some given =>
        .ok { manager := run.manager.onPlayerDisconnected given.1 given.2
              threads := Function.update run.threads thread none }
    | .createTestPlayer thread gameRand guestRand =>
      match run.threads thread with
      | none =>
        (run.manager.createTestPlayer thread gameRand guestRand).map fun result =>
          { manager := result.1, threads := Function.update run.threads thread result.2 }
      | some _ => .ok run

/-- The game that waits for a second player has its red one, and no black
one. -/
def Waiting (run : TestRun) : Prop :=
  ∀ g, run.manager.openGame = some g →
    ∃ game, run.manager.games[g]? = some game ∧ game.red.isSome ∧ game.black = none

/-- No player leaves the game that waits for a second one. -/
def InviterStays (run : TestRun) : TestStep → Prop
  | .onPlayerDisconnected thread =>
    ∀ p g, run.threads thread = some (p, g) → run.manager.openGame ≠ some g
  | .createTestPlayer .. => True

end TestRun

/-! ## The calls -/

namespace Manager

variable {mgr mgr' : Manager} {type : PlayerType} {threadId : Int} {gameRand guestRand rand : Rand}
  {p g : ℕ} {game : Game}

/-- The game that is selected has no players. -/
theorem selectFreeGame_free (h : mgr.selectFreeGame rand = some g) :
    ∃ game, mgr.games[g]? = some game ∧ game.red = none ∧ game.black = none := by
  have hmem := List.mem_of_getElem? h
  rw [List.mem_findIdxs_iff_exists_getElem_pos] at hmem
  obtain ⟨hg, hfree⟩ := hmem
  have hfree := of_decide_eq_true hfree
  exact ⟨mgr.games[g], List.getElem?_eq_getElem hg, hfree.2⟩

theorem length_newPlayer :
    (mgr.newPlayer type threadId rand).players.length = mgr.players.length + 1 :=
  List.length_append

theorem player_newPlayer :
    ((mgr.newPlayer type threadId rand).player mgr.players.length).type = type := by
  simp [player, newPlayer]

/-- A player sits down in a game; the players stay who they are. -/
structure Sits (mgr mgr' : Manager) (g : ℕ) (sit : Game → Game) : Prop where
  games : mgr'.games = mgr.games.modify g sit
  openGame : mgr'.openGame = mgr.openGame
  players : mgr'.players.length = mgr.players.length

theorem assignPlayerToGame_inviter (htype : (mgr.player p).type = .inviter) :
    ∃ mgr', mgr.assignPlayerToGame p g = .ok mgr' ∧ mgr.Sits mgr' g (sitRed p) := by
  refine ⟨(mgr.setGame g (sitRed p)).setupMoves p ((mgr.games[g]?.map Game.moves).getD []),
    ?_, rfl, rfl, ?_⟩
  · simp only [assignPlayerToGame, htype]
  · simp [setupMoves, setGame]

/-- An invitee has somebody to join. -/
theorem assignPlayerToGame_invitee (htype : (mgr.player p).type = .invitee)
    (hgame : mgr.games[g]? = some game) (hred : game.red.isSome) :
    ∃ mgr', mgr.assignPlayerToGame p g = .ok mgr' ∧ mgr.Sits mgr' g (sitBlack p) := by
  obtain ⟨red, hred⟩ := Option.isSome_iff_exists.mp hred
  have hjoined : (mgr.setGame g (sitBlack p)).games[g]?.bind Game.red = some red := by
    simp [setGame, hgame, sitBlack, hred]
  refine ⟨(((mgr.setGame g (sitBlack p)).setFriendId p
    ((mgr.setGame g (sitBlack p)).player red).id).setFriendId red
      ((mgr.setGame g (sitBlack p)).player p).id).setupMoves p
        ((mgr.games[g]?.map Game.moves).getD []), ?_, rfl, rfl, ?_⟩
  · simp only [assignPlayerToGame, htype, hjoined]
  · simp [setupMoves, setFriendId, setGame]

/-- What a call does to the games and the pointer, when it gives a player. -/
structure Gives (mgr mgr' : Manager) (g : ℕ) (sit : ℕ → Game → Game) (openGame : Option ℕ) :
    Prop where
  games : mgr'.games = mgr.games.modify g (sit mgr.players.length)
  openGame : mgr'.openGame = openGame
  players : mgr'.players.length = mgr.players.length + 1

/-- Without an open game, the player waits in a free one. -/
theorem createTestPlayer_inviter (hopen : mgr.openGame = none)
    (hfree : mgr.selectFreeGame gameRand = some g) :
    ∃ mgr', mgr.createTestPlayer threadId gameRand guestRand =
        .ok (mgr', some (mgr.players.length, g)) ∧ mgr.Gives mgr' g sitRed (some g) := by
  have htype := @player_newPlayer { mgr with openGame := some g } .inviter threadId guestRand
  obtain ⟨mgr', hassign, hsits⟩ := assignPlayerToGame_inviter (g := g) htype
  refine ⟨mgr', ?_, hsits.games, hsits.openGame, hsits.players.trans length_newPlayer⟩
  simp only [createTestPlayer, hopen, hfree]
  rw [hassign]
  rfl

/-- With one, the player joins it, if there is somebody to join. -/
theorem createTestPlayer_invitee (hopen : mgr.openGame = some g)
    (hgame : mgr.games[g]? = some game) (hred : game.red.isSome) :
    ∃ mgr', mgr.createTestPlayer threadId gameRand guestRand =
        .ok (mgr', some (mgr.players.length, g)) ∧ mgr.Gives mgr' g sitBlack none := by
  have htype := @player_newPlayer { mgr with openGame := none } .invitee threadId guestRand
  obtain ⟨mgr', hassign, hsits⟩ := assignPlayerToGame_invitee htype hgame hred
  refine ⟨mgr', ?_, hsits.games, hsits.openGame, hsits.players.trans length_newPlayer⟩
  simp only [createTestPlayer, hopen]
  rw [hassign]
  rfl

theorem createTestPlayer_none (hopen : mgr.openGame = none)
    (hfree : mgr.selectFreeGame gameRand = none) :
    mgr.createTestPlayer threadId gameRand guestRand = .ok (mgr, none) := by
  simp only [createTestPlayer, hopen, hfree]
  rw [← hopen]

end Manager

/-! ## Runs -/

namespace TestRun

variable {run run' : TestRun} {p g thread : ℕ} {game : Game}

/-- What holds while no waiting player leaves: every player that a thread has
sits in its game, and no two threads have the same player. -/
structure Paired (run : TestRun) : Prop where
  waiting : run.Waiting
  seated : ∀ thread p g, run.threads thread = some (p, g) →
    ∃ game, run.manager.games[g]? = some game ∧ (game.red = some p ∨ game.black = some p)
  distinct : ∀ thread thread' p g g', run.threads thread = some (p, g) →
    run.threads thread' = some (p, g') → thread = thread'
  made : ∀ thread p g, run.threads thread = some (p, g) → p < run.manager.players.length

theorem Paired.start (lines groupTestIds : List Bytes) (groupPassword : Bytes) :
    (start lines groupTestIds groupPassword).Paired where
  waiting _ h := by cases h
  seated _ _ _ h := by cases h
  distinct _ _ _ _ _ h := by cases h
  made _ _ _ h := by cases h

/-- A player is in a game. -/
def Seated (p : ℕ) (game : Game) : Prop := game.red = some p ∨ game.black = some p

section Given

variable {mgr' : Manager} {sit : ℕ → Game → Game} {openGame : Option ℕ}
  {threads : ℕ → Option (ℕ × ℕ)} {t p' g' : ℕ}

/-- Who has which player after a thread was given one. -/
theorem given_eq_some : Function.update threads thread (some (p, g)) t = some (p', g') ↔
    t = thread ∧ p' = p ∧ g' = g ∨ t ≠ thread ∧ threads t = some (p', g') := by
  by_cases ht : t = thread
  · subst ht
    simp [eq_comm]
  · simp [ht]

/-- And after it got rid of it. -/
theorem freed_eq_some : Function.update threads thread none t = some (p', g') ↔
    t ≠ thread ∧ threads t = some (p', g') := by
  by_cases ht : t = thread
  · subst ht
    simp
  · simp [ht]

/-- Nobody gets up when a new player sits down. -/
theorem Paired.seated_given (h : run.Paired) (hgives : run.manager.Gives mgr' g sit openGame)
    (hgame : run.manager.games[g]? = some game)
    (hkeeps : ∀ p, Seated p game → Seated p (sit run.manager.players.length game))
    (hthread : run.threads t = some (p', g')) :
    ∃ game', mgr'.games[g']? = some game' ∧ Seated p' game' := by
  obtain ⟨game', hgame', hseat⟩ := h.seated t p' g' hthread
  by_cases hg : g = g'
  · subst hg
    cases hgame.symm.trans hgame'
    exact ⟨_, by simp [hgives.games, hgame], hkeeps p' hseat⟩
  · exact ⟨game', by simp [hgives.games, hg, hgame'], hseat⟩

/-- A new player sits down, and nobody gets up for it. -/
theorem Paired.given (h : run.Paired) (hgives : run.manager.Gives mgr' g sit openGame)
    (hgame : run.manager.games[g]? = some game)
    (hsit : Seated run.manager.players.length (sit run.manager.players.length game))
    (hkeeps : ∀ p, Seated p game → Seated p (sit run.manager.players.length game))
    (hwaiting : ∀ g', openGame = some g' → g' = g ∧
      (sit run.manager.players.length game).red.isSome ∧
        (sit run.manager.players.length game).black = none) :
    Paired
      { manager := mgr'
        threads := Function.update run.threads thread (some (run.manager.players.length, g)) } := by
  have hat : mgr'.games[g]? = some (sit run.manager.players.length game) := by
    simp [hgives.games, hgame]
  -- the new player is nobody else's
  have hfresh : ∀ {t g'}, run.threads t ≠ some (run.manager.players.length, g') :=
    fun ht => (h.made _ _ _ ht).ne rfl
  refine ⟨fun g' hopen => ?_, fun t p g' ht => ?_, fun t t' p g₁ g₂ ht ht' => ?_,
    fun t p g' ht => ?_⟩
  · obtain ⟨rfl, hred, hblack⟩ := hwaiting g' (hgives.openGame.symm.trans hopen)
    exact ⟨_, hat, hred, hblack⟩
  · rcases given_eq_some.mp ht with ⟨-, rfl, rfl⟩ | ⟨-, hother⟩
    · exact ⟨_, hat, hsit⟩
    · exact h.seated_given hgives hgame hkeeps hother
  · rcases given_eq_some.mp ht with ⟨rfl, rfl, -⟩ | ⟨-, hother⟩
    · rcases given_eq_some.mp ht' with ⟨rfl, -, -⟩ | ⟨-, hother'⟩
      · rfl
      · exact absurd hother' hfresh
    · rcases given_eq_some.mp ht' with ⟨-, rfl, -⟩ | ⟨-, hother'⟩
      · exact absurd hother hfresh
      · exact h.distinct t t' p g₁ g₂ hother hother'
  · rw [hgives.players]
    rcases given_eq_some.mp ht with ⟨-, rfl, -⟩ | ⟨-, hother⟩
    · exact Nat.lt_succ_self _
    · exact (h.made t p g' hother).trans (Nat.lt_succ_self _)

end Given

/-- A thread without a player gets one, or waits. -/
theorem Paired.createTestPlayer (h : run.Paired) (hthread : run.threads thread = none)
    (gameRand guestRand : Rand) :
    ∃ run', machine.step run (.createTestPlayer thread gameRand guestRand) = .ok run' ∧
      run'.Paired := by
  have hstep : ∀ {mgr' given}, run.manager.createTestPlayer thread gameRand guestRand =
      .ok (mgr', given) → machine.step run (.createTestPlayer thread gameRand guestRand) =
        .ok { manager := mgr', threads := Function.update run.threads thread given } := by
    intro mgr' given hcall
    simp only [machine, hthread, hcall, Except.map]
  cases hopen : run.manager.openGame with
  | none =>
    cases hfree : run.manager.selectFreeGame gameRand with
    | none =>
      refine ⟨_, hstep (Manager.createTestPlayer_none hopen hfree), ?_⟩
      have hsame : Function.update run.threads thread none = run.threads := by
        rw [← hthread, Function.update_eq_self]
      rw [hsame]
      exact h
    | some g =>
      obtain ⟨game, hgame, hred, hblack⟩ := Manager.selectFreeGame_free hfree
      obtain ⟨mgr', hcall, hgives⟩ := Manager.createTestPlayer_inviter hopen hfree
      refine ⟨_, hstep hcall, h.given hgives hgame (Or.inl rfl) (fun p hseat => ?_) ?_⟩
      · simp [Seated, hred, hblack] at hseat
      · rintro g' ⟨⟩
        exact ⟨rfl, rfl, hblack⟩
  | some g =>
    obtain ⟨game, hgame, hred, hblack⟩ := h.waiting g hopen
    obtain ⟨mgr', hcall, hgives⟩ := Manager.createTestPlayer_invitee hopen hgame hred
    refine ⟨_, hstep hcall, h.given hgives hgame (Or.inr rfl) (fun p hseat => ?_) ?_⟩
    · exact hseat.imp_right fun hb => by rw [hblack] at hb; cases hb
    · rintro g' ⟨⟩

theorem seated_leave {p' : ℕ} (hne : p' ≠ p) (h : Seated p' game) :
    Seated p' (Manager.leave p game) := by
  have hp : some p' ≠ some p := fun he => hne (Option.some.inj he)
  have hstatus : ∀ left : Game, Seated p' left → Seated p'
      (if left.red = none ∧ left.black = none then { left with status := .unknown } else left) := by
    intro left hseat
    split <;> exact hseat
  refine hstatus _ ?_
  split
  · rename_i hred
    exact Or.inr (h.resolve_left fun hr => hp (hr.symm.trans hred))
  · split
    · rename_i hblack
      exact Or.inl (h.resolve_right fun hb => hp (hb.symm.trans hblack))
    · exact h

/-- A player that is not waiting leaves. -/
theorem Paired.onPlayerDisconnected (h : run.Paired) (hthread : run.threads thread = some (p, g))
    (hopen : run.manager.openGame ≠ some g) :
    Paired
      { manager := run.manager.onPlayerDisconnected p g
        threads := Function.update run.threads thread none } := by
  have hgames : ∀ g', (run.manager.onPlayerDisconnected p g).games[g']? =
      (run.manager.games[g']?).map fun game => if g = g' then Manager.leave p game else game := by
    intro g'
    exact List.getElem?_modify _ _ _ _
  refine ⟨fun g' hwait => ?_, fun t p' g' ht => ?_, fun t t' p' g₁ g₂ ht ht' => ?_,
    fun t p' g' ht => ?_⟩
  · obtain ⟨game, hgame, hred, hblack⟩ := h.waiting g' hwait
    have hne : g ≠ g' := fun he => hopen (he ▸ hwait)
    exact ⟨game, by rw [hgames, hgame, Option.map_some, if_neg hne], hred, hblack⟩
  · obtain ⟨hne, hother⟩ := freed_eq_some.mp ht
    obtain ⟨game, hgame, hseat⟩ := h.seated t p' g' hother
    refine ⟨if g = g' then Manager.leave p game else game, by rw [hgames, hgame]; rfl, ?_⟩
    split
    · refine seated_leave (fun hp => hne ?_) hseat
      subst hp
      exact h.distinct _ _ _ _ _ hother hthread
    · exact hseat
  · exact h.distinct t t' p' g₁ g₂ (freed_eq_some.mp ht).2 (freed_eq_some.mp ht').2
  · have hlength : (run.manager.onPlayerDisconnected p g).players.length =
        run.manager.players.length := by
      simp [Manager.onPlayerDisconnected, Manager.setFriendId, Manager.setGame]
    rw [hlength]
    exact h.made t p' g' (freed_eq_some.mp ht).2

/-- When the waiting player leaves, nobody waits in the game. -/
theorem Paired.not_waiting (h : run.Paired) (hthread : run.threads thread = some (p, g))
    (hopen : run.manager.openGame = some g) :
    ¬ Waiting
      { manager := run.manager.onPlayerDisconnected p g
        threads := Function.update run.threads thread none } := by
  intro hwaiting
  obtain ⟨game, hgame, hred, hblack⟩ := h.waiting g hopen
  obtain ⟨game', hgame', hseat⟩ := h.seated thread p g hthread
  cases hgame.symm.trans hgame'
  have hseat : game.red = some p := hseat.resolve_right (by simp [hblack])
  obtain ⟨left, hleft, hredLeft, -⟩ := hwaiting g hopen
  have hleave : (run.manager.onPlayerDisconnected p g).games[g]? = some (Manager.leave p game) := by
    simp [Manager.onPlayerDisconnected, Manager.setFriendId, Manager.setGame, hgame]
  cases hleave.symm.trans hleft
  simp [Manager.leave, hseat, hblack] at hredLeft

theorem step_onPlayerDisconnected (hthread : run.threads thread = some (p, g)) :
    machine.step run (.onPlayerDisconnected thread) =
      .ok { manager := run.manager.onPlayerDisconnected p g
            threads := Function.update run.threads thread none } := by
  simp only [machine, hthread]

/-- A step keeps the pairs, unless a waiting player leaves. -/
theorem Paired.step (h : run.Paired) (step : TestStep) (hstays : run.InviterStays step) :
    ∃ run', machine.step run step = .ok run' ∧ run'.Paired := by
  cases step with
  | onPlayerDisconnected thread =>
    cases hthread : run.threads thread with
    | none => exact ⟨run, by simp only [machine, hthread], h⟩
    | some given =>
      exact ⟨_, step_onPlayerDisconnected hthread,
        h.onPlayerDisconnected hthread (hstays _ _ hthread)⟩
  | createTestPlayer thread gameRand guestRand =>
    cases hthread : run.threads thread with
    | none => exact h.createTestPlayer hthread gameRand guestRand
    | some given => exact ⟨run, by simp only [machine, hthread], h⟩

/-- **The players are paired** in a run exactly when no waiting player leaves:
whenever a game waits for a second player it has its first, and no
invitee is left without one. -/
theorem paired_iff (lines groupTestIds : List Bytes) (groupPassword : Bytes)
    (steps : List TestStep) :
    machine.Along Waiting (TestRun.start lines groupTestIds groupPassword) steps ↔
      machine.Meets InviterStays (TestRun.start lines groupTestIds groupPassword) steps := by
  refine Machine.along_iff_meets (I := Paired) (fun _ h => h.waiting)
    (fun run step h hstays => h.step step hstays) (fun run step run' h hleaves hstep => ?_)
    (Paired.start lines groupTestIds groupPassword) steps
  cases step with
  | onPlayerDisconnected thread =>
    have hleaves : ∃ p g, run.threads thread = some (p, g) ∧
        run.manager.openGame = some g := by
      simpa [InviterStays] using hleaves
    obtain ⟨p, g, hthread, hopen⟩ := hleaves
    rw [← Except.ok.inj ((step_onPlayerDisconnected hthread).symm.trans hstep)]
    exact h.not_waiting hthread hopen
  | createTestPlayer thread gameRand guestRand => exact absurd trivial hleaves

/-- The first player leaves while it waits, and the next one has nobody to
join. -/
theorem inviter_left :
    ¬ machine.Along Waiting (TestRun.start [bytes "C3=4/c7=6"] [] [])
        [.createTestPlayer 1 0 0, .onPlayerDisconnected 1] ∧
      machine.run (TestRun.start [bytes "C3=4/c7=6"] [] [])
        [.createTestPlayer 1 0 0, .onPlayerDisconnected 1, .createTestPlayer 2 0 0] =
          .error .nullPointer := by
  have hleft : ((machine.run (TestRun.start [bytes "C3=4/c7=6"] [] [])
      [.createTestPlayer 1 0 0, .onPlayerDisconnected 1]).toOption.map fun run =>
        (run.manager.openGame, run.manager.games.map Game.red)) = some (some 0, [none]) := by
    rfl
  refine ⟨fun h => ?_, by rfl⟩
  obtain ⟨run, hrun, hwaiting⟩ := h.run
  rw [hrun] at hleft
  obtain ⟨hopen, hred⟩ := Prod.mk.inj (Option.some.inj hleft)
  obtain ⟨game, hgame, hsome, -⟩ := hwaiting 0 hopen
  have hnone : game.red = none := by
    have hmem := List.mem_map_of_mem (f := Game.red) (List.mem_of_getElem? hgame)
    simpa [hred] using hmem
  simp [hnone] at hsome

end TestRun

end HoxServer.HoxTest
