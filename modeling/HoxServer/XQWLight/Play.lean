/-
HoxServer.XQWLight.Play — the positions of a game, and what the engine
does in them.

* `generateMoves_spec` — in every position of a game `GenerateMoves` writes
  the moves of the rules and no others, all or captures alone, inside of
  its array.
* `legalMove_iff_generated` — `LegalMove` tests a move without generating,
  and agrees with the generator.
* `makeMove_spec` — `MakeMove` plays a move exactly when it leaves the own
  king unattacked and the kings apart, and is without a trace otherwise.
* `isMate_iff` — `IsMate`: there is no such move.
-/
import HoxServer.XQWLight.Sound

namespace HoxServer.XQWLight

open Xiangqi

namespace PositionStruct

variable {Z : Zobrist} {p q p₀ : PositionStruct} {a c : Position} {mv : Int} {es : List Turn}

/-! ## Steps -/

/-- A new game, with either side to move. -/
def NewGame (Z : Zobrist) (p : PositionStruct) : Prop :=
  p = startup Z none ∨ p = (startup Z none).changeSide Z

theorem NewGame.started (h : NewGame Z p) : Started Z p := ⟨none, h⟩

/-- The steps of the engine: a move that `LegalMove` takes and that stays on
the board, a null move of a side that is not noted to be in check. -/
def Fair (p : PositionStruct) : Turn → Prop
  | .make mv => inBoard (dst mv) = true ∧ p.legalMove mv = true
  | .null => p.inCheck = false
  | .undo => True

instance decidableFair (p : PositionStruct) : ∀ t, Decidable (p.Fair t)
  | .make _ => inferInstanceAs (Decidable (_ ∧ _))
  | .null => inferInstanceAs (Decidable (_ = _))
  | .undo => inferInstanceAs (Decidable True)

/-- A sound position with a true note of whether there is check. -/
structure InPlay (p : PositionStruct) : Prop extends p.Sound where
  noted : p.inCheck = p.checked

/-- A move of the rules, from and to the board. -/
def RuleMove (p : PositionStruct) (mv : Int) : Prop :=
  ∃ a c, mv = move (square a) (square c) ∧ p.Own a ∧ PseudoLegal p.placement a c

theorem move_src_dst (mv : Int) : move (src mv) (dst mv) = mv := by
  simp only [move, src, dst]
  omega

/-- **`LegalMove`** takes the moves of the rules. -/
theorem Manned.legalMove_iff_ruleMove (h : p.Manned) :
    inBoard (dst mv) = true ∧ p.legalMove mv = true ↔ p.RuleMove mv := by
  constructor
  · rintro ⟨hdst, hlegal⟩
    have hsrc : p.ucpcSquares (src mv) ≠ 0 := by
      intro h0
      simp [legalMove, PositionStruct.isSelf, h0] at hlegal
    obtain ⟨a, ha, hsa⟩ := exists_square (h.clean _ hsrc).1
    obtain ⟨c, hc, hdc⟩ := exists_square hdst
    have hmv : mv = move (square a) (square c) := by
      rw [← hsa, ← hdc, move_src_dst]
    rw [hmv, h.clean.legalMove_iff h.placed ha hc] at hlegal
    exact ⟨a, c, hmv, hlegal⟩
  · rintro ⟨a, c, rfl, hown, hlegal⟩
    have ha : a.isValid = true := isValid_of_placement hown.choose_spec.1
    have hc := onBoard_iff_isValid.mp hlegal.1
    rw [dst_move ha, h.clean.legalMove_iff h.placed ha hc]
    exact ⟨(inBoard_square (near_of_isValid hc)).trans hc, hown, hlegal⟩

theorem InPlay.made (h : p.InPlay) (hrule : p.RuleMove mv)
    (hsafe : (p.moved Z mv).checked = false) : (p.made Z mv).InPlay := by
  obtain ⟨a, c, rfl, hown, hlegal⟩ := hrule
  exact ⟨h.toSound.made hown hlegal hsafe, rfl⟩

theorem InPlay.passed (h : p.InPlay) (hcheck : p.inCheck = false) : (p.passed Z).InPlay := by
  have hsound : (p.passed Z).Sound := h.toSound.passed (h.noted.symm.trans hcheck)
  refine ⟨hsound, ?_⟩
  -- the side that is to move now was not attacked before
  have hsafe : ¬ (p.passed Z).checked = true := by
    rw [hsound.checked_iff, not_or]
    exact ⟨h.quiet, h.notFacing⟩
  rw [Bool.eq_false_iff.mpr hsafe]
  rfl

/-- `Checked` reads the board and the side to move. -/
theorem checked_congr (hboard : q.ucpcSquares = p.ucpcSquares)
    (hside : q.sdPlayer = p.sdPlayer) : q.checked = p.checked := by
  cases p
  cases q
  cases hboard
  cases hside
  rfl

theorem checked_starting (sd : Side) : (starting sd).checked = false := by
  have hquiet := (sound_starting sd.opposite).quiet
  rw [show (starting sd.opposite).sdPlayer = sd.opposite from rfl, Side.opposite_opposite]
    at hquiet
  rw [Bool.eq_false_iff, ne_eq, (manned_starting sd).checked_iff, not_or]
  exact ⟨hquiet, (sound_starting sd).notFacing⟩

theorem inCheck_setIrrev : p.setIrrev.inCheck = p.setIrrev.checked := rfl

theorem inCheck_changeSide : (p.changeSide Z).inCheck = p.inCheck := rfl

theorem inCheck_startup : (startup Z none).inCheck = (startup Z none).checked := by
  rw [startup, inCheck_setIrrev]

theorem checked_startup : (startup Z none).checked = false :=
  (checked_congr startup_ucpcSquares (startup_sdPlayer none)).trans (checked_starting .red)

theorem NewGame.inPlay (h : NewGame Z p) : p.InPlay := by
  rcases h with rfl | rfl
  · exact ⟨sound_startup, inCheck_startup⟩
  · refine ⟨sound_startup_changeSide, ?_⟩
    have hchecked : ((startup Z none).changeSide Z).checked = false :=
      (checked_congr (changeSide_ucpcSquares.trans startup_ucpcSquares)
        (by rw [changeSide_sdPlayer, startup_sdPlayer]; rfl)).trans (checked_starting .black)
    rw [hchecked, inCheck_changeSide, inCheck_startup, checked_startup]

/-! ## Runs -/

/-- **Every position of a game is in play.** -/
theorem inPlay_of_run (h₀ : NewGame Z p₀) (hmeets : (machine Z).Meets Fair p₀ es)
    (hrun : (machine Z).run p₀ es = .ok p) : p.InPlay := by
  have hleads := leads_of_run h₀.started hmeets hrun
  clear hmeets hrun
  induction hleads with
  | start => exact h₀.inPlay
  | @made p mv _ hfair hmov hmade ih =>
    refine ih.made (ih.legalMove_iff_ruleMove.mp hfair) ?_
    rw [makeMove_eq, if_pos hmov] at hmade
    by_contra hchecked
    rw [if_pos (by simpa using hchecked)] at hmade
    cases hmade
  | passed _ hfair _ ih => exact ih.passed hfair

theorem cannonGame_meets :
    (machine initZobrist).Meets Fair (startup initZobrist none) cannonGame := by
  decide +kernel

/-! ## What the engine knows of the rules -/

/-- A capture is a generated move to a square with an enemy. -/
theorem Clean.mem_generated_capture (h : p.Clean) :
    mv ∈ p.generated true ↔ mv ∈ p.generated false ∧ p.isOpp (p.ucpcSquares (dst mv)) = true := by
  have hdst : ∀ sqSrc ∈ squares, ∀ sqDst, dst (move sqSrc sqDst) = sqDst := by
    intro sqSrc hsrc sqDst
    rw [mem_squares] at hsrc
    simp only [dst, move]
    omega
  simp only [generated, List.mem_flatMap]
  constructor
  · rintro ⟨sqSrc, hsrc, hmv⟩
    split at hmv
    · rename_i hself
      obtain ⟨sqDst, hto, rfl⟩ := List.mem_map.mp hmv
      obtain ⟨hto, hopp⟩ := h.mem_destinations_capture.mp hto
      rw [hdst sqSrc hsrc]
      exact ⟨⟨sqSrc, hsrc, by rw [if_pos hself]; exact List.mem_map_of_mem hto⟩, hopp⟩
    · cases hmv
  · rintro ⟨⟨sqSrc, hsrc, hmv⟩, hopp⟩
    split at hmv
    · rename_i hself
      obtain ⟨sqDst, hto, rfl⟩ := List.mem_map.mp hmv
      rw [hdst sqSrc hsrc] at hopp
      refine ⟨sqSrc, hsrc, ?_⟩
      rw [if_pos hself]
      exact List.mem_map_of_mem (h.mem_destinations_capture.mpr ⟨hto, hopp⟩)
    · cases hmv

/-- A move of the rules to a square that is not free goes to an enemy. -/
theorem RuleMove.isOpp_iff (hclean : p.Clean) (h : p.RuleMove mv) :
    p.isOpp (p.ucpcSquares (dst mv)) = true ↔ p.ucpcSquares (dst mv) ≠ 0 := by
  obtain ⟨a, c, rfl, ⟨m, hm, hown⟩, hc, m', hm', -, hother⟩ := h
  obtain rfl := Option.some.inj (hm.symm.trans hm')
  have hvalid := onBoard_iff_isValid.mp hc
  rw [dst_move (isValid_of_placement hm), hclean.isOpp hvalid]
  constructor
  · rintro ⟨n, hn, -⟩
    obtain ⟨sd, k, -, hpc, -⟩ := piece_of_placement hn
    rw [hpc]
    cases sd <;> simp [sideTag]
  · intro hpc
    have hman : (p.placement c).isSome = true := by
      rw [placement_of_isValid hvalid, man?_isSome]
      exact (hclean _ hpc).2
    obtain ⟨n, hn⟩ := Option.isSome_iff_exists.mp hman
    exact ⟨n, hn, hown ▸ hother n hn⟩

/-- What is generated in play: the moves of the rules, or those that capture. -/
theorem InPlay.mem_generated (h : p.InPlay) {bCapture : Bool} :
    mv ∈ p.generated bCapture ↔
      p.RuleMove mv ∧ (bCapture = true → p.ucpcSquares (dst mv) ≠ 0) := by
  have hall : mv ∈ p.generated false ↔ p.RuleMove mv := h.clean.mem_generated h.placed
  cases bCapture with
  | false => simpa using hall
  | true =>
    rw [h.clean.mem_generated_capture, hall]
    exact and_congr_right fun hrule => (hrule.isOpp_iff h.clean).trans (by simp)

/-- **`GenerateMoves`** in a game. -/
theorem generateMoves_spec (h₀ : NewGame Z p₀) (hmeets : (machine Z).Meets Fair p₀ es)
    (hrun : (machine Z).run p₀ es = .ok p) :
    ∃ mvs mvsCapture, p.generateMoves false = .ok mvs ∧ p.generateMoves true = .ok mvsCapture ∧
      (∀ mv, mv ∈ mvs ↔ p.RuleMove mv) ∧
      ∀ mv, mv ∈ mvsCapture ↔ p.RuleMove mv ∧ p.ucpcSquares (dst mv) ≠ 0 := by
  have h := inPlay_of_run h₀ hmeets hrun
  refine ⟨_, _, h.generateMoves_eq false, h.generateMoves_eq true, fun mv => ?_, fun mv => ?_⟩
  · exact h.mem_generated.trans (by simp)
  · exact h.mem_generated.trans (by simp)

theorem generateMoves_spec_cannon :
    ∃ (p : PositionStruct) (mvs mvsCapture : List Int),
      (machine initZobrist).run (startup initZobrist none) cannonGame = .ok p ∧
      p.inCheck = true ∧
      p.generateMoves false = .ok mvs ∧ p.generateMoves true = .ok mvsCapture ∧
      (∀ mv, mv ∈ mvs ↔ p.RuleMove mv) ∧
      ∀ mv, mv ∈ mvsCapture ↔ p.RuleMove mv ∧ p.ucpcSquares (dst mv) ≠ 0 := by
  obtain ⟨p, hrun, -, hcheck, -⟩ := cannonGame_run
  obtain ⟨mvs, mvsCapture, h⟩ := generateMoves_spec (.inl rfl) cannonGame_meets hrun
  exact ⟨p, mvs, mvsCapture, hrun, hcheck, h⟩

/-- **`LegalMove`** and the generator: on the board they agree. -/
theorem legalMove_iff_generated (h₀ : NewGame Z p₀) (hmeets : (machine Z).Meets Fair p₀ es)
    (hrun : (machine Z).run p₀ es = .ok p) (mv : Int) :
    mv ∈ p.generated false ↔ inBoard (dst mv) = true ∧ p.legalMove mv = true := by
  have h := inPlay_of_run h₀ hmeets hrun
  rw [h.legalMove_iff_ruleMove]
  exact h.clean.mem_generated h.placed

theorem legalMove_iff_generated_cannon : ∃ p : PositionStruct,
    (machine initZobrist).run (startup initZobrist none) cannonGame = .ok p ∧ p.inCheck = true ∧
      ∀ mv, mv ∈ p.generated false ↔ inBoard (dst mv) = true ∧ p.legalMove mv = true := by
  obtain ⟨p, hrun, -, hcheck, -⟩ := cannonGame_run
  exact ⟨p, hrun, hcheck, legalMove_iff_generated (.inl rfl) cannonGame_meets hrun⟩

/-- A move that does not leave the own king attacked or facing the other. -/
def Safe (p : PositionStruct) (a c : Position) : Prop :=
  ¬ InCheck (p.placement.move a c) p.sdPlayer.color ∧ ¬ KingsFacing (p.placement.move a c)

theorem Sound.checked_moved_iff (h : p.Sound) (hown : p.Own a)
    (hlegal : PseudoLegal p.placement a c) :
    (p.moved Z (move (square a) (square c))).checked = false ↔ p.Safe a c := by
  have hmanned := h.moved (Z := Z) hown hlegal
  have hplacement := p.placement_moved (Z := Z) (isValid_of_placement hown.choose_spec.1)
    (onBoard_iff_isValid.mp hlegal.1)
  rw [← Bool.not_eq_true, hmanned.checked_iff, hplacement, moved_sdPlayer, not_or]
  rfl

/-- **`MakeMove`** in a game. -/
theorem makeMove_spec (h₀ : NewGame Z p₀) (hmeets : (machine Z).Meets Fair p₀ es)
    (hrun : (machine Z).run p₀ es = .ok p) (hroom : p.mvsList.length < maxMoves)
    (hown : p.Own a) (hlegal : PseudoLegal p.placement a c) :
    (p.Safe a c → ∃ q, p.makeMove Z (move (square a) (square c)) = .ok (true, q) ∧
      q.placement = p.placement.move a c ∧ q.sdPlayer = p.sdPlayer.opposite ∧
      (q.inCheck = true ↔ InCheck q.placement q.sdPlayer.color) ∧ q.undoMakeMove Z = .ok p) ∧
    (¬ p.Safe a c → p.makeMove Z (move (square a) (square c)) = .ok (false, p)) := by
  have h := inPlay_of_run h₀ hmeets hrun
  have hmov := hown.movable hlegal
  have hsafe := h.checked_moved_iff (Z := Z) hown hlegal
  have ha : a.isValid = true := isValid_of_placement hown.choose_spec.1
  rw [makeMove_eq, if_pos hmov]
  constructor
  · intro hs
    have hfree := hsafe.mpr hs
    have hmade := h.made ⟨a, c, rfl, hown, hlegal⟩ hfree
    refine ⟨p.made Z (move (square a) (square c)), ?_, ?_, made_sdPlayer, ?_, undo_made hmov⟩
    · rw [hfree, if_neg Bool.false_ne_true, if_pos hroom]
    · exact placement_moved ha (onBoard_iff_isValid.mp hlegal.1)
    · rw [hmade.noted, hmade.checked_iff]
      exact ⟨fun hin => hin.resolve_right hmade.notFacing, .inl⟩
  · intro hs
    rw [if_pos (by simpa using hsafe.not.mpr hs)]

/-- BLACK is in check. His chariot takes the cannon that gives it; his own
cannon may not take a horse. -/
theorem makeMove_spec_chariot : ∃ p q : PositionStruct,
    (machine initZobrist).run (startup initZobrist none) cannonGame = .ok p ∧
      p.makeMove initZobrist (move (square ⟨8, 0⟩) (square ⟨7, 0⟩)) = .ok (true, q) ∧
      q.placement = p.placement.move ⟨8, 0⟩ ⟨7, 0⟩ ∧ q.sdPlayer = .red ∧
      q.undoMakeMove initZobrist = .ok p ∧
      p.makeMove initZobrist (move (square ⟨1, 2⟩) (square ⟨1, 9⟩)) = .ok (false, p) := by
  obtain ⟨p, hrun, hlength, -, hside⟩ := cannonGame_run
  have h := inPlay_of_run (.inl rfl) cannonGame_meets hrun
  -- what the run says of the position, computed
  have hcomputed : ((machine initZobrist).run (startup initZobrist none) cannonGame).map (fun p =>
      (p.legalMove (move (square ⟨8, 0⟩) (square ⟨7, 0⟩)),
        (p.moved initZobrist (move (square ⟨8, 0⟩) (square ⟨7, 0⟩))).checked,
        p.legalMove (move (square ⟨1, 2⟩) (square ⟨1, 9⟩)),
        (p.moved initZobrist (move (square ⟨1, 2⟩) (square ⟨1, 9⟩))).checked)) =
      .ok (true, false, true, true) := by
    decide +kernel
  rw [hrun] at hcomputed
  simp only [Except.map, Except.ok.injEq, Prod.mk.injEq] at hcomputed
  obtain ⟨hlegal, hfree, hlegal', hchecked⟩ := hcomputed
  have hroom : p.mvsList.length < maxMoves := by rw [hlength]; decide
  have hrule := (h.clean.legalMove_iff h.placed (a := ⟨8, 0⟩) (c := ⟨7, 0⟩) (by decide)
    (by decide)).mp hlegal
  have hrule' := (h.clean.legalMove_iff h.placed (a := ⟨1, 2⟩) (c := ⟨1, 9⟩) (by decide)
    (by decide)).mp hlegal'
  obtain ⟨q, hmake, hplacement, hturn, -, hundo⟩ := (makeMove_spec (.inl rfl) cannonGame_meets hrun
    hroom hrule.1 hrule.2).1 ((h.checked_moved_iff hrule.1 hrule.2).mp hfree)
  have hunsafe : ¬ p.Safe ⟨1, 2⟩ ⟨1, 9⟩ := fun hsafe => Bool.false_ne_true
    (((h.checked_moved_iff hrule'.1 hrule'.2).mpr hsafe).symm.trans hchecked)
  exact ⟨p, q, hrun, hmake, hplacement, by rw [hturn, hside]; rfl, hundo,
    (makeMove_spec (.inl rfl) cannonGame_meets hrun hroom hrule'.1 hrule'.2).2 hunsafe⟩

theorem isMateLoop_spec : ∀ mvs : List Int, (∀ mv ∈ mvs, p.RuleMove mv) →
    ∃ b, isMateLoop Z mvs p = .ok (b, p) ∧
      (b = true ↔ ∀ mv ∈ mvs, (p.moved Z mv).checked = true) := by
  intro mvs
  induction mvs with
  | nil =>
    intro _
    exact ⟨true, rfl, by simp⟩
  | cons mv mvs ih =>
    intro hrule
    obtain ⟨a, c, rfl, hown, hlegal⟩ := hrule mv List.mem_cons_self
    have hmov := hown.movable hlegal
    obtain ⟨b, hloop, hb⟩ := ih fun mv hmv => hrule mv (List.mem_cons_of_mem _ hmv)
    unfold isMateLoop
    simp only [movePiece_eq, if_pos hmov, bind, Except.bind, undoMovePiece_moved hmov]
    cases hchecked : (p.moved Z (move (square a) (square c))).checked with
    | false => exact ⟨false, rfl, by simp [hchecked]⟩
    | true => exact ⟨b, hloop, by simp [hchecked, hb]⟩

/-- **`IsMate`** in a game: no move of the rules leaves the king safe. -/
theorem isMate_iff (h₀ : NewGame Z p₀) (hmeets : (machine Z).Meets Fair p₀ es)
    (hrun : (machine Z).run p₀ es = .ok p) :
    ∃ b, p.isMate Z = .ok (b, p) ∧
      (b = true ↔ ¬ ∃ a c, p.Own a ∧ PseudoLegal p.placement a c ∧ p.Safe a c) := by
  have h := inPlay_of_run h₀ hmeets hrun
  have hall : ∀ mv, mv ∈ p.generated false ↔ p.RuleMove mv := fun _ =>
    h.clean.mem_generated h.placed
  obtain ⟨b, hloop, hb⟩ := isMateLoop_spec (Z := Z) (p.generated false)
    fun mv hmv => (hall mv).mp hmv
  refine ⟨b, ?_, hb.trans ?_⟩
  · unfold isMate
    rw [h.generateMoves_eq]
    exact hloop
  · constructor
    · rintro hchecked ⟨a, c, hown, hlegal, hs⟩
      have htrue := hchecked _ ((hall _).mpr ⟨a, c, rfl, hown, hlegal⟩)
      rw [(h.checked_moved_iff hown hlegal).mpr hs] at htrue
      cases htrue
    · intro hnone mv hmv
      obtain ⟨a, c, rfl, hown, hlegal⟩ := (hall mv).mp hmv
      by_contra hchecked
      exact hnone ⟨a, c, hown, hlegal,
        (h.checked_moved_iff hown hlegal).mp (Bool.eq_false_iff.mpr hchecked)⟩

/-- RED's cannon takes an elephant and mates. -/
def mateGame : List Turn :=
  [.make (move 164 116), .make (move 56 71), .make (move 116 117), .make (move 84 89),
    .make (move 117 53)]

theorem isMate_iff_mate : ∃ p : PositionStruct,
    (machine initZobrist).run (startup initZobrist none) mateGame = .ok p ∧
      p.isMate initZobrist = .ok (true, p) ∧
      ¬ ∃ a c, p.Own a ∧ PseudoLegal p.placement a c ∧ p.Safe a c := by
  have hrun : ((machine initZobrist).run (startup initZobrist none) mateGame).map
      (fun p => (p.isMate initZobrist).map Prod.fst) = .ok (.ok true) := by
    decide +kernel
  obtain ⟨p, hp, hmate⟩ := Lib.map_eq_ok.mp hrun
  obtain ⟨b, hb, hiff⟩ := isMate_iff (.inl rfl) (by decide +kernel) hp
  rw [hb] at hmate
  obtain rfl : b = true := Except.ok.inj hmate
  exact ⟨p, hp, hb, hiff.mp rfl⟩

end PositionStruct

end HoxServer.XQWLight
