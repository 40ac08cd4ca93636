/-
HoxServer.XQWLight.Quiesc — the quiescence search (`SearchQuiesc`).

The search makes and undoes moves on the one position of the engine, with
a window that narrows as it goes. `quiescValue` is what it is for: the
value of a position without a window, and without making or undoing
anything.

* `evaluate_bounds` — the worth that is kept of the men of a game stays far
  from the values of a mate.
* `Searched.searchQuiesc_whole` — in the whole window the search returns the
  value of the position.
* `searchQuiesc_spec` — in every position of a game the search comes to an
  end inside of the arrays of the engine, leaves the position as it was in
  every field, and returns the value of the position if that is inside of
  the window, or else a bound on the side where it lies.
-/
import HoxServer.XQWLight.Play
import HoxServer.Lib.AlphaBeta

namespace HoxServer.XQWLight

open Xiangqi

/-- `qsort`, of which the order of equal entries is not known. -/
structure Qsort where
  sort : (Int → Int → Int) → List Int → List Int
  perm : ∀ compare l, (sort compare l).Perm l

/-- A merge sort, which keeps the order of equal entries. -/
def Qsort.mergeSort : Qsort where
  sort compare l := l.mergeSort fun a b => decide (compare a b ≤ 0)
  perm _ l := l.mergeSort_perm _

namespace PositionStruct

/-! ## The search -/

/-- `MvvLva`. -/
def mvvLva (p : PositionStruct) (mv : Int) : Int :=
  cucMvvLva.getD (p.ucpcSquares (dst mv)) 0 * 8 - cucMvvLva.getD (p.ucpcSquares (src mv)) 0

/-- `CompareMvvLva`. -/
def compareMvvLva (p : PositionStruct) (mv₁ mv₂ : Int) : Int := p.mvvLva mv₂ - p.mvvLva mv₁

/-- `CompareHistory`. -/
def compareHistory (nHistoryTable : Int → Int) (mv₁ mv₂ : Int) : Int :=
  nHistoryTable mv₂ - nHistoryTable mv₁

/-- The value of a node whose best is `vlBest`, which tells a mate. -/
def finish (p : PositionStruct) (vlBest : Int) : Int :=
  if vlBest = -mateValue then p.nDistance - mateValue else vlBest

/-- The loop of `SearchQuiesc` over the moves. -/
def quiescLoop (Z : Zobrist)
    (search : Int → Int → PositionStruct → Except Fault (Int × PositionStruct)) (vlBeta : Int) :
    List Int → Int → Int → PositionStruct → Except Fault (Int × PositionStruct)
  | [], _, vlBest, p => .ok (p.finish vlBest, p)
  | mv :: mvs, vlAlpha, vlBest, p => do
    let (bMade, p) ← p.makeMove Z mv
    if bMade then
      let (vl, p) ← search (-vlBeta) (-vlAlpha) p
      let p ← p.undoMakeMove Z
      if vlBest < -vl then
        if vlBeta ≤ -vl then .ok (-vl, p)
        else quiescLoop Z search vlBeta mvs (if vlAlpha < -vl then -vl else vlAlpha) (-vl) p
      else quiescLoop Z search vlBeta mvs vlAlpha vlBest p
    else quiescLoop Z search vlBeta mvs vlAlpha vlBest p

/-- `SearchQuiesc`; the first argument bounds the recursion. -/
def searchQuiesc (Z : Zobrist) (Q : Qsort) (nHistoryTable : Int → Int) :
    Nat → Int → Int → PositionStruct → Except Fault (Int × PositionStruct)
  | 0, _, _, _ => .error .tooDeep
  | n + 1, vlAlpha, vlBeta, p =>
    let vl := p.repStatus 1
    if vl ≠ 0 then .ok (p.repValue vl, p)
    else if p.nDistance = limitDepth then .ok (p.evaluate, p)
    else if p.inCheck then do
      let mvs ← p.generateMoves false
      quiescLoop Z (searchQuiesc Z Q nHistoryTable n) vlBeta
        (Q.sort (compareHistory nHistoryTable) mvs) vlAlpha (-mateValue) p
    else
      let vl := p.evaluate
      if -mateValue < vl then
        if vlBeta ≤ vl then .ok (vl, p)
        else do
          let mvs ← p.generateMoves true
          quiescLoop Z (searchQuiesc Z Q nHistoryTable n) vlBeta (Q.sort p.compareMvvLva mvs)
            (if vlAlpha < vl then vl else vlAlpha) vl p
      else do
        let mvs ← p.generateMoves true
        quiescLoop Z (searchQuiesc Z Q nHistoryTable n) vlBeta (Q.sort p.compareMvvLva mvs)
          vlAlpha (-mateValue) p

/-! ## What the search is for -/

/-- The moves that are looked at: all of them in check, and else the captures. -/
def quiescMoves (Z : Zobrist) (p : PositionStruct) : List Int :=
  (p.generated (!p.inCheck)).filter fun mv => !(p.moved Z mv).checked

/-- What the side to move has without a move: nothing in check, and else the
worth of the men. -/
def standPat (p : PositionStruct) : Int := if p.inCheck then -mateValue else p.evaluate

/-- The value of a position, with `n` plies to the limit of the depth. -/
def quiescValue (Z : Zobrist) : Nat → PositionStruct → Int
  | 0, p => if p.repStatus 1 ≠ 0 then p.repValue (p.repStatus 1) else p.evaluate
  | n + 1, p =>
    if p.repStatus 1 ≠ 0 then p.repValue (p.repStatus 1)
    else p.finish (Lib.largest (fun mv => quiescValue Z n (p.made Z mv)) (p.quiescMoves Z)
      p.standPat)

variable {Z : Zobrist} {Q : Qsort} {nHistoryTable : Int → Int} {p p₀ : PositionStruct} {mv : Int}
  {es : List Turn}

/-! ## The worth of the men -/

/-- The pieces of a side. -/
def IsOf (sd : Side) (pc : Nat) : Prop := sideTag sd ≤ pc ∧ pc < sideTag sd + 7

instance (sd : Side) (pc : Nat) : Decidable (IsOf sd pc) := inferInstanceAs (Decidable (_ ∧ _))

/-- A side has at most sixteen men. -/
theorem Manned.card_le (h : p.Manned) (sd : Side) :
    (allSquares.filter fun sq => IsOf sd (p.ucpcSquares sq)).card ≤ 16 := by
  have hsubset : (allSquares.filter fun sq => IsOf sd (p.ucpcSquares sq)) ⊆
      (Finset.range 7).biUnion fun n =>
        allSquares.filter fun sq => p.ucpcSquares sq = sideTag sd + n := by
    intro sq hsq
    obtain ⟨hsq, hlo, hhi⟩ := Finset.mem_filter.mp hsq
    refine Finset.mem_biUnion.mpr ⟨p.ucpcSquares sq - sideTag sd, ?_, ?_⟩
    · rw [Finset.mem_range]
      omega
    · rw [Finset.mem_filter]
      exact ⟨hsq, by omega⟩
  have hsum : ∑ n ∈ Finset.range 7, p.count (sideTag sd + n) ≤ ∑ n ∈ Finset.range 7, allowed n :=
    Finset.sum_le_sum fun n hn => h.men sd n (Finset.mem_range.mp hn)
  refine (Finset.card_le_card hsubset).trans (Finset.card_biUnion_le.trans (hsum.trans ?_))
  decide

/-- What the men of one side are worth. -/
theorem Manned.total_bounds (h : p.Manned) (sd : Side) (value : Nat → Int → Int)
    (hzero : ∀ pc sq, IsPiece pc → ¬ IsOf sd pc → value pc sq = 0)
    (hvalue : ∀ pc sq, 0 ≤ value pc sq ∧ value pc sq ≤ 255) :
    0 ≤ Lib.total (worth value) allSquares p.ucpcSquares ∧
      Lib.total (worth value) allSquares p.ucpcSquares ≤ 4080 := by
  have hworth : ∀ sq, 0 ≤ worth value sq (p.ucpcSquares sq) ∧
      worth value sq (p.ucpcSquares sq) ≤ 255 := by
    intro sq
    unfold worth
    split
    · exact ⟨le_rfl, by decide⟩
    · exact hvalue _ _
  have hfilter : ∀ sq ∈ allSquares, worth value sq (p.ucpcSquares sq) ≠ 0 →
      IsOf sd (p.ucpcSquares sq) := by
    intro sq _ hne
    by_contra hnot
    refine hne ?_
    unfold worth
    split
    · rfl
    · rename_i hpc
      exact hzero _ _ (h.clean sq hpc).2 hnot
  refine ⟨Finset.sum_nonneg fun sq _ => (hworth sq).1, ?_⟩
  unfold Lib.total
  rw [← Finset.sum_filter_of_ne hfilter]
  refine (Finset.sum_le_card_nsmul _ _ 255 fun sq _ => (hworth sq).2).trans ?_
  have hcard := h.card_le sd
  rw [nsmul_eq_mul]
  omega

theorem entry_le {l : List Nat} (hl : ∀ v ∈ l, v ≤ 255) (sq : Int) : entry l sq ≤ 255 := by
  unfold entry
  split
  · rw [List.getD_eq_getElem?_getD]
    cases hget : l[sq.toNat]? with
    | none => exact Nat.zero_le _
    | some v => exact hl v (List.mem_of_getElem? hget)
  · exact Nat.zero_le _

theorem piecePos_le (i : Nat) : ∀ v ∈ cucvlPiecePos.getD i [], v ≤ 255 := by
  have hall : ∀ l ∈ cucvlPiecePos, ∀ v ∈ l, v ≤ 255 := by decide +kernel
  rw [List.getD_eq_getElem?_getD]
  cases hget : cucvlPiecePos[i]? with
  | none => simp
  | some l => exact hall l (List.mem_of_getElem? hget)

/-- **`Evaluate`** stays far from a mate. -/
theorem evaluate_bounds (h : p.Manned) (hkept : p.Kept Z) :
    -mateValue < p.evaluate ∧ p.evaluate < mateValue := by
  have hwhite := h.total_bounds .red whiteValue
    (fun pc sq hpc hnot => if_neg (by
      simp only [IsOf, sideTag] at hnot
      rcases hpc with hpc | hpc <;> omega))
    (fun pc sq => by
      unfold whiteValue
      split
      · have := entry_le (piecePos_le (pc - 8)) sq
        omega
      · omega)
  have hblack := h.total_bounds .black blackValue
    (fun pc sq hpc hnot => if_pos (by
      simp only [IsOf, sideTag] at hnot
      rcases hpc with hpc | hpc <;> omega))
    (fun pc sq => by
      unfold blackValue
      split
      · omega
      · have := entry_le (piecePos_le (pc - 16)) (squareFlip sq)
        omega)
  rw [← hkept.white] at hwhite
  rw [← hkept.black] at hblack
  unfold evaluate mateValue advancedValue
  split <;> omega

/-! ## The positions of a search -/

/-- A position of a game, at least one ply from the root of the search and
`n` plies from the limit of the depth, with room for the moves to there. -/
structure Searched (Z : Zobrist) (n : Nat) (p : PositionStruct) : Prop extends p.InPlay where
  kept : p.Kept Z
  distance : p.nDistance + n = limitDepth
  below : 0 < p.nDistance
  room : p.mvsList.length + n ≤ maxMoves

variable {n : Nat}

theorem RuleMove.onSquares (h : p.RuleMove mv) : OnSquares mv := by
  obtain ⟨a, c, rfl, hown, hlegal⟩ := h
  exact onSquares_move (isValid_of_placement hown.choose_spec.1)
    (onBoard_iff_isValid.mp hlegal.1)

theorem RuleMove.movable (h : p.RuleMove mv) : p.Movable mv := by
  obtain ⟨a, c, rfl, hown, hlegal⟩ := h
  exact hown.movable hlegal

theorem Searched.made (h : p.Searched Z (n + 1)) (hrule : p.RuleMove mv)
    (hsafe : (p.moved Z mv).checked = false) : (p.made Z mv).Searched Z n where
  toInPlay := h.toInPlay.made hrule hsafe
  kept := h.kept.made hrule.onSquares hrule.movable
  distance := by
    have := h.distance
    rw [made_nDistance]
    omega
  below := Nat.succ_pos _
  room := by
    have := h.room
    rw [made_mvsList, List.length_cons]
    omega

/-- What is looked at: the safe moves of the rules, in check, and else the
safe captures. -/
theorem InPlay.mem_quiescMoves (h : p.InPlay) :
    mv ∈ p.quiescMoves Z ↔
      (p.RuleMove mv ∧ (p.inCheck = false → p.ucpcSquares (dst mv) ≠ 0)) ∧
        (p.moved Z mv).checked = false := by
  unfold quiescMoves
  rw [List.mem_filter, h.mem_generated]
  simp

/-! ## Bounds of the values -/

theorem repValue_bounds (hdist : p.nDistance ≤ limitDepth) (nRepStatus : Nat) :
    -mateValue < p.repValue nRepStatus ∧ p.repValue nRepStatus < mateValue := by
  unfold limitDepth at hdist
  unfold repValue drawValueAt banValue mateValue drawValue
  dsimp only
  split_ifs <;> omega

theorem Searched.standPat_bounds (h : p.Searched Z n) :
    -mateValue ≤ p.standPat ∧ p.standPat < mateValue := by
  have heval := evaluate_bounds h.toManned h.kept
  unfold standPat
  split
  · exact ⟨le_rfl, by decide⟩
  · exact ⟨heval.1.le, heval.2⟩

theorem finish_bounds {v : Int} (hdist : p.nDistance ≤ limitDepth) (hbelow : 0 < p.nDistance)
    (hlo : -mateValue ≤ v) (hhi : v < mateValue) :
    -mateValue < p.finish v ∧ p.finish v < mateValue := by
  unfold limitDepth at hdist
  unfold finish mateValue at *
  split <;> omega

/-- **The value of a position** is that of no mate on the spot. -/
theorem Searched.value_bounds (h : p.Searched Z n) :
    -mateValue < quiescValue Z n p ∧ quiescValue Z n p < mateValue := by
  have hdist : p.nDistance ≤ limitDepth := by
    have := h.distance
    omega
  induction n generalizing p with
  | zero =>
    unfold quiescValue
    split
    · exact repValue_bounds hdist _
    · exact evaluate_bounds h.toManned h.kept
  | succ n ih =>
    unfold quiescValue
    split
    · exact repValue_bounds hdist _
    · have hstand := h.standPat_bounds
      refine finish_bounds hdist h.below (hstand.1.trans (Lib.le_largest _ _ _)) ?_
      have hle : Lib.largest (fun mv => quiescValue Z n (p.made Z mv)) (p.quiescMoves Z)
          p.standPat ≤ mateValue - 1 := by
        refine Lib.largest_le (by omega) fun mv hmv => ?_
        obtain ⟨⟨hrule, -⟩, hsafe⟩ := h.mem_quiescMoves.mp hmv
        have hmade := h.made hrule hsafe
        have hvalue := ih hmade (by have := hmade.distance; omega)
        omega
      omega

/-! ## The loop -/

/-- The loop makes and undoes the moves that do not leave the king attacked,
and comes to what the loop over the values comes to. -/
theorem Searched.quiescLoop_eq (h : p.Searched Z (n + 1))
    {search : Int → Int → PositionStruct → Except Fault (Int × PositionStruct)}
    {value : Int → Int → Int → Int} {vlBeta : Int} {mvs : List Int}
    (hrule : ∀ mv ∈ mvs, p.RuleMove mv)
    (hsearch : ∀ mv ∈ mvs, (p.moved Z mv).checked = false → ∀ α, -mateValue ≤ α → α < vlBeta →
      search (-vlBeta) (-α) (p.made Z mv) = .ok (value mv (-vlBeta) (-α), p.made Z mv))
    {vlAlpha vlBest : Int} (hα : -mateValue ≤ vlAlpha) (hαβ : vlAlpha < vlBeta)
    (hbest : -mateValue ≤ vlBest) :
    quiescLoop Z search vlBeta mvs vlAlpha vlBest p =
      .ok (p.finish (Lib.alphaBeta value vlBeta (mvs.filter fun mv => !(p.moved Z mv).checked)
        vlAlpha vlBest), p) := by
  induction mvs generalizing vlAlpha vlBest with
  | nil => rfl
  | cons mv mvs ih =>
    have ih' := @ih (fun mv hmv => hrule mv (List.mem_cons_of_mem _ hmv))
      (fun mv hmv => hsearch mv (List.mem_cons_of_mem _ hmv))
    have hmov := (hrule mv List.mem_cons_self).movable
    have hroom : p.mvsList.length < maxMoves := by
      have := h.room
      omega
    unfold quiescLoop
    rw [makeMove_eq, if_pos hmov]
    cases hchecked : (p.moved Z mv).checked with
    | true =>
      rw [if_pos rfl, List.filter_cons_of_neg (by simp [hchecked])]
      exact ih' hα hαβ hbest
    | false =>
      rw [if_neg Bool.false_ne_true, if_pos hroom, List.filter_cons_of_pos (by simp [hchecked])]
      unfold Lib.alphaBeta
      simp only [bind, Except.bind, if_true,
        hsearch mv List.mem_cons_self hchecked vlAlpha hα hαβ, undo_made hmov]
      by_cases hgain : vlBest < -value mv (-vlBeta) (-vlAlpha)
      · by_cases hcut : vlBeta ≤ -value mv (-vlBeta) (-vlAlpha)
        · -- a cut: the value is more than the best, so it tells no mate
          have hfinish : p.finish (-value mv (-vlBeta) (-vlAlpha)) =
              -value mv (-vlBeta) (-vlAlpha) := if_neg (by omega)
          simp only [hgain, hcut, if_true, hfinish]
        · simp only [hgain, hcut, if_true, if_false]
          exact ih' (by split <;> omega) (by split <;> omega) (by omega)
      · simp only [hgain, if_false]
        exact ih' hα hαβ hbest

/-- Telling a mate keeps what is known of the value. -/
theorem failSoft_finish {α β r v : Int} (h : Lib.FailSoft α β r v) (hα : -mateValue ≤ α)
    (hαβ : α < β) (hv : -mateValue < v) :
    Lib.FailSoft α β (p.finish r) (p.finish v) := by
  have hr' : r ≠ -mateValue := by
    intro hr'
    have := h.upper (by omega)
    omega
  unfold finish
  rw [if_neg hr', if_neg (by omega)]
  exact h

/-- What the search of a child comes to. -/
def resultOf (x : Except Fault (Int × PositionStruct)) : Int :=
  match x with
  | .error _ => 0
  | .ok (vl, _) => vl

/-- **The loop of a node** whose children are searched rightly. -/
theorem Searched.loop_spec (h : p.Searched Z (n + 1))
    {search : Int → Int → PositionStruct → Except Fault (Int × PositionStruct)}
    (hsearch : ∀ q : PositionStruct, q.Searched Z n → ∀ α β, -mateValue ≤ α → α < β →
      β ≤ mateValue → ∃ vl, search α β q = .ok (vl, q) ∧ Lib.FailSoft α β vl (quiescValue Z n q))
    {mvs : List Int} (hmvs : mvs.Perm (p.generated (!p.inCheck))) {α β α' : Int}
    (hα : -mateValue ≤ α) (hβ : β ≤ mateValue) (hα' : α' = max α p.standPat) (hαβ : α' < β) :
    ∃ vl, quiescLoop Z search β mvs α' p.standPat p = .ok (vl, p) ∧
      Lib.FailSoft α β vl (p.finish (Lib.largest (fun mv => quiescValue Z n (p.made Z mv))
        (p.quiescMoves Z) p.standPat)) := by
  have hstand := h.standPat_bounds
  have hrule : ∀ mv ∈ mvs, p.RuleMove mv := fun mv hmv =>
    (h.mem_generated.mp (hmvs.mem_iff.mp hmv)).1
  have hchild : ∀ mv ∈ mvs, (p.moved Z mv).checked = false → ∀ α, -mateValue ≤ α → α < β →
      search (-β) (-α) (p.made Z mv) =
        .ok (resultOf (search (-β) (-α) (p.made Z mv)), p.made Z mv) ∧
      Lib.FailSoft (-β) (-α) (resultOf (search (-β) (-α) (p.made Z mv)))
        (quiescValue Z n (p.made Z mv)) := by
    intro mv hmv hsafe α hlo hlt
    obtain ⟨vl, hvl, hsoft⟩ := hsearch _ (h.made (hrule mv hmv) hsafe) (-β) (-α) (by omega)
      (by omega) (by omega)
    rw [hvl]
    exact ⟨rfl, hsoft⟩
  have hloop : quiescLoop Z search β mvs α' p.standPat p =
      .ok (p.finish (Lib.alphaBeta (fun mv α β => resultOf (search α β (p.made Z mv))) β
        (mvs.filter fun mv => !(p.moved Z mv).checked) α' p.standPat), p) :=
    h.quiescLoop_eq hrule (fun mv hmv hsafe α hlo hlt => (hchild mv hmv hsafe α hlo hlt).1)
      (by omega) hαβ hstand.1
  refine ⟨_, hloop, ?_⟩
  have hperm : (mvs.filter fun mv => !(p.moved Z mv).checked).Perm (p.quiescMoves Z) :=
    hmvs.filter _
  have hmem : ∀ mv ∈ mvs.filter (fun mv => !(p.moved Z mv).checked),
      mv ∈ mvs ∧ (p.moved Z mv).checked = false := by
    intro mv hmv
    obtain ⟨hmv, hsafe⟩ := List.mem_filter.mp hmv
    exact ⟨hmv, by simpa using hsafe⟩
  rw [← Lib.largest_perm hperm]
  generalize mvs.filter (fun mv => !(p.moved Z mv).checked) = l at hmem
  cases l with
  | nil => exact .refl _ _ _
  | cons mv l =>
    -- some move is searched, so the value tells no mate
    have hvalue : -mateValue < Lib.largest (fun mv => quiescValue Z n (p.made Z mv)) (mv :: l)
        p.standPat := by
      obtain ⟨hmv, hsafe⟩ := hmem mv List.mem_cons_self
      have hle : -quiescValue Z n (p.made Z mv) ≤
          Lib.largest (fun mv => quiescValue Z n (p.made Z mv)) (mv :: l) p.standPat :=
        Lib.neg_le_largest List.mem_cons_self p.standPat
      have hbounds := (h.made (hrule mv hmv) hsafe).value_bounds
      omega
    refine failSoft_finish ?_ hα (by omega) hvalue
    refine Lib.alphaBeta_failSoft ?_ hα' hαβ le_rfl fun _ => le_rfl
    intro mv hmv α hlo hlt
    obtain ⟨hmv, hsafe⟩ := hmem mv hmv
    exact (hchild mv hmv hsafe α (by omega) hlt).2

/-- **`SearchQuiesc`** in the positions of a search. -/
theorem Searched.searchQuiesc_ok (h : p.Searched Z n) {α β : Int} (hα : -mateValue ≤ α)
    (hαβ : α < β) (hβ : β ≤ mateValue) :
    ∃ vl, searchQuiesc Z Q nHistoryTable (n + 1) α β p = .ok (vl, p) ∧
      Lib.FailSoft α β vl (quiescValue Z n p) := by
  induction n generalizing p α β with
  | zero =>
    have hlimit : p.nDistance = limitDepth := h.distance
    unfold searchQuiesc quiescValue
    dsimp only
    split
    · exact ⟨_, rfl, .refl _ _ _⟩
    · exact ⟨_, rfl, .refl _ _ _⟩
  | succ n ih =>
    have hlimit : p.nDistance ≠ limitDepth := by
      have := h.distance
      omega
    have hloop : ∀ mvs : List Int, mvs.Perm (p.generated (!p.inCheck)) →
        ∀ α', α' = max α p.standPat → α' < β →
        ∃ vl, quiescLoop Z (searchQuiesc Z Q nHistoryTable (n + 1)) β mvs α' p.standPat p =
          .ok (vl, p) ∧
          Lib.FailSoft α β vl (p.finish (Lib.largest (fun mv => quiescValue Z n (p.made Z mv))
            (p.quiescMoves Z) p.standPat)) :=
      fun mvs hmvs α' hα' hαβ' =>
        h.loop_spec (fun q hq α β hα hαβ hβ => ih hq hα hαβ hβ) hmvs hα hβ hα' hαβ'
    unfold searchQuiesc quiescValue
    dsimp only
    split
    · exact ⟨_, rfl, .refl _ _ _⟩
    · rw [h.generateMoves_eq, h.generateMoves_eq]
      cases hcheck : p.inCheck with
      | true =>
        have hstand : p.standPat = -mateValue := if_pos hcheck
        rw [if_pos rfl]
        simp only [bind, Except.bind]
        rw [hcheck, hstand] at hloop
        rw [hstand]
        exact hloop _ (Q.perm _ _) α (by omega) hαβ
      | false =>
        have hstand : p.standPat = p.evaluate := if_neg (by simp [hcheck])
        have heval := evaluate_bounds h.toManned h.kept
        rw [if_neg Bool.false_ne_true, if_pos heval.1]
        simp only [bind, Except.bind]
        rw [hcheck, hstand] at hloop
        rw [hstand]
        split
        · -- the worth of the men is a cut: the value of the node is no less
          rename_i hcut
          have hle := Lib.le_largest (fun mv => quiescValue Z n (p.made Z mv)) (p.quiescMoves Z)
            p.evaluate
          refine ⟨_, rfl, fun hlt => absurd hcut (by omega), fun _ => ?_⟩
          unfold finish
          split <;> omega
        · exact hloop _ (Q.perm _ _) _ (by split <;> omega) (by split <;> omega)

/-- In the whole window the search returns the value of the position, whatever
the history table and the order of `qsort`. -/
theorem Searched.searchQuiesc_whole (h : p.Searched Z n) :
    searchQuiesc Z Q nHistoryTable (n + 1) (-mateValue) mateValue p =
      .ok (quiescValue Z n p, p) := by
  have hspec : ∃ vl, searchQuiesc Z Q nHistoryTable (n + 1) (-mateValue) mateValue p =
      .ok (vl, p) ∧ Lib.FailSoft (-mateValue) mateValue vl (quiescValue Z n p) :=
    h.searchQuiesc_ok le_rfl (by decide) le_rfl
  obtain ⟨vl, hvl, hsoft⟩ := hspec
  have hvalue := h.value_bounds
  rw [hvl, hsoft.eq_of_lt hvalue.1 hvalue.2]

/-! ## The searches of a game -/

theorem onSquares_of_dst (h : inBoard (dst mv) = true) : OnSquares mv := by
  rw [inBoard_iff, dst] at h
  unfold OnSquares
  omega

/-- **Every position of a game may be searched**, with the distance from the
root that the search sets. -/
theorem searched_of_run (h₀ : NewGame Z p₀) (hmeets : (machine Z).Meets Fair p₀ es)
    (hrun : (machine Z).run p₀ es = .ok p) {d : Nat} (hd : 0 < d) (hlimit : d + n = limitDepth)
    (hroom : p.mvsList.length + n ≤ maxMoves) :
    ({ p with nDistance := d } : PositionStruct).Searched Z n where
  toSound := (inPlay_of_run h₀ hmeets hrun).toSound.congr rfl rfl
  noted := (inPlay_of_run h₀ hmeets hrun).noted
  kept := by
    have hkept : p.Kept Z := (leads_of_run h₀.started hmeets hrun).kept
      (fun _ _ hfair => onSquares_of_dst hfair.1) h₀.started
    exact ⟨hkept.white, hkept.black, hkept.zobr⟩
  distance := hlimit
  below := hd
  room := hroom

/-- **The quiescence search of a game**, at whatever distance from the root
and in whatever window: it comes to an end, leaves every field of the position
as it was, and its value is the value of the position inside of the window
and a bound of it outside, in whatever order `qsort` puts the moves. -/
theorem searchQuiesc_spec (h₀ : NewGame Z p₀) (hmeets : (machine Z).Meets Fair p₀ es)
    (hrun : (machine Z).run p₀ es = .ok p) {d : Nat} (hd : 0 < d) (hlimit : d + n = limitDepth)
    (hroom : p.mvsList.length + n ≤ maxMoves) {vlAlpha vlBeta : Int}
    (hα : -mateValue ≤ vlAlpha) (hαβ : vlAlpha < vlBeta) (hβ : vlBeta ≤ mateValue) :
    ∃ vl, searchQuiesc Z Q nHistoryTable (n + 1) vlAlpha vlBeta { p with nDistance := d } =
        .ok (vl, { p with nDistance := d }) ∧
      Lib.FailSoft vlAlpha vlBeta vl (quiescValue Z n { p with nDistance := d }) :=
  (searched_of_run h₀ hmeets hrun hd hlimit hroom).searchQuiesc_ok hα hαβ hβ

/-- BLACK's answer to the check of RED's cannon, with a stable `qsort`, in a
window about a lost piece. -/
theorem searchQuiesc_spec_cannon : ∃ p : PositionStruct,
    (machine initZobrist).run (startup initZobrist none) cannonGame = .ok p ∧ p.inCheck = true ∧
    ∃ vl, searchQuiesc initZobrist .mergeSort (fun _ => 0) 64 (-100) 100
        { p with nDistance := 1 } = .ok (vl, { p with nDistance := 1 }) ∧
      Lib.FailSoft (-100) 100 vl (quiescValue initZobrist 63 { p with nDistance := 1 }) := by
  obtain ⟨p, hrun, hlength, hcheck, -⟩ := cannonGame_run
  exact ⟨p, hrun, hcheck, searchQuiesc_spec (.inl rfl) cannonGame_meets hrun (by decide)
    (by decide) (by rw [hlength]; decide) (by decide) (by decide) (by decide)⟩

end PositionStruct

end HoxServer.XQWLight
