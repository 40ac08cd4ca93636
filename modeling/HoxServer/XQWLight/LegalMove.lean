/-
HoxServer.XQWLight.LegalMove — the test of a single move against the rules
of the game.

`GenerateMoves` walks along the board, `LegalMove` compares two squares:
it looks their difference up in a table, or scans what lies between them.
`legalMove_iff` says that on points of the board it decides the same
relation, that of `Xiangqi.Rules`.
-/
import HoxServer.XQWLight.Rules

namespace HoxServer.XQWLight

open Xiangqi PositionStruct

/-! ## The tables of differences -/

/-- `ccLegalSpan`, as a formula. -/
def spanAt (n : Nat) : Nat :=
  if n = 240 ∨ n = 255 ∨ n = 257 ∨ n = 272 then 1
  else if n = 239 ∨ n = 241 ∨ n = 271 ∨ n = 273 then 2
  else if n = 222 ∨ n = 226 ∨ n = 286 ∨ n = 290 then 3 else 0

theorem ccLegalSpan_eq : ccLegalSpan = (List.range 512).map spanAt := by decide +kernel

/-- `ccKnightPin`, as a formula. -/
def pinAt (n : Nat) : Int :=
  if n = 223 ∨ n = 225 then -16 else if n = 238 ∨ n = 270 then -1
  else if n = 242 ∨ n = 274 then 1 else if n = 287 ∨ n = 289 then 16 else 0

theorem ccKnightPin_eq : ccKnightPin = (List.range 512).map pinAt := by decide +kernel

theorem spanAt_cases (n : Nat) :
    (spanAt n = 1 ↔ n = 240 ∨ n = 255 ∨ n = 257 ∨ n = 272) ∧
    (spanAt n = 2 ↔ n = 239 ∨ n = 241 ∨ n = 271 ∨ n = 273) ∧
    (spanAt n = 3 ↔ n = 222 ∨ n = 226 ∨ n = 286 ∨ n = 290) := by
  unfold spanAt
  split
  · omega
  · split
    · omega
    · split <;> omega

/-- The table of legs is that of the moves of a horse. -/
theorem pinAt_iff {n : Nat} {v : Int} : pinAt n = v ∧ v ≠ 0 ↔
    ∃ nDeltas, (v, nDeltas) ∈ ccKingDelta.zip ccKnightDelta ∧ (n : Int) - 256 ∈ nDeltas := by
  constructor
  · rintro ⟨rfl, hne⟩
    unfold pinAt at hne ⊢
    split_ifs at hne ⊢
    · exact ⟨[-33, -31], by decide, by simp; omega⟩
    · exact ⟨[-18, 14], by decide, by simp; omega⟩
    · exact ⟨[-14, 18], by decide, by simp; omega⟩
    · exact ⟨[31, 33], by decide, by simp; omega⟩
    · exact absurd rfl hne
  · rintro ⟨nDeltas, hpair, hn⟩
    have hall : ∀ x ∈ ccKingDelta.zip ccKnightDelta, x.1 ≠ 0 ∧
        ∀ k ∈ x.2, pinAt (k + 256).toNat = x.1 := by
      decide
    obtain ⟨hne, hpin⟩ := hall _ hpair
    have hvalue := hpin _ hn
    rw [sub_add_cancel, Int.toNat_natCast] at hvalue
    exact ⟨hvalue, hne⟩

variable {a c : Position}

/-- The difference of two squares, as an index of the tables. -/
theorem difference_bounds (ha : a.isValid = true) (hc : c.isValid = true) :
    0 ≤ square c - square a + 256 ∧ square c - square a + 256 < 512 := by
  rw [Position.isValid_iff] at ha hc
  rw [square_eq, square_eq]
  omega

theorem legalSpan_eq (ha : a.isValid = true) (hc : c.isValid = true) :
    legalSpan (square a) (square c) = spanAt (square c - square a + 256).toNat := by
  rw [legalSpan, ccLegalSpan_eq, entry_map_range]
  exact if_pos (difference_bounds ha hc)

/-- Two points with the difference of a step. -/
theorem eq_shift_iff {d : Int × Int} (hc : c.isValid = true) (hnear : Near (shift d a)) :
    c = shift d a ↔ square c - square a = delta d := by
  constructor
  · rintro rfl
    rw [square_shift]
    ring
  · intro h
    refine square_inj (near_of_isValid hc) hnear ?_
    rw [square_shift]
    omega

theorem kingSpan_iff (ha : a.isValid = true) (hc : c.isValid = true) :
    kingSpan (square a) (square c) = true ↔ ∃ d ∈ orthogonals, c = shift d a := by
  obtain ⟨hlo, hhi⟩ := difference_bounds ha hc
  have hsteps : (∃ d ∈ orthogonals, c = shift d a) ↔
      square c - square a ∈ ccKingDelta := by
    rw [mem_ccKingDelta]
    exact exists_congr fun d => and_congr_right fun hd => eq_shift_iff hc (near_shift ha (.inl hd))
  rw [hsteps, kingSpan, decide_eq_true_eq, legalSpan_eq ha hc, (spanAt_cases _).1]
  simp only [ccKingDelta, List.mem_cons, List.not_mem_nil, or_false]
  omega

theorem advisorSpan_iff (ha : a.isValid = true) (hc : c.isValid = true) :
    advisorSpan (square a) (square c) = true ↔ ∃ d ∈ diagonals, c = shift d a := by
  obtain ⟨hlo, hhi⟩ := difference_bounds ha hc
  have hsteps : (∃ d ∈ diagonals, c = shift d a) ↔
      square c - square a ∈ ccAdvisorDelta := by
    rw [mem_ccAdvisorDelta]
    exact exists_congr fun d => and_congr_right fun hd => eq_shift_iff hc (near_shift ha (.inr hd))
  rw [hsteps, advisorSpan, decide_eq_true_eq, legalSpan_eq ha hc, (spanAt_cases _).2.1]
  simp only [ccAdvisorDelta, List.mem_cons, List.not_mem_nil, or_false]
  omega

/-- Two diagonal steps, and the eye in the middle. -/
theorem bishopSpan_iff (ha : a.isValid = true) (hc : c.isValid = true) :
    bishopSpan (square a) (square c) = true ↔
      ∃ d ∈ diagonals, c = shift d (shift d a) ∧
        bishopPin (square a) (square c) = square (shift d a) := by
  obtain ⟨hlo, hhi⟩ := difference_bounds ha hc
  rw [bishopSpan, decide_eq_true_eq, legalSpan_eq ha hc, (spanAt_cases _).2.2]
  constructor
  · intro h
    have hd : ∃ d ∈ diagonals, square c - square a = 2 * delta d := by
      simp only [diagonals, delta, List.mem_cons, List.not_mem_nil, or_false, exists_eq_or_imp,
        exists_eq_left]
      omega
    obtain ⟨d, hd, hdiff⟩ := hd
    refine ⟨d, hd, square_inj (near_of_isValid hc) (near_shift_shift ha (.inr hd) (.inr hd)) ?_, ?_⟩
    · rw [square_shift, square_shift]
      omega
    · rw [bishopPin, square_shift]
      omega
  · rintro ⟨d, hd, rfl, -⟩
    rw [square_shift, square_shift]
    have hd' : d = (-1, -1) ∨ d = (-1, 1) ∨ d = (1, -1) ∨ d = (1, 1) := by
      simpa [diagonals] using hd
    rcases hd' with rfl | rfl | rfl | rfl <;> simp only [delta] <;> omega

/-- A step of a horse, and its leg. -/
theorem knightPin_iff (ha : a.isValid = true) (hc : c.isValid = true) {sqPin : Int} :
    (knightPin (square a) (square c) = sqPin ∧ sqPin ≠ square a) ↔
      ∃ d ∈ orthogonals, sqPin = square (shift d a) ∧
        ∃ e ∈ diagonals, d.1 * e.1 + d.2 * e.2 = 1 ∧ c = shift e (shift d a) := by
  obtain ⟨hlo, hhi⟩ := difference_bounds ha hc
  have hentry : knightPin (square a) (square c) =
      square a + pinAt (square c - square a + 256).toNat := by
    rw [knightPin, ccKnightPin_eq, entry_map_range]
    rw [if_pos ⟨hlo, hhi⟩]
  have hdiff : ((square c - square a + 256).toNat : Int) - 256 = square c - square a := by omega
  rw [hentry]
  constructor
  · rintro ⟨rfl, hne⟩
    have hstep := pinAt_iff.mp ⟨rfl, fun h0 => hne (by rw [h0, add_zero])⟩
    rw [hdiff] at hstep
    obtain ⟨d, hd, e, he, hde, hpin, hdist⟩ := mem_knightDelta.mp hstep
    refine ⟨d, hd, by rw [hpin, square_shift], e, he, hde, ?_⟩
    refine square_inj (near_of_isValid hc) (near_shift_shift ha (.inl hd) (.inr he)) ?_
    rw [square_shift, square_shift]
    omega
  · rintro ⟨d, hd, rfl, e, he, hde, rfl⟩
    have hdist : square (shift e (shift d a)) - square a = delta d + delta e := by
      rw [square_shift, square_shift]
      ring
    have hstep := mem_knightDelta.mpr ⟨d, hd, e, he, hde, rfl, rfl⟩
    rw [← hdist, ← hdiff] at hstep
    obtain ⟨hpin, hne⟩ := pinAt_iff.mpr hstep
    rw [hpin, square_shift]
    exact ⟨rfl, fun h0 => hne (by omega)⟩

/-! ## Scanning a line -/

namespace PositionStruct

variable {p : PositionStruct}

/-- A scan from the `j`-th square of a line stops at the first piece, or at
the end `k`. -/
theorem scan_spec {s n : Int} (hn : n ≠ 0) {k : Nat} (fuel : Nat) :
    ∀ j : Nat, j ≤ k → k < j + fuel → ∃ t : Nat, j ≤ t ∧ t ≤ k ∧
      p.scan (s + k * n) n fuel (s + j * n) = s + t * n ∧
      (∀ i : Nat, j ≤ i → i < t → p.occupied (s + i * n) = false) ∧
      (t < k → p.occupied (s + t * n) = true) := by
  induction fuel with
  | zero =>
    intro j hjk hk
    omega
  | succ fuel ih =>
    intro j hjk hk
    rw [scan]
    split
    · rename_i hgo
      obtain ⟨hne, hfree⟩ := hgo
      have hlt : j < k := lt_of_le_of_ne hjk fun h => hne (h ▸ rfl)
      obtain ⟨t, hjt, htk, hscan, hbefore, hstop⟩ := ih (j + 1) hlt (by omega)
      refine ⟨t, by omega, htk, ?_, fun i hji hit => ?_, hstop⟩
      · rw [← hscan]
        congr 1
        push_cast
        ring
      · rcases Nat.eq_or_lt_of_le hji with rfl | hji
        · simp [occupied, hfree]
        · exact hbefore i hji hit
    · rename_i hstay
      refine ⟨j, le_refl j, hjk, rfl, fun i hji hij => by omega, fun hlt => ?_⟩
      have hne : s + j * n ≠ s + k * n := by
        intro h
        have : (j : Int) * n = k * n := by omega
        have := mul_right_cancel₀ hn this
        omega
      have hpc := not_and.mp hstay hne
      simp [occupied, hpc]

theorem sameRank_square (ha : a.isValid = true) (hc : c.isValid = true) :
    sameRank (square a) (square c) = true ↔ a.y = c.y := by
  rw [Position.isValid_iff] at ha hc
  rw [sameRank, decide_eq_true_eq, rankY, rankY, square_eq, square_eq]
  omega

theorem sameFile_square (ha : a.isValid = true) (hc : c.isValid = true) :
    sameFile (square a) (square c) = true ↔ a.x = c.x := by
  rw [Position.isValid_iff] at ha hc
  rw [sameFile, decide_eq_true_eq, fileX, fileX, square_eq, square_eq]
  omega

/-- The step toward a point of a ray is that of the ray. -/
theorem lineDelta?_eq {d : Int × Int} (hd : d ∈ orthogonals) (ha : a.isValid = true)
    (hc : c ∈ ray a d) : lineDelta? (square a) (square c) = some (delta d) := by
  have hvalid := isValid_of_mem_ray hc
  have hrank := sameRank_square ha hvalid
  have hfile := sameFile_square ha hvalid
  obtain ⟨k, -, rfl, -⟩ := Lib.mem_walk hc
  rw [shift_iterate] at hrank hfile ⊢
  unfold lineDelta?
  rcases mem_orthogonals hd with rfl | rfl | rfl | rfl
  · rw [if_neg (by rw [hrank]; simp only; omega), if_pos (hfile.mpr (by simp only; omega)),
      if_pos (by simp only [square_eq]; omega)]
    rfl
  · rw [if_pos (hrank.mpr (by simp only; omega)), if_neg (by simp only [square_eq]; omega)]
    rfl
  · rw [if_neg (by rw [hrank]; simp only; omega), if_pos (hfile.mpr (by simp only; omega)),
      if_neg (by simp only [square_eq]; omega)]
    rfl
  · rw [if_pos (hrank.mpr (by simp only; omega)), if_pos (by simp only [square_eq]; omega)]
    rfl

theorem isStraight_of_lineDelta? (ha : a.isValid = true) (hc : c.isValid = true) (hne : a ≠ c)
    {n : Int} (h : lineDelta? (square a) (square c) = some n) : isStraight a c = true := by
  have hcoord : a.x ≠ c.x ∨ a.y ≠ c.y := by
    by_contra hsame
    exact hne (Position.ext (by omega) (by omega))
  rw [isStraight, decide_eq_true_eq]
  unfold lineDelta? at h
  split at h
  · have hy := (sameRank_square ha hc).mp (by assumption)
    omega
  · split at h
    · have hx := (sameFile_square ha hc).mp (by assumption)
      omega
    · cases h

/-- What a rook and a cannon can reach on a ray, in steps. -/
theorem Clean.legalLine_iff (h : p.Clean) {d : Int × Int} (hd : d ∈ orthogonals)
    (ha : a.isValid = true) (hc : c ∈ ray a d) :
    (p.legalLine true (square a) (square c) = true ↔
      c ∈ Lib.upToFirst (Xiangqi.occupied p.placement) (ray a d)) ∧
    (p.legalLine false (square a) (square c) = true ↔
      c ∈ (ray a d).takeWhile (fun r => !Xiangqi.occupied p.placement r) ∨
        Lib.second? (Xiangqi.occupied p.placement) (ray a d) = some c) := by
  have hdelta := lineDelta?_eq hd ha hc
  have hvalid := isValid_of_mem_ray hc
  obtain ⟨k, hk, rfl, hall⟩ := Lib.mem_walk hc
  obtain ⟨post, hsplit⟩ : ∃ post, Lib.walk (shift d) Position.isValid 9 a =
      (List.range k).map (fun i => (shift d)^[i + 1] a) ++ (shift d)^[k + 1] a :: post :=
    Lib.walk_split hk hall
  have hnodup := ray_nodup (p := a) hd
  rw [ray, hsplit] at hnodup
  obtain ⟨-, hpost, hdisj⟩ := List.nodup_append.mp hnodup
  have hpre : (shift d)^[k + 1] a ∉ (List.range k).map fun i => (shift d)^[i + 1] a :=
    fun hmem => hdisj _ hmem _ List.mem_cons_self rfl
  -- the points of the ray as squares
  have hsquare : ∀ i : Nat, square ((shift d)^[i] a) = square a + i * delta d := by
    intro i
    rw [shift_iterate, square_eq, square_eq, delta]
    ring
  have hocc : ∀ i ≤ k, p.occupied (square a + (i + 1 : Nat) * delta d) =
      Xiangqi.occupied p.placement ((shift d)^[i + 1] a) := by
    intro i hi
    rw [← hsquare, h.occupied (near_of_isValid (hall i hi))]
  have hn : delta d ≠ 0 := by
    rcases mem_orthogonals hd with rfl | rfl | rfl | rfl <;> decide
  -- the first scan
  obtain ⟨t, h1t, htk, hscan, hbefore, hstop⟩ :=
    scan_spec (p := p) (s := square a) hn (k := k + 1) 16 1 (by omega) (by omega)
  rw [Nat.cast_one, one_mul] at hscan
  have hend : square a + t * delta d = square a + (k + 1 : Nat) * delta d ↔ t = k + 1 := by
    constructor
    · intro heq
      have hmul : (t : Int) * delta d = (k + 1 : Nat) * delta d := by omega
      exact_mod_cast mul_right_cancel₀ hn hmul
    · rintro rfl
      rfl
  -- what lies before the destination
  have hfree : (∀ x ∈ (List.range k).map fun i => (shift d)^[i + 1] a,
      Xiangqi.occupied p.placement x = false) ↔ t = k + 1 := by
    simp only [List.mem_map, List.mem_range, forall_exists_index, and_imp,
      forall_apply_eq_imp_iff₂]
    constructor
    · intro hnone
      by_contra hne
      obtain ⟨i, rfl⟩ : ∃ i, t = i + 1 := ⟨t - 1, by omega⟩
      have hsome := hstop (by omega)
      rw [hocc i (by omega), hnone i (by omega)] at hsome
      cases hsome
    · rintro rfl i hi
      rw [← hocc i (by omega)]
      exact hbefore (i + 1) (by omega) (by omega)
  have hlegal : ∀ isRook, p.legalLine isRook (square a) (square ((shift d)^[k + 1] a)) =
      if t = k + 1 then !p.occupied (square a + (k + 1 : Nat) * delta d) || isRook
      else if p.occupied (square a + (k + 1 : Nat) * delta d) && !isRook then
        decide (p.scan (square a + (k + 1 : Nat) * delta d) (delta d) 16
          (square a + t * delta d + delta d) = square a + (k + 1 : Nat) * delta d)
      else false := by
    intro isRook
    rw [legalLine, hdelta]
    simp only [hsquare (k + 1), hscan, hend]
  rw [hlegal, hlegal, hocc k (le_refl k), ray, hsplit, Lib.mem_upToFirst_split hpre,
    Lib.mem_takeWhile_split hpre,
    Lib.second?_split hpre (List.nodup_cons.mp hpost).1, hfree]
  constructor
  · by_cases ht : t = k + 1 <;> simp [ht]
  · by_cases ht : t = k + 1
    · have hzero : ((List.range k).map fun i => (shift d)^[i + 1] a).countP
          (Xiangqi.occupied p.placement) = 0 := by
        rw [List.countP_eq_zero]
        intro x hx
        rw [hfree.mpr ht x hx]
        exact Bool.false_ne_true
      rw [hzero, if_pos ht]
      simp [ht]
    · -- one piece in between: the second scan
      obtain ⟨i, rfl⟩ : ∃ i, t = i + 1 := ⟨t - 1, by omega⟩
      obtain ⟨t', h2t, htk', hscan', hbefore', hstop'⟩ :=
        scan_spec (p := p) (s := square a) hn (k := k + 1) 16 (i + 2) (by omega) (by omega)
      have hnext : square a + ((i + 1 : Nat) : Int) * delta d + delta d =
          square a + ((i + 2 : Nat) : Int) * delta d := by
        push_cast
        ring
      have hend' : square a + t' * delta d = square a + (k + 1 : Nat) * delta d ↔ t' = k + 1 := by
        constructor
        · intro heq
          have hmul : (t' : Int) * delta d = (k + 1 : Nat) * delta d := by omega
          exact_mod_cast mul_right_cancel₀ hn hmul
        · rintro rfl
          rfl
      have hone : ((List.range k).map fun i => (shift d)^[i + 1] a).countP
          (Xiangqi.occupied p.placement) = 1 ↔ t' = k + 1 := by
        rw [List.countP_map]
        have hsome : Xiangqi.occupied p.placement ((shift d)^[i + 1] a) = true := by
          rw [← hocc i (by omega)]
          exact hstop (by omega)
        -- the pieces before it: none
        have hrange : List.range k = List.range i ++ i :: (List.range (k - (i + 1))).map
            (· + (i + 1)) := by
          have hk' : k = i + (1 + (k - (i + 1))) := by omega
          conv_lhs => rw [hk', List.range_add, List.range_add]
          simp only [List.range_one, List.map_cons, List.map_map, List.singleton_append, add_zero]
          congr 3
          funext j
          simp only [Function.comp_apply]
          omega
        have hlow : (List.range i).countP
            (Xiangqi.occupied p.placement ∘ fun i => (shift d)^[i + 1] a) = 0 := by
          rw [List.countP_eq_zero]
          intro j hj
          have hj := List.mem_range.mp hj
          rw [Function.comp_apply, ← hocc j (by omega), hbefore (j + 1) (by omega) (by omega)]
          exact Bool.false_ne_true
        rw [hrange, List.countP_append, List.countP_cons_of_pos (by exact hsome), hlow, zero_add,
          Nat.add_eq_right, List.countP_eq_zero]
        simp only [List.mem_map, List.mem_range, forall_exists_index, and_imp,
          forall_apply_eq_imp_iff₂, Function.comp_apply, Bool.not_eq_true]
        constructor
        · intro hnone
          by_contra hne
          obtain ⟨j, rfl⟩ : ∃ j, t' = j + (i + 1) + 1 := ⟨t' - (i + 2), by omega⟩
          have hocc' := hstop' (by omega)
          rw [hocc (j + (i + 1)) (by omega), hnone j (by omega)] at hocc'
          cases hocc'
        · rintro rfl j hj
          rw [← hocc (j + (i + 1)) (by omega)]
          exact hbefore' (j + (i + 1) + 1) (by omega) (by omega)
      rw [hone]
      simp only [ht, if_false, hnext, hscan', hend', false_and, false_or, Bool.not_false,
        Bool.and_true, Bool.if_false_right, Bool.and_eq_true, decide_eq_true_eq]
      exact and_comm

/-- On one rank or file there is a ray. -/
theorem Clean.legalLine_iff_exists (h : p.Clean) (ha : a.isValid = true) (hc : c.isValid = true)
    (hne : a ≠ c) :
    (p.legalLine true (square a) (square c) = true ↔
      ∃ d ∈ orthogonals, c ∈ Lib.upToFirst (Xiangqi.occupied p.placement) (ray a d)) ∧
    (p.legalLine false (square a) (square c) = true ↔
      ∃ d ∈ orthogonals, c ∈ (ray a d).takeWhile (fun r => !Xiangqi.occupied p.placement r) ∨
        Lib.second? (Xiangqi.occupied p.placement) (ray a d) = some c) := by
  have hray : ∀ isRook, p.legalLine isRook (square a) (square c) = true →
      ∃ d ∈ orthogonals, c ∈ ray a d := by
    intro isRook hlegal
    unfold legalLine at hlegal
    split at hlegal
    · cases hlegal
    · rename_i n hn
      exact exists_mem_ray ha hc (isStraight_of_lineDelta? ha hc hne hn)
  constructor
  · constructor
    · intro hlegal
      obtain ⟨d, hd, hmem⟩ := hray true hlegal
      exact ⟨d, hd, (h.legalLine_iff hd ha hmem).1.mp hlegal⟩
    · rintro ⟨d, hd, hmem⟩
      exact (h.legalLine_iff hd ha (Lib.subset_of_upToFirst hmem)).1.mpr hmem
  · constructor
    · intro hlegal
      obtain ⟨d, hd, hmem⟩ := hray false hlegal
      exact ⟨d, hd, (h.legalLine_iff hd ha hmem).2.mp hlegal⟩
    · rintro ⟨d, hd, hmem⟩
      have hon : c ∈ ray a d := hmem.elim (fun hfree => (List.takeWhile_sublist _).subset hfree)
        Lib.mem_of_second?
      exact (h.legalLine_iff hd ha hon).2.mpr hmem

/-- **`LegalMove`** between points of the board: the moves of the rules. -/
theorem Clean.legalMove_iff (h : p.Clean) (hplaced : Placed p.placement) (ha : a.isValid = true)
    (hc : c.isValid = true) :
    p.legalMove (move (square a) (square c)) = true ↔ p.Own a ∧ PseudoLegal p.placement a c := by
  unfold legalMove
  simp only [src_move ha, dst_move ha]
  by_cases hown : p.Own a
  · obtain ⟨m, hm, hcolor⟩ := hown
    have hself : p.isSelf (p.ucpcSquares (square a)) = true := (h.isSelf ha).mpr ⟨m, hm, hcolor⟩
    have hreach : PseudoLegal p.placement a c ↔ Reaches p.placement m a c ∧ p.Open c := by
      simp only [PseudoLegal, hm, Option.some.injEq, exists_eq_left', hcolor, Open,
        onBoard_iff_isValid.mpr hc, true_and]
    have hboth : p.Own a ∧ PseudoLegal p.placement a c ↔ Reaches p.placement m a c ∧ p.Open c :=
      ⟨fun hl => hreach.mp hl.2, fun hr => ⟨⟨m, hm, hcolor⟩, hreach.mpr hr⟩⟩
    rw [hboth, hself]
    simp only [Bool.not_true, Bool.false_eq_true, if_false]
    by_cases hopen : p.isSelf (p.ucpcSquares (square c)) = true
    · rw [if_pos hopen]
      obtain ⟨n, hn, hncolor⟩ := (h.isSelf hc).mp hopen
      simp only [Bool.false_eq_true, false_iff, not_and]
      exact fun _ ho => ho n hn hncolor
    · rw [if_neg hopen]
      have hopen' : p.Open c := fun n hn hncolor => hopen ((h.isSelf hc).mpr ⟨n, hn, hncolor⟩)
      have hne : a ≠ c := by
        rintro rfl
        exact hopen' m hm hcolor
      simp only [hopen', and_true]
      obtain ⟨sd, k, hsd, hpc, hk, htype⟩ := piece_of_placement hm
      obtain rfl : sd = p.sdPlayer := by
        have hsame : sd.color = p.sdPlayer.color := hsd.symm.trans hcolor
        revert hsame
        cases sd <;> cases p.sdPlayer <;> simp [Side.color]
      have hswitch : p.ucpcSquares (square a) - sideTag p.sdPlayer = k := by omega
      have hpalace := hplaced.palace a m hm
      have helephant := hplaced.elephant a m hm
      rw [htype, hcolor] at hpalace helephant
      -- a palace that is entered is the own one
      have hfort : ∀ d, d ∈ orthogonals ∨ d ∈ diagonals → c = shift d a →
          Palace p.sdPlayer.color a → (inFort (square c) = true ↔ Palace p.sdPlayer.color c) := by
        rintro d hd rfl hpa
        obtain ⟨h₁, h₂, h₃, h₄⟩ := mem_directions hd
        rw [Position.isValid_iff] at ha hc
        rw [inFort_iff, square_eq]
        revert hpa
        cases p.sdPlayer <;>
          simp only [Palace, Side.color, shift, reduceCtorEq, if_true, if_false] at hc ⊢ <;>
          intro hpa <;> omega
      unfold Reaches
      rw [hswitch, htype, hcolor]
      interval_cases k
      · simp only [Bool.and_eq_true, kingSpan_iff ha hc, pieceType]
        constructor
        · rintro ⟨hin, d, hd, hcd⟩
          exact ⟨(hfort d (.inl hd) hcd (hpalace (.inl rfl))).mp hin, d, hd, hcd⟩
        · rintro ⟨hin, d, hd, hcd⟩
          exact ⟨(hfort d (.inl hd) hcd (hpalace (.inl rfl))).mpr hin, d, hd, hcd⟩
      · simp only [Bool.and_eq_true, advisorSpan_iff ha hc, pieceType]
        constructor
        · rintro ⟨hin, d, hd, hcd⟩
          exact ⟨(hfort d (.inr hd) hcd (hpalace (.inr rfl))).mp hin, d, hd, hcd⟩
        · rintro ⟨hin, d, hd, hcd⟩
          exact ⟨(hfort d (.inr hd) hcd (hpalace (.inr rfl))).mpr hin, d, hd, hcd⟩
      · have hhalf : sameHalf (square a) (square c) = true ↔ OwnHalf p.sdPlayer.color c := by
          have hpoint := (helephant rfl).1
          rw [sameHalf, decide_eq_true_eq, halfBit_square ha, halfBit_square hc]
          revert hpoint
          cases p.sdPlayer <;> simp only [OwnHalf, Side.color, reduceCtorEq, if_true, if_false] <;>
            intro hpoint <;> split_ifs <;> omega
        simp only [Bool.and_eq_true, Bool.not_eq_true', hhalf, bishopSpan_iff ha hc, pieceType]
        constructor
        · rintro ⟨⟨hown, d, hd, hcd, heye⟩, hfree⟩
          rw [heye, h.occupied_eq_false (near_shift ha (.inr hd))] at hfree
          exact ⟨hown, d, hd, hfree, hcd⟩
        · rintro ⟨hown, d, hd, hfree, hcd⟩
          have heye : bishopPin (square a) (square c) = square (shift d a) := by
            rw [hcd, bishopPin, square_shift, square_shift]
            omega
          rw [heye, h.occupied_eq_false (near_shift ha (.inr hd))]
          exact ⟨⟨hown, d, hd, hcd, rfl⟩, hfree⟩
      · simp only [Bool.and_eq_true, decide_eq_true_eq, Bool.not_eq_true', pieceType]
        constructor
        · rintro ⟨hpin, hfree⟩
          obtain ⟨d, hd, hleg, e, he, hde, hce⟩ := (knightPin_iff ha hc).mp ⟨rfl, hpin⟩
          rw [hleg, h.occupied_eq_false (near_shift ha (.inl hd))] at hfree
          exact ⟨d, hd, hfree, e, he, hde, hce⟩
        · rintro ⟨d, hd, hfree, e, he, hde, hce⟩
          obtain ⟨hleg, hpin⟩ := (knightPin_iff ha hc).mpr ⟨d, hd, rfl, e, he, hde, hce⟩
          rw [hleg, h.occupied_eq_false (near_shift ha (.inl hd))]
          exact ⟨hpin, hfree⟩
      · exact (h.legalLine_iff_exists ha hc hne).1
      · exact (h.legalLine_iff_exists ha hc hne).2
      · have hforward : square c = squareForward (square a) p.sdPlayer ↔
            c = shift (forward p.sdPlayer.color) a := by
          rw [squareForward_square]
          constructor
          · exact square_inj (near_of_isValid hc) (near_shift ha (.inl (forward_mem _)))
          · rintro rfl
            rfl
        have hside : ∀ d, d = (1, 0) ∨ d = (-1, 0) → (square c = square a + delta d ↔
            c = shift d a) := by
          intro d hd
          have hd' : d ∈ orthogonals := by
            rcases hd with rfl | rfl <;> decide
          rw [eq_shift_iff hc (near_shift ha (.inl hd'))]
          omega
        have hright := hside (1, 0) (.inl rfl)
        have hleft := hside (-1, 0) (.inr rfl)
        simp only [delta, mul_zero, add_zero] at hright hleft
        simp only [Bool.or_eq_true, Bool.and_eq_true, decide_eq_true_eq, hforward, pieceType,
          awayHalf_square hc, sub_eq_add_neg, hleft, hright]
        -- sideways, the half is that of the origin
        have hrow : ∀ d, d = (1, 0) ∨ d = (-1, 0) → c = shift d a →
            (OwnHalf p.sdPlayer.color c ↔ OwnHalf p.sdPlayer.color a) := by
          rintro d hd rfl
          rcases hd with rfl | rfl <;> simp [OwnHalf, shift]
        constructor
        · rintro (⟨haway, hcd | hcd⟩ | hcd)
          · exact .inr ⟨(hrow _ (.inr rfl) hcd).not.mp haway, .inr hcd⟩
          · exact .inr ⟨(hrow _ (.inl rfl) hcd).not.mp haway, .inl hcd⟩
          · exact .inl hcd
        · rintro (hcd | ⟨haway, hcd | hcd⟩)
          · exact .inr hcd
          · exact .inl ⟨(hrow _ (.inl rfl) hcd).not.mpr haway, .inr hcd⟩
          · exact .inl ⟨(hrow _ (.inr rfl) hcd).not.mpr haway, .inl hcd⟩
  · have hself : p.isSelf (p.ucpcSquares (square a)) = false :=
      Bool.eq_false_iff.mpr fun hself => hown ((h.isSelf ha).mp hself)
    simp [hself, hown]

end PositionStruct

end HoxServer.XQWLight
