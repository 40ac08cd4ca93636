/-
HoxServer.Lib.Traversal — iterating over a linked list whose nodes the
loop body moves.

    for ( it = nodes.begin(); it != nodes.end(); ++it ) body( *it )

The body works on a state that owns the list, so it may unlink a node
and append it again at the tail while the loop stands on another node.
`++it` then follows the links as the body left them: `nodeAfter`. Such a
loop may visit a moved node twice and need not end.

The setting here is a body that acts on the nodes satisfying `own` only
and never moves one of those (`Body`). Then the loop ends, within
`(n + 1) * (n + 1)` steps for `n` nodes, it visits every own node unless
it stops early and none of them twice (`Covers`), and it stops early
exactly when some own node is one the body stops at (`traverse_spec`).
What carries the induction is that the own nodes after the cursor keep
their order whatever the body moves.
-/
import Mathlib.Tactic
import Mathlib.Data.List.Basic

namespace Lib

variable {σ α ε : Type*}

/-! ## The loop -/

/-- The node after the node `x` in the list. -/
def nodeAfter [DecidableEq α] (x : α) : List α → Option α
  | [] => none
  | y :: l => if y = x then l.head? else nodeAfter x l

/-- The loop, from the node `it` (`none` is `end()`). The body returns the
new state and whether to leave the loop. The fault `endless` stands for a
loop that has not ended when the fuel is spent. -/
def traverse [DecidableEq α] (nodes : σ → List α) (body : σ → α → Except ε (σ × Bool)) (endless : ε) :
    Nat → σ → Option α → Except ε (σ × Bool)
  | _, s, none => .ok (s, false)
  | 0, _, some _ => .error endless
  | fuel + 1, s, some x =>
    match body s x with
    | .error e => .error e
    | .ok (s', true) => .ok (s', true)
    | .ok (s', false) => traverse nodes body endless fuel s' (nodeAfter x (nodes s'))

/-- The nodes that the loop stands on, one after the other. -/
def visited [DecidableEq α] (nodes : σ → List α) (body : σ → α → Except ε (σ × Bool)) :
    Nat → σ → Option α → List α
  | _, _, none => []
  | 0, _, some _ => []
  | fuel + 1, s, some x =>
    match body s x with
    | .error _ => [x]
    | .ok (_, true) => [x]
    | .ok (s', false) => x :: visited nodes body fuel s' (nodeAfter x (nodes s'))

theorem nodeAfter_append [DecidableEq α] {x : α} {pre : List α} (h : x ∉ pre) (post : List α) :
    nodeAfter x (pre ++ x :: post) = post.head? := by
  induction pre with
  | nil => simp [nodeAfter]
  | cons y pre ih =>
    have hne : y ≠ x := fun e => h (e ▸ List.mem_cons_self)
    have hmem : x ∉ pre := fun hx => h (List.mem_cons_of_mem _ hx)
    rw [List.cons_append, nodeAfter, if_neg hne, ih hmem]

/-! ## Moving nodes that are not the loop's own -/

/-- `l'` is `l` with nodes moved, the own nodes among themselves in the
order they had. -/
def Reordered (own : α → Bool) (l l' : List α) : Prop :=
  l'.Perm l ∧ l'.filter own = l.filter own

theorem Reordered.refl (own : α → Bool) (l : List α) : Reordered own l l :=
  ⟨List.Perm.refl l, rfl⟩

theorem Reordered.trans {own : α → Bool} {l l' l'' : List α} (h : Reordered own l l')
    (h' : Reordered own l' l'') : Reordered own l l'' :=
  ⟨h'.1.trans h.1, h'.2.trans h.2⟩

/-- Unlinking a node that is not the loop's own and appending it again. -/
theorem reordered_moveToTail [DecidableEq α] {own : α → Bool} {l : List α} {x : α} (hx : own x = false)
    (hmem : x ∈ l) (hnodup : l.Nodup) : Reordered own l (l.filter (· ≠ x) ++ [x]) := by
  constructor
  · have hf : l.filter (fun y => decide (y ≠ x)) = l.erase x := by
      rw [hnodup.erase_eq_filter]
      exact List.filter_congr (fun y _ => decide_not)
    rw [hf]
    exact (List.perm_append_singleton x (l.erase x)).trans (List.perm_cons_erase hmem).symm
  · rw [List.filter_append, List.filter_filter, List.filter_cons_of_neg (by simp [hx]),
        List.filter_nil, List.append_nil]
    refine List.filter_congr (fun y _ => ?_)
    by_cases hy : own y = true
    · have hne : y ≠ x := fun e => by rw [e, hx] at hy; cases hy
      simp [hy, hne]
    · simp [hy]

/-- Splitting a reordered list at an own node: the own nodes after it are
the same. -/
theorem Reordered.split {own : α → Bool} {pre post l' : List α} {x : α} (hx : own x = true)
    (hnodup : (pre ++ x :: post).Nodup) (h : Reordered own (pre ++ x :: post) l') :
    ∃ pre' post', l' = pre' ++ x :: post' ∧ x ∉ pre' ∧
      post'.filter own = post.filter own := by
  have hmem : x ∈ l' := h.1.mem_iff.mpr (by simp)
  obtain ⟨pre', post', rfl⟩ := List.append_of_mem hmem
  have hnodup' : (pre' ++ x :: post').Nodup := h.1.nodup_iff.mpr hnodup
  have hpre' : x ∉ pre' := fun hx' =>
    (List.nodup_append.mp hnodup').2.2 x hx' x List.mem_cons_self rfl
  have hpost' : x ∉ post' :=
    (List.nodup_cons.mp (List.nodup_append.mp hnodup').2.1).1
  refine ⟨pre', post', rfl, hpre', ?_⟩
  have hf := h.2
  rw [List.filter_append, List.filter_append, List.filter_cons_of_pos hx,
      List.filter_cons_of_pos hx] at hf
  have hm : x ∉ pre'.filter own := fun hm => hpre' (List.mem_of_mem_filter hm)
  have hk : x ∉ post'.filter own := fun hk => hpost' (List.mem_of_mem_filter hk)
  exact (List.append_cons_inj_of_notMem hm hk |>.mp hf).2.2

/-! ## The loop ends and misses nothing -/

/-- A body that leaves the state alone on a node that is not its own, and
on an own node keeps the invariant `Inv`, moves other nodes only and
stops exactly at the nodes that are `good`. -/
structure Body (nodes : σ → List α) (body : σ → α → Except ε (σ × Bool)) (Inv : σ → Prop)
    (own : α → Bool) (good : α → Prop) : Prop where
  nodup : ∀ {s}, Inv s → (nodes s).Nodup
  skip : ∀ {s x}, Inv s → x ∈ nodes s → own x = false → body s x = .ok (s, false)
  visit : ∀ {s x}, Inv s → x ∈ nodes s → own x = true →
    ∃ s' stop, body s x = .ok (s', stop) ∧ Inv s' ∧ Reordered own (nodes s) (nodes s') ∧
      (stop = true ↔ good x)

/-- The own nodes among those that are visited are the own nodes of `l`, one
after the other: all of them, or those up to a good one, where the loop
stops. -/
structure Covers (own : α → Bool) (good : α → Prop) (visits l : List α) (stop : Bool) :
    Prop where
  inOrder : visits.filter own <+: l.filter own
  all : stop = false → visits.filter own = l.filter own
  last : stop = true → ∃ x, visits.getLast? = some x ∧ own x = true ∧ good x

variable {nodes : σ → List α} {body : σ → α → Except ε (σ × Bool)} {Inv : σ → Prop}
  {own : α → Bool} {good : α → Prop} {x : α} {visits l l' : List α} {stop : Bool}

theorem Covers.nil : Covers own good [] [] false :=
  ⟨List.prefix_rfl, fun _ => rfl, fun h => absurd h Bool.false_ne_true⟩

theorem Covers.skip (h : Covers own good visits l stop) (hx : own x = false) :
    Covers own good (x :: visits) (x :: l) stop := by
  have hskip : ∀ m : List α, (x :: m).filter own = m.filter own :=
    fun m => List.filter_cons_of_neg (by simp [hx])
  refine ⟨?_, fun hs => ?_, fun hs => ?_⟩
  · rw [hskip, hskip]
    exact h.inOrder
  · rw [hskip, hskip]
    exact h.all hs
  · obtain ⟨y, hy, hown⟩ := h.last hs
    exact ⟨y, by rw [List.getLast?_cons, hy, Option.getD_some], hown⟩

theorem Covers.here (hx : own x = true) (hgood : good x) :
    Covers own good [x] (x :: l) true := by
  refine ⟨?_, fun h => absurd h.symm Bool.false_ne_true, fun _ => ⟨x, rfl, hx, hgood⟩⟩
  rw [List.filter_cons_of_pos hx, List.filter_cons_of_pos hx, List.filter_nil]
  exact List.cons_prefix_cons.mpr ⟨rfl, List.nil_prefix⟩

theorem Covers.visit (h : Covers own good visits l' stop) (hx : own x = true)
    (hl : l'.filter own = l.filter own) : Covers own good (x :: visits) (x :: l) stop := by
  have hvisit : ∀ m : List α, (x :: m).filter own = x :: m.filter own :=
    fun m => List.filter_cons_of_pos hx
  refine ⟨?_, fun hs => ?_, fun hs => ?_⟩
  · rw [hvisit, hvisit, ← hl]
    exact List.cons_prefix_cons.mpr ⟨rfl, h.inOrder⟩
  · rw [hvisit, hvisit, ← hl, h.all hs]
  · obtain ⟨y, hy, hown⟩ := h.last hs
    exact ⟨y, by rw [List.getLast?_cons, hy, Option.getD_some], hown⟩

/-- An own node is visited once at most, and once if the loop does not stop. -/
theorem Covers.count [DecidableEq α] (h : Covers own good visits l stop) (hl : l.Nodup)
    (hx : own x = true) :
    visits.count x ≤ 1 ∧ (stop = false → x ∈ l → visits.count x = 1) := by
  have hcount : (visits.filter own).count x = visits.count x := List.count_filter hx
  have hnodup : (l.filter own).Nodup := hl.filter _
  constructor
  · rw [← hcount]
    exact List.nodup_iff_count_le_one.mp (hnodup.sublist h.inOrder.sublist) x
  · intro hs hmem
    rw [← hcount, h.all hs]
    exact List.count_eq_one_of_mem hnodup (List.mem_filter.mpr ⟨hmem, hx⟩)

theorem exists_good_congr (h : l'.filter own = l.filter own) :
    (∃ y ∈ l', own y = true ∧ good y) ↔ ∃ y ∈ l, own y = true ∧ good y := by
  have hiff : ∀ y, (y ∈ l' ∧ own y = true) ↔ (y ∈ l ∧ own y = true) := by
    intro y
    rw [← List.mem_filter, ← List.mem_filter, h]
  simp only [← and_assoc, hiff]

theorem exists_good_cons (hx : ¬ good x) :
    (∃ y ∈ x :: l, own y = true ∧ good y) ↔ ∃ y ∈ l, own y = true ∧ good y := by
  simp [hx]

variable [DecidableEq α] (endless : ε)

/-- The loop from a cursor: `suf` is the part of the list from it on. The
measure is the own nodes of `suf` first, the length of `suf` second. -/
theorem traverse_suffix (B : Body nodes body Inv own good) : ∀ (fuel : Nat) (s : σ)
    (pre suf : List α), Inv s → nodes s = pre ++ suf →
    (suf.filter own).length * ((nodes s).length + 1) + suf.length ≤ fuel →
    ∃ s' stop, traverse nodes body endless fuel s suf.head? = .ok (s', stop) ∧ Inv s' ∧
      Reordered own (nodes s) (nodes s') ∧
      (stop = true ↔ ∃ x ∈ suf, own x = true ∧ good x) ∧
      Covers own good (visited nodes body fuel s suf.head?) suf stop := by
  intro fuel
  induction fuel with
  | zero =>
    intro s pre suf hInv hsplit hfuel
    have hnil : suf = [] := List.length_eq_zero_iff.mp (by omega)
    subst hnil
    exact ⟨s, false, rfl, hInv, .refl _ _, by simp, .nil⟩
  | succ fuel ih =>
    intro s pre suf hInv hsplit hfuel
    cases suf with
    | nil => exact ⟨s, false, rfl, hInv, .refl _ _, by simp, .nil⟩
    | cons x post =>
      have hmem : x ∈ nodes s := by rw [hsplit]; simp
      have hnodup : (pre ++ x :: post).Nodup := hsplit ▸ B.nodup hInv
      cases hown : own x with
      | false =>
        have hpre : x ∉ pre := fun hx =>
          (List.nodup_append.mp hnodup).2.2 x hx x List.mem_cons_self rfl
        have hf : (x :: post).filter own = post.filter own :=
          List.filter_cons_of_neg (by simp [hown])
        rw [hf, List.length_cons] at hfuel
        obtain ⟨s', stop, hrun, hInv', hre, hstop, hcovers⟩ :=
          ih s (pre ++ [x]) post hInv (by simpa using hsplit) (by omega)
        refine ⟨s', stop, ?_, hInv', hre, ?_, ?_⟩
        · rw [List.head?_cons, traverse, B.skip hInv hmem hown]
          simp only [hsplit, nodeAfter_append hpre]
          exact hrun
        · rw [hstop]
          simp [hown]
        · rw [List.head?_cons, visited, B.skip hInv hmem hown]
          simp only [hsplit, nodeAfter_append hpre]
          exact hcovers.skip hown
      | true =>
        obtain ⟨t, stop, hbody, hInvt, hre, hgood⟩ := B.visit hInv hmem hown
        cases stop with
        | true =>
          refine ⟨t, true, by rw [List.head?_cons, traverse, hbody], hInvt, hre, ?_, ?_⟩
          · exact ⟨fun _ => ⟨x, List.mem_cons_self, hown, hgood.mp rfl⟩, fun _ => rfl⟩
          · rw [List.head?_cons, visited, hbody]
            exact .here hown (hgood.mp rfl)
        | false =>
          have hbad : ¬ good x := fun hg => Bool.false_ne_true (hgood.mpr hg)
          obtain ⟨pre', post', hsplit', hpre', hpost⟩ := (hsplit ▸ hre).split hown hnodup
          have hlen : (nodes t).length = (nodes s).length := hre.1.length_eq
          have hpost' : post'.length < (nodes s).length := by
            rw [← hlen, hsplit']; simp only [List.length_append, List.length_cons]; omega
          have hf : ((x :: post).filter own).length = (post.filter own).length + 1 := by
            rw [List.filter_cons_of_pos hown, List.length_cons]
          rw [hf, Nat.add_mul] at hfuel
          obtain ⟨s', stop, hrun, hInv', hre', hstop, hcovers⟩ :=
            ih t (pre' ++ [x]) post' hInvt (by simpa using hsplit')
              (by rw [hpost, hlen]; omega)
          refine ⟨s', stop, ?_, hInv', hre.trans hre', ?_, ?_⟩
          · rw [List.head?_cons, traverse, hbody]
            simp only [hsplit', nodeAfter_append hpre']
            exact hrun
          · rw [hstop, exists_good_cons hbad, exists_good_congr hpost]
          · rw [List.head?_cons, visited, hbody]
            simp only [hsplit', nodeAfter_append hpre']
            exact hcovers.visit hown hpost

/-- **The loop ends and misses nothing.** -/
theorem traverse_spec (B : Body nodes body Inv own good) {s : σ} (hInv : Inv s) {fuel : Nat}
    (hfuel : ((nodes s).length + 1) * ((nodes s).length + 1) ≤ fuel) :
    ∃ s' stop, traverse nodes body endless fuel s (nodes s).head? = .ok (s', stop) ∧ Inv s' ∧
      Reordered own (nodes s) (nodes s') ∧
      (stop = true ↔ ∃ x ∈ nodes s, own x = true ∧ good x) ∧
      Covers own good (visited nodes body fuel s (nodes s).head?) (nodes s) stop := by
  refine traverse_suffix endless B fuel s [] (nodes s) hInv rfl ?_
  have hle : ((nodes s).filter own).length ≤ (nodes s).length := List.length_filter_le _ _
  have hmul := Nat.mul_le_mul_right ((nodes s).length + 1) hle
  have hsq : ((nodes s).length + 1) * ((nodes s).length + 1)
      = (nodes s).length * ((nodes s).length + 1) + ((nodes s).length + 1) := by ring
  omega

end Lib
