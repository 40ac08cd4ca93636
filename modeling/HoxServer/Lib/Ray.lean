/-
HoxServer.Lib.Ray — walking along a line until something is in the way.

`walk` lists the places met from a start by repeating one step while the
places are inside some area. On such a list `upToFirst` is what a walker
reaches who may stop on the first obstacle, `takeWhile` what he reaches
who may not, and `second?` the obstacle behind the first.

The lemmas say the same in terms of the places passed on the way to a
given place `q` (`pre` in a split `pre ++ q :: post` of the list): none
is an obstacle, or exactly one is.
-/
import Mathlib.Tactic
import Mathlib.Data.List.Basic

namespace Lib

variable {α : Type*}

/-! ## Obstacles on a list -/

/-- The elements up to and including the first obstacle. -/
def upToFirst (obstacle : α → Bool) : List α → List α
  | [] => []
  | x :: l => if obstacle x then [x] else x :: upToFirst obstacle l

/-- The second obstacle. -/
def second? (obstacle : α → Bool) : List α → Option α
  | [] => none
  | x :: l => if obstacle x then l.find? obstacle else second? obstacle l

variable {obstacle : α → Bool}

theorem subset_of_upToFirst {l : List α} {q : α} (h : q ∈ upToFirst obstacle l) : q ∈ l := by
  induction l with
  | nil => cases h
  | cons x l ih =>
    rw [upToFirst] at h
    split at h
    · exact List.mem_cons.mpr (Or.inl (List.mem_singleton.mp h))
    · rcases List.mem_cons.mp h with rfl | h
      · exact List.mem_cons_self
      · exact List.mem_cons_of_mem _ (ih h)

theorem mem_of_second? {l : List α} {q : α} (h : second? obstacle l = some q) : q ∈ l := by
  induction l with
  | nil => cases h
  | cons x l ih =>
    rw [second?] at h
    split at h
    · exact List.mem_cons_of_mem _ (List.mem_of_find?_eq_some h)
    · exact List.mem_cons_of_mem _ (ih h)

theorem obstacle_of_second? {l : List α} {q : α} (h : second? obstacle l = some q) :
    obstacle q = true := by
  induction l with
  | nil => cases h
  | cons x l ih =>
    rw [second?] at h
    split at h
    · exact List.find?_some h
    · exact ih h

theorem mem_upToFirst_split {pre post : List α} {q : α} (hq : q ∉ pre) :
    q ∈ upToFirst obstacle (pre ++ q :: post) ↔ ∀ x ∈ pre, obstacle x = false := by
  induction pre with
  | nil =>
    have hmem : q ∈ upToFirst obstacle (q :: post) := by
      rw [upToFirst]
      split <;> exact List.mem_cons_self
    simpa using hmem
  | cons x pre ih =>
    obtain ⟨hne, hpre⟩ := not_or.mp (List.mem_cons.not.mp hq)
    rw [List.cons_append, upToFirst]
    cases hx : obstacle x with
    | true => simp [hx, hne]
    | false => simp [hx, hne, ih hpre]

theorem mem_takeWhile_split {pre post : List α} {q : α} (hq : q ∉ pre) :
    q ∈ (pre ++ q :: post).takeWhile (fun x => !obstacle x) ↔
      (∀ x ∈ pre, obstacle x = false) ∧ obstacle q = false := by
  induction pre with
  | nil => cases h : obstacle q <;> simp [h]
  | cons x pre ih =>
    obtain ⟨hne, hpre⟩ := not_or.mp (List.mem_cons.not.mp hq)
    cases hx : obstacle x with
    | true => simp [hx]
    | false => simp [hx, hne, ih hpre]

/-- From the first obstacle on, `find?` meets `q` next exactly when only
free places lie between. -/
theorem find?_split {pre post : List α} {q : α} (hq : q ∉ pre) :
    (pre ++ q :: post).find? obstacle = some q ↔
      pre.countP obstacle = 0 ∧ obstacle q = true := by
  induction pre with
  | nil =>
    cases h : obstacle q with
    | true => simp [h]
    | false =>
      simp only [List.nil_append, List.find?_cons, h, List.countP_nil, true_and]
      exact ⟨fun hf => absurd (List.find?_some hf) (by simp [h]), fun hf => by cases hf⟩
  | cons x pre ih =>
    obtain ⟨hne, hpre⟩ := not_or.mp (List.mem_cons.not.mp hq)
    cases hx : obstacle x with
    | true => simp [hx, Ne.symm hne]
    | false =>
      rw [List.cons_append, List.find?_cons_of_neg (by simp [hx]),
          List.countP_cons_of_neg (by simp [hx]), ih hpre]

theorem second?_split {pre post : List α} {q : α} (hq : q ∉ pre) (hpost : q ∉ post) :
    second? obstacle (pre ++ q :: post) = some q ↔
      pre.countP obstacle = 1 ∧ obstacle q = true := by
  induction pre with
  | nil =>
    simp only [List.nil_append, second?, List.countP_nil]
    constructor
    · intro h
      split at h
      · exact absurd (List.mem_of_find?_eq_some h) hpost
      · exact absurd (mem_of_second? h) hpost
    · rintro ⟨h, -⟩
      cases h
  | cons x pre ih =>
    obtain ⟨-, hpre⟩ := not_or.mp (List.mem_cons.not.mp hq)
    rw [List.cons_append, second?]
    cases hx : obstacle x with
    | true =>
      rw [if_pos rfl, find?_split hpre, List.countP_cons_of_pos hx, Nat.add_eq_right]
    | false =>
      rw [if_neg Bool.false_ne_true, ih hpre, List.countP_cons_of_neg (by simp [hx])]

/-- Up to the first obstacle: the free places, and then the obstacle. -/
theorem upToFirst_eq (l : List α) : upToFirst obstacle l =
    l.takeWhile (fun x => !obstacle x) ++ (l.find? obstacle).toList := by
  induction l with
  | nil => rfl
  | cons x l ih =>
    rw [upToFirst]
    cases hx : obstacle x with
    | true => simp [hx]
    | false => simp [hx, ih]

theorem length_upToFirst_le (l : List α) : (upToFirst obstacle l).length ≤ l.length := by
  induction l with
  | nil => exact Nat.le_refl 0
  | cons x l ih =>
    rw [upToFirst]
    split
    · simp
    · simpa using ih

/-- The free places and the obstacle behind the first. -/
theorem length_takeWhile_add_second?_le (l : List α) :
    (l.takeWhile fun x => !obstacle x).length + (second? obstacle l).toList.length ≤ l.length := by
  induction l with
  | nil => exact Nat.le_refl 0
  | cons x l ih =>
    rw [second?]
    cases hx : obstacle x with
    | true =>
      have : (l.find? obstacle).toList.length ≤ 1 := by
        cases l.find? obstacle <;> simp
      cases l with
      | nil => simp [hx]
      | cons y l =>
        simp only [List.takeWhile_cons, hx, Bool.not_true, Bool.false_eq_true, if_false, if_true,
          List.length_nil, List.length_cons] at *
        omega
    | false =>
      simp only [List.takeWhile_cons, hx, Bool.not_false, if_true, Bool.false_eq_true, if_false,
        List.length_cons]
      omega

/-! ### Places under other names -/

variable {β : Type*} {obstacle' : β → Bool} {g : α → β} {l : List α}

theorem takeWhile_map_of (h : ∀ x ∈ l, obstacle' (g x) = obstacle x) :
    (l.map g).takeWhile (fun y => !obstacle' y) =
      (l.takeWhile fun x => !obstacle x).map g := by
  induction l with
  | nil => rfl
  | cons x l ih =>
    rw [List.map_cons, List.takeWhile_cons, List.takeWhile_cons, h x List.mem_cons_self,
      ih fun y hy => h y (List.mem_cons_of_mem x hy)]
    cases obstacle x <;> rfl

theorem find?_map_of (h : ∀ x ∈ l, obstacle' (g x) = obstacle x) :
    (l.map g).find? obstacle' = (l.find? obstacle).map g := by
  induction l with
  | nil => rfl
  | cons x l ih =>
    rw [List.map_cons, List.find?_cons, List.find?_cons, h x List.mem_cons_self,
      ih fun y hy => h y (List.mem_cons_of_mem x hy)]
    cases obstacle x <;> rfl

theorem second?_map_of (h : ∀ x ∈ l, obstacle' (g x) = obstacle x) :
    second? obstacle' (l.map g) = (second? obstacle l).map g := by
  induction l with
  | nil => rfl
  | cons x l ih =>
    have hl := fun y hy => h y (List.mem_cons_of_mem x hy)
    rw [List.map_cons, second?, second?, h x List.mem_cons_self, ih hl, find?_map_of hl]
    cases obstacle x <;> rfl

/-! ## Walking -/

/-- The places met from a start, at most `n` of them, while inside. -/
def walk (next : α → α) (inside : α → Bool) : Nat → α → List α
  | 0, _ => []
  | n + 1, p => if inside (next p) then next p :: walk next inside n (next p) else []

variable {next : α → α} {inside : α → Bool}

/-- A place that is met is met after some number of steps, all inside. -/
theorem mem_walk {n : Nat} {p q : α} (h : q ∈ walk next inside n p) :
    ∃ k < n, q = next^[k + 1] p ∧ ∀ i ≤ k, inside (next^[i + 1] p) = true := by
  induction n generalizing p with
  | zero => cases h
  | succ n ih =>
    rw [walk] at h
    split at h
    · rename_i hin
      rcases List.mem_cons.mp h with rfl | h
      · refine ⟨0, Nat.succ_pos n, rfl, fun i hi => ?_⟩
        obtain rfl : i = 0 := Nat.le_zero.mp hi
        exact hin
      · obtain ⟨k, hk, rfl, hall⟩ := ih h
        refine ⟨k + 1, Nat.succ_lt_succ hk, rfl, fun i hi => ?_⟩
        cases i with
        | zero => exact hin
        | succ i => exact hall i (Nat.le_of_succ_le_succ hi)
    · cases h

/-- The walk is a prefix of the places after 1, 2, .. steps. -/
theorem walk_prefix_iterates (n : Nat) (p : α) :
    walk next inside n p <+: (List.range n).map (fun i => next^[i + 1] p) := by
  induction n generalizing p with
  | zero => exact List.nil_prefix
  | succ n ih =>
    rw [walk]
    split
    · rw [List.range_succ_eq_map, List.map_cons, List.map_map]
      exact List.cons_prefix_cons.mpr ⟨rfl, ih (next p)⟩
    · exact List.nil_prefix

/-- A walk that never returns to a place lists it once. -/
theorem walk_nodup {n : Nat} {p : α}
    (h : ∀ i < n, ∀ j < n, next^[i + 1] p = next^[j + 1] p → i = j) :
    (walk next inside n p).Nodup := by
  refine (walk_prefix_iterates n p).sublist.nodup ?_
  refine List.Nodup.map_on (fun i hi j hj => ?_) List.nodup_range
  exact h i (List.mem_range.mp hi) j (List.mem_range.mp hj)

/-- The places met on the way to the place after `k + 1` steps are the
ones after fewer steps. -/
theorem walk_split {n k : Nat} {p : α} (hk : k < n)
    (hall : ∀ i ≤ k, inside (next^[i + 1] p) = true) :
    ∃ post, walk next inside n p
      = (List.range k).map (fun i => next^[i + 1] p) ++ next^[k + 1] p :: post := by
  induction k generalizing n p with
  | zero =>
    obtain ⟨n, rfl⟩ := Nat.exists_eq_succ_of_ne_zero (Nat.ne_zero_of_lt hk)
    have h0 : inside (next p) = true := hall 0 (Nat.le_refl 0)
    exact ⟨walk next inside n (next p), by simp [walk, h0]⟩
  | succ k ih =>
    obtain ⟨n, rfl⟩ := Nat.exists_eq_succ_of_ne_zero (Nat.ne_zero_of_lt hk)
    have h0 : inside (next p) = true := hall 0 (Nat.zero_le _)
    obtain ⟨post, hpost⟩ := ih (n := n) (p := next p) (Nat.lt_of_succ_lt_succ hk)
      (fun i hi => hall (i + 1) (Nat.succ_le_succ hi))
    refine ⟨post, ?_⟩
    rw [walk, if_pos h0, hpost, List.range_succ_eq_map, List.map_cons, List.map_map]
    rfl

/-- A walk ends before the first place outside. -/
theorem length_walk_le {n m : Nat} {p : α} (h : inside (next^[m + 1] p) = false) :
    (walk next inside n p).length ≤ m := by
  induction n generalizing m p with
  | zero => exact Nat.zero_le m
  | succ n ih =>
    rw [walk]
    split
    · rename_i hin
      cases m with
      | zero => exact absurd (hin.symm.trans h) Bool.true_eq_false_eq_False
      | succ m => exact Nat.succ_le_succ (ih h)
    · exact Nat.zero_le m

/-- A walk under other names, as long as the two walks agree on the places
`P` where they are. -/
theorem walk_map (next' : β → β) (inside' : β → Bool) {P : α → Prop}
    (h : ∀ x, P x → next' (g x) = g (next x) ∧ inside' (g (next x)) = inside (next x))
    (hP : ∀ x, P x → inside (next x) = true → P (next x)) :
    ∀ (n : Nat) {p : α}, P p → walk next' inside' n (g p) = (walk next inside n p).map g := by
  intro n
  induction n with
  | zero =>
    intro p _
    rfl
  | succ n ih =>
    intro p hp
    rw [walk, walk, (h p hp).1, (h p hp).2]
    cases hin : inside (next p) with
    | true => rw [if_pos rfl, if_pos rfl, ih (hP p hp hin), List.map_cons]
    | false => rfl

end Lib
