/-
HoxServer.Lib.Streak — what a counter that is kept along a log counts.

A log grows at its end. A program that only sees the next entry keeps a
few counters: how long the predicate has held without a break (`streak`),
whether it holds of the last entry (`lastIs`), how often it has failed
twice in a row (`quiet`; the first entry is quiet when it fails). The
three are defined on the whole log, and one lemma each says how an entry
changes them.
-/
import Mathlib.Data.List.DropRight
import Mathlib.Tactic

namespace Lib

universe u

variable {α : Type u} (p : α → Bool)

/-- The number of last entries that all satisfy `p`. -/
def streak (l : List α) : Nat := (l.rtakeWhile p).length

/-- The last entry satisfies `p`. -/
def lastIs (l : List α) : Bool := l.getLast?.any p

/-- The number of entries that fail `p` and follow no entry that satisfies
it; `before` tells whether the entry before the log does. -/
def quietFrom (before : Bool) : List α → Nat
  | [] => 0
  | a :: l => (if !p a && !before then 1 else 0) + quietFrom (p a) l

/-- The number of entries that fail `p` and follow no entry that satisfies
it. -/
def quiet (l : List α) : Nat := quietFrom p false l

theorem streak_concat (l : List α) (a : α) :
    streak p (l ++ [a]) = if p a then streak p l + 1 else 0 := by
  unfold streak
  by_cases ha : p a = true
  · rw [List.rtakeWhile_concat_pos p l a ha, if_pos ha, List.length_append]
    rfl
  · rw [List.rtakeWhile_concat_neg p l a ha, if_neg ha]
    rfl

@[simp] theorem lastIs_concat (l : List α) (a : α) : lastIs p (l ++ [a]) = p a := by
  simp [lastIs]

theorem quietFrom_concat (l : List α) (a : α) (before : Bool) :
    quietFrom p before (l ++ [a]) = quietFrom p before l +
      if !p a && !(l.getLast?.elim before p) then 1 else 0 := by
  induction l generalizing before with
  | nil => simp [quietFrom]
  | cons b l ih =>
    have hlast : (b :: l).getLast?.elim before p = l.getLast?.elim (p b) p := by
      cases l with
      | nil => rfl
      | cons c l => simp [List.getLast?_cons]
    rw [List.cons_append, quietFrom, ih, quietFrom, hlast, Nat.add_assoc]

theorem quiet_concat (l : List α) (a : α) :
    quiet p (l ++ [a]) = if !p a && !lastIs p l then quiet p l + 1 else quiet p l := by
  have hlast : l.getLast?.elim false p = lastIs p l := by
    unfold lastIs
    cases l.getLast? with
    | none => rfl
    | some b => rfl
  unfold quiet
  rw [quietFrom_concat, hlast]
  split <;> simp_all

/-- A streak of the entries of one kind is not broken by the others. -/
theorem streak_filter_concat (q : α → Bool) (l : List α) (a : α) :
    streak p ((l ++ [a]).filter q) =
      if q a then (if p a then streak p (l.filter q) + 1 else 0) else streak p (l.filter q) := by
  rw [List.filter_append]
  by_cases hq : q a = true
  · rw [if_pos hq, List.filter_cons_of_pos hq, List.filter_nil, streak_concat]
  · rw [if_neg hq, List.filter_cons_of_neg hq, List.filter_nil, List.append_nil]

end Lib
