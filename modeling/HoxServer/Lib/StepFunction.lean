/-
HoxServer.Lib.StepFunction — a function given by a table of steps: the
value at a point is that of the first row in a list that applies there.

Where the values grow along the list in the other direction and a row
that applies at a point applies at all points above, the function is
monotone, whatever the rows are.
-/
import Mathlib.Tactic

namespace Lib

variable {α β : Type*} [Preorder β] {l : List α} {p q : α → Bool} {f : α → β} {a b : α}

/-- **Where more rows apply, an earlier one is found.** -/
theorem le_of_find? (hl : l.Pairwise fun a b => f b ≤ f a) (hpq : ∀ a ∈ l, p a → q a)
    (ha : l.find? p = some a) (hb : l.find? q = some b) : f a ≤ f b := by
  induction l with
  | nil => simp at ha
  | cons c l ih =>
    obtain ⟨hc, hrest⟩ := List.pairwise_cons.mp hl
    by_cases hqc : q c
    · -- the first row is found for `q`, and it has the greatest value
      rw [List.find?_cons_of_pos hqc] at hb
      cases hb
      rcases List.mem_cons.mp (List.mem_of_find?_eq_some ha) with rfl | ha
      · exact le_refl _
      · exact hc a ha
    · have hpc : ¬ p c := mt (hpq c List.mem_cons_self) hqc
      rw [List.find?_cons_of_neg hpc] at ha
      rw [List.find?_cons_of_neg hqc] at hb
      exact ih hrest (fun a ha => hpq a (List.mem_cons_of_mem c ha)) ha hb

/-- Where more rows apply and the values grow along the list. -/
theorem ge_of_find? (hl : l.Pairwise fun a b => f a ≤ f b) (hpq : ∀ a ∈ l, p a → q a)
    (ha : l.find? p = some a) (hb : l.find? q = some b) : f b ≤ f a :=
  @le_of_find? α βᵒᵈ _ l p q f a b hl hpq ha hb

end Lib
