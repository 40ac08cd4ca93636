/-
HoxServer.Lib.Incremental — a total that is kept up to date while the
things it counts are put down and taken away.

Things stand on places, and a thing on a place has a worth in a
commutative group. `total` is the sum over the places, and the lemmas say
what putting something on a place, or taking it away, adds to it, so that
a program which adds the same to a number of its own keeps that number
equal to the total.
-/
import Mathlib.Algebra.BigOperators.Group.Finset.Basic
import Mathlib.Algebra.BigOperators.Group.Finset.Piecewise
import Mathlib.Tactic.Abel

namespace Lib

variable {ι β A : Type*} [AddCommGroup A]

/-- The worth of all that stands on the places `s`. -/
def total (worth : ι → β → A) (s : Finset ι) (f : ι → β) : A := ∑ i ∈ s, worth i (f i)

variable {worth : ι → β → A} {s : Finset ι} {f : ι → β} {i : ι} {b blank : β}

/-- Nothing is worth nothing. -/
theorem total_blank (hblank : ∀ i, worth i blank = 0) (hf : ∀ i ∈ s, f i = blank) :
    total worth s f = 0 := by
  refine Finset.sum_eq_zero fun i hi => ?_
  rw [hf i hi, hblank]

variable [DecidableEq ι]

theorem total_update (hi : i ∈ s) :
    total worth s (Function.update f i b) = total worth s f - worth i (f i) + worth i b := by
  have hout : ∀ g : ι → β, total worth s g = worth i (g i) + ∑ j ∈ s.erase i, worth j (g j) :=
    fun g => (Finset.add_sum_erase s (fun j => worth j (g j)) hi).symm
  rw [hout, hout f, Function.update_self]
  have hrest : ∑ j ∈ s.erase i, worth j (Function.update f i b j) =
      ∑ j ∈ s.erase i, worth j (f j) := by
    refine Finset.sum_congr rfl fun j hj => ?_
    rw [Function.update_of_ne (Finset.ne_of_mem_erase hj)]
  rw [hrest]
  abel

/-- Something is put on a place that is free. -/
theorem total_put (hi : i ∈ s) (hblank : ∀ i, worth i blank = 0) (hfree : f i = blank) :
    total worth s (Function.update f i b) = total worth s f + worth i b := by
  rw [total_update hi, hfree, hblank, sub_zero]

/-- What stands on a place is taken away. -/
theorem total_take (hi : i ∈ s) (hblank : ∀ i, worth i blank = 0) :
    total worth s (Function.update f i blank) = total worth s f - worth i (f i) := by
  rw [total_update hi, hblank, add_zero]

end Lib
