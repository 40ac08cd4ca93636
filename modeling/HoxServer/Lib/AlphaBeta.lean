/-
HoxServer.Lib.AlphaBeta — fail-soft alpha-beta search.

A search with the window from `α` to `β` returns a value that is right
inside of the window, and outside of it a bound on the side where it lies
(`FailSoft`). `alphaBeta` is the loop over the children of a node, which
stops at the first value from `β` on and raises `α` as it goes;
`alphaBeta_failSoft` says that it is fail-soft for the largest negated
value of a child (`largest`) if the searches of the children are.
-/
import Mathlib.Tactic

namespace Lib

/-- The result `r` of a search for the value `v`. -/
structure FailSoft (α β r v : Int) : Prop where
  upper : r < β → v ≤ r
  lower : α < r → r ≤ v

/-- A value that is inside of the window is found. -/
theorem FailSoft.eq_of_lt {α β r v : Int} (h : FailSoft α β r v) (hα : α < v) (hβ : v < β) :
    r = v := by
  have hlo : α < r := by
    by_contra hr
    have := h.upper (by omega)
    omega
  have hhi : r < β := by
    by_contra hr
    have := h.lower hlo
    omega
  exact le_antisymm (h.lower hlo) (h.upper hhi)

theorem FailSoft.refl (α β v : Int) : FailSoft α β v v := ⟨fun _ => le_rfl, fun _ => le_rfl⟩

/-- Seen from the other side. -/
theorem FailSoft.neg {α β r v : Int} (h : FailSoft (-β) (-α) r v) : FailSoft α β (-r) (-v) where
  upper hr := by
    have := h.lower (by omega)
    omega
  lower hr := by
    have := h.upper (by omega)
    omega

variable {ι : Type}

/-- The loop over the children of a node, with the best value so far. -/
def alphaBeta (search : ι → Int → Int → Int) (β : Int) : List ι → Int → Int → Int
  | [], _, best => best
  | i :: l, α, best =>
    let x := -search i (-β) (-α)
    if best < x then
      if β ≤ x then x else alphaBeta search β l (if α < x then x else α) x
    else alphaBeta search β l α best

/-- The largest negated value of the children, or `best`. -/
def largest (value : ι → Int) : List ι → Int → Int
  | [], best => best
  | i :: l, best => largest value l (max best (-value i))

/-- The order of the children does not matter. -/
theorem largest_perm {value : ι → Int} {l l' : List ι} (h : l.Perm l') (best : Int) :
    largest value l best = largest value l' best := by
  induction h generalizing best with
  | nil => rfl
  | cons i _ ih => exact ih _
  | swap i j l =>
    show largest value l _ = largest value l _
    rw [max_assoc, max_assoc, max_comm (-value j)]
  | trans _ _ ih ih' => exact (ih best).trans (ih' best)

theorem le_largest (value : ι → Int) (l : List ι) (best : Int) : best ≤ largest value l best := by
  induction l generalizing best with
  | nil => exact le_rfl
  | cons i l ih => exact (le_max_left _ _).trans (ih _)

theorem neg_le_largest {value : ι → Int} {l : List ι} {i : ι} (hi : i ∈ l) (best : Int) :
    -value i ≤ largest value l best := by
  induction l generalizing best with
  | nil => cases hi
  | cons j l ih =>
    rcases List.mem_cons.mp hi with rfl | hi
    · exact (le_max_right _ _).trans (le_largest value l _)
    · exact ih hi _

theorem largest_le {value : ι → Int} {l : List ι} {best m : Int} (hbest : best ≤ m)
    (hall : ∀ i ∈ l, -value i ≤ m) : largest value l best ≤ m := by
  induction l generalizing best with
  | nil => exact hbest
  | cons i l ih =>
    exact ih (max_le hbest (hall i List.mem_cons_self))
      fun j hj => hall j (List.mem_cons_of_mem i hj)

/-- **The loop is fail-soft.** The window started from `α₀`; `best` is so far
an upper bound of the value `B` of the children passed, and from `α₀` on
it is that value. -/
theorem alphaBeta_failSoft {search : ι → Int → Int → Int} {value : ι → Int} {α₀ β : Int}
    {l : List ι} (hsearch : ∀ i ∈ l, ∀ α, α₀ ≤ α → α < β →
      FailSoft (-β) (-α) (search i (-β) (-α)) (value i)) {α best B : Int}
    (hα : α = max α₀ best) (hαβ : α < β) (hupper : B ≤ best) (hlower : α₀ < best → best ≤ B) :
    FailSoft α₀ β (alphaBeta search β l α best) (largest value l B) := by
  induction l generalizing α best B with
  | nil => exact ⟨fun _ => hupper, hlower⟩
  | cons i l ih =>
    have hi := (hsearch i List.mem_cons_self α (by omega) hαβ).neg
    have hrest := fun j hj => hsearch j (List.mem_cons_of_mem i hj)
    unfold alphaBeta largest
    dsimp only
    generalize -search i (-β) (-α) = x at hi
    split
    · rename_i hbest
      split
      · rename_i hcut
        -- cut off: the value of the node is at least that of this child
        refine ⟨fun hlt => absurd hcut (by omega), fun _ => ?_⟩
        exact (hi.lower (by omega)).trans ((le_max_right _ _).trans (le_largest value l _))
      · rename_i hcut
        have hle := hi.upper (by omega)
        refine ih hrest ?_ ?_ ?_ ?_
        · split <;> omega
        · split <;> omega
        · omega
        · intro hx
          have hge := hi.lower (by omega)
          omega
    · rename_i hbest
      have hle := hi.upper (by omega)
      refine ih hrest hα hαβ ?_ ?_
      · omega
      · intro hx
        exact (hlower hx).trans (le_max_left _ _)

end Lib
