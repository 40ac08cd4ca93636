/-
HoxServer.Lib.IdPool — ids that are numbered, taken and given back.

A pool has ids that are in use and ids that are free. A new id is the first
free one or, where none is free, the one behind the ids in use. `Numbered`
says that the ids in use and the free ones are the first of a numbering,
each once; taking and giving back keep it, in whatever order, and an id
that is taken is not in use as long as the numbering does not come back to
an earlier one.
-/
import Mathlib.Tactic

namespace Lib

variable {ι : Type*} {name : ℕ → ι} {used used' free free' kept freed : List ι} {i : ι}

/-- The ids in use and the free ones are the first ones, in any order. -/
def Numbered (name : ℕ → ι) (used free : List ι) : Prop :=
  (used ++ free).Perm ((List.range (used.length + free.length)).map name)

namespace Numbered

theorem nil : Numbered name [] [] := List.Perm.refl _

theorem perm (h : Numbered name used free) (hused : used'.Perm used) (hfree : free'.Perm free) :
    Numbered name used' free' := by
  unfold Numbered
  rw [hused.length_eq, hfree.length_eq]
  exact (hused.append hfree).trans h

/-- A free id is taken. -/
theorem reuse (h : Numbered name used (i :: free)) : Numbered name (i :: used) free := by
  have hlength : (i :: used).length + free.length = used.length + (i :: free).length := by
    simp only [List.length_cons]
    omega
  unfold Numbered
  rw [hlength]
  exact List.perm_middle.symm.trans h

/-- No id is free: the one behind those in use is taken. -/
theorem fresh (h : Numbered name used []) : Numbered name (name used.length :: used) [] := by
  have happend : used.Perm ((List.range used.length).map name) := by
    simpa [Numbered] using h
  have hnext := (happend.cons (name used.length)).trans (List.perm_append_singleton _ _).symm
  simpa [Numbered, List.range_succ] using hnext

/-- Ids that are given back go behind the free ones. -/
theorem release (h : Numbered name used free) (hsplit : used.Perm (kept ++ freed)) :
    Numbered name kept (free ++ freed) := by
  have hlength : kept.length + (free ++ freed).length = used.length + free.length := by
    rw [hsplit.length_eq, List.length_append, List.length_append]
    omega
  have hback : (kept ++ (free ++ freed)).Perm (used ++ free) := by
    refine (List.perm_append_comm.append_left _).trans ?_
    rw [← List.append_assoc]
    exact hsplit.symm.append_right free
  unfold Numbered
  rw [hlength]
  exact hback.trans h

/-- An id of the pool is one of the first. -/
theorem exists_name (h : Numbered name used free) (hi : i ∈ used ++ free) :
    ∃ k < used.length + free.length, name k = i := by
  simpa using h.mem_iff.mp hi

theorem name_mem (h : Numbered name used free) {k : ℕ} (hk : k < used.length + free.length) :
    name k ∈ used ++ free :=
  h.mem_iff.mpr (List.mem_map_of_mem (List.mem_range.mpr hk))

/-- No id is there twice. -/
theorem nodup (h : Numbered name used free)
    (hname : Set.InjOn name (Set.Iio (used.length + free.length))) : (used ++ free).Nodup := by
  refine h.nodup_iff.mpr (List.Nodup.map_on (fun k hk l hl hkl => ?_) List.nodup_range)
  exact hname (List.mem_range.mp hk) (List.mem_range.mp hl) hkl

/-- The id behind those in use is not one of them. -/
theorem not_mem_fresh (h : Numbered name used [])
    (hname : Set.InjOn name (Set.Iio (used.length + 1))) : name used.length ∉ used := by
  intro hi
  obtain ⟨k, hk, hkn⟩ := h.exists_name (List.mem_append_left [] hi)
  simp only [List.length_nil, Nat.add_zero] at hk
  have heq := hname (Set.mem_Iio.mpr (by omega)) (Set.mem_Iio.mpr (by omega)) hkn
  omega

end Numbered

end Lib
