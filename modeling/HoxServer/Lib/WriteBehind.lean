/-
HoxServer.Lib.WriteBehind — a store that is written through a queue.

Writers hold copies of the stored values. A write is computed from such
a copy, goes to the end of a FIFO queue as an absolute value, and
replaces the stored value when its turn comes. `drained` is the store
once the queue has been worked off.

A write is fresh when the copy it was computed from is the value written
last. `Balanced` says that nothing is lost: every drained value is the
initial one plus all changes made to it. Fresh writes keep the balance
(`Balanced.pushAll`), whenever the queue is worked off, and writes to
different keys keep it only when they are fresh (`balanced_pushAll_iff`).
-/
import Mathlib.Tactic

namespace Lib

universe u v

variable {κ : Type u} {ν : Type v} [DecidableEq κ]

/-- An update in place: a key that is absent stays absent. -/
def overwrite (m : κ → Option ν) (w : κ × ν) : κ → Option ν :=
  Function.update m w.1 ((m w.1).map fun _ => w.2)

theorem overwrite_self (m : κ → Option ν) (k : κ) (v : ν) :
    overwrite m (k, v) k = (m k).map fun _ => v := by
  simp [overwrite]

theorem overwrite_ne (m : κ → Option ν) {k l : κ} (v : ν) (h : l ≠ k) :
    overwrite m (k, v) l = m l := by
  simp [overwrite, h]

/-- The stored values and the writes that wait, the oldest first. -/
structure WriteBehind (κ : Type u) (ν : Type v) where
  stored : κ → Option ν
  pending : List (κ × ν) := []

namespace WriteBehind

variable {st : WriteBehind κ ν} {k : κ} {v d base : ν}

def push (st : WriteBehind κ ν) (k : κ) (v : ν) : WriteBehind κ ν :=
  { st with pending := st.pending ++ [(k, v)] }

/-- The store once the queue has been worked off. -/
def drained (st : WriteBehind κ ν) : κ → Option ν := st.pending.foldl overwrite st.stored

theorem drained_of_empty (h : st.pending = []) : st.drained = st.stored := by
  simp [drained, h]

/-- Working off the oldest write changes nothing in the end. -/
theorem drained_overwrite {w : κ × ν} {ws : List (κ × ν)} (h : st.pending = w :: ws) :
    drained ⟨overwrite st.stored w, ws⟩ = st.drained := by
  simp [drained, h]

theorem drained_push (st : WriteBehind κ ν) (k : κ) (v : ν) :
    (st.push k v).drained = overwrite st.drained (k, v) := by
  simp [drained, push]

/-! ## Writes and the values they were computed from -/

/-- A write: the value it was computed from, the change, and the value
that had been written last. -/
structure Commit (κ : Type u) (ν : Type v) where
  key : κ
  base : ν
  change : ν
  last : Option ν

def Commit.Fresh (c : Commit κ ν) : Prop := c.last = some c.base

instance [DecidableEq ν] (c : Commit κ ν) : Decidable c.Fresh :=
  inferInstanceAs (Decidable (c.last = some c.base))

/-- The changes made, by key. -/
def changes (cs : List (Commit κ ν)) : List (κ × ν) := cs.map fun c => (c.key, c.change)

variable [AddCommGroup ν]

/-- The sum of the changes made to a key. -/
def total (cs : List (κ × ν)) (k : κ) : ν := ((cs.filter (fun c => c.1 = k)).map Prod.snd).sum

@[simp] theorem total_nil (k : κ) : total ([] : List (κ × ν)) k = 0 := by
  simp [total]

theorem total_append_self (cs : List (κ × ν)) (k : κ) (d : ν) :
    total (cs ++ [(k, d)]) k = total cs k + d := by
  simp [total]

theorem total_append_ne (cs : List (κ × ν)) {k l : κ} (d : ν) (h : k ≠ l) :
    total (cs ++ [(k, d)]) l = total cs l := by
  simp [total, h]

/-- Writes of a base and a change, one after the other. -/
def pushAll (st : WriteBehind κ ν) : List (κ × ν × ν) → WriteBehind κ ν
  | [] => st
  | (k, base, d) :: ws => (st.push k (base + d)).pushAll ws

/-- The same writes, each with the value that had been written last. -/
def commits (st : WriteBehind κ ν) : List (κ × ν × ν) → List (Commit κ ν)
  | [] => []
  | (k, base, d) :: ws => ⟨k, base, d, st.drained k⟩ :: (st.push k (base + d)).commits ws

omit [DecidableEq κ] in
theorem pushAll_eq (st : WriteBehind κ ν) (ws : List (κ × ν × ν)) :
    st.pushAll ws = { st with pending := st.pending ++ ws.map fun w => (w.1, w.2.1 + w.2.2) } := by
  induction ws generalizing st with
  | nil => simp [pushAll]
  | cons w ws ih =>
    obtain ⟨k, base, d⟩ := w
    rw [pushAll, ih]
    simp [push]

/-! ## Nothing is lost -/

/-- Every drained value is the initial one plus the changes made to it. -/
def Balanced (init : κ → Option ν) (cs : List (κ × ν)) (st : WriteBehind κ ν) : Prop :=
  ∀ k v, init k = some v → st.drained k = some (v + total cs k)

variable {init : κ → Option ν} {cs : List (κ × ν)}

theorem balanced_init (init : κ → Option ν) : Balanced init [] ⟨init, []⟩ := by
  intro k v h
  simp [drained, h]

theorem Balanced.push (h : Balanced init cs st) (hbase : st.drained k = some base) :
    Balanced init (cs ++ [(k, d)]) (st.push k (base + d)) := by
  intro l v hl
  have hv := h l v hl
  rw [drained_push]
  by_cases hlk : l = k
  · subst hlk
    have he : v + total cs l = base := Option.some.inj (hv.symm.trans hbase)
    rw [overwrite_self, hv, total_append_self, ← add_assoc, he, Option.map_some]
  · rw [overwrite_ne _ _ hlk, hv, total_append_ne _ _ (Ne.symm hlk)]

/-- Fresh writes keep the balance. -/
theorem Balanced.pushAll {ws : List (κ × ν × ν)} (h : Balanced init cs st)
    (hfresh : ∀ c ∈ st.commits ws, c.Fresh) :
    Balanced init (cs ++ changes (st.commits ws)) (st.pushAll ws) := by
  induction ws generalizing st cs with
  | nil => simpa [WriteBehind.pushAll, commits, changes] using h
  | cons w ws ih =>
    obtain ⟨k, base, d⟩ := w
    simp only [commits, List.forall_mem_cons] at hfresh
    have hpush : Balanced init (cs ++ [(k, d)]) (st.push k (base + d)) := h.push hfresh.1
    simpa [WriteBehind.pushAll, commits, changes] using ih hpush hfresh.2

theorem drained_pushAll_ne {ws : List (κ × ν × ν)} (hk : k ∉ ws.map Prod.fst) :
    (st.pushAll ws).drained k = st.drained k := by
  induction ws generalizing st with
  | nil => rfl
  | cons w ws ih =>
    obtain ⟨l, base, d⟩ := w
    rw [List.map_cons, List.mem_cons, not_or] at hk
    rw [WriteBehind.pushAll, ih hk.2, drained_push, overwrite_ne _ _ hk.1]

theorem total_append_other (cs : List (κ × ν)) {ds : List (κ × ν)} (hk : k ∉ ds.map Prod.fst) :
    total (cs ++ ds) k = total cs k := by
  have hnone : ds.filter (fun c => c.1 = k) = [] := by
    rw [List.filter_eq_nil_iff]
    intro c hc he
    exact hk (List.mem_map.mpr ⟨c, hc, by simpa using he⟩)
  simp [total, hnone]

theorem changes_commits (st : WriteBehind κ ν) (ws : List (κ × ν × ν)) :
    changes (st.commits ws) = ws.map fun w => (w.1, w.2.2) := by
  induction ws generalizing st with
  | nil => rfl
  | cons w ws ih => simpa [commits, changes] using ih (st.push w.1 (w.2.1 + w.2.2))

/-- **Writes to different keys keep the balance exactly when all are
fresh.** -/
theorem balanced_pushAll_iff {ws : List (κ × ν × ν)} (h : Balanced init cs st)
    (hnodup : (ws.map Prod.fst).Nodup) (hkeys : ∀ w ∈ ws, ∃ v, init w.1 = some v) :
    Balanced init (cs ++ changes (st.commits ws)) (st.pushAll ws) ↔
      ∀ c ∈ st.commits ws, c.Fresh := by
  refine ⟨fun hall => ?_, fun hfresh => h.pushAll hfresh⟩
  induction ws generalizing st cs with
  | nil => simp [commits]
  | cons w ws ih =>
    obtain ⟨k, base, d⟩ := w
    rw [List.map_cons, List.nodup_cons] at hnodup
    rw [List.forall_mem_cons] at hkeys
    obtain ⟨v, hv⟩ := hkeys.1
    -- the writes after the first one leave its key alone
    have hother : k ∉ (ws.map fun w => (w.1, w.2.2)).map Prod.fst := by
      simpa [Function.comp_def] using hnodup.1
    have hfirst := hall k v hv
    rw [changes_commits, List.map_cons, List.append_cons, total_append_other _ hother,
        total_append_self, WriteBehind.pushAll, drained_pushAll_ne hnodup.1, drained_push,
        overwrite_self, h k v hv, Option.map_some, ← add_assoc] at hfirst
    have hbase : st.drained k = some base := by
      rw [h k v hv, add_right_cancel (Option.some.inj hfirst)]
    have hrest : ∀ c ∈ (st.push k (base + d)).commits ws, c.Fresh := by
      refine ih (h.push (d := d) hbase) hnodup.2 hkeys.2 ?_
      simpa [commits, changes, WriteBehind.pushAll] using hall
    exact List.forall_mem_cons.mpr ⟨hbase, hrest⟩

end WriteBehind

end Lib
