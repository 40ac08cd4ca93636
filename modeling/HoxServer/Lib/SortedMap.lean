/-
HoxServer.Lib.SortedMap — a map as the list of its entries in the order
of their keys, as a `std::map` is iterated.

The order is a strict one that compares any two keys. Putting the
entries of a map into an empty one, in their order, gives the map back
(`setAll_entries`).
-/
import Mathlib.Tactic

namespace Lib

/-- The entries of a map, one for each key, in the order of the keys. -/
structure SortedMap (κ β : Type*) [LT κ] where
  entries : List (κ × β)
  sorted : entries.Pairwise fun e e' => e.1 < e'.1
  deriving DecidableEq

namespace SortedMap

variable {κ β : Type*} [LT κ]

@[ext] theorem ext {m m' : SortedMap κ β} (h : m.entries = m'.entries) : m = m' := by
  cases m
  cases m'
  simpa using h

/-- A map without entries. -/
def empty : SortedMap κ β := ⟨[], List.Pairwise.nil⟩

@[simp] theorem entries_empty : (empty : SortedMap κ β).entries = [] := rfl

theorem nodup [Std.Irrefl (α := κ) (· < ·)] (m : SortedMap κ β) : m.entries.Nodup := by
  refine m.sorted.imp fun {e e'} hlt he => ?_
  rw [he] at hlt
  exact Std.Irrefl.irrefl e'.1 hlt

/-- The keys, in their order. -/
def keys (m : SortedMap κ β) : List κ := m.entries.map Prod.fst

theorem nodup_keys [Std.Irrefl (α := κ) (· < ·)] (m : SortedMap κ β) : m.keys.Nodup := by
  refine List.pairwise_map.mpr (m.sorted.imp fun {e e'} hlt he => ?_)
  rw [he] at hlt
  exact Std.Irrefl.irrefl e'.1 hlt

/-- A key has one entry. -/
theorem eq_of_key [Std.Irrefl (α := κ) (· < ·)] {m : SortedMap κ β} {e e' : κ × β}
    (he : e ∈ m.entries) (he' : e' ∈ m.entries) (h : e.1 = e'.1) : e = e' :=
  List.inj_on_of_nodup_map m.nodup_keys he he' h

variable [DecidableEq κ]

/-- The value of a key, if it has one. -/
def get? (m : SortedMap κ β) (k : κ) : Option β :=
  (m.entries.find? fun e => e.1 = k).map (·.2)

theorem mem_of_get? {m : SortedMap κ β} {k : κ} {v : β} (h : m.get? k = some v) :
    (k, v) ∈ m.entries := by
  obtain ⟨e, he, rfl⟩ := Option.map_eq_some_iff.mp h
  have hk : e.1 = k := by simpa using List.find?_some he
  rw [← hk]
  exact List.mem_of_find?_eq_some he

theorem get?_of_mem [Std.Irrefl (α := κ) (· < ·)] {m : SortedMap κ β} {k : κ} {v : β}
    (h : (k, v) ∈ m.entries) : m.get? k = some v := by
  have hfound : (m.entries.find? fun e => e.1 = k).isSome = true :=
    List.find?_isSome.mpr ⟨(k, v), h, by simp⟩
  obtain ⟨e, he⟩ := Option.isSome_iff_exists.mp hfound
  have hk : e.1 = k := by simpa using List.find?_some he
  rw [get?, he, eq_of_key (List.mem_of_find?_eq_some he) h hk]
  rfl

theorem get?_eq_none {m : SortedMap κ β} {k : κ} : m.get? k = none ↔ k ∉ m.keys := by
  simp only [get?, keys, Option.map_eq_none_iff, List.find?_eq_none, decide_eq_true_eq,
    List.mem_map, not_exists, not_and]

/-- The map without a key. -/
def erase (m : SortedMap κ β) (k : κ) : SortedMap κ β :=
  ⟨m.entries.filter fun e => decide (e.1 ≠ k), m.sorted.filter _⟩

theorem keys_erase [Std.Irrefl (α := κ) (· < ·)] {m : SortedMap κ β} {k : κ} (h : k ∈ m.keys) :
    m.keys.Perm ((m.erase k).keys ++ [k]) := by
  have herase : (m.erase k).keys = m.keys.erase k := by
    rw [m.nodup_keys.erase_eq_filter, erase, keys, keys, List.filter_map]
    congr 1
    refine List.filter_congr fun e _ => ?_
    rw [Function.comp_apply, bne, decide_not, beq_eq_decide]
  rw [herase]
  exact (List.perm_cons_erase h).trans (List.perm_append_singleton k _).symm

variable [DecidableLT κ]

/-- The entries with the value of a key set. -/
def insert (k : κ) (v : β) : List (κ × β) → List (κ × β)
  | [] => [(k, v)]
  | e :: entries =>
    if k < e.1 then (k, v) :: e :: entries
    else if k = e.1 then (k, v) :: entries
    else e :: insert k v entries

theorem mem_insert {k : κ} {v : β} {e : κ × β} {entries : List (κ × β)}
    (h : e ∈ insert k v entries) : e = (k, v) ∨ e ∈ entries := by
  induction entries with
  | nil => simpa [insert] using h
  | cons e' entries ih =>
    rw [insert] at h
    split at h
    · simpa using h
    · split at h
      · exact (List.mem_cons.mp h).imp_right (List.mem_cons_of_mem e')
      · rcases List.mem_cons.mp h with rfl | h
        · exact Or.inr List.mem_cons_self
        · exact (ih h).imp_right (List.mem_cons_of_mem e')

/-- A key above all others goes to the end. -/
theorem insert_of_lt [Std.Asymm (α := κ) (· < ·)] {k : κ} {v : β} {entries : List (κ × β)} (h : ∀ e ∈ entries, e.1 < k) :
    insert k v entries = entries ++ [(k, v)] := by
  induction entries with
  | nil => simp [insert]
  | cons e entries ih =>
    have hlt : e.1 < k := h e List.mem_cons_self
    have hne : k ≠ e.1 := fun he => Std.Asymm.asymm _ _ (he ▸ hlt) (he ▸ hlt)
    rw [insert, if_neg (Std.Asymm.asymm _ _ hlt), if_neg hne,
      ih fun e' he' => h e' (List.mem_cons_of_mem e he')]
    rfl

theorem insert_perm {k : κ} {v : β} {entries : List (κ × β)} (h : k ∉ entries.map Prod.fst) :
    (insert k v entries).Perm ((k, v) :: entries) := by
  induction entries with
  | nil => exact List.Perm.refl _
  | cons e entries ih =>
    rw [List.map_cons, List.mem_cons, not_or] at h
    rw [insert]
    split
    · exact List.Perm.refl _
    · rw [if_neg h.1]
      exact ((ih h.2).cons e).trans (List.Perm.swap _ _ _)

theorem mem_insert_self {k : κ} {v : β} {entries : List (κ × β)} :
    (k, v) ∈ insert k v entries := by
  induction entries with
  | nil => exact List.mem_cons_self
  | cons e entries ih =>
    rw [insert]
    split
    · exact List.mem_cons_self
    · split
      · exact List.mem_cons_self
      · exact List.mem_cons_of_mem e ih

/-- The entries of the other keys stay. -/
theorem mem_insert_of_ne {k : κ} {v : β} {e : κ × β} {entries : List (κ × β)}
    (h : e ∈ entries) (hne : e.1 ≠ k) : e ∈ insert k v entries := by
  induction entries with
  | nil => exact absurd h List.not_mem_nil
  | cons e' entries ih =>
    rw [insert]
    split
    · exact List.mem_cons_of_mem _ h
    · split
      · rename_i hk
        rcases List.mem_cons.mp h with rfl | h
        · exact absurd hk.symm hne
        · exact List.mem_cons_of_mem _ h
      · rcases List.mem_cons.mp h with rfl | h
        · exact List.mem_cons_self
        · exact List.mem_cons_of_mem e' (ih h)

variable [IsTrans κ (· < ·)] [Std.Trichotomous (α := κ) (· < ·)]

theorem sorted_insert {k : κ} {v : β} {entries : List (κ × β)}
    (h : entries.Pairwise fun e e' => e.1 < e'.1) :
    (insert k v entries).Pairwise fun e e' => e.1 < e'.1 := by
  induction entries with
  | nil => simp [insert]
  | cons e entries ih =>
    obtain ⟨hlt, hsorted⟩ := List.pairwise_cons.mp h
    rw [insert]
    split
    · rename_i hk
      refine List.pairwise_cons.mpr ⟨fun e' he' => ?_, h⟩
      rcases List.mem_cons.mp he' with rfl | he'
      · exact hk
      · exact IsTrans.trans _ _ _ hk (hlt e' he')
    · split
      · rename_i hk
        exact List.pairwise_cons.mpr ⟨fun e' he' => hk ▸ hlt e' he', hsorted⟩
      · rename_i hnot hne
        refine List.pairwise_cons.mpr ⟨fun e' he' => ?_, ih hsorted⟩
        rcases mem_insert he' with rfl | he'
        · by_contra hge
          exact hne (Std.Trichotomous.trichotomous k e.1 hnot hge)
        · exact hlt e' he'

/-- `operator[]` and an assignment. -/
def set (m : SortedMap κ β) (k : κ) (v : β) : SortedMap κ β :=
  ⟨insert k v m.entries, sorted_insert m.sorted⟩

theorem mem_set_self {m : SortedMap κ β} {k : κ} {v : β} : (k, v) ∈ (m.set k v).entries :=
  mem_insert_self

/-- What a map has after a key is set. -/
theorem mem_set [Std.Irrefl (α := κ) (· < ·)] {m : SortedMap κ β} {k : κ} {v : β} {e : κ × β} :
    e ∈ (m.set k v).entries ↔ e = (k, v) ∨ e ∈ m.entries ∧ e.1 ≠ k := by
  constructor
  · intro he
    by_cases hk : e.1 = k
    · exact Or.inl (eq_of_key he mem_set_self hk)
    · exact Or.inr ⟨(mem_insert he).resolve_left fun h => hk (by rw [h]), hk⟩
  · rintro (rfl | ⟨he, hne⟩)
    · exact mem_set_self
    · exact mem_insert_of_ne he hne

/-- A key that is set has its new value, and every other key the old one. -/
theorem get?_set [Std.Irrefl (α := κ) (· < ·)] {m : SortedMap κ β} {k k' : κ} {v : β} :
    (m.set k v).get? k' = if k' = k then some v else m.get? k' := by
  split
  · rename_i hk
    rw [hk]
    exact get?_of_mem mem_set_self
  · rename_i hk
    cases hget : m.get? k' with
    | none =>
      rw [get?_eq_none] at hget ⊢
      intro hmem
      obtain ⟨e, he, rfl⟩ := List.mem_map.mp hmem
      rcases mem_set.mp he with rfl | ⟨he, -⟩
      · exact hk rfl
      · exact hget (List.mem_map_of_mem he)
    | some v' => exact get?_of_mem (mem_set.mpr (Or.inr ⟨mem_of_get? hget, hk⟩))

/-- A new key is put among the others. -/
theorem keys_set_of_not_mem {m : SortedMap κ β} {k : κ} {v : β} (h : k ∉ m.keys) :
    (m.set k v).keys.Perm (k :: m.keys) :=
  (insert_perm h).map Prod.fst

/-- The value of a key is replaced. -/
theorem keys_set_of_mem [Std.Irrefl (α := κ) (· < ·)] {m : SortedMap κ β} {k : κ} {v : β}
    (h : k ∈ m.keys) : (m.set k v).keys.Perm m.keys := by
  refine (List.perm_ext_iff_of_nodup (nodup_keys _) m.nodup_keys).mpr fun k' => ?_
  constructor
  · intro hk'
    obtain ⟨e, he, rfl⟩ := List.mem_map.mp hk'
    rcases mem_set.mp he with rfl | ⟨he, -⟩
    · exact h
    · exact List.mem_map_of_mem he
  · intro hk'
    by_cases hk : k' = k
    · exact List.mem_map.mpr ⟨(k, v), mem_set_self, hk.symm⟩
    · obtain ⟨e, he, rfl⟩ := List.mem_map.mp hk'
      exact List.mem_map_of_mem (mem_set.mpr (Or.inr ⟨he, hk⟩))

/-- The values of keys set one after another. -/
def setAll (m : SortedMap κ β) (entries : List (κ × β)) : SortedMap κ β :=
  entries.foldl (fun m e => m.set e.1 e.2) m

theorem entries_setAll [Std.Asymm (α := κ) (· < ·)] {m : SortedMap κ β} {entries : List (κ × β)}
    (h : (m.entries ++ entries).Pairwise fun e e' => e.1 < e'.1) :
    (m.setAll entries).entries = m.entries ++ entries := by
  induction entries generalizing m with
  | nil => simp [setAll]
  | cons e entries ih =>
    have hlt : ∀ e' ∈ m.entries, e'.1 < e.1 := fun e' he' =>
      (List.pairwise_append.mp h).2.2 e' he' e List.mem_cons_self
    have hset : (m.set e.1 e.2).entries = m.entries ++ [e] := insert_of_lt hlt
    have happend : (m.entries ++ [e]) ++ entries = m.entries ++ e :: entries := by simp
    rw [← happend, ← hset] at h
    rw [← happend, ← hset]
    exact ih h

/-- The entries of a map, put in again. -/
theorem setAll_entries [Std.Asymm (α := κ) (· < ·)] (m : SortedMap κ β) : empty.setAll m.entries = m :=
  ext (entries_setAll (by simpa using m.sorted))

end SortedMap

end Lib
