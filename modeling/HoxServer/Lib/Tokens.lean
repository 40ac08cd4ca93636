/-
HoxServer.Lib.Tokens — the tokens between separators, where empty ones
are dropped, over any type of characters.

A line of fields is cut back into its fields exactly when each of them is
a token: not empty, and without the separator (`tokens_line`). An empty
field is not seen, so the fields after it are read one place too early.
-/
import HoxServer.Lib.Framing

namespace Lib

variable {α : Type*} [DecidableEq α] {sep : α} {text token : List α} {fields : List (List α)}

/-- The tokens of a text. -/
def tokens (sep : α) (text : List α) : List (List α) :=
  (text.splitOn sep).filter fun token => token ≠ []

/-- What is between two separators has none. -/
theorem not_mem_of_mem_splitOn (h : token ∈ text.splitOn sep) : sep ∉ token := by
  induction text generalizing token with
  | nil =>
    rw [List.splitOn_nil, List.mem_singleton] at h
    rw [h]
    exact List.not_mem_nil
  | cons a text ih =>
    rw [List.splitOn_cons_eq_if_modifyHead] at h
    split at h
    · rcases List.mem_cons.mp h with rfl | h
      · exact List.not_mem_nil
      · exact ih h
    · rename_i hne
      cases hparts : text.splitOn sep with
      | nil => exact absurd hparts (List.splitOn_ne_nil sep text)
      | cons part parts =>
        rw [hparts, List.modifyHead_cons] at h
        rcases List.mem_cons.mp h with rfl | h
        · have hpart : sep ∉ part := ih (hparts ▸ List.mem_cons_self)
          have hsep : sep ≠ a := fun he => hne (by simp [he])
          simp [hsep, hpart]
        · exact ih (hparts ▸ List.mem_cons_of_mem _ h)

/-- A token: not empty, and without the separator. -/
theorem of_mem_tokens (h : token ∈ tokens sep text) : token ≠ [] ∧ sep ∉ token := by
  obtain ⟨hmem, hne⟩ := List.mem_filter.mp h
  exact ⟨by simpa using hne, not_mem_of_mem_splitOn hmem⟩

theorem tokens_line_of_not_mem (h : ∀ f ∈ fields, sep ∉ f) :
    tokens sep (Framing.line sep fields) = fields.filter fun f => f ≠ [] := by
  by_cases hne : fields = []
  · subst hne
    rfl
  · unfold tokens Framing.line
    rw [List.splitOn_intercalate sep h hne]

/-- **The fields of a line are its tokens** exactly when each of them is a
token. -/
theorem tokens_line :
    tokens sep (Framing.line sep fields) = fields ↔ ∀ f ∈ fields, f ≠ [] ∧ sep ∉ f := by
  constructor
  · intro h f hf
    rw [← h] at hf
    exact of_mem_tokens hf
  · intro h
    rw [tokens_line_of_not_mem fun f hf => (h f hf).2]
    exact List.filter_eq_self.mpr fun f hf => by simpa using (h f hf).1

/-! ## Texts with other tokens after -/

variable {f : List α}

theorem tokens_append (hf : f ≠ []) (hsep : sep ∉ f) :
    tokens sep (f ++ sep :: text) = f :: tokens sep text := by
  rw [tokens, List.splitOn_append_cons_self_of_not_mem hsep, List.filter_cons,
    if_pos (by simpa using hf)]
  rfl

theorem tokens_separator : tokens sep (sep :: text) = tokens sep text := by
  have hsplit := List.splitOn_append_cons_self_of_not_mem (a := sep) List.not_mem_nil text
  rw [List.nil_append] at hsplit
  rw [tokens, hsplit, List.filter_cons, if_neg (by simp)]
  rfl

/-- Nothing but separators has no tokens. -/
theorem tokens_eq_nil_iff : tokens sep text = [] ↔ ∀ a ∈ text, a = sep := by
  induction text with
  | nil => simp [tokens]
  | cons a text ih =>
    by_cases ha : a = sep
    · subst ha
      rw [tokens_separator, ih]
      simp
    · refine iff_of_false (fun h => ?_) fun h => ha (h a List.mem_cons_self)
      rw [tokens, List.splitOn_cons_eq_if_modifyHead, if_neg (by simpa using ha)] at h
      cases hparts : text.splitOn sep with
      | nil => exact List.splitOn_ne_nil sep text hparts
      | cons part parts =>
        rw [hparts] at h
        simp at h

/-- The tokens have no more characters than the text. -/
theorem sum_countP_tokens_le (p : α → Bool) :
    ((tokens sep text).map (List.countP p)).sum ≤ text.countP p := by
  have hparts : ((text.splitOn sep).map (List.countP p)).sum ≤ text.countP p := by
    induction text with
    | nil => simp
    | cons a text ih =>
      rw [List.splitOn_cons_eq_if_modifyHead, List.countP_cons]
      split
      · simp only [List.map_cons, List.countP_nil, List.sum_cons]
        omega
      · cases hparts : text.splitOn sep with
        | nil => exact absurd hparts (List.splitOn_ne_nil sep text)
        | cons part parts =>
          rw [hparts] at ih
          simp only [List.modifyHead_cons, List.map_cons, List.countP_cons, List.sum_cons] at ih ⊢
          omega
  exact (List.Sublist.sum_le_sum (List.filter_sublist.map _) fun _ _ => Nat.zero_le _).trans hparts

/-- The characters of a token are of the text. -/
theorem mem_of_mem_tokens {a : α} (h : token ∈ tokens sep text) (ha : a ∈ token) : a ∈ text := by
  have hle : ((tokens sep text).map (List.countP fun b => decide (b = a))).sum ≤
      text.countP fun b => decide (b = a) := sum_countP_tokens_le _
  have hcount : (token.countP fun b => decide (b = a)) ∈
      (tokens sep text).map (List.countP fun b => decide (b = a)) := List.mem_map_of_mem h
  have hmem := List.single_le_sum (fun _ _ => Nat.zero_le _) _ hcount
  have hpos : 0 < token.countP fun b => decide (b = a) :=
    List.countP_pos_iff.mpr ⟨a, ha, by simp⟩
  obtain ⟨b, hb, hba⟩ := List.countP_pos_iff.mp (hpos.trans_le (hmem.trans hle))
  rwa [← of_decide_eq_true hba]

end Lib
