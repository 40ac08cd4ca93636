/-
HoxServer.Lib.EscapedList — a text cut into fields at a separator, with
quotes and escapes: the documented behaviour of
`boost::escaped_list_separator`, over any type of characters.

The separator does not count between two quotes, the quotes are dropped,
and an escape stands with the character after it for one character. A
text whose quote is still open at its end is accepted. What is refused
is an escape at the end of the text, and one before any other character
than the four of `unescape`.

Plain fields come back as they were written (`fieldsFrom_joined`), and
only plain fields do. The second is a matter of counting: the fields of a
text weigh at most what the text does, and less as soon as it has a quote
or an escape (`weight_le`, `not_special_of_weight`), so nothing is left
for a text that says the same in another way.
-/
import HoxServer.Lib.Machine

namespace Lib

/-! ## The separator -/

/-- The special characters. After an escape, `n` stands for `newline`. -/
structure Separator (α : Type*) where
  escape : α
  separator : α
  quote : α
  n : α
  newline : α
  separator_ne_escape : separator ≠ escape
  separator_ne_quote : separator ≠ quote

/-- `escaped_list_error`. -/
inductive EscapedListError where
  | endsWithEscape | unknownEscape
  deriving DecidableEq, Repr

namespace Separator

variable {α : Type*}

/-! ## Texts of fields -/

/-- A text of fields, each after a separator. -/
def joined (sep : Separator α) (fields : List (List α)) : List α :=
  fields.flatMap (sep.separator :: ·)

/-- The length of a text of these fields, where only the characters of `p`
count. -/
def weight (p : α → Bool) (fields : List (List α)) : Nat :=
  (fields.map fun f => f.countP p + 1).sum

/-- The characters that a text loses with its quotes and escapes count. -/
structure Counts (sep : Separator α) (p : α → Bool) : Prop where
  escape : p sep.escape = true
  separator : p sep.separator = true
  quote : p sep.quote = true
  n : p sep.n = true

/-- The characters that a text loses count, and what an escape stands for
counts no more than how it is written. -/
structure Marks [DecidableEq α] (sep : Separator α) (p : α → Bool) : Prop where
  escape : p sep.escape = true
  separator : p sep.separator = true
  quote : p sep.quote = true
  newline : p sep.newline = true → p sep.n = true

variable {sep : Separator α} {p : α → Bool} {fs : List (List α)}

@[simp] theorem joined_nil : sep.joined [] = [] := rfl

@[simp] theorem joined_cons (f : List α) :
    sep.joined (f :: fs) = sep.separator :: (f ++ sep.joined fs) := by
  simp [joined]

@[simp] theorem weight_nil : weight p [] = 0 := rfl

@[simp] theorem weight_cons (f : List α) :
    weight p (f :: fs) = f.countP p + 1 + weight p fs := by
  simp [weight]

/-- A field and the number of all fields weigh no more than they do. -/
theorem countP_add_length_le {read : List (List α)} {g : List α} (hg : g ∈ read) :
    g.countP p + read.length ≤ weight p read := by
  induction read with
  | nil => exact absurd hg List.not_mem_nil
  | cons f read ih =>
    rw [List.length_cons, weight_cons]
    have hlength : read.length ≤ weight p read := by
      simp [weight]
    rcases List.mem_cons.mp hg with rfl | hg
    · omega
    · have := ih hg
      omega

theorem Counts.joined (hp : sep.Counts p) : (sep.joined fs).countP p = weight p fs := by
  induction fs with
  | nil => simp
  | cons f fs ih =>
    simp only [joined_cons, List.countP_cons, List.countP_append, hp.separator, ih, weight_cons,
      if_true]
    omega

/-! ## Reading -/

variable [DecidableEq α]

/-- What an escape and the character after it stand for. -/
def unescape (sep : Separator α) (a : α) : Option α :=
  if a = sep.n then some sep.newline
  else if a = sep.quote then some a
  else if a = sep.separator then some a
  else if a = sep.escape then some a
  else none

/-- The fields of a text, the first of which has been read up to
`field`. -/
def fieldsFrom (sep : Separator α) :
    Bool → List α → List α → Except EscapedListError (List (List α))
  | _, field, [] => .ok [field]
  | inQuote, field, a :: text =>
    if a = sep.escape then
      match text with
      | [] => .error .endsWithEscape
      | b :: text =>
        match sep.unescape b with
        | some c => sep.fieldsFrom inQuote (field ++ [c]) text
        | none => .error .unknownEscape
    else if a = sep.separator then
      if inQuote then sep.fieldsFrom inQuote (field ++ [a]) text
      else (sep.fieldsFrom false [] text).map (field :: ·)
    else if a = sep.quote then sep.fieldsFrom (!inQuote) field text
    else sep.fieldsFrom inQuote (field ++ [a]) text

/-- The fields of a text. There are none in an empty text, and a separator
at the end is followed by one more empty field. -/
def fields (sep : Separator α) : List α → Except EscapedListError (List (List α))
  | [] => .ok []
  | a :: text => sep.fieldsFrom false [] (a :: text)

/-- Every escape of a text stands for a character. -/
def WellEscaped (sep : Separator α) : List α → Prop
  | [] => True
  | a :: text =>
    if a = sep.escape then
      match text with
      | [] => False
      | b :: text => (sep.unescape b).isSome ∧ sep.WellEscaped text
    else sep.WellEscaped text

/-- A character that stands for itself, in quotes and outside. -/
def IsPlain (sep : Separator α) (a : α) : Prop :=
  a ≠ sep.escape ∧ a ≠ sep.separator ∧ a ≠ sep.quote

instance (sep : Separator α) (a : α) : Decidable (sep.IsPlain a) :=
  inferInstanceAs (Decidable (_ ∧ _))

def Plain (sep : Separator α) (text : List α) : Prop := ∀ a ∈ text, sep.IsPlain a

instance (sep : Separator α) (text : List α) : Decidable (sep.Plain text) :=
  inferInstanceAs (Decidable (∀ a ∈ text, sep.IsPlain a))

variable {inQuote : Bool} {field text : List α}


@[simp] theorem fieldsFrom_nil : sep.fieldsFrom inQuote field [] = .ok [field] := by
  simp [fieldsFrom]

theorem fieldsFrom_plain {a : α} (h : sep.IsPlain a) :
    sep.fieldsFrom inQuote field (a :: text) = sep.fieldsFrom inQuote (field ++ [a]) text := by
  rw [fieldsFrom.eq_def]
  simp [h.1, h.2.1, h.2.2]

theorem fieldsFrom_separator :
    sep.fieldsFrom false field (sep.separator :: text) =
      (sep.fieldsFrom false [] text).map (field :: ·) := by
  rw [fieldsFrom.eq_def]
  simp [sep.separator_ne_escape]

/-! ## What is refused -/

theorem wellEscaped_cons {a : α} (h : a ≠ sep.escape) :
    sep.WellEscaped (a :: text) ↔ sep.WellEscaped text := by
  rw [WellEscaped.eq_def]
  simp [h]

theorem fieldsFrom_isOk : (∃ fields, sep.fieldsFrom inQuote field text = .ok fields) ↔
    sep.WellEscaped text := by
  fun_induction sep.fieldsFrom inQuote field text with
  | case1 => simp [WellEscaped]
  | case2 => simp [WellEscaped]
  | case3 inQuote field b text c hc ih => simp [WellEscaped, hc, ih]
  | case4 inQuote field b text hb => simp [WellEscaped, hb]
  | case5 field text hne ih => rw [ih, wellEscaped_cons hne]
  | case6 inQuote field text hq hne ih =>
    rw [wellEscaped_cons hne, ← ih]
    simp [map_eq_ok]
  | case7 inQuote field text hne _ ih => rw [ih, wellEscaped_cons hne]
  | case8 inQuote field a text hne _ _ ih => rw [ih, wellEscaped_cons hne]

/-- A text is refused exactly when one of its escapes stands for nothing. -/
theorem fields_isOk : (∃ fields, sep.fields text = .ok fields) ↔ sep.WellEscaped text := by
  cases text with
  | nil => simp [Separator.fields, WellEscaped]
  | cons a text => exact fieldsFrom_isOk

instance : Decidable (sep.WellEscaped text) :=
  match h : sep.fields text with
  | .ok fields => isTrue (fields_isOk.mp ⟨fields, h⟩)
  | .error e => isFalse fun hw => by
    obtain ⟨fields, hf⟩ := fields_isOk.mpr hw
    rw [h] at hf
    cases hf

/-! ## Plain text -/

/-- Plain text goes into the field that is being read. -/
theorem fieldsFrom_append {plain : List α} (h : sep.Plain plain) :
    sep.fieldsFrom inQuote field (plain ++ text) =
      sep.fieldsFrom inQuote (field ++ plain) text := by
  induction plain generalizing field with
  | nil => simp
  | cons a plain ih =>
    rw [List.cons_append, fieldsFrom_plain (h a List.mem_cons_self),
      ih fun b hb => h b (List.mem_cons_of_mem a hb)]
    simp

/-- **Plain fields come back.** -/
theorem fieldsFrom_joined
    (h : ∀ f ∈ fs, sep.Plain f) :
    sep.fieldsFrom false field (sep.joined fs) = .ok (field :: fs) := by
  induction fs generalizing field with
  | nil => simp
  | cons f fs ih =>
    rw [joined_cons, fieldsFrom_separator, fieldsFrom_append (h f List.mem_cons_self),
      ih fun g hg => h g (List.mem_cons_of_mem f hg)]
    simp [Except.map]

/-- There is a first field, and what has been read of it stands before the
rest of it. -/
theorem fieldsFrom_front (front : List α) :
    sep.fieldsFrom inQuote (front ++ field) text =
      (sep.fieldsFrom inQuote field text).map (List.modifyHead (front ++ ·)) := by
  fun_induction sep.fieldsFrom inQuote field text with
  | case1 => simp [Except.map]
  | case2 => simp [fieldsFrom, Except.map]
  | case3 inQuote field b text c hc ih => simp [fieldsFrom, hc, ← ih]
  | case4 inQuote field b text hb => simp [fieldsFrom, hb, Except.map]
  | case5 field text hne ih =>
    rw [fieldsFrom.eq_def]
    simp [hne, ← ih]
  | case6 inQuote field text hq hne ih =>
    rw [fieldsFrom.eq_def]
    simp only [hne, if_false, if_true, hq]
    cases sep.fieldsFrom false [] text <;> rfl
  | case7 inQuote field text hne hsep ih =>
    rw [fieldsFrom.eq_def]
    simp [hne, hsep, ← ih]
  | case8 inQuote field a text hne hsep hquote ih =>
    rw [fieldsFrom.eq_def]
    simp [hne, hsep, hquote, ← ih]

theorem fieldsFrom_cons {read : List (List α)}
    (h : sep.fieldsFrom inQuote field text = .ok read) : ∃ g gs, read = g :: gs := by
  fun_induction sep.fieldsFrom inQuote field text generalizing read with
  | case1 inQuote field =>
    cases h
    exact ⟨field, [], rfl⟩
  | case2 => cases h
  | case3 inQuote field b text c hc ih => exact ih h
  | case4 => cases h
  | case5 field text hne ih => exact ih h
  | case6 inQuote field text hq hne ih =>
    obtain ⟨gs, -, rfl⟩ := map_eq_ok.mp h
    exact ⟨field, gs, rfl⟩
  | case7 inQuote field text hne hsep ih => exact ih h
  | case8 inQuote field a text hne hsep hquote ih => exact ih h

/-- What stands before the first separator is the first field. -/
theorem head_of_fieldsFrom_joined {read : List (List α)}
    (h : sep.fieldsFrom false field (sep.joined fs) = .ok read) :
    ∃ rest, read = field :: rest := by
  cases fs with
  | nil =>
    rw [joined_nil, fieldsFrom_nil] at h
    cases h
    exact ⟨[], rfl⟩
  | cons f fs =>
    rw [joined_cons, fieldsFrom_separator] at h
    obtain ⟨rest, -, rfl⟩ := map_eq_ok.mp h
    exact ⟨rest, rfl⟩

/-! ## The weight of fields -/

theorem Counts.marks (hp : sep.Counts p) : sep.Marks p :=
  ⟨hp.escape, hp.separator, hp.quote, fun _ => hp.n⟩

/-- An escape is lost with what it is read with. -/
theorem Marks.unescape (hp : sep.Marks p) {b c : α} (h : sep.unescape b = some c) :
    [c].countP p ≤ [b].countP p := by
  by_cases hb : b = sep.n
  · have hc : c = sep.newline := by
      rw [Separator.unescape, if_pos hb] at h
      exact (Option.some.inj h).symm
    have hn := hp.newline
    rw [hb, hc, List.countP_singleton, List.countP_singleton]
    split <;> simp_all
  · have hc : c = b := by
      simp only [Separator.unescape, hb, if_false] at h
      grind
    rw [hc]

/-- The characters that are lost in reading: no more than two for each
that counts. -/
def IsSpecial (sep : Separator α) (a : α) : Bool := a = sep.escape ∨ a = sep.quote

@[simp] theorem isSpecial_separator : sep.IsSpecial sep.separator = false := by
  simp [IsSpecial, sep.separator_ne_escape, sep.separator_ne_quote]

/-- Fields weigh at most what the text of them does, less what is lost. -/
theorem Marks.weight_le (hp : sep.Marks p) {read : List (List α)}
    (h : sep.fieldsFrom inQuote field text = .ok read) :
    2 * weight p read + text.countP sep.IsSpecial ≤
      2 * (field.countP p + text.countP p + 1) := by
  fun_induction sep.fieldsFrom inQuote field text generalizing read with
  | case1 inQuote field =>
    cases h
    simp
  | case2 => cases h
  | case3 inQuote field b text c hc ih =>
    have hlost := hp.unescape hc
    have hread := ih h
    have hb : [b].countP sep.IsSpecial ≤ 1 := List.countP_le_length
    simp only [List.countP_cons, List.countP_append, List.countP_nil] at hlost hread hb ⊢
    simp only [hp.escape, IsSpecial, true_or, decide_true, if_true] at hread hb ⊢
    omega
  | case4 => cases h
  | case5 field text _ ih =>
    have hread := ih h
    simp only [List.countP_cons, List.countP_append, List.countP_nil, hp.separator,
      isSpecial_separator, if_true] at hread ⊢
    simp only [Bool.false_eq_true, if_false]
    omega
  | case6 inQuote field text _ _ ih =>
    obtain ⟨rest, hrest, rfl⟩ := map_eq_ok.mp h
    have hread := ih hrest
    simp only [List.countP_cons, List.countP_nil, hp.separator, isSpecial_separator, weight_cons,
      if_true] at hread ⊢
    simp only [Bool.false_eq_true, if_false]
    omega
  | case7 inQuote field text _ _ ih =>
    have hread := ih h
    have hq : [sep.quote].countP sep.IsSpecial ≤ 1 := List.countP_le_length
    simp only [List.countP_cons, List.countP_nil, hp.quote, if_true] at hread hq ⊢
    omega
  | case8 inQuote field a text he _ hq ih =>
    have hread := ih h
    have hnot : sep.IsSpecial a = false := by simp [IsSpecial, he, hq]
    simp only [List.countP_cons, List.countP_append, List.countP_nil, hnot] at hread ⊢
    simp only [Bool.false_eq_true, if_false]
    omega

theorem weight_le (hp : sep.Counts p) {read : List (List α)}
    (h : sep.fieldsFrom inQuote field text = .ok read) :
    2 * weight p read + text.countP sep.IsSpecial ≤
      2 * (field.countP p + text.countP p + 1) := hp.marks.weight_le h

theorem isPlain_of_not {a : α} (h : sep.IsSpecial a = false) (hs : a ≠ sep.separator) :
    sep.IsPlain a := by
  simp only [IsSpecial, decide_eq_false_iff_not, not_or] at h
  exact ⟨h.1, hs, h.2⟩

/-- Without quotes and escapes there is a field for each separator, and one
more. -/
theorem length_of_fieldsFrom {read : List (List α)} (hs : ∀ a ∈ text, sep.IsSpecial a = false)
    (h : sep.fieldsFrom false field text = .ok read) :
    read.length = text.count sep.separator + 1 := by
  induction text generalizing field read with
  | nil =>
    rw [fieldsFrom_nil] at h
    cases h
    simp
  | cons a text ih =>
    have hrest : ∀ b ∈ text, sep.IsSpecial b = false :=
      fun b hb => hs b (List.mem_cons_of_mem a hb)
    by_cases ha : a = sep.separator
    · subst ha
      rw [fieldsFrom_separator] at h
      obtain ⟨rest, hread, rfl⟩ := map_eq_ok.mp h
      simp [ih hrest hread]
    · rw [fieldsFrom_plain (isPlain_of_not (hs a List.mem_cons_self) ha)] at h
      simp [ih hrest h, ha]

theorem count_joined : (sep.joined fs).count sep.separator =
    fs.length + (fs.map fun f => f.count sep.separator).sum := by
  induction fs with
  | nil => simp
  | cons f fs ih =>
    simp [ih]
    omega

/-- **Only plain fields come back**, whatever comes back with them. -/
theorem plain_of_weight (hp : sep.Counts p) {read : List (List α)}
    (h : sep.fieldsFrom false field (sep.joined fs) = .ok (field :: read))
    (hw : weight p fs ≤ weight p read) (hl : read.length ≤ fs.length) :
    ∀ f ∈ fs, sep.Plain f := by
  -- what is read weighs as much as the text, so nothing of it was lost
  have hle := weight_le hp h
  rw [hp.joined, weight_cons] at hle
  have hnone : ∀ a ∈ sep.joined fs, sep.IsSpecial a = false := by
    have hzero : (sep.joined fs).countP sep.IsSpecial = 0 := by omega
    simpa [List.countP_eq_zero] using hzero
  -- and there is no room for more separators than those between the fields
  have hcount := length_of_fieldsFrom hnone h
  rw [count_joined, List.length_cons] at hcount
  have hsum : (fs.map fun f => f.count sep.separator).sum = 0 := by omega
  intro f hf a ha
  have hmem : a ∈ sep.joined fs := by
    simp only [joined, List.mem_flatMap]
    exact ⟨f, hf, List.mem_cons_of_mem _ ha⟩
  refine isPlain_of_not (hnone a hmem) ?_
  rintro rfl
  have hf0 : f.count sep.separator = 0 :=
    List.sum_eq_zero_iff.mp hsum _ (List.mem_map_of_mem hf)
  exact absurd ha (List.count_eq_zero.mp hf0)

/-! ## The characters that are not plain -/

/-- A character that means something to the reader. -/
def isMarked (sep : Separator α) (a : α) : Bool := !decide (sep.IsPlain a)

theorem marks_isMarked (hn : sep.IsPlain sep.newline) : sep.Marks sep.isMarked :=
  ⟨by simp [isMarked, IsPlain], by simp [isMarked, IsPlain], by simp [isMarked, IsPlain],
    fun h => by simp [isMarked, hn] at h⟩

theorem plain_iff_countP : sep.Plain text ↔ text.countP sep.isMarked = 0 := by
  simp [Plain, List.countP_eq_zero, isMarked]

/-- A text that has all its marked characters in one of its fields has
none. -/
theorem plain_of_mem {read : List (List α)} {g : List α} (hn : sep.IsPlain sep.newline)
    (hfield : sep.Plain field) (h : sep.fieldsFrom false field text = .ok read) (hg : g ∈ read)
    (hle : text.countP sep.isMarked ≤ g.countP sep.isMarked) : sep.Plain text := by
  have hweight := (marks_isMarked hn).weight_le h
  have hlength := countP_add_length_le (p := sep.isMarked) hg
  have hpos := List.length_pos_of_mem hg
  rw [plain_iff_countP.mp hfield] at hweight
  -- nothing is lost, and there is one field only
  have hspecial : ∀ a ∈ text, sep.IsSpecial a = false := by
    have hzero : text.countP sep.IsSpecial = 0 := by omega
    simpa [List.countP_eq_zero] using hzero
  have hone := length_of_fieldsFrom hspecial h
  have hcount : text.count sep.separator = 0 := by omega
  intro a ha
  refine isPlain_of_not (hspecial a ha) ?_
  rintro rfl
  exact List.count_eq_zero.mp hcount ha

end Separator

end Lib
