/-
HoxServer.Lib.Framing — messages that end with a double newline, over any
type of characters and any newline.

A message is `Terminated` when the double newline is at its end and
nowhere else. A text is often made of lines, each of them fields with a
separator between; `blank_text` says what such fields are, if there is no
double newline in the lines: none of them has one, the
last one of a line does not end with a newline, and the first one of a
line, unless it is the first line, does not begin with one.
-/
import Mathlib.Tactic

namespace Lib.Framing

variable {α : Type*} {nl sep : α} {l l' : List α}

/-! ## Double newlines -/

/-- Somewhere in the text there are two newlines, one after the other. -/
def Blank (nl : α) (l : List α) : Prop := [nl, nl] <:+: l

instance [DecidableEq α] (nl : α) (l : List α) : Decidable (Blank nl l) :=
  inferInstanceAs (Decidable ([nl, nl] <:+: l))

@[simp] theorem not_blank_nil : ¬ Blank nl [] := by simp [Blank]

theorem blank_cons {a : α} :
    Blank nl (a :: l) ↔ (a = nl ∧ l.head? = some nl) ∨ Blank nl l := by
  rw [Blank, List.infix_cons_iff]
  refine or_congr_left ?_
  cases l with
  | nil => simp
  | cons b l => simp [List.cons_prefix_cons, eq_comm]

theorem blank_append_cons {a : α} (h : a ≠ nl) :
    Blank nl (l ++ a :: l') ↔ Blank nl l ∨ Blank nl l' := by
  induction l with
  | nil => simp [blank_cons, h]
  | cons b l ih =>
    rw [List.cons_append, blank_cons, ih, blank_cons (l := l), ← or_assoc]
    cases l with
    | nil => simp [h]
    | cons c l => simp

theorem blank_append_newline :
    Blank nl (l ++ nl :: l') ↔ Blank nl (l ++ [nl]) ∨ Blank nl (nl :: l') := by
  induction l with
  | nil => simp [blank_cons]
  | cons b l ih =>
    rw [List.cons_append, blank_cons, ih, List.cons_append, blank_cons (l := l ++ [nl]),
      ← or_assoc]
    cases l with
    | nil => simp
    | cons c l => simp

theorem blank_concat : Blank nl (l ++ [nl]) ↔ Blank nl l ∨ l.getLast? = some nl := by
  induction l with
  | nil => simp [blank_cons]
  | cons b l ih =>
    rw [List.cons_append, blank_cons, ih, blank_cons]
    cases l with
    | nil => simp
    | cons c l => simp [or_assoc]

theorem blank_append_left (h : nl ∉ l) : Blank nl (l ++ l') ↔ Blank nl l' := by
  induction l with
  | nil => simp
  | cons a l ih =>
    obtain ⟨ha, hl⟩ := not_or.mp (mt List.mem_cons.mpr h)
    rw [List.cons_append, blank_cons, ih hl]
    simp [Ne.symm ha]

/-- The double newline stands at the end of a text, and nowhere else. -/
def Terminated (nl : α) (l : List α) : Prop :=
  ∃ message, l = message ++ [nl, nl] ∧ ¬ Blank nl (message ++ [nl])

/-! ## Lines of fields -/

/-- A line without its newline. -/
def line (sep : α) (fields : List (List α)) : List α := [sep].intercalate fields

/-- Lines, each with its newline. -/
def text (sep nl : α) (lines : List (List (List α))) : List α :=
  lines.flatMap fun fields => line sep fields ++ [nl]

@[simp] theorem line_singleton (f : List α) : line sep [f] = f := by
  simp [line]

@[simp] theorem line_cons_cons (f g : List α) (fields : List (List α)) :
    line sep (f :: g :: fields) = f ++ sep :: line sep (g :: fields) := by
  simp [line, List.intercalate]

/-- Fields that make a line without double newlines. -/
structure CleanLine (nl : α) (fields : List (List α)) : Prop where
  clean : ∀ f ∈ fields, ¬ Blank nl f
  last : ∀ f ∈ fields.getLast?, f.getLast? ≠ some nl

/-- Fields of a line that does not begin with a newline. -/
def StartsClean (nl : α) (fields : List (List α)) : Prop := ∀ f ∈ fields.head?, f.head? ≠ some nl

/-- Fields of lines without double newlines. -/
def CleanLines (nl : α) : List (List (List α)) → Prop
  | [] => True
  | fields :: lines =>
    CleanLine nl fields ∧ ∀ fields ∈ lines, CleanLine nl fields ∧ StartsClean nl fields

instance [DecidableEq α] (nl : α) (fields : List (List α)) : Decidable (CleanLine nl fields) :=
  decidable_of_iff ((∀ f ∈ fields, ¬ Blank nl f) ∧ ∀ f ∈ fields.getLast?, f.getLast? ≠ some nl)
    ⟨fun h => ⟨h.1, h.2⟩, fun h => ⟨h.clean, h.last⟩⟩

instance [DecidableEq α] (nl : α) (fields : List (List α)) : Decidable (StartsClean nl fields) :=
  inferInstanceAs (Decidable (∀ f ∈ fields.head?, f.head? ≠ some nl))

instance [DecidableEq α] (nl : α) : DecidablePred (CleanLines nl)
  | [] => isTrue trivial
  | fields :: lines => inferInstanceAs (Decidable (CleanLine nl fields ∧
      ∀ fields ∈ lines, CleanLine nl fields ∧ StartsClean nl fields))

theorem blank_line {fields : List (List α)} (hsep : sep ≠ nl) (hne : fields ≠ []) :
    ¬ Blank nl (line sep fields ++ [nl]) ↔ CleanLine nl fields := by
  match fields with
  | [] => exact absurd rfl hne
  | [f] =>
    rw [line_singleton, blank_concat, not_or]
    exact ⟨fun h => ⟨by simpa using h.1, by simpa using h.2⟩,
      fun h => ⟨by simpa using h.clean, by simpa using h.last⟩⟩
  | f :: g :: fields =>
    have ih := blank_line hsep (List.cons_ne_nil g fields)
    rw [line_cons_cons, List.append_assoc, List.cons_append, blank_append_cons hsep, not_or, ih]
    exact ⟨fun h => ⟨List.forall_mem_cons.mpr ⟨h.1, h.2.clean⟩, by simpa using h.2.last⟩,
      fun h => ⟨h.clean f List.mem_cons_self,
        (List.forall_mem_cons.mp h.clean).2, by simpa using h.last⟩⟩

theorem head?_line {fields : List (List α)} (hsep : sep ≠ nl) (htwo : 2 ≤ fields.length) :
    (line sep fields ++ l).head? ≠ some nl ↔ StartsClean nl fields := by
  match fields with
  | [] => simp at htwo
  | [f] => simp at htwo
  | f :: g :: fields =>
    cases f with
    | nil => simp [StartsClean, hsep]
    | cons a f => simp [StartsClean]

theorem blank_newline_text {lines : List (List (List α))} (hsep : sep ≠ nl)
    (htwo : ∀ fields ∈ lines, 2 ≤ fields.length) : ¬ Blank nl (nl :: text sep nl lines) ↔
    ∀ fields ∈ lines, CleanLine nl fields ∧ StartsClean nl fields := by
  induction lines with
  | nil => simp [text, blank_cons]
  | cons fields lines ih =>
    have htwo' := htwo fields List.mem_cons_self
    have hne : fields ≠ [] := by
      rintro rfl
      simp at htwo'
    have hcons : nl :: text sep nl (fields :: lines) =
        (nl :: line sep fields) ++ nl :: text sep nl lines := by
      simp [text]
    rw [hcons, blank_append_newline, List.cons_append, blank_cons, not_or, not_or,
      blank_line hsep hne, ih fun f hf => htwo f (List.mem_cons_of_mem fields hf),
      List.forall_mem_cons]
    simp only [true_and]
    rw [← ne_eq, head?_line hsep htwo', and_comm (a := StartsClean nl fields)]

/-- **Lines without a double newline.** -/
theorem blank_text {lines : List (List (List α))} (hsep : sep ≠ nl)
    (hne : ∀ fields ∈ lines, fields ≠ []) (htwo : ∀ fields ∈ lines.tail, 2 ≤ fields.length) :
    ¬ Blank nl (text sep nl lines) ↔ CleanLines nl lines := by
  cases lines with
  | nil => simp [text, CleanLines]
  | cons fields lines =>
    rw [List.tail_cons] at htwo
    have hcons : text sep nl (fields :: lines) = line sep fields ++ nl :: text sep nl lines := by
      simp [text]
    rw [hcons, blank_append_newline, not_or, blank_line hsep (hne fields List.mem_cons_self),
      blank_newline_text hsep htwo]
    rfl

theorem text_concat {lines : List (List (List α))} (hne : lines ≠ []) :
    ∃ body, text sep nl lines = body ++ [nl] := by
  refine ⟨text sep nl lines.dropLast ++ line sep (lines.getLast hne), ?_⟩
  have happend : lines.dropLast ++ [lines.getLast hne] = lines := List.dropLast_concat_getLast hne
  have htext : text sep nl (lines.dropLast ++ [lines.getLast hne]) =
      text sep nl lines.dropLast ++ line sep (lines.getLast hne) ++ [nl] := by
    simp [text]
  rwa [happend] at htext

theorem length_line (s : α) {fields : List (List α)} (hne : fields ≠ []) :
    (line s fields).length + 1 = (fields.map fun f => f.length + 1).sum := by
  match fields with
  | [] => exact absurd rfl hne
  | [f] => simp
  | f :: g :: fields =>
    have ih := length_line s (List.cons_ne_nil g fields)
    rw [line_cons_cons, List.map_cons, List.sum_cons, ← ih, List.length_append, List.length_cons]
    omega

theorem length_text {lines : List (List (List α))} (hne : ∀ fields ∈ lines, fields ≠ []) :
    (text sep nl lines).length =
      (lines.map fun fields => (fields.map fun f => f.length + 1).sum).sum := by
  induction lines with
  | nil => simp [text]
  | cons fields lines ih =>
    have hline := length_line sep (hne fields List.mem_cons_self)
    have hcons : text sep nl (fields :: lines) = line sep fields ++ nl :: text sep nl lines := by
      simp [text]
    rw [hcons, List.map_cons, List.sum_cons, ← hline,
      ← ih fun f hf => hne f (List.mem_cons_of_mem fields hf), List.length_append,
      List.length_cons]
    omega

end Lib.Framing
