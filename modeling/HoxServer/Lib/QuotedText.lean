/-
HoxServer.Lib.QuotedText — a text with quoted literals, cut into tokens,
over any type of characters.

A literal runs from a quote to the next unpaired one, and two quotes in it
denote one. How the text outside is cut is a parameter: a state machine
that says what a character adds, and in which states a quote opens a
literal. The text ends at its first `nul`.

A text that is put together from fixed parts and quoted values has the
tokens that it is meant to have exactly when there is neither a quote nor
a `nul` in the values (`tokens_text`). Nothing can make up for a quote:
each literal shows two of them for one, so it cannot say the value that it
was made from.
-/
import Mathlib.Data.List.TakeWhile

namespace Lib

/-- How the text outside the literals is read. -/
structure Lexer (α τ σ : Type*) where
  quote : α
  nul : α
  nul_ne_quote : nul ≠ quote
  start : σ
  /-- A character that opens no literal. -/
  step : σ → α → List τ × σ
  /-- The tokens that a quote ends, where it opens a literal. -/
  opens : σ → Option (List τ)
  /-- The tokens that the end of the text ends, where the text may end. -/
  finish : σ → Option (List τ)

namespace Lexer

inductive Token (α τ : Type*) where
  | plain (t : τ)
  | literal (value : List α)
  deriving DecidableEq, Repr

/-- Where the reader is: outside a literal, inside one, or after a quote that
may end it. -/
inductive Mode (α σ : Type*) where
  | outside (s : σ)
  | inside (value : List α)
  | closing (value : List α)
  deriving DecidableEq

variable {α τ σ : Type*} [DecidableEq α]

/-- A character outside the literals. -/
def readOutside (lexer : Lexer α τ σ) (s : σ) (a : α) : List (Token α τ) × Mode α σ :=
  if a = lexer.quote ∧ (lexer.opens s).isSome then
    (((lexer.opens s).getD []).map .plain, .inside [])
  else ((lexer.step s a).1.map .plain, .outside (lexer.step s a).2)

/-- A character. -/
def read (lexer : Lexer α τ σ) : Mode α σ → α → List (Token α τ) × Mode α σ
  | .outside s, a => lexer.readOutside s a
  | .inside value, a =>
    if a = lexer.quote then ([], .closing value) else ([], .inside (value ++ [a]))
  | .closing value, a =>
    if a = lexer.quote then ([], .inside (value ++ [a]))
    else (.literal value :: (lexer.readOutside lexer.start a).1,
      (lexer.readOutside lexer.start a).2)

/-- The tokens that the end of the text ends; a literal must be closed. -/
def close (lexer : Lexer α τ σ) : Mode α σ → Option (List (Token α τ))
  | .outside s => (lexer.finish s).map (List.map .plain)
  | .inside _ => none
  | .closing value =>
    (lexer.finish lexer.start).map fun tokens => .literal value :: tokens.map .plain

/-- The tokens of a text from here on. -/
def tokensFrom (lexer : Lexer α τ σ) : Mode α σ → List α → Option (List (Token α τ))
  | mode, [] => lexer.close mode
  | mode, a :: text =>
    (lexer.tokensFrom (lexer.read mode a).2 text).map ((lexer.read mode a).1 ++ ·)

/-- The tokens of a first part of a text, and where the reader is after it. -/
def run (lexer : Lexer α τ σ) : Mode α σ → List α → List (Token α τ) × Mode α σ
  | mode, [] => ([], mode)
  | mode, a :: text =>
    ((lexer.read mode a).1 ++ (lexer.run (lexer.read mode a).2 text).1,
      (lexer.run (lexer.read mode a).2 text).2)

/-- What there is of a text before its first `nul`. -/
def cText (lexer : Lexer α τ σ) (text : List α) : List α := text.takeWhile fun a => a ≠ lexer.nul

/-- The tokens of a text; `none` when a literal is not closed. -/
def tokens (lexer : Lexer α τ σ) (text : List α) : Option (List (Token α τ)) :=
  lexer.tokensFrom (.outside lexer.start) (lexer.cText text)

/-- A value as it is written between quotes: each quote twice. -/
def encode (lexer : Lexer α τ σ) : List α → List α
  | [] => []
  | a :: value =>
    if a = lexer.quote then a :: a :: lexer.encode value else a :: lexer.encode value

/-! ## Reading a literal -/

variable {lexer : Lexer α τ σ} {input rest value u : List α} {a : α} {mode : Mode α σ}
  {tokens : List (Token α τ)}

theorem tokensFrom_append (mode : Mode α σ) :
    lexer.tokensFrom mode (input ++ rest) =
      (lexer.tokensFrom (lexer.run mode input).2 rest).map ((lexer.run mode input).1 ++ ·) := by
  induction input generalizing mode with
  | nil => simp [run]
  | cons a input ih =>
    rw [List.cons_append, tokensFrom, ih, run, Option.map_map]
    congr 1
    funext tokens
    simp

/-- What has no quote is in the literal. -/
theorem tokensFrom_inside (h : lexer.quote ∉ value) :
    lexer.tokensFrom (.inside u) (value ++ rest) = lexer.tokensFrom (.inside (u ++ value)) rest := by
  induction value generalizing u with
  | nil => rw [List.nil_append, List.append_nil]
  | cons a value ih =>
    obtain ⟨ha, hvalue⟩ := not_or.mp (mt List.mem_cons.mpr h)
    rw [List.cons_append, tokensFrom, read, if_neg (Ne.symm ha), ih hvalue]
    simp

/-- After the literal. -/
theorem tokensFrom_closing (h : rest.head? ≠ some lexer.quote) :
    lexer.tokensFrom (.closing u) rest =
      (lexer.tokensFrom (.outside lexer.start) rest).map (.literal u :: ·) := by
  cases rest with
  | nil =>
    rw [tokensFrom, tokensFrom, close, close]
    cases lexer.finish lexer.start <;> rfl
  | cons a rest =>
    have ha : a ≠ lexer.quote := fun ha => h (congrArg some ha)
    rw [tokensFrom, tokensFrom, read, read, if_neg ha]
    cases lexer.tokensFrom (lexer.readOutside lexer.start a).2 rest <;> rfl

/-- **A literal is read** from a text that has it quoted. -/
theorem of_tokensFrom_inside (hread : lexer.tokensFrom mode input = some tokens) :
    (∀ u, mode = .inside u → ∃ value rest tail, input = lexer.encode value ++ lexer.quote :: rest ∧
      rest.head? ≠ some lexer.quote ∧ tokens = .literal (u ++ value) :: tail) ∧
    (∀ u, mode = .closing u → (input.head? ≠ some lexer.quote ∧
        ∃ tail, tokens = .literal u :: tail) ∨
      ∃ value rest tail, input = lexer.quote :: lexer.encode value ++ lexer.quote :: rest ∧
        rest.head? ≠ some lexer.quote ∧
        tokens = .literal (u ++ lexer.quote :: value) :: tail) := by
  induction input generalizing mode tokens with
  | nil =>
    refine ⟨?_, ?_⟩
    · rintro u rfl
      cases hread
    · rintro u rfl
      refine Or.inl ⟨by simp, ?_⟩
      rw [tokensFrom, close] at hread
      obtain ⟨tail, -, htail⟩ := Option.map_eq_some_iff.mp hread
      exact ⟨_, htail.symm⟩
  | cons a input ih =>
    rw [tokensFrom] at hread
    obtain ⟨tail, htail, hread⟩ := Option.map_eq_some_iff.mp hread
    obtain ⟨hinside, hclosing⟩ := ih htail
    refine ⟨?_, ?_⟩
    · rintro u rfl
      rw [read] at hinside hclosing hread
      by_cases ha : a = lexer.quote
      · rw [if_pos ha] at hclosing hread
        rw [List.nil_append] at hread
        subst hread
        rcases hclosing u rfl with ⟨hhead, rest, hrest⟩ | ⟨value, rest, more, htext, hhead, hmore⟩
        · exact ⟨[], input, rest, by rw [ha]; rfl, hhead, by rw [hrest, List.append_nil]⟩
        · refine ⟨lexer.quote :: value, rest, more, ?_, hhead, hmore⟩
          rw [encode, if_pos rfl, htext, ha]
          rfl
      · rw [if_neg ha] at hinside hread
        rw [List.nil_append] at hread
        subst hread
        obtain ⟨value, rest, more, htext, hhead, hmore⟩ := hinside (u ++ [a]) rfl
        refine ⟨a :: value, rest, more, ?_, hhead, by simpa using hmore⟩
        rw [encode, if_neg ha, htext]
        rfl
    · rintro u rfl
      rw [read] at hinside hread
      by_cases ha : a = lexer.quote
      · rw [if_pos ha] at hinside hread
        rw [List.nil_append] at hread
        subst hread
        obtain ⟨value, rest, more, htext, hhead, hmore⟩ := hinside (u ++ [a]) rfl
        refine Or.inr ⟨value, rest, more, by rw [htext, ha]; rfl, hhead, ?_⟩
        rw [hmore, ha]
        simp
      · rw [if_neg ha] at hread
        exact Or.inl ⟨fun h => ha (Option.some.inj h), _, hread.symm⟩

/-! ## A literal that says its value -/

/-- The number of quotes that a text begins with. -/
def leading (lexer : Lexer α τ σ) : List α → ℕ
  | [] => 0
  | a :: input => if a = lexer.quote then lexer.leading input + 1 else 0

theorem leading_eq_zero (h : rest.head? ≠ some lexer.quote) : lexer.leading rest = 0 := by
  cases rest with
  | nil => rfl
  | cons a rest => exact if_neg fun ha => h (congrArg some ha)

/-- A value that is written with each quote twice begins with no fewer
quotes. -/
theorem leading_le_encode (h : rest.head? ≠ some lexer.quote) :
    lexer.leading (value ++ lexer.quote :: rest) ≤
      lexer.leading (lexer.encode value ++ lexer.quote :: input) := by
  induction value with
  | nil => simp [leading, encode, leading_eq_zero h]
  | cons a value ih =>
    by_cases ha : a = lexer.quote
    · subst ha
      simp only [List.cons_append, leading, encode, if_true]
      omega
    · rw [List.cons_append, leading, if_neg ha]
      exact Nat.zero_le _

/-- **A value that is its own quoted form** has no quote. -/
theorem quote_notMem_of_encode (h : rest.head? ≠ some lexer.quote)
    (heq : lexer.encode value ++ lexer.quote :: input = value ++ lexer.quote :: rest) :
    lexer.quote ∉ value := by
  induction value with
  | nil => exact List.not_mem_nil
  | cons a value ih =>
    by_cases ha : a = lexer.quote
    · -- one more quote is left over, and the rest has none to show for it
      subst ha
      rw [encode, if_pos rfl] at heq
      have htail : lexer.quote :: (lexer.encode value ++ lexer.quote :: input) =
          value ++ lexer.quote :: rest := (List.cons.inj heq).2
      have hcount := congrArg lexer.leading htail
      have hle : lexer.leading (value ++ lexer.quote :: rest) ≤
          lexer.leading (lexer.encode value ++ lexer.quote :: input) := leading_le_encode h
      rw [leading, if_pos rfl] at hcount
      omega
    · rw [encode, if_neg ha] at heq
      have htail := ih (List.cons.inj heq).2
      exact fun hmem => (List.mem_cons.mp hmem).elim (fun hq => ha hq.symm) htail

theorem mem_encode : a ∈ lexer.encode value ↔ a ∈ value := by
  induction value with
  | nil => rfl
  | cons b value ih =>
    rw [encode]
    split <;> simp [ih]

/-! ## Texts that end at a `nul` -/

theorem cText_append (h : lexer.nul ∉ input) :
    lexer.cText (input ++ rest) = input ++ lexer.cText rest := by
  refine List.takeWhile_append_of_pos fun a ha => ?_
  simpa using fun hnul : a = lexer.nul => h (hnul ▸ ha)

theorem cText_quote : lexer.cText (lexer.quote :: rest) = lexer.quote :: lexer.cText rest := by
  simp [cText, Ne.symm lexer.nul_ne_quote]

theorem nul_notMem_cText : lexer.nul ∉ lexer.cText input := by
  intro h
  simpa using List.mem_takeWhile_imp h

theorem head?_cText (h : rest.head? ≠ some lexer.quote) :
    (lexer.cText rest).head? ≠ some lexer.quote := by
  cases rest with
  | nil => simp [cText]
  | cons a rest =>
    by_cases ha : a = lexer.nul
    · simp [cText, ha]
    · simpa [cText, ha] using h

theorem cText_eq_of_notMem (h : lexer.nul ∉ input) : lexer.cText input = input := by
  refine List.takeWhile_eq_self_iff.mpr fun a ha => ?_
  simpa using fun hnul : a = lexer.nul => h (hnul ▸ ha)

/-- A clean value is read. -/
theorem tokensFrom_value (hquote : lexer.quote ∉ value) (hnul : lexer.nul ∉ value)
    (h : rest.head? ≠ some lexer.quote) :
    lexer.tokensFrom (.inside []) (lexer.cText (value ++ lexer.quote :: rest)) =
      (lexer.tokensFrom (.outside lexer.start) (lexer.cText rest)).map (.literal value :: ·) := by
  have hclose : lexer.tokensFrom (.inside value) (lexer.quote :: lexer.cText rest) =
      lexer.tokensFrom (.closing value) (lexer.cText rest) := by
    rw [tokensFrom, read, if_pos rfl]
    cases lexer.tokensFrom (.closing value) (lexer.cText rest) <;> rfl
  rw [cText_append hnul, cText_quote, tokensFrom_inside hquote, List.nil_append, hclose,
    tokensFrom_closing (head?_cText h)]

/-- And only a clean one is. -/
theorem clean_of_tokensFrom (h : rest.head? ≠ some lexer.quote)
    (hread : lexer.tokensFrom (.inside []) (lexer.cText (value ++ lexer.quote :: rest)) =
      some (.literal value :: tokens)) : lexer.quote ∉ value ∧ lexer.nul ∉ value := by
  obtain ⟨v, r, tail, htext, hhead, htokens⟩ := (of_tokensFrom_inside hread).1 [] rfl
  obtain rfl : value = v := by simpa using (List.cons.inj htokens).1
  have hnul : lexer.nul ∉ value := by
    intro hmem
    have hnot : lexer.nul ∉ lexer.cText (value ++ lexer.quote :: rest) := nul_notMem_cText
    rw [htext] at hnot
    exact hnot (List.mem_append_left _ (mem_encode.mpr hmem))
  rw [cText_append hnul, cText_quote] at htext
  exact ⟨quote_notMem_of_encode (head?_cText h) htext.symm, hnul⟩

/-! ## Texts of values -/

/-- A quoted value, with the text after it and the tokens of this text. -/
structure Piece (α τ : Type*) where
  value : List α
  after : List α
  tokens : List τ

/-- A text of pieces. -/
def piecesText (lexer : Lexer α τ σ) (pieces : List (Piece α τ)) : List α :=
  pieces.flatMap fun piece => lexer.quote :: (piece.value ++ lexer.quote :: piece.after)

/-- The tokens that a text of pieces is meant to have. -/
def meant (pieces : List (Piece α τ)) : List (Token α τ) :=
  pieces.flatMap fun piece => .literal piece.value :: piece.tokens.map .plain

/-- A fixed text with these tokens, after which a literal begins. -/
structure Opens (lexer : Lexer α τ σ) (text : List α) (tokens : List τ) : Prop where
  ne_nil : text ≠ []
  quote : lexer.quote ∉ text
  nul : lexer.nul ∉ text
  reads : lexer.run (.outside lexer.start) (text ++ [lexer.quote]) =
    (tokens.map .plain, .inside [])

/-- A fixed text with these tokens, at the end. -/
structure Ends (lexer : Lexer α τ σ) (text : List α) (tokens : List τ) : Prop where
  quote : lexer.quote ∉ text
  nul : lexer.nul ∉ text
  reads : lexer.tokensFrom (.outside lexer.start) text = some (tokens.map .plain)

/-- The fixed parts of a text of pieces are read as they are meant. -/
def Fixed (lexer : Lexer α τ σ) : List (Piece α τ) → Prop
  | [] => True
  | [piece] => lexer.Ends piece.after piece.tokens
  | piece :: next :: pieces =>
    lexer.Opens piece.after piece.tokens ∧ lexer.Fixed (next :: pieces)

/-- A value with neither a quote nor a `nul`. -/
def Clean (lexer : Lexer α τ σ) (value : List α) : Prop :=
  lexer.quote ∉ value ∧ lexer.nul ∉ value

variable {pieces : List (Piece α τ)} {piece : Piece α τ} {start : List α} {opening : List τ}

omit [DecidableEq α] in
@[simp] theorem piecesText_cons : lexer.piecesText (piece :: pieces) =
    lexer.quote :: (piece.value ++ lexer.quote :: (piece.after ++ lexer.piecesText pieces)) := by
  simp [piecesText]

omit [DecidableEq α] in
@[simp] theorem meant_cons : (meant (piece :: pieces) : List (Token α τ)) =
    .literal piece.value :: (piece.tokens.map .plain ++ meant pieces) := by
  simp [meant]

/-- A text before a literal is read as it is meant. -/
theorem Opens.tokensFrom (h : lexer.Opens start opening) :
    lexer.tokensFrom (.outside lexer.start) (lexer.cText (start ++ lexer.quote :: rest)) =
      (lexer.tokensFrom (.inside []) (lexer.cText rest)).map (opening.map .plain ++ ·) := by
  have happend : start ++ lexer.quote :: lexer.cText rest =
      start ++ [lexer.quote] ++ lexer.cText rest := by simp
  rw [cText_append h.nul, cText_quote, happend, tokensFrom_append, h.reads]

/-- The text after a literal does not begin with a quote. -/
theorem Fixed.head? (h : lexer.Fixed (piece :: pieces)) :
    (piece.after ++ lexer.piecesText pieces).head? ≠ some lexer.quote := by
  have hclean : ∀ text : List α, lexer.quote ∉ text → text.head? ≠ some lexer.quote :=
    fun text hquote hhead => hquote (List.mem_of_mem_head? hhead)
  cases pieces with
  | nil =>
    have hafter : piece.after ++ lexer.piecesText [] = piece.after := List.append_nil _
    rw [hafter]
    exact hclean _ h.quote
  | cons next pieces =>
    obtain ⟨a, after, hafter⟩ := List.exists_cons_of_ne_nil h.1.ne_nil
    have hquote := hclean _ h.1.quote
    rw [hafter] at hquote ⊢
    exact hquote

/-- From a first literal on. -/
theorem tokensFrom_pieces (h : lexer.Fixed (piece :: pieces)) :
    lexer.tokensFrom (.inside []) (lexer.cText
        (piece.value ++ lexer.quote :: (piece.after ++ lexer.piecesText pieces))) =
      some (meant (piece :: pieces)) ↔ ∀ p ∈ piece :: pieces, lexer.Clean p.value := by
  induction pieces generalizing piece with
  | nil =>
    have hafter : piece.after ++ lexer.piecesText [] = piece.after := List.append_nil _
    have hmeant : (meant [piece] : List (Token α τ)) =
        .literal piece.value :: piece.tokens.map .plain := by simp [meant]
    have hhead := h.head?
    rw [hafter] at hhead
    rw [hafter, hmeant, List.forall_mem_singleton]
    refine ⟨clean_of_tokensFrom hhead, fun hclean => ?_⟩
    rw [tokensFrom_value hclean.1 hclean.2 hhead, cText_eq_of_notMem h.nul, h.reads]
    rfl
  | cons next pieces ih =>
    rw [meant_cons, List.forall_mem_cons, ← ih h.2]
    have hread (hclean : lexer.Clean piece.value) : lexer.tokensFrom (.inside []) (lexer.cText
        (piece.value ++ lexer.quote :: (piece.after ++ lexer.piecesText (next :: pieces)))) =
        (lexer.tokensFrom (.inside []) (lexer.cText
          (next.value ++ lexer.quote :: (next.after ++ lexer.piecesText pieces)))).map fun tokens =>
            .literal piece.value :: (piece.tokens.map .plain ++ tokens) := by
      rw [tokensFrom_value hclean.1 hclean.2 h.head?, piecesText_cons, h.1.tokensFrom,
        Option.map_map]
      rfl
    constructor
    · intro htokens
      have hclean := clean_of_tokensFrom h.head? htokens
      rw [hread hclean] at htokens
      obtain ⟨tokens, htail, heq⟩ := Option.map_eq_some_iff.mp htokens
      exact ⟨hclean, by rw [htail, List.append_cancel_left (List.cons.inj heq).2]⟩
    · rintro ⟨hclean, htail⟩
      rw [hread hclean, htail]
      rfl

/-- **A text of values has the tokens that it is meant to have** exactly
when its values are clean. -/
theorem tokens_text (hstart : lexer.Opens start opening) (h : lexer.Fixed (piece :: pieces)) :
    lexer.tokens (start ++ lexer.piecesText (piece :: pieces)) =
        some (opening.map .plain ++ meant (piece :: pieces)) ↔
      ∀ p ∈ piece :: pieces, lexer.Clean p.value := by
  rw [← tokensFrom_pieces h, Lexer.tokens, piecesText_cons, hstart.tokensFrom,
    Option.map_eq_some_iff]
  constructor
  · rintro ⟨tokens, htokens, heq⟩
    rw [htokens, List.append_cancel_left heq]
  · exact fun htokens => ⟨_, htokens, rfl⟩

end Lexer

end Lib
