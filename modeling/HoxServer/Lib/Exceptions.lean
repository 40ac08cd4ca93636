/-
HoxServer.Lib.Exceptions — computations that return a value or raise an
exception, over any type of exceptions: when one returns (`Returns`), what
it may raise (`Raises`), and a `try` whose handler takes some exceptions
and lets the others pass (`catching`).

The rules follow the ways in which computations are put together, so that
a proof about a function follows its code.
-/
import HoxServer.Lib.Machine

namespace Lib

universe u v w

variable {ε η : Type w} {α β : Type u}

/-! ## Computations that return -/

/-- No exception is raised. -/
def Returns (x : Except ε α) : Prop := ∃ a, x = .ok a

@[simp] theorem returns_ok (a : α) : Returns (.ok a : Except ε α) := ⟨a, rfl⟩

/-- What returns needs no `q` where `p` does not apply. -/
theorem returns_ok_iff_imp {a : α} {p q : Prop} (hp : ¬ p) :
    Returns (.ok a : Except ε α) ↔ (p → q) :=
  iff_of_true (returns_ok a) fun h => absurd h hp

@[simp] theorem returns_pure (a : α) : Returns (pure a : Except ε α) := ⟨a, rfl⟩

@[simp] theorem not_returns_error (e : ε) : ¬ Returns (.error e : Except ε α) := by
  rintro ⟨a, h⟩
  cases h

theorem returns_bind {x : Except ε α} {f : α → Except ε β} :
    Returns (x >>= f) ↔ ∃ a, x = .ok a ∧ Returns (f a) := by
  constructor
  · rintro ⟨b, h⟩
    obtain ⟨a, hx, hf⟩ := bind_eq_ok.mp h
    exact ⟨a, hx, b, hf⟩
  · rintro ⟨a, hx, b, hf⟩
    exact ⟨b, bind_eq_ok.mpr ⟨a, hx, hf⟩⟩

@[simp] theorem returns_map {x : Except ε α} {f : α → β} : Returns (x.map f) ↔ Returns x := by
  cases x <;> simp [Except.map]

@[simp] theorem returns_mapError {ε' : Type w} {x : Except ε α} {f : ε → ε'} :
    Returns (x.mapError f) ↔ Returns x := by
  cases x <;> simp [Except.mapError]

/-- A computation that has returned. -/
theorem returns_bind_ok {x : Except ε α} {f : α → Except ε β} {a : α} (hx : x = .ok a) :
    Returns (x >>= f) ↔ Returns (f a) := by
  rw [hx]
  rfl

/-- What follows a computation may not matter for whether both return. -/
theorem returns_bind_of {x : Except ε α} {f : α → Except ε β} (hf : ∀ a, Returns (f a)) :
    Returns (x >>= f) ↔ Returns x := by
  rw [returns_bind]
  exact ⟨fun ⟨a, hx, _⟩ => ⟨a, hx⟩, fun ⟨a, hx⟩ => ⟨a, hx, hf a⟩⟩

/-- A loop whose rounds return under `P`, where a round that returns does not
change what `P` says of any round. -/
theorem returns_foldlM {σ : Type u} {ι : Type v} {f : σ → ι → Except ε σ} {P : σ → ι → Prop}
    (hf : ∀ s i, Returns (f s i) ↔ P s i)
    (hkeep : ∀ s i s' j, f s i = .ok s' → (P s' j ↔ P s j)) (s : σ) (is : List ι) :
    Returns (is.foldlM f s) ↔ ∀ i ∈ is, P s i := by
  induction is generalizing s with
  | nil => simp
  | cons i is ih =>
    rw [List.foldlM_cons, List.forall_mem_cons, returns_bind]
    constructor
    · rintro ⟨s', hs', hreturns⟩
      exact ⟨(hf s i).mp ⟨s', hs'⟩, fun j hj => (hkeep s i s' j hs').mp ((ih s').mp hreturns j hj)⟩
    · rintro ⟨hi, his⟩
      obtain ⟨s', hs'⟩ := (hf s i).mpr hi
      exact ⟨s', hs', (ih s').mpr fun j hj => (hkeep s i s' j hs').mpr (his j hj)⟩

/-! ## What is raised -/

/-- Every exception that is raised satisfies `P`. -/
def Raises (P : ε → Prop) (x : Except ε α) : Prop := ∀ e, x = .error e → P e

variable {P : ε → Prop}

@[simp] theorem raises_ok (a : α) : Raises P (.ok a : Except ε α) := by
  intro e h
  cases h

@[simp] theorem raises_error {e : ε} : Raises P (.error e : Except ε α) ↔ P e := by
  constructor
  · intro h
    exact h e rfl
  · intro h e' he
    cases he
    exact h

@[simp] theorem raises_pure (a : α) : Raises P (pure a : Except ε α) := raises_ok a

/-- What returns raises nothing, whatever is meant by an exception here. -/
theorem raises_iff_returns {x : Except ε α} (hx : Raises (fun e => ¬ P e) x) :
    Raises P x ↔ Returns x := by
  cases x with
  | ok a => simp
  | error e => simpa using hx

theorem Raises.bind {x : Except ε α} {f : α → Except ε β} (hx : Raises P x)
    (hf : ∀ a, Raises P (f a)) : Raises P (x >>= f) := by
  cases x with
  | ok a => exact hf a
  | error e =>
    intro e' h
    cases h
    exact hx e rfl

/-- What follows may not matter either for what is raised. -/
theorem raises_bind_of {x : Except ε α} {f : α → Except ε β} (hf : ∀ a, Raises P (f a)) :
    Raises P (x >>= f) ↔ Raises P x := by
  refine ⟨fun h e hx => h e ?_, fun hx => hx.bind hf⟩
  rw [hx]
  rfl

/-- What follows may depend on a value that does not matter. -/
theorem raises_bind_iff {x : Except ε α} {f : α → Except ε β} {q : Prop}
    (hf : ∀ a, Raises P (f a) ↔ q) : Raises P (x >>= f) ↔ Raises P x ∧ (Returns x → q) := by
  cases x with
  | ok a =>
    simp only [raises_ok, returns_ok, true_and, forall_const]
    exact hf a
  | error e => simp [bind, Except.bind]

@[simp] theorem raises_functor_map {x : Except ε α} {f : α → β} :
    Raises P (f <$> x) ↔ Raises P x := by
  rw [← bind_pure_comp]
  exact raises_bind_of fun a => raises_pure (f a)

/-! ## Handlers -/

/-- A `try` whose handler takes the exceptions that `handles` reads as one of
its own. -/
def catching (handles : ε → Option η) (x : Except ε α) (handler : η → Except ε α) : Except ε α :=
  match x with
  | .ok a => .ok a
  | .error e => (handles e).elim (.error e) handler

variable {handles : ε → Option η} {x : Except ε α} {handler : η → Except ε α}

/-- A `try` whose handler returns: what gets out is what the handler does not
take. -/
theorem returns_catching (hh : ∀ h, Returns (handler h)) :
    Returns (catching handles x handler) ↔ Raises (fun e => ∃ h, handles e = some h) x := by
  cases x with
  | ok a => simp [catching]
  | error e =>
    cases he : handles e with
    | none => simp [catching, he]
    | some h => simp [catching, he, hh h]

/-- A `try` whose handler raises: nothing is made good by it. -/
theorem returns_catching_of_not (hh : ∀ h, ¬ Returns (handler h)) :
    Returns (catching handles x handler) ↔ Returns x := by
  cases x with
  | ok a => simp [catching]
  | error e =>
    cases he : handles e with
    | none => simp [catching, he]
    | some h => simp [catching, he, hh h]

/-- What gets out of a `try` whose handler returns has not been handled. -/
theorem raises_catching (hh : ∀ h, Returns (handler h)) :
    Raises (fun e => ¬ ∃ h, handles e = some h) (catching handles x handler) := by
  cases x with
  | ok a => simp [catching]
  | error e =>
    cases he : handles e with
    | none => simp [catching, he]
    | some h =>
      obtain ⟨a, ha⟩ := hh h
      simp [catching, he, ha]

/-! ## Runs -/

/-- **When no step of a run raises anything**: exactly where each step meets
the condition under which it returns. -/
theorem Machine.returns_run {σ : Type u} {ι : Type v} {M : Machine σ ι ε} {C : σ → ι → Prop}
    (hstep : ∀ s i, Returns (M.step s i) ↔ C s i) (s : σ) (is : List ι) :
    Returns (M.run s is) ↔ M.Meets C s is := by
  induction is generalizing s with
  | nil => simp [Machine.Meets]
  | cons i is ih =>
    rw [Machine.Meets, ← hstep]
    cases h : M.step s i with
    | error e => simp [Machine.run, h]
    | ok s' => simp [Machine.run, h, ih]

end Lib
