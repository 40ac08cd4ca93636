/-
HoxServer.Lib.Machine — runs of a deterministic machine whose steps may
fail.

A `Machine` has initial states and a step function that returns the next
state or a fault. The rules here are what a proof about all runs uses:

* `foldlM_invariant` — an invariant of a loop over a list;
* `Reachable.invariant` — an invariant of the initial states that every
  step preserves holds of every reachable state;
* `along_iff_meets` — the exact form of a conditional safety law: in a
  run from a state of the invariant, a property holds of every state
  passed and no step faults exactly when every step meets a condition,
  provided a step that meets it keeps the invariant and a step that does
  not breaks the property;
* `Meets.history` — an invariant that ties the state to what has been
  recorded of the run so far;
* `AfterEach.of_run` — a property of what comes after each action of a
  kind, such as that an action of one kind does not come before one of
  another (`Until`).
-/
import Mathlib.Tactic

namespace Lib

universe u v w

/-! ## Results that may be faults -/

theorem bind_eq_ok {ε : Type w} {α β : Type u} {x : Except ε α} {f : α → Except ε β} {b : β} :
    x >>= f = .ok b ↔ ∃ a, x = .ok a ∧ f a = .ok b := by
  cases x with
  | error e => simp [bind, Except.bind]
  | ok a => simp [bind, Except.bind]

theorem map_eq_ok {ε : Type w} {α : Type u} {β : Type v} {x : Except ε α} {f : α → β} {b : β} :
    x.map f = .ok b ↔ ∃ a, x = .ok a ∧ f a = b := by
  cases x with
  | error e => simp [Except.map]
  | ok a => simp [Except.map]

theorem map_eq_error {ε : Type w} {α : Type u} {β : Type v} {x : Except ε α} {f : α → β} {e : ε} :
    x.map f = .error e ↔ x = .error e := by
  cases x with
  | error e => simp [Except.map]
  | ok a => simp [Except.map]

/-- **Invariant rule of a fold** whose steps may fault. -/
theorem foldlM_invariant {ε : Type w} {σ : Type u} {α : Type v} {f : σ → α → Except ε σ}
    {P : σ → Prop} (hf : ∀ s a s', P s → f s a = .ok s' → P s') (l : List α) {s s' : σ}
    (hs : P s) (h : l.foldlM f s = .ok s') : P s' := by
  induction l generalizing s with
  | nil =>
    cases h
    exact hs
  | cons a l ih =>
    rw [List.foldlM_cons] at h
    obtain ⟨s₁, ha, h⟩ := bind_eq_ok.mp h
    exact ih (hf s a s₁ hs ha) h

/-- Initial states and a step that may fault. -/
structure Machine (σ : Type u) (α : Type v) (ε : Type w) where
  init : σ → Prop
  step : σ → α → Except ε σ

namespace Machine

variable {σ : Type u} {α : Type v} {ε : Type w} (M : Machine σ α ε)

/-! ## Reachable states -/

/-- The states some run of the machine ends in. -/
inductive Reachable : σ → Prop
  | init {s : σ} (h : M.init s) : Reachable s
  | step {s s' : σ} {a : α} (h : Reachable s) (hs : M.step s a = .ok s') : Reachable s'

/-- The run of a list of actions from a state. -/
def run : σ → List α → Except ε σ
  | s, [] => .ok s
  | s, a :: as =>
    match M.step s a with
    | .error e => .error e
    | .ok s' => run s' as

@[simp] theorem run_nil (s : σ) : M.run s [] = .ok s := rfl

theorem run_cons_of_step {s s' : σ} {a : α} (as : List α) (h : M.step s a = .ok s') :
    M.run s (a :: as) = M.run s' as := by
  simp [run, h]

variable {M}

theorem run_cons_eq_ok {s s' : σ} {a : α} {as : List α} :
    M.run s (a :: as) = .ok s' ↔ ∃ t, M.step s a = .ok t ∧ M.run t as = .ok s' := by
  cases h : M.step s a with
  | error e => simp [run, h]
  | ok t => simp [run, h]

theorem run_append_eq_ok {s s' : σ} {as bs : List α} :
    M.run s (as ++ bs) = .ok s' ↔ ∃ t, M.run s as = .ok t ∧ M.run t bs = .ok s' := by
  induction as generalizing s with
  | nil => simp
  | cons a as ih =>
    rw [List.cons_append, run_cons_eq_ok]
    simp only [run_cons_eq_ok, ih]
    exact ⟨fun ⟨u, hu, t, ht, hs⟩ => ⟨t, ⟨u, hu, ht⟩, hs⟩,
      fun ⟨t, ⟨u, hu, ht⟩, hs⟩ => ⟨u, hu, t, ht, hs⟩⟩

theorem run_append {s s' : σ} {as : List α} (h : M.run s as = .ok s') (bs : List α) :
    M.run s (as ++ bs) = M.run s' bs := by
  induction as generalizing s with
  | nil =>
    cases h
    rfl
  | cons a as ih =>
    cases hs : M.step s a with
    | error e => simp [run, hs] at h
    | ok t =>
      rw [M.run_cons_of_step as hs] at h
      rw [List.cons_append, M.run_cons_of_step _ hs]
      exact ih h

theorem Reachable.run {s : σ} (h : M.Reachable s) :
    ∀ {as : List α} {s' : σ}, M.run s as = .ok s' → M.Reachable s' := by
  intro as
  induction as generalizing s with
  | nil => intro s' hr; cases hr; exact h
  | cons a as ih =>
    intro s' hr
    cases hs : M.step s a with
    | error e => simp [Machine.run, hs] at hr
    | ok t => exact ih (h.step hs) (by rwa [M.run_cons_of_step as hs] at hr)

/-- **Invariant rule.** -/
theorem Reachable.invariant {I : σ → Prop} (hinit : ∀ s, M.init s → I s)
    (hstep : ∀ s a s', I s → M.step s a = .ok s' → I s') {s : σ} (h : M.Reachable s) : I s := by
  induction h with
  | init h => exact hinit _ h
  | step _ hs ih => exact hstep _ _ _ ih hs

/-! ## Laws of a whole run -/

variable (M)

/-- `P` holds of every state the run passes and no step faults. -/
def Along (P : σ → Prop) : σ → List α → Prop
  | s, [] => P s
  | s, a :: as => P s ∧ ∃ s', M.step s a = .ok s' ∧ Along P s' as

/-- Every step the run takes meets `C`, which reads the state before the
step and the action. -/
def Meets (C : σ → α → Prop) : σ → List α → Prop
  | _, [] => True
  | s, a :: as => C s a ∧ ∀ s', M.step s a = .ok s' → Meets C s' as

/-- `Meets` can be computed. -/
instance decidableMeets {C : σ → α → Prop} [∀ s a, Decidable (C s a)] :
    ∀ (s : σ) (as : List α), Decidable (M.Meets C s as)
  | _, [] => isTrue trivial
  | s, a :: as =>
    match h : M.step s a with
    | .error _ => decidable_of_iff (C s a) (by simp [Meets, h])
    | .ok s' =>
      have : Decidable (M.Meets C s' as) := decidableMeets s' as
      decidable_of_iff (C s a ∧ M.Meets C s' as) (by simp [Meets, h])

variable {M}

theorem Meets.mono {C D : σ → α → Prop} (hCD : ∀ s a, C s a → D s a) {as : List α} :
    ∀ {s : σ}, M.Meets C s as → M.Meets D s as := by
  induction as with
  | nil => intro s _; exact trivial
  | cons a as ih => intro s h; exact ⟨hCD s a h.1, fun s' hs => ih (h.2 s' hs)⟩

theorem meets_of_forall {C : σ → α → Prop} {as : List α} (h : ∀ s, ∀ a ∈ as, C s a) :
    ∀ {s : σ}, M.Meets C s as := by
  induction as with
  | nil =>
    intro s
    exact trivial
  | cons a as ih =>
    intro s
    exact ⟨h s a (by simp), fun s' _ => ih fun s a ha => h s a (by simp [ha])⟩

/-- A condition on the actions alone may be added. -/
theorem Meets.and_forall {C : σ → α → Prop} {D : α → Prop} {as : List α} :
    ∀ {s : σ}, M.Meets C s as → (∀ a ∈ as, D a) → M.Meets (fun s a => C s a ∧ D a) s as := by
  induction as with
  | nil =>
    intro s _ _
    exact trivial
  | cons a as ih =>
    intro s h hD
    exact ⟨⟨h.1, hD a (by simp)⟩, fun s' hs => ih (h.2 s' hs) fun a ha => hD a (by simp [ha])⟩

/-- The condition holds of both parts of a run. -/
theorem Meets.append {C : σ → α → Prop} {as bs : List α} : ∀ {s s' : σ},
    M.Meets C s (as ++ bs) → M.run s as = .ok s' → M.Meets C s as ∧ M.Meets C s' bs := by
  induction as with
  | nil =>
    intro s s' h hr
    cases hr
    exact ⟨trivial, h⟩
  | cons a as ih =>
    intro s s' h hr
    cases hstep : M.step s a with
    | error e => simp [Machine.run, hstep] at hr
    | ok t =>
      rw [M.run_cons_of_step as hstep] at hr
      obtain ⟨has, hbs⟩ := ih (h.2 t hstep) hr
      refine ⟨⟨h.1, fun t' ht' => ?_⟩, hbs⟩
      rwa [Except.ok.inj (ht'.symm.trans hstep)]

/-- Two conditions on the steps of a run come to the same, if they do in the
states of an invariant that a step meeting the first one keeps. -/
theorem meets_iff_meets {I : σ → Prop} {C D : σ → α → Prop}
    (hiff : ∀ s a s', I s → M.step s a = .ok s' → (C s a ↔ D s a))
    (hstep : ∀ s a s', I s → C s a → M.step s a = .ok s' → I s') {as : List α} :
    ∀ {s s' : σ}, I s → M.run s as = .ok s' → (M.Meets C s as ↔ M.Meets D s as) := by
  induction as with
  | nil => intro s s' _ _; exact Iff.rfl
  | cons a as ih =>
    intro s s' hs hr
    obtain ⟨t, ht, hr⟩ := run_cons_eq_ok.mp hr
    have hnext : ∀ C' : σ → α → Prop, M.Meets C' s (a :: as) ↔ C' s a ∧ M.Meets C' t as :=
      fun C' => and_congr_right fun _ =>
        ⟨fun h => h t ht, fun h t' ht' => Except.ok.inj (ht.symm.trans ht') ▸ h⟩
    rw [hnext, hnext, ← hiff s a t hs ht]
    exact and_congr_right fun hc => ih (hstep s a t hs hc ht) hr

theorem Along.head {P : σ → Prop} {s : σ} {as : List α} (h : M.Along P s as) : P s := by
  cases as with
  | nil => exact h
  | cons a as => exact h.1

/-- The last state of a run along which `P` holds satisfies `P`. -/
theorem Along.run {P : σ → Prop} {as : List α} : ∀ {s : σ}, M.Along P s as →
    ∃ s', M.run s as = .ok s' ∧ P s' := by
  induction as with
  | nil => intro s h; exact ⟨s, rfl, h⟩
  | cons a as ih =>
    intro s h
    obtain ⟨-, t, ht, has⟩ := h
    obtain ⟨s', hs', hp⟩ := ih has
    exact ⟨s', by rw [M.run_cons_of_step as ht, hs'], hp⟩

/-! ## Order in a run -/

variable (M)

/-- `C` holds of every step before the first one of which `D` holds. -/
def Until (D C : σ → α → Prop) : σ → List α → Prop
  | _, [] => True
  | s, a :: as => D s a ∨ C s a ∧ ∀ s', M.step s a = .ok s' → Until D C s' as

/-- After each action of `A`, what is left of the run satisfies `P`. -/
def AfterEach (A : α → Prop) (P : σ → List α → Prop) : σ → List α → Prop
  | _, [] => True
  | s, a :: as => ∀ s', M.step s a = .ok s' → (A a → P s' as) ∧ AfterEach A P s' as

instance decidableUntil {D C : σ → α → Prop} [∀ s a, Decidable (D s a)]
    [∀ s a, Decidable (C s a)] : ∀ (s : σ) (as : List α), Decidable (M.Until D C s as)
  | _, [] => isTrue trivial
  | s, a :: as =>
    match h : M.step s a with
    | .error _ => decidable_of_iff (D s a ∨ C s a) (by simp [Until, h])
    | .ok s' =>
      have : Decidable (M.Until D C s' as) := decidableUntil s' as
      decidable_of_iff (D s a ∨ C s a ∧ M.Until D C s' as) (by simp [Until, h])

instance decidableAfterEach {A : α → Prop} {P : σ → List α → Prop} [∀ a, Decidable (A a)]
    [∀ s as, Decidable (P s as)] : ∀ (s : σ) (as : List α), Decidable (M.AfterEach A P s as)
  | _, [] => isTrue trivial
  | s, a :: as =>
    match h : M.step s a with
    | .error _ => isTrue (by simp [AfterEach, h])
    | .ok s' =>
      have : Decidable (M.AfterEach A P s' as) := decidableAfterEach s' as
      decidable_of_iff ((A a → P s' as) ∧ M.AfterEach A P s' as) (by simp [AfterEach, h])

variable {M}

/-- What comes after an action of `A` in a run. -/
theorem AfterEach.of_run {A : α → Prop} {P : σ → List α → Prop} {a : α} {as bs : List α} :
    ∀ {s s₁ s₂ : σ}, M.AfterEach A P s (as ++ a :: bs) → M.run s as = .ok s₁ →
      M.step s₁ a = .ok s₂ → A a → P s₂ bs := by
  induction as with
  | nil =>
    intro s s₁ s₂ h hr hs ha
    cases hr
    exact (h s₂ hs).1 ha
  | cons b as ih =>
    intro s s₁ s₂ h hr hs ha
    obtain ⟨t, ht, hr⟩ := run_cons_eq_ok.mp hr
    exact ih (h t ht).2 hr hs ha

/-! ## History -/

variable (M)

/-- What is recorded of a run: `record` adds to the history what an action
does in the state before it. -/
def history {η : Type u} (record : σ → α → η → η) : σ → η → List α → η
  | _, h, [] => h
  | s, h, a :: as =>
    match M.step s a with
    | .error _ => h
    | .ok s' => history record s' (record s a h) as

variable {M}

/-- **Invariant rule with history**, for a run whose steps meet `C`. -/
theorem Meets.history {η : Type u} {record : σ → α → η → η} {I : σ → η → Prop} {C : σ → α → Prop}
    (hstep : ∀ s a s' h, I s h → C s a → M.step s a = .ok s' → I s' (record s a h))
    {as : List α} : ∀ {s s' : σ} {h : η}, I s h → M.Meets C s as → M.run s as = .ok s' →
      I s' (M.history record s h as) := by
  induction as with
  | nil =>
    intro s s' h hs _ hr
    cases hr
    exact hs
  | cons a as ih =>
    intro s s' h hs hm hr
    cases hstep' : M.step s a with
    | error e => simp [Machine.run, hstep'] at hr
    | ok t =>
      rw [M.run_cons_of_step as hstep'] at hr
      simp only [Machine.history, hstep']
      exact ih (hstep s a t h hs hm.1 hstep') (hm.2 t hstep') hr

/-- **Invariant rule for a run whose steps meet `C`.** -/
theorem Meets.run {I : σ → Prop} {C : σ → α → Prop}
    (hstep : ∀ s a s', I s → C s a → M.step s a = .ok s' → I s') {s s' : σ} {as : List α}
    (hs : I s) (hm : M.Meets C s as) (hr : M.run s as = .ok s') : I s' :=
  -- the rule above, with nothing recorded
  @Meets.history σ α ε M PUnit (fun _ _ h => h) (fun s _ => I s) C (fun s a s' _ => hstep s a s')
    as s s' PUnit.unit hs hm hr

/-- A run ends without a fault exactly when its steps meet the condition under
which one does. -/
theorem run_ok_iff_meets {C : σ → α → Prop} (hC : ∀ s a, (∃ s', M.step s a = .ok s') ↔ C s a)
    {s : σ} {as : List α} : (∃ s', M.run s as = .ok s') ↔ M.Meets C s as := by
  induction as generalizing s with
  | nil => exact ⟨fun _ => trivial, fun _ => ⟨s, rfl⟩⟩
  | cons a as ih =>
    constructor
    · rintro ⟨s', hr⟩
      obtain ⟨t, ht, hr⟩ := run_cons_eq_ok.mp hr
      refine ⟨(hC s a).mp ⟨t, ht⟩, fun t' ht' => ?_⟩
      rw [← Except.ok.inj (ht.symm.trans ht')]
      exact ih.mp ⟨s', hr⟩
    · rintro ⟨hc, hrest⟩
      obtain ⟨t, ht⟩ := (hC s a).mpr hc
      obtain ⟨s', hr⟩ := ih.mpr (hrest t ht)
      exact ⟨s', run_cons_eq_ok.mpr ⟨t, ht, hr⟩⟩

/-- **Conditional safety, exactly.** -/
theorem along_iff_meets {I P : σ → Prop} {C : σ → α → Prop}
    (hP : ∀ s, I s → P s)
    (hgood : ∀ s a, I s → C s a → ∃ s', M.step s a = .ok s' ∧ I s')
    (hbad : ∀ s a s', I s → ¬ C s a → M.step s a = .ok s' → ¬ P s')
    {s : σ} (hs : I s) (as : List α) : M.Along P s as ↔ M.Meets C s as := by
  induction as generalizing s with
  | nil => exact ⟨fun _ => trivial, fun _ => hP s hs⟩
  | cons a as ih =>
    constructor
    · rintro ⟨-, s', hstep, hrest⟩
      by_cases hc : C s a
      · obtain ⟨t, ht, hI⟩ := hgood s a hs hc
        refine ⟨hc, fun u hu => ?_⟩
        have hut : u = s' := Except.ok.inj (hu.symm.trans hstep)
        have hts : t = s' := Except.ok.inj (ht.symm.trans hstep)
        subst hut
        exact (ih (hts ▸ hI)).mp hrest
      · exact absurd hrest.head (hbad s a s' hs hc hstep)
    · rintro ⟨hc, hrest⟩
      obtain ⟨s', hstep, hI⟩ := hgood s a hs hc
      exact ⟨hP s hs, s', hstep, (ih hI).mpr (hrest s' hstep)⟩

end Machine

end Lib
