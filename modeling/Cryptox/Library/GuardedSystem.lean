import Mathlib.Logic.Basic

/-!
# Guarded transition systems and their runs

A system has states, labels, a guard saying which labels may fire, and a next-state function.
A run is a list of labels. `Legal cond` says that every label of a run is enabled where it
fires and that the pair of state and label meets the side condition `cond`; results about
all runs take `fun _ _ => True`. The rules below turn what one step preserves into what a whole
run preserves.
-/
namespace Cryptox.Library

structure GuardedSystem (σ ℓ : Type) where
  enabled : σ → ℓ → Prop
  next : σ → ℓ → σ

namespace GuardedSystem

variable {σ ℓ : Type} (sys : GuardedSystem σ ℓ)

def run (s : σ) : List ℓ → σ
  | [] => s
  | l :: ls => run (sys.next s l) ls

def Legal (cond : σ → ℓ → Prop) (s : σ) : List ℓ → Prop
  | [] => True
  | l :: ls => (sys.enabled s l ∧ cond s l) ∧ Legal cond (sys.next s l) ls

instance decidableLegal (cond : σ → ℓ → Prop) [∀ s l, Decidable (sys.enabled s l)]
    [∀ s l, Decidable (cond s l)] : ∀ (s : σ) (ls : List ℓ), Decidable (sys.Legal cond s ls)
  | _, [] => isTrue trivial
  | s, l :: ls =>
    have : Decidable (sys.Legal cond (sys.next s l) ls) := decidableLegal cond _ ls
    inferInstanceAs (Decidable (_ ∧ _))

variable {sys} {cond : σ → ℓ → Prop}

theorem run_append (s : σ) (ls ms : List ℓ) :
    sys.run s (ls ++ ms) = sys.run (sys.run s ls) ms := by
  induction ls generalizing s with
  | nil => rfl
  | cons l ls ih => exact ih (sys.next s l)

theorem legal_append {s : σ} {ls ms : List ℓ} :
    sys.Legal cond s (ls ++ ms) ↔ sys.Legal cond s ls ∧ sys.Legal cond (sys.run s ls) ms := by
  induction ls generalizing s with
  | nil => simp [Legal, run]
  | cons l ls ih => simp [Legal, run, ih, and_assoc]

/-- A run meets a side condition when each of its steps does where it fires. -/
theorem legal_iff_forall {s : σ} {ls : List ℓ} :
    sys.Legal cond s ls ↔ sys.Legal (fun _ _ => True) s ls ∧
      ∀ before l later, ls = before ++ l :: later → cond (sys.run s before) l := by
  induction ls generalizing s with
  | nil => simp [Legal]
  | cons l ls ih =>
    rw [Legal, Legal, ih]
    constructor
    · rintro ⟨⟨henabled, hc⟩, hlegal, hlater⟩
      refine ⟨⟨⟨henabled, trivial⟩, hlegal⟩, ?_⟩
      intro before m later heq
      cases before with
      | nil =>
        cases heq
        exact hc
      | cons first before =>
        cases heq
        exact hlater before m later rfl
    · rintro ⟨⟨⟨henabled, -⟩, hlegal⟩, hall⟩
      refine ⟨⟨henabled, hall [] l ls rfl⟩, hlegal, ?_⟩
      rintro before m later rfl
      exact hall (l :: before) m later rfl

/-- A stronger side condition admits fewer runs. -/
theorem Legal.mono {cond' : σ → ℓ → Prop} (hc : ∀ s l, cond s l → cond' s l) {s : σ}
    {ls : List ℓ} (h : sys.Legal cond s ls) : sys.Legal cond' s ls := by
  induction ls generalizing s with
  | nil => trivial
  | cons l ls ih => exact ⟨⟨h.1.1, hc _ _ h.1.2⟩, ih h.2⟩

/-- What every admitted step preserves holds at the end of every admitted run. -/
theorem Legal.invariant (inv : σ → Prop)
    (hstep : ∀ s l, inv s → sys.enabled s l → cond s l → inv (sys.next s l))
    {s : σ} {ls : List ℓ} (h : sys.Legal cond s ls) (hs : inv s) : inv (sys.run s ls) := by
  induction ls generalizing s with
  | nil => exact hs
  | cons l ls ih => exact ih h.2 (hstep s l hs h.1.1 h.1.2)

/-- A relation that holds of a state and itself, and survives every admitted step from a state
satisfying the invariant, relates the first state of a run to its last. -/
theorem Legal.stable (inv rel : σ → Prop)
    (hinv : ∀ s l, inv s → sys.enabled s l → cond s l → inv (sys.next s l))
    (hrel : ∀ s l, inv s → rel s → sys.enabled s l → cond s l → rel (sys.next s l))
    {s : σ} {ls : List ℓ} (h : sys.Legal cond s ls) (hs : inv s) (hr : rel s) :
    rel (sys.run s ls) := by
  have hboth : ∀ s l, inv s ∧ rel s → sys.enabled s l → cond s l →
      inv (sys.next s l) ∧ rel (sys.next s l) :=
    fun s l hi he hc => ⟨hinv s l hi.1 he hc, hrel s l hi.1 hi.2 he hc⟩
  exact (h.invariant _ hboth ⟨hs, hr⟩).2

/-- Where each step from a state with the invariant keeps it just when the step is admitted, the
runs that never leave it are the admitted ones. -/
theorem legal_iff_prefixes (inv : σ → Prop)
    (hstep : ∀ s l, inv s → sys.enabled s l → (cond s l ↔ inv (sys.next s l)))
    {s : σ} {ls : List ℓ} (h : sys.Legal (fun _ _ => True) s ls) (hs : inv s) :
    sys.Legal cond s ls ↔ ∀ before later, ls = before ++ later → inv (sys.run s before) := by
  induction ls generalizing s with
  | nil =>
    refine ⟨fun _ before later heq => ?_, fun _ => trivial⟩
    rw [(List.append_eq_nil_iff.mp heq.symm).1]
    exact hs
  | cons l ls ih =>
    rw [Legal]
    constructor
    · rintro ⟨⟨henabled, hc⟩, hlegal⟩ before later heq
      cases before with
      | nil => exact hs
      | cons first before =>
        cases heq
        exact (ih h.2 ((hstep s l hs henabled).mp hc)).mp hlegal before later rfl
    · intro hall
      have hnext : inv (sys.next s l) := hall [l] ls rfl
      refine ⟨⟨h.1.1, (hstep s l hs h.1.1).mpr hnext⟩, (ih h.2 hnext).mpr ?_⟩
      rintro before later rfl
      exact hall (l :: before) later rfl

end GuardedSystem

end Cryptox.Library
