import Cryptox.Library.GuardedSystem

/-!
# Simulations between guarded systems

A step of one system is answered by a run of the other between related states, so a whole run is
answered by a run. In lockstep the two systems have the same labels, and a step is answered by
itself.
-/
namespace Cryptox.Library

structure Simulation {σ ℓ τ μ : Type} (sys : GuardedSystem σ ℓ) (abs : GuardedSystem τ μ)
    (rel : σ → τ → Prop) : Prop where
  step : ∀ s t l, rel s t → sys.enabled s l →
    ∃ ms, abs.Legal (fun _ _ => True) t ms ∧ rel (sys.next s l) (abs.run t ms)

structure Lockstep {σ τ ℓ : Type} (sys : GuardedSystem σ ℓ) (other : GuardedSystem τ ℓ)
    (rel : σ → τ → Prop) : Prop where
  enabled : ∀ s t l, rel s t → (sys.enabled s l ↔ other.enabled t l)
  step : ∀ s t l, rel s t → sys.enabled s l → rel (sys.next s l) (other.next t l)

variable {σ τ ℓ μ : Type}

/-- Related states answer whole runs. -/
theorem Simulation.run {sys : GuardedSystem σ ℓ} {abs : GuardedSystem τ μ} {rel : σ → τ → Prop}
    (sim : Simulation sys abs rel) {s : σ} {t : τ} {ls : List ℓ} (hrel : rel s t)
    (hlegal : sys.Legal (fun _ _ => True) s ls) :
    ∃ ms, abs.Legal (fun _ _ => True) t ms ∧ rel (sys.run s ls) (abs.run t ms) := by
  induction ls generalizing s t with
  | nil => exact ⟨[], trivial, hrel⟩
  | cons l ls ih =>
    obtain ⟨ms, hms, hnext⟩ := sim.step s t l hrel hlegal.1.1
    obtain ⟨rest, hrest, hend⟩ := ih hnext hlegal.2
    refine ⟨ms ++ rest, GuardedSystem.legal_append.mpr ⟨hms, hrest⟩, ?_⟩
    rw [GuardedSystem.run_append]
    exact hend

/-- What some run leads to. -/
def GuardedSystem.Reaches (sys : GuardedSystem σ ℓ) (s t : σ) : Prop :=
  ∃ ls, sys.Legal (fun _ _ => True) s ls ∧ sys.run s ls = t

theorem GuardedSystem.Reaches.refl (sys : GuardedSystem σ ℓ) (s : σ) : sys.Reaches s s :=
  ⟨[], trivial, rfl⟩

theorem GuardedSystem.Reaches.single {sys : GuardedSystem σ ℓ} {s : σ} (l : ℓ)
    (h : sys.enabled s l) : sys.Reaches s (sys.next s l) :=
  ⟨[l], ⟨⟨h, trivial⟩, trivial⟩, rfl⟩

/-- States that are read as states of another system, step by step, are so over whole runs. -/
theorem GuardedSystem.reaches_run {sys : GuardedSystem σ ℓ} {abs : GuardedSystem τ μ} (read : σ → τ)
    (inv : σ → Prop)
    (hstep : ∀ s l, inv s → sys.enabled s l →
      inv (sys.next s l) ∧ abs.Reaches (read s) (read (sys.next s l)))
    {s : σ} {ls : List ℓ} (hs : inv s) (hlegal : sys.Legal (fun _ _ => True) s ls) :
    inv (sys.run s ls) ∧ abs.Reaches (read s) (read (sys.run s ls)) := by
  have hsimulation : Simulation sys abs fun s t => inv s ∧ read s = t := by
    constructor
    rintro s t l ⟨hinv, rfl⟩ henabled
    obtain ⟨hnext, ms, hms, hread⟩ := hstep s l hinv henabled
    exact ⟨ms, hms, hnext, hread.symm⟩
  obtain ⟨ms, hms, hinv, hread⟩ := hsimulation.run ⟨hs, rfl⟩ hlegal
  exact ⟨hinv, ms, hms, hread.symm⟩

/-- In lockstep related states have the same runs. -/
theorem Lockstep.run {sys : GuardedSystem σ ℓ} {other : GuardedSystem τ ℓ} {rel : σ → τ → Prop}
    (sim : Lockstep sys other rel) {s : σ} {t : τ} {ls : List ℓ} (hrel : rel s t) :
    (sys.Legal (fun _ _ => True) s ls ↔ other.Legal (fun _ _ => True) t ls) ∧
      (sys.Legal (fun _ _ => True) s ls → rel (sys.run s ls) (other.run t ls)) := by
  induction ls generalizing s t with
  | nil => exact ⟨Iff.rfl, fun _ => hrel⟩
  | cons l ls ih =>
    constructor
    · rw [GuardedSystem.Legal, GuardedSystem.Legal, ← sim.enabled s t l hrel]
      exact and_congr_right fun henabled => (ih (sim.step s t l hrel henabled.1)).1
    · intro hlegal
      exact (ih (sim.step s t l hrel hlegal.1.1)).2 hlegal.2

end Cryptox.Library
