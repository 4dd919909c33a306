import Mathlib.Logic.Function.Basic

/-!
# An index of the things made under a key

Each thing is made under at most one key. The index is right when it finds, under a key, exactly the
things made under it; then there is at most one.
-/
namespace Cryptox.Library

variable {ι κ : Type}

structure Indexed (made : ι → Option κ) (index : κ → Option ι) : Prop where
  sound : ∀ k i, index k = some i → made i = some k
  complete : ∀ i k, made i = some k → index k = some i

namespace Indexed

variable {made : ι → Option κ} {index : κ → Option ι}

theorem of_none {made : ι → Option κ} {index : κ → Option ι} (hmade : ∀ i, made i = none)
    (hindex : ∀ k, index k = none) : Indexed made index := by
  constructor
  · intro k i h
    rw [hindex k] at h
    cases h
  · intro i k h
    rw [hmade i] at h
    cases h

theorem unique (h : Indexed made index) {i j : ι} {k : κ} (hi : made i = some k)
    (hj : made j = some k) : i = j := by
  have hindex := h.complete i k hi
  rw [h.complete j k hj] at hindex
  exact (Option.some.inj hindex).symm

/-- Nothing is made under a key that the index does not know. -/
theorem not_made (h : Indexed made index) {k : κ} (hfree : index k = none) (i : ι) :
    made i ≠ some k := by
  intro hi
  have hindex := h.complete i k hi
  rw [hfree] at hindex
  cases hindex

variable [DecidableEq ι] [DecidableEq κ]

/-- A thing made under a free key is recorded under it. -/
theorem record (h : Indexed made index) {i : ι} {k : κ} (hfree : index k = none)
    (hnew : made i = none) :
    Indexed (Function.update made i (some k)) (Function.update index k (some i)) := by
  constructor
  · intro k' j hj
    by_cases hk : k' = k
    · rw [hk, Function.update_self] at hj
      cases hj
      rw [Function.update_self, hk]
    · rw [Function.update_of_ne hk] at hj
      have hmade := h.sound k' j hj
      have hne : j ≠ i := by
        intro heq
        rw [heq, hnew] at hmade
        cases hmade
      rw [Function.update_of_ne hne]
      exact hmade
  · intro j k' hj
    by_cases hi : j = i
    · rw [hi, Function.update_self] at hj
      cases hj
      rw [Function.update_self, hi]
    · rw [Function.update_of_ne hi] at hj
      have hne : k' ≠ k := fun heq => h.not_made hfree j (heq ▸ hj)
      rw [Function.update_of_ne hne]
      exact h.complete j k' hj

end Indexed

end Cryptox.Library
