import Mathlib.Logic.Function.Basic
import Cryptox.Library.Table

/-!
# Keys held by one owner at a time

A unique constraint or a row lock, seen from the transactions that are still open: each owner holds
at most one key, and no two owners hold the same one.
-/
namespace Cryptox.Library

variable {ω κ : Type}

def Exclusive (holds : ω → Option κ) : Prop :=
  ∀ o o' k, holds o = some k → holds o' = some k → o = o'

namespace Exclusive

theorem of_none {holds : ω → Option κ} (h : ∀ o, holds o = none) : Exclusive holds := by
  intro o o' k hk
  rw [h o] at hk
  cases hk

variable [DecidableEq ω] {holds : ω → Option κ} {owner : ω} {key : Option κ}

/-- A key that no other owner holds may be taken. -/
theorem take (h : Exclusive holds) (hfree : ∀ k, key = some k → ∀ o, o ≠ owner → holds o ≠ some k) :
    Exclusive (Function.update holds owner key) := by
  intro o o' k hk hk'
  by_cases ho : o = owner
  · by_cases ho' : o' = owner
    · exact ho.trans ho'.symm
    · rw [ho, Function.update_self] at hk
      rw [Function.update_of_ne ho'] at hk'
      exact absurd hk' (hfree k hk o' ho')
  · rw [Function.update_of_ne ho] at hk
    by_cases ho' : o' = owner
    · rw [ho', Function.update_self] at hk'
      exact absurd hk (hfree k hk' o ho)
    · rw [Function.update_of_ne ho'] at hk'
      exact h o o' k hk hk'

end Exclusive

namespace Table

variable {ν : Type} [DecidableEq κ] {key : ν → κ} {ρ : Type}

/-- What the rows of a table hold, by their keys. -/
def holding (t : Table key) (held : ν → Option ρ) (k : κ) : Option ρ := (t.get? k).bind held

theorem holding_put (t : Table key) (v : ν) (held : ν → Option ρ) :
    (t.put v).holding held = Function.update (t.holding held) (key v) (held v) := by
  funext k
  by_cases hk : k = key v
  · rw [hk, Function.update_self, holding, get?_put_of_eq t rfl]
    rfl
  · rw [Function.update_of_ne hk, holding, get?_put_of_ne t hk]
    rfl

theorem holding_of_get? {t : Table key} {k : κ} {v : ν} (h : t.get? k = some v)
    (held : ν → Option ρ) : t.holding held k = held v := by
  rw [holding, h]
  rfl

end Table

end Cryptox.Library
