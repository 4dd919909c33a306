import Mathlib.Algebra.BigOperators.Group.List.Basic
import Mathlib.Algebra.Order.Ring.Abs
import Mathlib.Tactic.Linarith
import Mathlib.Tactic.Ring
import Mathlib.Tactic.Positivity

/-!
# The error of a product of approximate factors

Factors that are each within `δ` of the exact ones have a product within
`∏ (|a| + δ) - ∏ |a|` of the exact product.
-/
namespace Cryptox.Library

variable {α : Type} [CommRing α] [LinearOrder α]

/-- The product of the magnitudes, each enlarged by `δ`. -/
def widened (δ : α) (factors : List α) : α := (factors.map fun a => |a| + δ).prod

@[simp] theorem widened_nil (δ : α) : widened δ [] = 1 := rfl

@[simp] theorem widened_cons (δ a : α) (factors : List α) :
    widened δ (a :: factors) = (|a| + δ) * widened δ factors := by
  simp [widened]

variable [IsStrictOrderedRing α]

theorem abs_prod_eq_widened (factors : List α) : |factors.prod| = widened 0 factors := by
  induction factors with
  | nil => simp
  | cons a factors ih => rw [List.prod_cons, abs_mul, ih, widened_cons, add_zero]

theorem abs_prod_sub_prod_le {δ : α} {approximate exact : List α}
    (h : List.Forall₂ (fun x a => |x - a| ≤ δ) approximate exact) :
    |approximate.prod - exact.prod| ≤ widened δ exact - widened 0 exact := by
  induction h with
  | nil => simp
  | @cons x a xs as hx _ ih =>
    have hprod : |xs.prod| ≤ widened δ as := by
      have htriangle := abs_sub_abs_le_abs_sub xs.prod as.prod
      have habs := abs_prod_eq_widened as
      linarith
    have hsplit : x * xs.prod - a * as.prod = (x - a) * xs.prod + a * (xs.prod - as.prod) := by
      ring
    have hfirst : |(x - a) * xs.prod| ≤ δ * widened δ as := by
      rw [abs_mul]
      exact mul_le_mul hx hprod (abs_nonneg _) (le_trans (abs_nonneg _) hx)
    have hrest : |a * (xs.prod - as.prod)| ≤ |a| * (widened δ as - widened 0 as) := by
      rw [abs_mul]
      exact mul_le_mul_of_nonneg_left ih (abs_nonneg a)
    calc |(x :: xs).prod - (a :: as).prod|
        = |(x - a) * xs.prod + a * (xs.prod - as.prod)| := by
          rw [List.prod_cons, List.prod_cons, hsplit]
      _ ≤ |(x - a) * xs.prod| + |a * (xs.prod - as.prod)| := abs_add_le _ _
      _ ≤ δ * widened δ as + |a| * (widened δ as - widened 0 as) := add_le_add hfirst hrest
      _ = widened δ (a :: as) - widened 0 (a :: as) := by
          rw [widened_cons, widened_cons]
          ring

end Cryptox.Library
