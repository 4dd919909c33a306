import Mathlib.Order.Bounds.Basic
import Mathlib.Order.MinMax
import Mathlib.Data.List.Basic

/-!
# The worst fall from a running peak

A pass over a list that keeps the highest value so far, and the worst loss from it to a value, ends
with the worst loss over all pairs of a value and one at its place or after it.
-/
namespace Cryptox.Library

variable {α β : Type*}

/-- The second value stands in the list where the first does or after it. -/
def Follows (values : List α) (x y : α) : Prop :=
  ∃ i j : Nat, i ≤ j ∧ values[i]? = some x ∧ values[j]? = some y

theorem Follows.left_mem {values : List α} {x y : α} (h : Follows values x y) : x ∈ values := by
  obtain ⟨i, -, -, hx, -⟩ := h
  exact List.mem_of_getElem? hx

theorem Follows.right_mem {values : List α} {x y : α} (h : Follows values x y) : y ∈ values := by
  obtain ⟨-, j, -, -, hy⟩ := h
  exact List.mem_of_getElem? hy

theorem Follows.refl {values : List α} {x : α} (h : x ∈ values) : Follows values x x := by
  obtain ⟨i, hi⟩ := List.getElem?_of_mem h
  exact ⟨i, i, le_rfl, hi, hi⟩

/-- A pair of a longer list lies in the front, or ends with the last value. -/
theorem follows_concat {values : List α} {last x y : α} :
    Follows (values ++ [last]) x y ↔ Follows values x y ∨ x ∈ values ++ [last] ∧ y = last := by
  constructor
  · rintro ⟨i, j, hij, hx, hy⟩
    rcases Nat.lt_or_ge j values.length with hj | hj
    · rw [List.getElem?_append_left hj] at hy
      rw [List.getElem?_append_left (by omega)] at hx
      exact .inl ⟨i, j, hij, hx, hy⟩
    · have hend : y ∈ [last] := by
        rw [List.getElem?_append_right hj] at hy
        exact List.mem_of_getElem? hy
      exact .inr ⟨List.mem_of_getElem? hx, List.mem_singleton.mp hend⟩
  · rintro (⟨i, j, hij, hx, hy⟩ | ⟨hx, rfl⟩)
    · obtain ⟨hjlt, -⟩ := List.getElem?_eq_some_iff.mp hy
      refine ⟨i, j, hij, ?_, ?_⟩
      · rw [List.getElem?_append_left (by omega), hx]
      · rw [List.getElem?_append_left hjlt, hy]
    · obtain ⟨i, hi⟩ := List.getElem?_of_mem hx
      obtain ⟨hlt, -⟩ := List.getElem?_eq_some_iff.mp hi
      rw [List.length_append, List.length_singleton] at hlt
      exact ⟨i, values.length, by omega, hi, by simp⟩

/-- A pair of a longer list starts at its head, or lies in the rest. -/
theorem follows_cons {first x y : α} {values : List α} :
    Follows (first :: values) x y ↔ x = first ∧ y ∈ first :: values ∨ Follows values x y := by
  constructor
  · rintro ⟨i, j, hij, hx, hy⟩
    cases i with
    | zero => exact .inl ⟨(Option.some.inj hx).symm, List.mem_of_getElem? hy⟩
    | succ i =>
      obtain ⟨j, rfl⟩ : ∃ k, j = k + 1 := ⟨j - 1, by omega⟩
      exact .inr ⟨i, j, by omega, hx, hy⟩
  · rintro (⟨rfl, hy⟩ | ⟨i, j, hij, hx, hy⟩)
    · obtain ⟨j, hj⟩ := List.getElem?_of_mem hy
      exact ⟨0, j, j.zero_le, rfl, hj⟩
    · exact ⟨i + 1, j + 1, by omega, hx, hy⟩

theorem follows_singleton {last x y : α} : Follows [last] x y ↔ x = last ∧ y = last := by
  constructor
  · exact fun h => ⟨List.mem_singleton.mp h.left_mem, List.mem_singleton.mp h.right_mem⟩
  · rintro ⟨rfl, rfl⟩
    exact .refl (List.mem_singleton_self _)

section Worst

variable [LinearOrder α] [LinearOrder β] (loss : α → α → β)

def IsPeak (values : List α) (peak : α) : Prop := IsGreatest {x | x ∈ values} peak

/-- The greatest loss from a value to one at its place or after it. -/
def IsWorst (values : List α) (worst : β) : Prop :=
  IsGreatest {d | ∃ x y, Follows values x y ∧ loss x y = d} worst

variable {loss} {values : List α} {peak value : α} {worst : β}

theorem IsPeak.singleton (value : α) : IsPeak [value] value :=
  ⟨List.mem_singleton_self value, fun _ hx => (List.mem_singleton.mp hx).le⟩

theorem IsPeak.concat (h : IsPeak values peak) : IsPeak (values ++ [value]) (max peak value) := by
  constructor
  · change max peak value ∈ values ++ [value]
    rcases max_choice peak value with heq | heq
    · rw [heq]
      exact List.mem_append_left _ h.1
    · rw [heq]
      exact List.mem_append_right _ (List.mem_singleton_self value)
  · intro x hx
    rcases List.mem_append.mp hx with hold | hnew
    · exact (h.2 hold).trans (le_max_left _ _)
    · exact (List.mem_singleton.mp hnew).le.trans (le_max_right _ _)

omit [LinearOrder α] in
theorem IsWorst.singleton (value : α) : IsWorst loss [value] (loss value value) := by
  refine ⟨⟨value, value, follows_singleton.mpr ⟨rfl, rfl⟩, rfl⟩, ?_⟩
  rintro _ ⟨x, y, hfollows, rfl⟩
  obtain ⟨rfl, rfl⟩ := follows_singleton.mp hfollows
  exact le_rfl

/-- One more value: the worst loss that ends there starts at the peak. -/
theorem IsWorst.concat (h : IsWorst loss values worst) (hpeak : IsPeak values peak)
    (hmono : ∀ x ∈ values ++ [value], loss x value ≤ loss (max peak value) value) :
    IsWorst loss (values ++ [value]) (max worst (loss (max peak value) value)) := by
  constructor
  · rcases max_choice worst (loss (max peak value) value) with heq | heq
    · obtain ⟨x, y, hfollows, hloss⟩ := h.1
      exact ⟨x, y, follows_concat.mpr (.inl hfollows), hloss.trans heq.symm⟩
    · exact ⟨_, value, follows_concat.mpr (.inr ⟨hpeak.concat.1, rfl⟩), heq.symm⟩
  · rintro _ ⟨x, y, hfollows, rfl⟩
    rcases follows_concat.mp hfollows with hold | ⟨hx, rfl⟩
    · exact (h.2 ⟨x, y, hold, rfl⟩).trans (le_max_left _ _)
    · exact (hmono x hx).trans (le_max_right _ _)

end Worst

end Cryptox.Library
