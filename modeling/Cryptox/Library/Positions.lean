import Mathlib.Data.List.Basic
import Mathlib.Tactic.Common

/-!
# Lists by position

What stands at a position of a list after one entry has been changed, or one has been added at the
end: an entry that is not the changed one, nor the added one, stood there before.
-/
namespace Cryptox.Library

variable {α : Type} {entries : List α}

theorem modify_cases {number other : Nat} {f : α → α} {after : α}
    (h : (entries.modify number f)[other]? = some after) :
    (other ≠ number ∧ entries[other]? = some after)
      ∨ (other = number ∧ ∃ before, entries[number]? = some before ∧ after = f before) := by
  rw [List.getElem?_modify] at h
  obtain ⟨before, hbefore, hafter⟩ := Option.map_eq_some_iff.mp h
  by_cases hsame : number = other
  · subst hsame
    rw [if_pos rfl] at hafter
    exact .inr ⟨rfl, before, hbefore, hafter.symm⟩
  · rw [if_neg hsame] at hafter
    exact .inl ⟨fun heq => hsame heq.symm, hbefore.trans (congrArg some hafter)⟩

theorem getElem?_modify_of_some {number other : Nat} {f : α → α} {before : α}
    (h : entries[other]? = some before) :
    (entries.modify number f)[other]? = some (if other = number then f before else before) := by
  rw [List.getElem?_modify, h]
  by_cases hsame : number = other
  · simp [hsame]
  · have hother : other ≠ number := fun heq => hsame heq.symm
    simp [hsame, hother]

theorem concat_cases {added entry : α} {number : Nat}
    (h : (entries ++ [added])[number]? = some entry) :
    entries[number]? = some entry ∨ (number = entries.length ∧ entry = added) := by
  rcases Nat.lt_trichotomy number entries.length with hlt | heq | hgt
  · rw [List.getElem?_append_left hlt] at h
    exact .inl h
  · rw [heq, List.getElem?_concat_length] at h
    exact .inr ⟨heq, (Option.some.inj h).symm⟩
  · rw [List.getElem?_eq_none (by rw [List.length_append, List.length_singleton]; omega)] at h
    cases h

end Cryptox.Library
