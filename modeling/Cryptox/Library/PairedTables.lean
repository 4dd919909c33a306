import Cryptox.Library.Table
import Mathlib.Data.List.Forall2

/-!
# Tables row by row

Two tables are paired by a relation of their rows when they have as many rows and those at the same
place are related. Where related rows have the same key, lookups and writes respect the pairing.
-/
namespace Cryptox.Library

namespace Table

variable {κ ν μ : Type} {key : ν → κ} {other : μ → κ}

/-- Every row is replaced by one of another kind, its key kept. -/
def project (t : Table key) (f : ν → μ) (hf : ∀ v, other (f v) = key v) : Table other where
  rows := t.rows.map f
  nodup := by
    rw [List.map_map, show other ∘ f = key from funext hf]
    exact t.nodup

def Paired (R : ν → μ → Prop) (t : Table key) (u : Table other) : Prop :=
  List.Forall₂ R t.rows u.rows

variable [DecidableEq κ] {R : ν → μ → Prop}

private theorem forall₂_find? (hkey : ∀ v w, R v w → key v = other w) (k : κ) {vs : List ν}
    {ws : List μ} (h : List.Forall₂ R vs ws) :
    Option.Rel R (vs.find? fun v => key v = k) (ws.find? fun w => other w = k) := by
  induction h with
  | nil => exact .none
  | @cons v w vs ws hvw _ ih =>
    rw [List.find?_cons, List.find?_cons, hkey v w hvw]
    cases decide (other w = k) with
    | true => exact .some hvw
    | false => exact ih

/-- The row found in the one table is related to the row found in the other. -/
theorem Paired.get? (hkey : ∀ v w, R v w → key v = other w) {t : Table key} {u : Table other}
    (h : t.Paired R u) (k : κ) : Option.Rel R (t.get? k) (u.get? k) :=
  forall₂_find? hkey k h

private theorem forall₂_putRow (hkey : ∀ v w, R v w → key v = other w) {v : ν} {w : μ}
    (hvw : R v w) {vs : List ν} {ws : List μ} (h : List.Forall₂ R vs ws) :
    List.Forall₂ R (putRow key v vs) (putRow other w ws) := by
  induction h with
  | nil => exact .cons hvw .nil
  | @cons v' w' vs ws hfirst hrest ih =>
    rw [putRow, putRow, hkey v w hvw, hkey v' w' hfirst]
    by_cases hk : other w' = other w
    · rw [if_pos hk, if_pos hk]
      exact .cons hvw hrest
    · rw [if_neg hk, if_neg hk]
      exact .cons hfirst ih

theorem Paired.put (hkey : ∀ v w, R v w → key v = other w) {t : Table key} {u : Table other}
    (h : t.Paired R u) {v : ν} {w : μ} (hvw : R v w) : (t.put v).Paired R (u.put w) :=
  forall₂_putRow hkey hvw h

omit [DecidableEq κ] in
theorem Paired.mono {S : ν → μ → Prop} {t : Table key} {u : Table other} (h : t.Paired R u)
    (hRS : ∀ v w, R v w → S v w) : t.Paired S u :=
  List.Forall₂.imp hRS h

/-- What is found in a paired table is related to what is found in the other. -/
theorem Paired.get?_some (hkey : ∀ v w, R v w → key v = other w) {t : Table key} {u : Table other}
    (h : t.Paired R u) {k : κ} {w : μ} (hw : u.get? k = some w) : ∃ v, t.get? k = some v ∧ R v w := by
  have hrel := h.get? hkey k
  rw [hw] at hrel
  generalize t.get? k = found at hrel
  cases hrel with
  | some hvw => exact ⟨_, rfl, hvw⟩

theorem Paired.get?_none (hkey : ∀ v w, R v w → key v = other w) {t : Table key} {u : Table other}
    (h : t.Paired R u) {k : κ} (hw : u.get? k = none) : t.get? k = none := by
  have hrel := h.get? hkey k
  rw [hw] at hrel
  generalize t.get? k = found at hrel
  cases hrel
  rfl

end Table

end Cryptox.Library
