import Mathlib.Data.Fintype.Card
import Mathlib.Data.List.Sort
import Mathlib.Data.Set.Finite.Basic

/-!
# The largest values of a list

`largest k values` is the descending list of the `k` largest values. A value that `k` others reach
does not matter to it, so a selection that drops only such values keeps it.
-/
namespace Cryptox.Library

variable {α : Type} [LinearOrder α]

def descending (values : List α) : List α := values.insertionSort fun left right => left ≥ right

def largest (k : Nat) (values : List α) : List α := (descending values).take k

/-- How many of the values reach a value. -/
def reaching (value : α) (values : List α) : Nat := values.countP fun other => value ≤ other

theorem pairwise_descending (values : List α) : (descending values).Pairwise (· ≥ ·) :=
  List.pairwise_insertionSort _ values

theorem perm_descending (values : List α) : (descending values).Perm values :=
  List.perm_insertionSort _ values

theorem descending_eq {values sorted : List α} (hperm : sorted.Perm values)
    (hsorted : sorted.Pairwise (· ≥ ·)) : sorted = descending values :=
  (hperm.trans (perm_descending values).symm).eq_of_pairwise' hsorted (pairwise_descending values)

theorem descending_perm {values others : List α} (h : values.Perm others) :
    descending values = descending others :=
  descending_eq ((perm_descending values).trans h) (pairwise_descending values)

theorem largest_perm {k : Nat} {values others : List α} (h : values.Perm others) :
    largest k values = largest k others := by
  rw [largest, largest, descending_perm h]

theorem largest_of_length_le {k : Nat} {values : List α} (h : values.length ≤ k) :
    largest k values = descending values := by
  apply List.take_of_length_le
  rwa [(perm_descending values).length_eq]

/-- A value that `k` of a descending list reach goes in behind the first `k`. -/
theorem take_orderedInsert {k : Nat} {value : α} {sorted : List α}
    (hsorted : sorted.Pairwise (· ≥ ·)) (hreached : k ≤ reaching value sorted) :
    (sorted.orderedInsert (fun left right => left ≥ right) value).take k = sorted.take k := by
  induction sorted generalizing k with
  | nil =>
    obtain rfl : k = 0 := Nat.le_zero.mp hreached
    rfl
  | cons top rest ih =>
    obtain ⟨htop, hrest⟩ := List.pairwise_cons.mp hsorted
    cases k with
    | zero => rfl
    | succ k =>
      have hcount : k ≤ reaching value rest := by
        have := List.countP_cons (p := fun other => decide (value ≤ other)) (a := top) (l := rest)
        unfold reaching at hreached ⊢
        split at this <;> omega
      have hbelow := ih hrest hcount
      by_cases hle : value ≥ top
      · have hsome : ∃ other ∈ top :: rest, value ≤ other := by
          have hpos : 0 < reaching value (top :: rest) := by omega
          simpa [reaching, List.countP_pos_iff] using hpos
        have heq : value = top := by
          obtain ⟨other, hmem, hother⟩ := hsome
          refine le_antisymm (hother.trans ?_) hle
          rcases List.mem_cons.mp hmem with rfl | hmem
          · exact le_rfl
          · exact htop other hmem
        have hinsert : rest.orderedInsert (fun left right => left ≥ right) value = value :: rest := by
          cases rest with
          | nil => rfl
          | cons next rest =>
            exact List.orderedInsert_cons_of_le _ rest (heq ▸ htop next List.mem_cons_self)
        rw [List.orderedInsert_cons_of_le _ rest hle, List.take_succ_cons, List.take_succ_cons]
        rw [hinsert] at hbelow
        rw [← hbelow, heq]
      · rw [List.orderedInsert_of_not_le _ rest hle, List.take_succ_cons, List.take_succ_cons, hbelow]

/-- Values that `k` of the kept ones reach do not change the `k` largest. -/
theorem largest_append_of_reached {k : Nat} {dropped kept : List α}
    (h : ∀ value ∈ dropped, k ≤ reaching value kept) :
    largest k (dropped ++ kept) = largest k kept := by
  induction dropped with
  | nil => rfl
  | cons value rest ih =>
    have hreached : k ≤ reaching value (descending (rest ++ kept)) := by
      have hperm : reaching value (descending (rest ++ kept)) = reaching value (rest ++ kept) :=
        (perm_descending _).countP_eq _
      have happend : reaching value (rest ++ kept) = reaching value rest + reaching value kept :=
        List.countP_append ..
      have := h value List.mem_cons_self
      omega
    have htake : largest k (value :: (rest ++ kept)) = largest k (rest ++ kept) :=
      take_orderedInsert (pairwise_descending _) hreached
    rw [List.cons_append, htake]
    exact ih fun other hother => h other (List.mem_cons_of_mem value hother)

section Selection

variable {ι : Type} {before : ι → ι → Prop} {value : ι → α} {all : List ι} {kept : ι → Bool}

/-- If everything dropped has `k` others before it in a strict order that respects the values, then
`k` of what is kept reach it: some of those before it may have been dropped, but not for ever. -/
theorem reached_of_before (hirrefl : ∀ x, ¬ before x x)
    (htrans : ∀ x y z, before x y → before y z → before x z)
    (hvalue : ∀ x y, before x y → value y ≤ value x) {k : Nat}
    (hbefore : ∀ x ∈ all, kept x = false →
      ∃ front : List ι, front.Nodup ∧ k ≤ front.length ∧ ∀ y ∈ front, y ∈ all ∧ before y x)
    {x : ι} (hx : x ∈ all) (hdropped : kept x = false) :
    k ≤ reaching (value x) ((all.filter kept).map value) := by
  classical
  -- the descent is along `before` within the finite list
  have hwf : WellFounded fun x y : {x // x ∈ all} => before x.1 y.1 := by
    have : Finite {x // x ∈ all} := (List.finite_toSet all).to_subtype
    have : IsTrans {x // x ∈ all} fun x y => before x.1 y.1 := ⟨fun x y z => htrans x.1 y.1 z.1⟩
    have : Std.Irrefl fun x y : {x // x ∈ all} => before x.1 y.1 := ⟨fun x => hirrefl x.1⟩
    exact Finite.wellFounded_of_trans_of_irrefl _
  suffices h : ∀ x : {x // x ∈ all}, kept x.1 = false →
      k ≤ reaching (value x.1) ((all.filter kept).map value) from h ⟨x, hx⟩ hdropped
  intro x
  induction x using hwf.induction with
  | h x ih =>
    intro hdropped
    obtain ⟨front, hnodup, hlength, hfront⟩ := hbefore x.1 x.2 hdropped
    by_cases hall : ∀ y ∈ front, kept y = true
    · have hsub : front ⊆ all.filter fun y => kept y && decide (value x.1 ≤ value y) := by
        intro y hy
        obtain ⟨hmem, hlt⟩ := hfront y hy
        simp [hmem, hall y hy, hvalue y x.1 hlt]
      have hcount := (hnodup.subperm hsub).length_le
      have hreaching : reaching (value x.1) ((all.filter kept).map value)
          = (all.filter fun y => kept y && decide (value x.1 ≤ value y)).length := by
        rw [reaching, List.countP_map, List.countP_eq_length_filter, List.filter_filter]
        congr 1
        apply List.filter_congr
        intro y _
        simp [Bool.and_comm]
      omega
    · push Not at hall
      obtain ⟨y, hy, hkept⟩ := hall
      obtain ⟨hmem, hlt⟩ := hfront y hy
      have hreached := ih ⟨y, hmem⟩ hlt (by simpa using hkept)
      refine hreached.trans ?_
      refine List.countP_mono_left fun other _ hother => ?_
      simp only [decide_eq_true_eq] at hother ⊢
      exact (hvalue y x.1 hlt).trans hother

/-- Such a selection keeps the `k` largest values. -/
theorem largest_filter_of_before (all : List ι) (kept : ι → Bool) (value : ι → α) (k : Nat)
    (hirrefl : ∀ x, ¬ before x x)
    (htrans : ∀ x y z, before x y → before y z → before x z)
    (hvalue : ∀ x y, before x y → value y ≤ value x)
    (hbefore : ∀ x ∈ all, kept x = false →
      ∃ front : List ι, front.Nodup ∧ k ≤ front.length ∧ ∀ y ∈ front, y ∈ all ∧ before y x) :
    largest k (all.map value) = largest k ((all.filter kept).map value) := by
  have hperm : (all.map value).Perm
      ((all.filter fun x => !kept x).map value ++ (all.filter kept).map value) := by
    rw [← List.map_append]
    refine List.Perm.map value ?_
    exact ((List.filter_append_perm kept all).symm.trans List.perm_append_comm)
  rw [largest_perm hperm]
  apply largest_append_of_reached
  intro v hv
  obtain ⟨x, hx, rfl⟩ := List.mem_map.mp hv
  obtain ⟨hmem, hkept⟩ := List.mem_filter.mp hx
  exact reached_of_before hirrefl htrans hvalue hbefore hmem (by simpa using hkept)

end Selection

end Cryptox.Library
