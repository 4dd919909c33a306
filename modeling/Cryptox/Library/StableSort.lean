import Mathlib.Data.List.Sort

/-!
# Selections from a stable sort

Sorting and then dropping what some test rejects is the same as dropping it first. So two sorted
lists, one of them filtered, begin alike exactly as long as the test accepts every element. Elements
with one key stay in the order they had, which gives the place of each; where no keys tie, every
order of the elements begins alike.
-/
namespace Cryptox.Library

variable {α κ : Type} {r : α → α → Prop} [DecidableRel r]

theorem filter_orderedInsert [IsTrans α r] (p : α → Bool) (a : α) {sorted : List α}
    (hsorted : sorted.Pairwise r) :
    (sorted.orderedInsert r a).filter p =
      if p a then (sorted.filter p).orderedInsert r a else sorted.filter p := by
  induction sorted with
  | nil => by_cases ha : p a = true <;> simp [ha]
  | cons b rest ih =>
    obtain ⟨hfirst, hrest⟩ := List.pairwise_cons.mp hsorted
    by_cases hab : r a b
    · rw [List.orderedInsert_cons_of_le _ _ hab]
      by_cases ha : p a = true
      · -- everything that is left comes after `b`, so `a` goes first
        have hall : ∀ c ∈ (b :: rest).filter p, r a c := by
          intro c hc
          rcases List.mem_cons.mp (List.mem_filter.mp hc).1 with rfl | hmem
          · exact hab
          · exact IsTrans.trans _ _ _ hab (hfirst c hmem)
        rw [if_pos ha, List.filter_cons_of_pos ha]
        cases hkept : (b :: rest).filter p with
        | nil => rfl
        | cons c kept =>
          rw [List.orderedInsert_cons_of_le]
          exact hall c (hkept ▸ List.mem_cons_self)
      · rw [if_neg ha, List.filter_cons_of_neg ha]
    · rw [List.orderedInsert_of_not_le _ _ hab]
      by_cases hb : p b = true
      · rw [List.filter_cons_of_pos hb, List.filter_cons_of_pos hb, ih hrest,
          List.orderedInsert_of_not_le _ _ hab]
        split <;> rfl
      · rw [List.filter_cons_of_neg hb, List.filter_cons_of_neg hb, ih hrest]

theorem filter_insertionSort [Std.Total r] [IsTrans α r] (p : α → Bool) (values : List α) :
    (values.insertionSort r).filter p = (values.filter p).insertionSort r := by
  induction values with
  | nil => rfl
  | cons a rest ih =>
    rw [List.insertionSort_cons, filter_orderedInsert p a (List.pairwise_insertionSort r rest),
      ih]
    by_cases ha : p a = true
    · rw [if_pos ha, List.filter_cons_of_pos ha, List.insertionSort_cons]
    · rw [if_neg ha, List.filter_cons_of_neg ha]

/-- A list whose first elements all pass the test starts as the elements that pass do. -/
theorem take_filter_of_forall (p : α → Bool) {k : Nat} {values : List α}
    (h : ∀ a ∈ values.take k, p a = true) : (values.filter p).take k = values.take k := by
  induction values generalizing k with
  | nil => rfl
  | cons a rest ih =>
    cases k with
    | zero => rfl
    | succ k =>
      rw [List.take_succ_cons] at h ⊢
      rw [List.filter_cons_of_pos (h a List.mem_cons_self), List.take_succ_cons,
        ih fun b hb => h b (List.mem_cons_of_mem _ hb)]

/-- The first of a sorted list comes before every element. -/
theorem head?_insertionSort_rel [Std.Total r] [IsTrans α r] {values : List α} {a b : α}
    (h : (values.insertionSort r).head? = some a) (hb : b ∈ values) : a = b ∨ r a b := by
  have hsorted := List.pairwise_insertionSort r values
  have hmem : b ∈ values.insertionSort r := (List.mem_insertionSort r).mpr hb
  cases hs : values.insertionSort r with
  | nil =>
    rw [hs] at h
    cases h
  | cons c rest =>
    rw [hs] at h hsorted hmem
    cases h
    rcases List.mem_cons.mp hmem with rfl | hrest
    · exact Or.inl rfl
    · exact Or.inr ((List.pairwise_cons.mp hsorted).1 b hrest)

omit [DecidableRel r] in
/-- Two sorted orders of the same elements begin alike as long as no element ties with another. -/
theorem take_eq_of_perm {first second : List α} (hfirst : first.Pairwise r)
    (hsecond : second.Pairwise r) (hperm : first.Perm second) {k : Nat}
    (hties : ∀ a ∈ first.take k, ∀ b ∈ first, r a b → r b a → a = b) :
    first.take k = second.take k := by
  induction first generalizing second k with
  | nil => rw [hperm.nil_eq]
  | cons a rest ih =>
    cases k with
    | zero => rfl
    | succ k =>
      cases second with
      | nil => cases hperm.eq_nil
      | cons b others =>
        rw [List.pairwise_cons] at hfirst hsecond
        rw [List.take_succ_cons] at hties ⊢
        have hhead : a = b := by
          rcases List.mem_cons.mp (hperm.mem_iff.mpr List.mem_cons_self) with heq | hb
          · exact heq.symm
          · rcases List.mem_cons.mp (hperm.mem_iff.mp List.mem_cons_self) with heq | ha
            · exact heq
            · exact hties a List.mem_cons_self b (List.mem_cons_of_mem _ hb) (hfirst.1 b hb)
                (hsecond.1 a ha)
        subst hhead
        rw [List.take_succ_cons, ih hfirst.2 hsecond.2 hperm.cons_inv fun c hc d hd =>
          hties c (List.mem_cons_of_mem _ hc) d (List.mem_cons_of_mem _ hd)]

section Keys

variable {key : α → ℤ}

/-- A sorted list is what has a smaller key, then what has this one, then the rest. -/
theorem eq_append_of_sorted {sorted : List α} (h : sorted.Pairwise fun x y => key x ≤ key y)
    (bound : ℤ) : sorted = sorted.filter (fun x => key x < bound) ++
      (sorted.filter (fun x => key x = bound) ++ sorted.filter (fun x => bound < key x)) := by
  induction sorted with
  | nil => rfl
  | cons x rest ih =>
    obtain ⟨hfirst, hrest⟩ := List.pairwise_cons.mp h
    have hsplit := ih hrest
    rcases lt_trichotomy (key x) bound with hlt | heq | hgt
    · rw [List.filter_cons_of_pos (by simpa using hlt), List.filter_cons_of_neg (by simpa using hlt.ne),
        List.filter_cons_of_neg (by simpa using hlt.le), List.cons_append, ← hsplit]
    · have hnone : rest.filter (fun x => key x < bound) = [] := by
        rw [List.filter_eq_nil_iff]
        intro y hy
        have hle := hfirst y hy
        simpa using heq ▸ hle
      rw [hnone, List.nil_append] at hsplit
      rw [List.filter_cons_of_neg (by simpa using heq.ge), hnone, List.nil_append,
        List.filter_cons_of_pos (by simpa using heq), List.filter_cons_of_neg (by simpa using heq.le),
        List.cons_append, ← hsplit]
    · have hnone : ∀ y ∈ rest, bound < key y := fun y hy => hgt.trans_le (hfirst y hy)
      have hless : rest.filter (fun x => key x < bound) = [] :=
        List.filter_eq_nil_iff.mpr fun y hy => by simpa using (hnone y hy).le
      have hequal : rest.filter (fun x => key x = bound) = [] :=
        List.filter_eq_nil_iff.mpr fun y hy => by simpa using (hnone y hy).ne'
      rw [List.filter_cons_of_neg (by simpa using hgt.le), List.filter_cons_of_neg
        (by simpa using hgt.ne'), List.filter_cons_of_pos (by simpa using hgt), hless, hequal]
      rw [hless, hequal] at hsplit
      exact congrArg _ hsplit

variable [DecidableEq α]

theorem idxOf_filter (p : α → Bool) {values : List α} {a : α} (hmem : a ∈ values) (ha : p a = true) :
    (values.filter p).idxOf a = (values.takeWhile (· ≠ a)).countP p := by
  induction values with
  | nil => cases hmem
  | cons x rest ih =>
    by_cases hx : x = a
    · subst hx
      simp [ha]
    · have hrest : a ∈ rest := (List.mem_cons.mp hmem).resolve_left (Ne.symm hx)
      rw [List.takeWhile_cons_of_pos (by simpa using hx), List.countP_cons, ← ih hrest]
      by_cases hp : p x = true
      · rw [List.filter_cons_of_pos hp, List.idxOf_cons_ne _ hx, if_pos hp]
      · rw [List.filter_cons_of_neg hp, if_neg hp, Nat.add_zero]

/-- The place of an element in a stable sort: behind the smaller keys, and behind those elements of
its own key that stood before it. -/
theorem idxOf_insertionSort {values : List α} {a : α} (hmem : a ∈ values) :
    (values.insertionSort fun x y => key x ≤ key y).idxOf a =
      values.countP (fun x => key x < key a) +
        (values.takeWhile (· ≠ a)).countP fun x => key x = key a := by
  have htotal : Std.Total fun x y : α => key x ≤ key y := ⟨fun x y => le_total _ _⟩
  have htrans : IsTrans α fun x y => key x ≤ key y := ⟨fun _ _ _ => le_trans⟩
  have hsame : (values.filter fun x => decide (key x = key a)).insertionSort
      (fun x y => key x ≤ key y) = values.filter fun x => decide (key x = key a) := by
    refine List.Pairwise.insertionSort_eq (List.pairwise_of_forall_mem_list ?_)
    intro x hx y hy
    have hxKey : key x = key a := of_decide_eq_true (List.mem_filter.mp hx).2
    have hyKey : key y = key a := of_decide_eq_true (List.mem_filter.mp hy).2
    exact (hxKey.trans hyKey.symm).le
  rw [eq_append_of_sorted (List.pairwise_insertionSort _ values) (key a),
    List.idxOf_append_of_notMem (by simp), filter_insertionSort, List.length_insertionSort,
    ← List.countP_eq_length_filter, filter_insertionSort _ values, hsame,
    List.idxOf_append_of_mem (List.mem_filter.mpr ⟨hmem, decide_eq_true rfl⟩),
    idxOf_filter _ hmem (decide_eq_true rfl)]

/-- Rows may be scanned in any order before they are sorted. What some test leaves of them begins as
the sort of all does exactly when the test accepts these rows and none of them ties with a row that
it accepts. -/
theorem take_scan_iff (p : α → Bool) (k : Nat) (values : List α) :
    (∀ scanned : List α, scanned.Perm values →
        (values.insertionSort fun x y => key x ≤ key y).take k =
          ((scanned.filter p).insertionSort fun x y => key x ≤ key y).take k) ↔
      ∀ a ∈ (values.insertionSort fun x y => key x ≤ key y).take k, p a = true ∧
        ∀ b ∈ values, p b = true → key a = key b → a = b := by
  have htotal : Std.Total fun x y : α => key x ≤ key y := ⟨fun x y => le_total _ _⟩
  have htrans : IsTrans α fun x y => key x ≤ key y := ⟨fun _ _ _ => le_trans⟩
  constructor
  · intro h a ha
    have hvalue : a ∈ values := (List.mem_insertionSort _).mp (List.mem_of_mem_take ha)
    have htest : p a = true := by
      have hmem := h values (.refl values) ▸ ha
      exact (List.mem_filter.mp ((List.mem_insertionSort _).mp (List.mem_of_mem_take hmem))).2
    refine ⟨htest, fun b hb hpass hkey => ?_⟩
    by_contra hne
    -- where `a` is scanned first nothing of its key stands before it, and where `b` is, `b` does
    have hplace : ∀ c ∈ values,
        ((values.insertionSort fun x y => key x ≤ key y).take k).idxOf a =
          values.countP (fun x => p x && decide (key x < key a)) +
            (((c :: values.erase c).filter p).takeWhile (· ≠ a)).countP
              fun x => key x = key a := by
      intro c hc
      have hperm : (c :: values.erase c).Perm values := (List.perm_cons_erase hc).symm
      have hmem := h _ hperm ▸ ha
      have hkept : a ∈ (c :: values.erase c).filter p :=
        (List.mem_insertionSort _).mp (List.mem_of_mem_take hmem)
      rw [h _ hperm, (List.take_prefix k _).idxOf_eq_of_mem hmem, idxOf_insertionSort hkept,
        (hperm.filter p).countP_eq, List.countP_filter]
      simp only [Bool.and_comm]
    have hahead := (hplace a hvalue).symm.trans (hplace b hb)
    rw [Nat.add_left_cancel_iff, List.filter_cons_of_pos htest, List.filter_cons_of_pos hpass,
      List.takeWhile_cons_of_neg (by simp), List.takeWhile_cons_of_pos (by simpa using Ne.symm hne),
      List.countP_cons_of_pos (by simpa using hkey.symm)] at hahead
    cases hahead
  · intro h scanned hperm
    have hpass := take_filter_of_forall p fun a ha => (h a ha).1
    have hkept : (values.insertionSort fun x y => key x ≤ key y).filter p =
        (values.filter p).insertionSort fun x y => key x ≤ key y := filter_insertionSort p values
    rw [← hpass, hkept]
    refine take_eq_of_perm (List.pairwise_insertionSort _ _) (List.pairwise_insertionSort _ _) ?_ ?_
    · exact (List.perm_insertionSort _ _).trans ((hperm.filter p).symm.trans
        (List.perm_insertionSort _ _).symm)
    · intro a ha b hb hab hba
      rw [← hkept, hpass] at ha
      obtain ⟨hbValue, hbPass⟩ := List.mem_filter.mp ((List.mem_insertionSort _).mp hb)
      exact (h a ha).2 b hbValue hbPass (le_antisymm hab hba)

end Keys

end Cryptox.Library
