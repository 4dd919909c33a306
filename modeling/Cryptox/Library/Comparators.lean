import Mathlib.Data.List.Sort

/-!
# Sorting with a comparator

The stable sort of a list by a comparator. By one that is a preorder the result is in its order, and
depends only on what is sorted as far as the comparator tells elements apart.
-/
namespace Cryptox.Library

variable {α κ : Type}

section Comparators

instance transCmp_comap (cmp : κ → κ → Ordering) [Std.TransCmp cmp] (f : α → κ) :
    Std.TransCmp fun left right => cmp (f left) (f right) where
  eq_swap := fun {left right} => @Std.OrientedCmp.eq_swap κ cmp _ (f left) (f right)
  isLE_trans := fun {first second third} =>
    @Std.TransCmp.isLE_trans κ cmp _ (f first) (f second) (f third)

variable (cmp : α → α → Ordering)

theorem total_of_transCmp [Std.TransCmp cmp] :
    Std.Total fun left right => cmp left right ≠ .gt := by
  refine ⟨fun left right => ?_⟩
  by_cases h : cmp left right = .gt
  · right
    rw [@Std.OrientedCmp.eq_swap α cmp, h]
    decide
  · exact Or.inl h

theorem trans_of_transCmp [Std.TransCmp cmp] :
    IsTrans α fun left right => cmp left right ≠ .gt := by
  refine ⟨fun first second third h h' => ?_⟩
  exact Ordering.ne_gt_iff_isLE.mpr (Std.TransCmp.isLE_trans (Ordering.ne_gt_iff_isLE.mp h)
    (Ordering.ne_gt_iff_isLE.mp h'))

/-- `Array.prototype.sort` with a comparator. -/
def sortWith (values : List α) : List α :=
  values.insertionSort fun left right => cmp left right ≠ .gt

theorem sortWith_perm (values : List α) : (sortWith cmp values).Perm values :=
  List.perm_insertionSort _ values

theorem sortWith_pairwise [Std.TransCmp cmp] (values : List α) :
    (sortWith cmp values).Pairwise fun left right => cmp left right ≠ .gt := by
  have htotal := total_of_transCmp cmp
  have htrans := trans_of_transCmp cmp
  exact List.pairwise_insertionSort _ values

/-- Only how the comparator ranks what is sorted matters. -/
theorem sortWith_congr {cmp' : α → α → Ordering} {values : List α}
    (h : ∀ a ∈ values, ∀ b ∈ values, cmp a b = cmp' a b) :
    sortWith cmp values = sortWith cmp' values := by
  have hmap := List.map_insertionSort (fun left right => cmp left right ≠ .gt)
    (fun left right => cmp' left right ≠ .gt) id values fun a ha b hb => by rw [h a ha b hb]; rfl
  rwa [List.map_id, List.map_id] at hmap

/-- What the comparator tells apart is sorted in one way. -/
theorem sortWith_eq_of_perm [Std.TransCmp cmp] {first second : List α} (h : first.Perm second)
    (hdistinct : ∀ a ∈ first, ∀ b ∈ first, cmp a b = .eq → a = b) :
    sortWith cmp first = sortWith cmp second := by
  refine List.Perm.eq_of_pairwise ?_ (sortWith_pairwise cmp first) (sortWith_pairwise cmp second)
    (((sortWith_perm cmp first).trans h).trans (sortWith_perm cmp second).symm)
  intro a b ha hb hle hge
  have ha' : a ∈ first := (sortWith_perm cmp first).mem_iff.mp ha
  have hb' : b ∈ first := h.mem_iff.mpr ((sortWith_perm cmp second).mem_iff.mp hb)
  refine hdistinct a ha' b hb' ?_
  have hswap : cmp b a = (cmp a b).swap := Std.OrientedCmp.eq_swap
  cases hab : cmp a b with
  | eq => rfl
  | lt =>
    rw [hab] at hswap
    exact absurd hswap hge
  | gt => exact absurd hab hle

/-- Elements are sorted as what the comparator sees of them. -/
theorem map_sortWith {cmp : κ → κ → Ordering} (f : α → κ) (values : List α) :
    (sortWith (fun left right => cmp (f left) (f right)) values).map f =
      sortWith cmp (values.map f) :=
  List.map_insertionSort _ _ f values fun _ _ _ _ => Iff.rfl

end Comparators

section Entries

variable {β : Type}

/-- Entries of the same keys, each there once, that are the same but for their order. -/
theorem eq_of_perm_of_keys {first second : List (α × β)} (h : first.Perm second)
    (hkeys : first.map (·.1) = second.map (·.1)) (hnodup : (first.map (·.1)).Nodup) :
    first = second := by
  induction first generalizing second with
  | nil => exact h.nil_eq
  | cons entry first ih =>
    cases second with
    | nil => exact absurd h.symm.nil_eq (List.cons_ne_nil _ _).symm
    | cons other second =>
      rw [List.map_cons, List.map_cons, List.cons.injEq] at hkeys
      rw [List.map_cons, List.nodup_cons] at hnodup
      have hentry : entry = other := by
        rcases List.mem_cons.mp (h.mem_iff.mp List.mem_cons_self) with heq | hmem
        · exact heq
        · have hkey : entry.1 ∈ second.map (·.1) := List.mem_map_of_mem hmem
          rw [← hkeys.2] at hkey
          exact absurd hkey hnodup.1
      subst hentry
      rw [ih (List.perm_cons entry |>.mp h) hkeys.2 hnodup.2]

/-- Of entries with different keys, a lookup finds those that are there. -/
theorem lookup_eq_some_iff [BEq α] [LawfulBEq α] {entries : List (α × β)}
    (hnodup : (entries.map (·.1)).Nodup) {key : α} {value : β} :
    entries.lookup key = some value ↔ (key, value) ∈ entries := by
  induction entries with
  | nil => simp
  | cons entry entries ih =>
    obtain ⟨otherKey, otherValue⟩ := entry
    rw [List.map_cons, List.nodup_cons] at hnodup
    by_cases hkey : key = otherKey
    · subst hkey
      have habsent : (key, value) ∉ entries := fun h => hnodup.1 (List.mem_map.mpr ⟨_, h, rfl⟩)
      rw [List.lookup_cons_self, List.mem_cons, Option.some.injEq, Prod.mk.injEq]
      constructor
      · exact fun h => Or.inl ⟨rfl, h.symm⟩
      · rintro (⟨-, h⟩ | h)
        · exact h.symm
        · exact absurd h habsent
    · have hne : (key == otherKey) = false := by simpa using hkey
      rw [List.lookup_cons, hne, List.mem_cons, Prod.mk.injEq]
      simp only [hkey, false_and, false_or]
      exact ih hnodup.2

theorem perm_of_lookup_eq [BEq α] [LawfulBEq α] {first second : List (α × β)}
    (hfirst : (first.map (·.1)).Nodup) (hsecond : (second.map (·.1)).Nodup)
    (h : ∀ key, first.lookup key = second.lookup key) : first.Perm second := by
  refine (List.perm_ext_iff_of_nodup (List.Nodup.of_map _ hfirst)
    (List.Nodup.of_map _ hsecond)).mpr ?_
  rintro ⟨key, value⟩
  rw [← lookup_eq_some_iff hfirst, ← lookup_eq_some_iff hsecond, h key]

theorem lookup_eq_of_perm [BEq α] [LawfulBEq α] {first second : List (α × β)}
    (hfirst : (first.map (·.1)).Nodup) (h : first.Perm second) (key : α) :
    first.lookup key = second.lookup key := by
  have hsecond : (second.map (·.1)).Nodup := (h.map (·.1)).nodup_iff.mp hfirst
  refine Option.ext fun value => ?_
  rw [lookup_eq_some_iff hfirst, lookup_eq_some_iff hsecond, h.mem_iff]

theorem lookup_map {γ : Type} [BEq α] (f : β → γ) (entries : List (α × β)) (key : α) :
    (entries.map fun entry => (entry.1, f entry.2)).lookup key = (entries.lookup key).map f := by
  induction entries with
  | nil => rfl
  | cons entry entries ih =>
    obtain ⟨otherKey, value⟩ := entry
    rw [List.map_cons, List.lookup_cons, List.lookup_cons, ih]
    cases key == otherKey <;> rfl

/-- Lists that are the same under one function are so under every function it determines. -/
theorem perm_map_of_perm_map {γ δ : Type} {f : α → γ} {g : α → δ} {first second : List α}
    (h : (first.map f).Perm (second.map f))
    (hfg : ∀ a ∈ first, ∀ b ∈ second, f a = f b → g a = g b) :
    (first.map g).Perm (second.map g) := by
  induction first generalizing second with
  | nil =>
    have hnil : second = [] := List.map_eq_nil_iff.mp h.nil_eq.symm
    rw [hnil]
  | cons a first ih =>
    obtain ⟨b, hb, hab⟩ := List.mem_map.mp (h.mem_iff.mp (List.mem_map_of_mem List.mem_cons_self))
    obtain ⟨left, right, rfl⟩ := List.append_of_mem hb
    have hmiddle : (left ++ b :: right).Perm (b :: (left ++ right)) := List.perm_middle
    have hrest : (first.map f).Perm ((left ++ right).map f) := by
      have hcons := h.trans (hmiddle.map f)
      rw [List.map_cons, List.map_cons, hab] at hcons
      exact (List.perm_cons _).mp hcons
    have hg : g a = g b := hfg a List.mem_cons_self b hb hab.symm
    have hmem : ∀ c ∈ left ++ right, c ∈ left ++ b :: right := fun c hc =>
      hmiddle.mem_iff.mpr (List.mem_cons_of_mem _ hc)
    refine List.Perm.trans ?_ (hmiddle.map g).symm
    rw [List.map_cons, List.map_cons, hg]
    exact (ih hrest fun c hc d hd => hfg c (List.mem_cons_of_mem _ hc) d (hmem d hd)).cons _

end Entries

end Cryptox.Library
