import Mathlib.Data.List.Nodup

/-!
# Keyed tables

A finite table of rows with distinct keys, the key being a function of the row. Its order is the
order of first insertion, as in an ECMAScript `Map` whose values carry their key: putting a row
whose key is present replaces the row in place, any other row is appended.
-/
namespace Cryptox.Library

structure Table {κ ν : Type} (key : ν → κ) where
  rows : List ν
  nodup : (rows.map key).Nodup

namespace Table

variable {κ ν : Type} [DecidableEq κ] {key : ν → κ}

def putRow (key : ν → κ) (v : ν) : List ν → List ν
  | [] => [v]
  | w :: ws => if key w = key v then v :: ws else w :: putRow key v ws

theorem keys_putRow (v : ν) (ws : List ν) :
    (putRow key v ws).map key =
      if key v ∈ ws.map key then ws.map key else ws.map key ++ [key v] := by
  induction ws with
  | nil => simp [putRow]
  | cons w ws ih =>
    by_cases hw : key w = key v
    · simp [putRow, hw]
    · have hv : ¬ key v = key w := fun h => hw h.symm
      simp only [putRow, hw, ↓reduceIte, List.map_cons, ih, List.mem_cons, hv, false_or]
      split <;> simp

theorem find?_putRow (v : ν) (k : κ) (ws : List ν) :
    (putRow key v ws).find? (fun w => key w = k) =
      if k = key v then some v else ws.find? (fun w => key w = k) := by
  induction ws with
  | nil =>
    by_cases h : k = key v
    · simp [putRow, h]
    · simp [putRow, h, Ne.symm h]
  | cons w ws ih =>
    by_cases hw : key w = key v
    · by_cases h : k = key v
      · simp [putRow, hw, h]
      · simp [putRow, hw, h, Ne.symm h]
    · by_cases h : k = key v
      · subst h
        simpa [putRow, hw] using ih
      · simp only [putRow, hw, ↓reduceIte, List.find?_cons, ih, h]

def empty : Table key := ⟨[], List.nodup_nil⟩

def get? (t : Table key) (k : κ) : Option ν := t.rows.find? fun v => key v = k

def put (t : Table key) (v : ν) : Table key where
  rows := putRow key v t.rows
  nodup := by
    rw [keys_putRow]
    split
    · exact t.nodup
    · rename_i hk
      refine List.nodup_append.mpr ⟨t.nodup, by simp, fun a ha b hb => ?_⟩
      rw [List.mem_singleton.mp hb]
      exact fun h => hk (h ▸ ha)

@[simp] theorem get?_empty (k : κ) : (empty : Table key).get? k = none := rfl

theorem get?_put (t : Table key) (v : ν) (k : κ) :
    (t.put v).get? k = if k = key v then some v else t.get? k :=
  find?_putRow v k t.rows

theorem get?_put_of_eq (t : Table key) {v : ν} {k : κ} (h : k = key v) :
    (t.put v).get? k = some v := by
  rw [get?_put, if_pos h]

theorem get?_put_of_ne (t : Table key) {v : ν} {k : κ} (h : k ≠ key v) :
    (t.put v).get? k = t.get? k := by
  rw [get?_put, if_neg h]

def putOption (t : Table key) : Option ν → Table key
  | none => t
  | some v => t.put v

@[simp] theorem putOption_none (t : Table key) : t.putOption none = t := rfl

@[simp] theorem putOption_some (t : Table key) (v : ν) : t.putOption (some v) = t.put v := rfl

/-- What is found after an optional write is the row written or what was there. -/
theorem get?_putOption_cases (t : Table key) (v? : Option ν) (k : κ) :
    (∃ v, v? = some v ∧ key v = k ∧ (t.putOption v?).get? k = some v) ∨
      (t.putOption v?).get? k = t.get? k := by
  cases v? with
  | none => exact Or.inr rfl
  | some v =>
    by_cases h : k = key v
    · exact Or.inl ⟨v, rfl, h.symm, get?_put_of_eq t h⟩
    · exact Or.inr (get?_put_of_ne t h)

theorem isSome_get?_putOption {t : Table key} {v? : Option ν} {k : κ} (h : (t.get? k).isSome) :
    ((t.putOption v?).get? k).isSome := by
  rcases get?_putOption_cases t v? k with ⟨v, -, -, hv⟩ | hk
  · rw [hv]
    rfl
  · rw [hk]
    exact h

/-- A row of a new key goes to the end. -/
theorem rows_put_of_none {t : Table key} {v : ν} (h : t.get? (key v) = none) :
    (t.put v).rows = t.rows ++ [v] := by
  have happend : ∀ ws : List ν, ws.find? (fun w => key w = key v) = none →
      putRow key v ws = ws ++ [v] := by
    intro ws hws
    induction ws with
    | nil => rfl
    | cons w ws ih =>
      rw [List.find?_cons] at hws
      by_cases hw : key w = key v
      · simp [hw] at hws
      · simp only [hw, decide_false] at hws
        rw [putRow, if_neg hw, ih hws, List.cons_append]
  exact happend t.rows h

/-- Every row is rewritten, its key kept. -/
def modify (t : Table key) (f : ν → ν) (hf : ∀ v, key (f v) = key v) : Table key where
  rows := t.rows.map f
  nodup := by
    rw [List.map_map, show key ∘ f = key from funext hf]
    exact t.nodup

theorem get?_modify (t : Table key) (f : ν → ν) (hf : ∀ v, key (f v) = key v) (k : κ) :
    (t.modify f hf).get? k = (t.get? k).map f := by
  rw [get?, modify, List.find?_map]
  simp only [Function.comp_def, hf]
  rfl

/-- A row is found under its own key only. -/
theorem key_of_get? {t : Table key} {k : κ} {v : ν} (h : t.get? k = some v) : key v = k := by
  simpa using List.find?_some h

theorem get?_key {t : Table key} {k : κ} {v : ν} (h : t.get? k = some v) :
    t.get? (key v) = some v := by
  rw [key_of_get? h]
  exact h

theorem mem_rows_of_get? {t : Table key} {k : κ} {v : ν} (h : t.get? k = some v) : v ∈ t.rows :=
  List.mem_of_find?_eq_some h

private theorem find?_of_mem {ws : List ν} (hn : (ws.map key).Nodup) {v : ν} (h : v ∈ ws) :
    ws.find? (fun w => key w = key v) = some v := by
  induction ws with
  | nil => cases h
  | cons w ws ih =>
    rw [List.map_cons, List.nodup_cons] at hn
    rcases List.mem_cons.mp h with rfl | h
    · simp
    · have hw : key w ≠ key v := fun hk => hn.1 (hk ▸ List.mem_map_of_mem h)
      rw [List.find?_cons_of_neg (by simpa using hw)]
      exact ih hn.2 h

theorem get?_of_mem_rows {t : Table key} {v : ν} (h : v ∈ t.rows) : t.get? (key v) = some v :=
  find?_of_mem t.nodup h

/-- A row of a key that is present takes the place of the row there. -/
theorem rows_put_of_get? {t : Table key} {v w : ν} (h : t.get? (key v) = some w) :
    (t.put v).rows = t.rows.map fun u => if key u = key v then v else u := by
  have hreplace : ∀ ws : List ν, (ws.map key).Nodup → ws.find? (fun u => key u = key v) = some w →
      putRow key v ws = ws.map fun u => if key u = key v then v else u := by
    intro ws hn hws
    induction ws with
    | nil => cases hws
    | cons u ws ih =>
      rw [List.map_cons, List.nodup_cons] at hn
      by_cases hu : key u = key v
      · have hrest : ws.map (fun u => if key u = key v then v else u) = ws := by
          have hkept : ∀ x ∈ ws, (if key x = key v then v else x) = id x := by
            intro x hx
            have hne : key x ≠ key v := fun hk => hn.1 ((hu.trans hk.symm) ▸ List.mem_map_of_mem hx)
            rw [if_neg hne, id]
          rw [List.map_congr_left hkept, List.map_id]
        rw [putRow, if_pos hu, List.map_cons, if_pos hu, hrest]
      · rw [List.find?_cons_of_neg (by simpa using hu)] at hws
        rw [putRow, if_neg hu, List.map_cons, if_neg hu, ih hn.2 hws]
  exact hreplace t.rows t.nodup h

theorem eq_of_key {t : Table key} {u v w : ν} (hu : u ∈ t.rows) (h : t.get? (key v) = some w)
    (hk : key u = key v) : u = w := by
  have hget := get?_of_mem_rows hu
  rw [hk, h] at hget
  exact (Option.some.inj hget).symm

/-- A row after a put is the one put, or an old one of another key. -/
theorem mem_rows_put_cases {t : Table key} {v w : ν} (h : w ∈ (t.put v).rows) :
    w = v ∨ w ∈ t.rows ∧ key w ≠ key v := by
  have hget := get?_of_mem_rows h
  by_cases hkey : key w = key v
  · rw [get?_put_of_eq t hkey] at hget
    exact Or.inl (Option.some.inj hget).symm
  · rw [get?_put_of_ne t hkey] at hget
    exact Or.inr ⟨mem_rows_of_get? hget, hkey⟩

theorem mem_rows_put {t : Table key} {v w : ν} (h : w ∈ (t.put v).rows) : w = v ∨ w ∈ t.rows :=
  (mem_rows_put_cases h).imp_right And.left

/-- Putting a row that is there changes nothing. -/
theorem rows_put_self {t : Table key} {v : ν} (h : t.get? (key v) = some v) :
    (t.put v).rows = t.rows := by
  rw [rows_put_of_get? h]
  refine (List.map_congr_left fun u hu => ?_).trans t.rows.map_id
  by_cases hk : key u = key v
  · rw [if_pos hk, eq_of_key hu h hk, id]
  · rw [if_neg hk, id]

/-- New rows of distinct keys go to the end one after the other. -/
theorem rows_foldl_put {vs : List ν} {t : Table key} (hn : (vs.map key).Nodup)
    (h : ∀ v ∈ vs, t.get? (key v) = none) : (vs.foldl put t).rows = t.rows ++ vs := by
  induction vs generalizing t with
  | nil => simp
  | cons v vs ih =>
    rw [List.map_cons, List.nodup_cons] at hn
    have hlater : ∀ w ∈ vs, (t.put v).get? (key w) = none := by
      intro w hw
      have hne : key w ≠ key v := fun hk => hn.1 (hk ▸ List.mem_map_of_mem hw)
      rw [get?_put_of_ne t hne]
      exact h w (List.mem_cons_of_mem _ hw)
    rw [List.foldl_cons, ih hn.2 hlater, rows_put_of_none (h v List.mem_cons_self),
      List.append_assoc, List.singleton_append]

/-- A replacement that some projection does not tell from the row before is not seen by it. -/
theorem filterMap_put {β : Type} {t : Table key} {v w : ν} (h : t.get? (key v) = some w)
    (f : ν → Option β) (hf : f v = f w) : (t.put v).rows.filterMap f = t.rows.filterMap f := by
  rw [rows_put_of_get? h, List.filterMap_map]
  apply List.filterMap_congr
  intro u hu
  by_cases hk : key u = key v
  · rw [Function.comp_apply, if_pos hk, hf, eq_of_key hu h hk]
  · rw [Function.comp_apply, if_neg hk]

/-- A replacement that counts only where the row before did adds nothing to a count. -/
theorem countP_put_le {t : Table key} {v w : ν} (h : t.get? (key v) = some w) (p : ν → Bool)
    (hp : p v = true → p w = true) : (t.put v).rows.countP p ≤ t.rows.countP p := by
  rw [rows_put_of_get? h, List.countP_map]
  apply List.countP_mono_left
  intro u hu hpu
  by_cases hk : key u = key v
  · rw [Function.comp_apply, if_pos hk] at hpu
    rw [eq_of_key hu h hk]
    exact hp hpu
  · rw [Function.comp_apply, if_neg hk] at hpu
    exact hpu

/-- The rows that pass a test. -/
def filter (t : Table key) (p : ν → Bool) : Table key where
  rows := t.rows.filter p
  nodup := t.nodup.sublist (List.filter_sublist.map key)

/-- What is found in the filtered table is what was found before, if it passes. -/
theorem get?_filter (t : Table key) (p : ν → Bool) (k : κ) :
    (t.filter p).get? k = (t.get? k).filter p := by
  cases hk : t.get? k with
  | none =>
    rw [Option.filter_none]
    refine List.find?_eq_none.mpr fun v hv => ?_
    exact List.find?_eq_none.mp hk v (List.mem_of_mem_filter hv)
  | some v =>
    have hkey := key_of_get? hk
    by_cases hp : p v = true
    · have hmem : v ∈ (t.filter p).rows := List.mem_filter.mpr ⟨mem_rows_of_get? hk, hp⟩
      rw [Option.filter_some_pos hp, ← hkey]
      exact get?_of_mem_rows hmem
    · rw [Option.filter_some_neg (Bool.not_eq_true _ ▸ hp)]
      refine List.find?_eq_none.mpr fun w hw hwk => ?_
      have hw' := List.mem_filter.mp hw
      have heq : w = v :=
        eq_of_key hw'.1 (get?_key hk) ((of_decide_eq_true hwk).trans hkey.symm)
      exact hp (heq ▸ hw'.2)

/-! Rows are removed by a test of what they belong to. -/

/-- Exactly the rows that belong are gone, and no other row is new. -/
structure Removed (before after : Table key) (belongs : ν → Bool) : Prop where
  gone : ∀ row ∈ after.rows, belongs row = false
  kept : ∀ row, belongs row = false → (row ∈ after.rows ↔ row ∈ before.rows)

/-- The rows that do not belong are the same. -/
def Kept (before after : Table key) (belongs : ν → Bool) : Prop :=
  ∀ row, belongs row = false → (row ∈ after.rows ↔ row ∈ before.rows)

def remove (t : Table key) (belongs : ν → Bool) : Table key := t.filter fun row => !belongs row

omit [DecidableEq κ] in
theorem mem_remove {t : Table key} {belongs : ν → Bool} {row : ν} :
    row ∈ (t.remove belongs).rows ↔ row ∈ t.rows ∧ belongs row = false := by
  rw [remove, filter, List.mem_filter, Bool.not_eq_true']

omit [DecidableEq κ] in
theorem removed_remove (t : Table key) (belongs : ν → Bool) :
    Removed t (t.remove belongs) belongs where
  gone _ hrow := (mem_remove.mp hrow).2
  kept _ hrow := ⟨fun h => (mem_remove.mp h).1, fun h => mem_remove.mpr ⟨h, hrow⟩⟩

omit [DecidableEq κ] in
theorem kept_remove (t : Table key) (belongs : ν → Bool) : Kept t (t.remove belongs) belongs :=
  (removed_remove t belongs).kept

omit [DecidableEq κ] in
theorem kept_refl (t : Table key) (belongs : ν → Bool) : Kept t t belongs := fun _ _ => Iff.rfl

omit [DecidableEq κ] in
theorem removed_refl_iff {t : Table key} {belongs : ν → Bool} :
    Removed t t belongs ↔ ∀ row ∈ t.rows, belongs row = false :=
  ⟨fun h => h.gone, fun h => ⟨h, fun _ _ => Iff.rfl⟩⟩

omit [DecidableEq κ] in
theorem ext_rows {t u : Table key} (h : t.rows = u.rows) : t = u := by
  obtain ⟨rows, _⟩ := t
  obtain ⟨_, _⟩ := u
  cases h
  rfl

omit [DecidableEq κ] in
theorem remove_eq_self_iff {t : Table key} {belongs : ν → Bool} :
    t.remove belongs = t ↔ ∀ row ∈ t.rows, belongs row = false := by
  constructor
  · intro h row hrow
    rw [← h] at hrow
    exact (mem_remove.mp hrow).2
  · intro h
    apply ext_rows
    refine List.filter_eq_self.mpr fun row hrow => ?_
    rw [h row hrow, Bool.not_false]

/-- No row that is found belongs when no row does. -/
theorem any_get?_eq_false {t : Table key} {belongs : ν → Bool}
    (h : ∀ row ∈ t.rows, belongs row = false) (k : κ) : (t.get? k).any belongs = false := by
  cases hk : t.get? k with
  | none => rfl
  | some row => exact h row (mem_rows_of_get? hk)

end Table

end Cryptox.Library
