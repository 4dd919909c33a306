import Mathlib.Init

/-!
# Successful runs of a throwing computation

A guard that throws, and what the success of a composed computation says about its parts.
-/
namespace Cryptox.Library

variable {ε α β : Type}

theorem bind_eq_ok {x : Except ε α} {f : α → Except ε β} {b : β} :
    x >>= f = .ok b ↔ ∃ a, x = .ok a ∧ f a = .ok b := by
  cases x with
  | error e =>
    constructor
    · intro h
      cases h
    · rintro ⟨a, h, -⟩
      cases h
  | ok a =>
    constructor
    · intro h
      exact ⟨a, rfl, h⟩
    · rintro ⟨a', h, hf⟩
      cases h
      exact hf

theorem pure_eq_ok {a b : α} : (pure a : Except ε α) = .ok b ↔ a = b :=
  ⟨fun h => Except.ok.inj h, fun h => congrArg Except.ok h⟩

theorem toOption_eq_some {x : Except ε α} {a : α} : x.toOption = some a ↔ x = .ok a := by
  cases x with
  | error e => exact iff_of_false (fun h => by cases h) fun h => by cases h
  | ok b =>
    constructor
    · intro h
      exact congrArg Except.ok (Option.some.inj h)
    · intro h
      exact congrArg some (Except.ok.inj h)

theorem exists_ok {x : Except ε α} (h : x.toBool = true) : ∃ a, x = .ok a := by
  cases x with
  | error e => cases h
  | ok a => exact ⟨a, rfl⟩

/-- A composed computation returns where its first part does and the rest then does. -/
theorem exists_bind_ok {x : Except ε α} {f : α → Except ε β} :
    (∃ b, x >>= f = .ok b) ↔ ∃ a, x = .ok a ∧ ∃ b, f a = .ok b := by
  simp only [bind_eq_ok]
  constructor
  · rintro ⟨b, a, hx, hf⟩
    exact ⟨a, hx, b, hf⟩
  · rintro ⟨a, hx, b, hf⟩
    exact ⟨b, a, hx, hf⟩

def throwIf (failed : Bool) (error : ε) : Except ε Unit := if failed then .error error else .ok ()

theorem throwIf_eq_ok {failed : Bool} {error : ε} {a : Unit} :
    throwIf failed error = .ok a ↔ failed = false := by
  cases failed with
  | false => exact ⟨fun _ => rfl, fun _ => rfl⟩
  | true =>
    constructor
    · intro h
      cases h
    · intro h
      cases h

theorem bind_eq_error {x : Except ε α} {f : α → Except ε β} {e : ε} :
    x >>= f = .error e ↔ x = .error e ∨ ∃ a, x = .ok a ∧ f a = .error e := by
  cases x with
  | error e' =>
    constructor
    · intro h
      cases h
      exact Or.inl rfl
    · rintro (h | ⟨a, h, -⟩) <;> cases h
      rfl
  | ok a =>
    constructor
    · intro h
      exact Or.inr ⟨a, rfl, h⟩
    · rintro (h | ⟨a', h, hf⟩) <;> cases h
      exact hf

theorem ok_bind {a : α} {f : α → Except ε β} : (Except.ok a >>= f) = f a := rfl

theorem ok_map {a : α} {f : α → β} : (Except.ok a : Except ε α).map f = .ok (f a) := rfl

theorem error_bind {error : ε} {f : α → Except ε β} : (Except.error error >>= f) = .error error :=
  rfl

theorem throwIf_false {error : ε} : throwIf false error = .ok () := rfl

theorem throwIf_eq_error {failed : Bool} {error e : ε} (h : throwIf failed error = .error e) :
    e = error := by
  cases failed with
  | false => cases h
  | true =>
    cases h
    rfl

/-- A computation throws what is allowed, if it throws. -/
def ThrowsOnly (allowed : ε → Prop) (x : Except ε α) : Prop := ∀ e, x = .error e → allowed e

namespace ThrowsOnly

variable {allowed : ε → Prop}

theorem ok (a : α) : ThrowsOnly allowed (.ok a : Except ε α) := fun _ h => by cases h

theorem error {e : ε} (h : allowed e) : ThrowsOnly allowed (.error e : Except ε α) := by
  intro e' he
  cases he
  exact h

theorem guard {failed : Bool} {e : ε} (h : allowed e) : ThrowsOnly allowed (throwIf failed e) :=
  fun _ he => throwIf_eq_error he ▸ h

theorem bind {x : Except ε α} {f : α → Except ε β} (hx : ThrowsOnly allowed x)
    (hf : ∀ a, x = .ok a → ThrowsOnly allowed (f a)) : ThrowsOnly allowed (x >>= f) := by
  intro e h
  obtain h | ⟨a, ha, h⟩ := bind_eq_error.mp h
  · exact hx e h
  · exact hf a ha e h

theorem mapM {f : α → Except ε β} (xs : List α) (h : ∀ x ∈ xs, ThrowsOnly allowed (f x)) :
    ThrowsOnly allowed (xs.mapM f) := by
  induction xs with
  | nil => exact ok []
  | cons x xs ih =>
    rw [List.mapM_cons]
    exact (h x List.mem_cons_self).bind fun y _ =>
      (ih fun x hx => h x (List.mem_cons_of_mem _ hx)).bind fun ys _ => ok (y :: ys)

end ThrowsOnly

/-- Where every element has its answer, so has the whole list, with what is known of each. -/
theorem mapM_eq_ok_of_forall {κ : Type} (f : α → Except ε β) (key : β → κ) (g : α → κ)
    {xs : List α} (h : ∀ x ∈ xs, ∃ y, f x = .ok y ∧ key y = g x) :
    ∃ ys, xs.mapM f = .ok ys ∧ ys.map key = xs.map g := by
  induction xs with
  | nil => exact ⟨[], rfl, rfl⟩
  | cons x xs ih =>
    obtain ⟨y, hy, hkey⟩ := h x List.mem_cons_self
    obtain ⟨ys, hys, hkeys⟩ := ih fun x hx => h x (List.mem_cons_of_mem _ hx)
    refine ⟨y :: ys, ?_, ?_⟩
    · rw [List.mapM_cons, hy, hys]
      rfl
    · rw [List.map_cons, List.map_cons, hkey, hkeys]

/-- A checker that answers what it is asked for answers a list element by element. -/
theorem mapM_eq_ok_map {f : α → Except ε β} {g : α → β} {xs : List α} {ys : List β}
    (hf : ∀ a ∈ xs, ∀ b, f a = .ok b → b = g a) (h : xs.mapM f = .ok ys) :
    ys = xs.map g ∧ ∀ x ∈ xs, f x = .ok (g x) := by
  induction xs generalizing ys with
  | nil => exact ⟨(pure_eq_ok.mp h).symm, fun x hx => absurd hx List.not_mem_nil⟩
  | cons x xs ih =>
    rw [List.mapM_cons] at h
    obtain ⟨y, hy, h⟩ := bind_eq_ok.mp h
    obtain ⟨rest, hrest, h⟩ := bind_eq_ok.mp h
    obtain rfl := pure_eq_ok.mp h
    obtain ⟨rfl, hall⟩ := ih (fun a ha => hf a (List.mem_cons_of_mem _ ha)) hrest
    obtain rfl := hf x List.mem_cons_self y hy
    refine ⟨rfl, fun x' hx' => ?_⟩
    rcases List.mem_cons.mp hx' with rfl | hx'
    · exact hy
    · exact hall x' hx'

/-- Every answer of a list is the answer of an element. -/
theorem exists_of_mem_mapM {f : α → Except ε β} {xs : List α} {ys : List β}
    (h : xs.mapM f = .ok ys) {y : β} (hy : y ∈ ys) : ∃ x ∈ xs, f x = .ok y := by
  induction xs generalizing ys with
  | nil =>
    rw [← pure_eq_ok.mp h] at hy
    cases hy
  | cons x xs ih =>
    rw [List.mapM_cons] at h
    obtain ⟨first, hfirst, h⟩ := bind_eq_ok.mp h
    obtain ⟨rest, hrest, h⟩ := bind_eq_ok.mp h
    rw [← pure_eq_ok.mp h] at hy
    rcases List.mem_cons.mp hy with rfl | hy
    · exact ⟨x, List.mem_cons_self, hfirst⟩
    · obtain ⟨x', hx', hanswer⟩ := ih hrest hy
      exact ⟨x', List.mem_cons_of_mem _ hx', hanswer⟩

/-- A loop that throws nothing has passed every element. -/
theorem forM_eq_ok {xs : List α} {f : α → Except ε Unit} {u : Unit} (h : xs.forM f = .ok u) :
    ∀ x ∈ xs, ∃ u, f x = .ok u := by
  induction xs with
  | nil => exact fun x hx => absurd hx List.not_mem_nil
  | cons y ys ih =>
    obtain ⟨first, hfirst, hrest⟩ := bind_eq_ok.mp h
    intro x hx
    rcases List.mem_cons.mp hx with rfl | hx
    · exact ⟨first, hfirst⟩
    · exact ih hrest x hx

end Cryptox.Library
