import Mathlib.Data.List.Basic
import Mathlib.Tactic.Common

/-!
# Paging with cursors

A reader that answers with cuts of one list, each with a cursor to where the next begins. Following
the cursors gives the list, in full pages but for the last.
-/
namespace Cryptox.Library

variable {α γ ε : Type}

structure Page (α γ : Type) where
  items : List α
  totalCount : Nat
  nextCursor : Option γ
deriving Repr

/-- The pages met from a cursor on, until one names no next. -/
inductive Followed (read : Option γ → Except ε (Page α γ)) :
    Option γ → List (Page α γ) → Prop
  | last {cursor : Option γ} {page : Page α γ} :
      read cursor = .ok page → page.nextCursor = none → Followed read cursor [page]
  | next {cursor : Option γ} {page : Page α γ} {after : γ} {pages : List (Page α γ)} :
      read cursor = .ok page → page.nextCursor = some after → Followed read (some after) pages →
        Followed read cursor (page :: pages)

structure Lossless (limit total : Nat) (ordered : List α) (pages : List (Page α γ)) : Prop where
  items : pages.flatMap (·.items) = ordered
  full : ∀ page ∈ pages.dropLast, page.items.length = limit
  bounded : ∀ page ∈ pages, page.items.length ≤ limit
  total : ∀ page ∈ pages, page.totalCount = total

/-- The page that starts at a position of a list. -/
def cut (cursorOf : α → γ) (ordered : List α) (limit start : Nat) : Page α γ :=
  let items := (ordered.drop start).take limit
  { items
    totalCount := ordered.length
    nextCursor := if start + items.length < ordered.length then items.getLast?.map cursorOf else none }

/-- The first page is the first cut, and the cursor of an element leads to the cut behind it. -/
structure Cuts (read : Option γ → Except ε (Page α γ)) (cursorOf : α → γ) (ordered : List α)
    (limit : Nat) : Prop where
  first : read none = .ok (cut cursorOf ordered limit 0)
  next : ∀ (i : Nat) (a : α), ordered[i]? = some a →
    read (some (cursorOf a)) = .ok (cut cursorOf ordered limit (i + 1))

variable {read : Option γ → Except ε (Page α γ)} {cursorOf : α → γ} {ordered : List α}
  {limit start : Nat}

theorem Followed.ne_nil {cursor : Option γ} {pages : List (Page α γ)}
    (h : Followed read cursor pages) : pages ≠ [] := by
  cases h <;> exact List.cons_ne_nil _ _

theorem Followed.unique {cursor : Option γ} {pages others : List (Page α γ)}
    (h : Followed read cursor pages) (hother : Followed read cursor others) : others = pages := by
  induction h generalizing others with
  | last hread hnone =>
    cases hother with
    | last hread' _ =>
      cases hread.symm.trans hread'
      rfl
    | next hread' hsome _ =>
      cases hread.symm.trans hread'
      cases hnone.symm.trans hsome
  | next hread hsome _ ih =>
    cases hother with
    | last hread' hnone =>
      cases hread.symm.trans hread'
      cases hsome.symm.trans hnone
    | next hread' hsome' hrest =>
      cases hread.symm.trans hread'
      cases hsome.symm.trans hsome'
      rw [ih hrest]

theorem length_cut_items (cursorOf : α → γ) (ordered : List α) (limit start : Nat) :
    (cut cursorOf ordered limit start).items.length = min limit (ordered.length - start) := by
  rw [cut, List.length_take, List.length_drop]

/-- A cut that more follows is full, and its cursor is that of its last element. -/
theorem cut_next (cursorOf : α → γ) (hlimit : 0 < limit) (hmore : start + limit < ordered.length) :
    ∃ a, ordered[start + limit - 1]? = some a ∧
      (cut cursorOf ordered limit start).nextCursor = some (cursorOf a) := by
  have hitems : ((ordered.drop start).take limit).length = limit := by
    rw [List.length_take, List.length_drop]
    omega
  have hlast : ((ordered.drop start).take limit).getLast? = ordered[start + limit - 1]? := by
    have hindex : start + (limit - 1) = start + limit - 1 := by omega
    rw [List.getLast?_eq_getElem?, hitems, List.getElem?_take_of_lt (by omega), List.getElem?_drop,
      hindex]
  have hin : start + limit - 1 < ordered.length := by omega
  refine ⟨ordered[start + limit - 1], List.getElem?_eq_getElem hin, ?_⟩
  simp only [cut, hitems, if_pos hmore, hlast, List.getElem?_eq_getElem hin, Option.map_some]

/-- A cursor that leads to a position is answered with the page there and, where the list goes on,
with a cursor that leads to the next. -/
def LeadsOn (read : Option γ → Except ε (Page α γ)) (ordered : List α) (limit total : Nat)
    (leads : Nat → Option γ → Prop) : Prop :=
  ∀ start cursor, leads start cursor → ∃ page, read cursor = .ok page ∧
    page.items = (ordered.drop start).take limit ∧ page.totalCount = total ∧
    if start + limit < ordered.length then
      ∃ after, page.nextCursor = some after ∧ leads (start + limit) (some after)
    else page.nextCursor = none

theorem LeadsOn.followed {total : Nat} {leads : Nat → Option γ → Prop}
    (h : LeadsOn read ordered limit total leads) (hlimit : 0 < limit) {cursor : Option γ}
    (hcursor : leads start cursor) :
    ∃ pages, Followed read cursor pages ∧ Lossless limit total (ordered.drop start) pages := by
  -- the induction is on what is left of the list
  induction hleft : ordered.length - start using Nat.strongRecOn generalizing start cursor with
  | ind left ih =>
    subst hleft
    obtain ⟨page, hread, hitems, htotal, hnext⟩ := h start cursor hcursor
    have hlength : page.items.length = min limit (ordered.length - start) := by
      rw [hitems, List.length_take, List.length_drop]
    have hbounded : page.items.length ≤ limit := by omega
    by_cases hmore : start + limit < ordered.length
    · rw [if_pos hmore] at hnext
      obtain ⟨after, hafter, hleads⟩ := hnext
      obtain ⟨pages, hpages, hlossless⟩ :=
        ih (ordered.length - (start + limit)) (by omega) hleads rfl
      refine ⟨page :: pages, Followed.next hread hafter hpages, ?_, ?_, ?_, ?_⟩
      · rw [List.flatMap_cons, hlossless.items, hitems, ← List.drop_drop]
        exact List.take_append_drop limit (ordered.drop start)
      · rw [List.dropLast_cons_of_ne_nil hpages.ne_nil]
        intro other hother
        rcases List.mem_cons.mp hother with rfl | hother
        · omega
        · exact hlossless.full other hother
      · intro other hother
        rcases List.mem_cons.mp hother with rfl | hother
        · exact hbounded
        · exact hlossless.bounded other hother
      · intro other hother
        rcases List.mem_cons.mp hother with rfl | hother
        · exact htotal
        · exact hlossless.total other hother
    · rw [if_neg hmore] at hnext
      refine ⟨[page], Followed.last hread hnext, ?_, ?_, ?_, ?_⟩
      · rw [List.flatMap_singleton, hitems]
        exact List.take_of_length_le (by rw [List.length_drop]; omega)
      · exact fun other hother => nomatch hother
      · intro other hother
        rw [List.mem_singleton.mp hother]
        exact hbounded
      · intro other hother
        rw [List.mem_singleton.mp hother]
        exact htotal

/-- Following the cursors from the start gives the whole list. -/
theorem LeadsOn.all {total : Nat} {leads : Nat → Option γ → Prop}
    (h : LeadsOn read ordered limit total leads) (hlimit : 0 < limit) (hstart : leads 0 none) :
    ∃ pages, (∀ others, Followed read none others ↔ others = pages) ∧
      Lossless limit total ordered pages := by
  obtain ⟨pages, hpages, hlossless⟩ := h.followed hlimit hstart
  rw [List.drop_zero] at hlossless
  refine ⟨pages, fun others => ⟨fun hothers => hpages.unique hothers, ?_⟩, hlossless⟩
  rintro rfl
  exact hpages

/-- The cursor of a cut leads to the next one. -/
theorem Cuts.leadsOn (hlimit : 0 < limit) (hcuts : Cuts read cursorOf ordered limit) :
    LeadsOn read ordered limit ordered.length fun start cursor =>
      read cursor = .ok (cut cursorOf ordered limit start) := by
  intro start cursor hread
  refine ⟨_, hread, rfl, rfl, ?_⟩
  by_cases hmore : start + limit < ordered.length
  · rw [if_pos hmore]
    obtain ⟨a, ha, hnext⟩ := cut_next cursorOf hlimit hmore
    have hread' := hcuts.next _ a ha
    have hstart : start + limit - 1 + 1 = start + limit := by omega
    rw [hstart] at hread'
    exact ⟨_, hnext, hread'⟩
  · have hlength := length_cut_items cursorOf ordered limit start
    have hend : ¬ start + (cut cursorOf ordered limit start).items.length < ordered.length := by
      omega
    rw [if_neg hmore]
    exact if_neg hend

/-- Following the cursors from the start gives the whole list. -/
theorem followed_all (hlimit : 0 < limit) (hcuts : Cuts read cursorOf ordered limit) :
    ∃ pages, (∀ others, Followed read none others ↔ others = pages) ∧
      Lossless limit ordered.length ordered pages :=
  (hcuts.leadsOn hlimit).all hlimit hcuts.first

end Cryptox.Library
