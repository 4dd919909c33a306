import Mathlib.Data.List.Basic

/-!
# Scanning a text for matches

A matcher says what match a text begins with, and what follows it. A scan goes from left to right,
takes every match it meets and passes over everything else item by item, as a global search does.
-/
namespace Cryptox.Library

variable {α : Type}

/-- An item that no match begins at, or a match. -/
inductive Piece (α : Type) where
  | item (a : α)
  | found (token : List α)
deriving DecidableEq, Repr

abbrev Matcher (α : Type) := List α → Option (List α × List α)

def Piece.text : Piece α → List α
  | .item a => [a]
  | .found token => token

def Piece.token? : Piece α → Option (List α)
  | .item _ => none
  | .found token => some token

def Piece.item? : Piece α → Option α
  | .item a => some a
  | .found _ => none

/-- The text that pieces make up. -/
def render (pieces : List (Piece α)) : List α := pieces.flatMap Piece.text

/-- A scan of no more than so many steps. -/
def scanWithin (matcher : Matcher α) : Nat → List α → List (Piece α)
  | _, [] => []
  | 0, _ :: _ => []
  | bound + 1, a :: rest =>
    match matcher (a :: rest) with
    | some (token, after) => .found token :: scanWithin matcher bound after
    | none => .item a :: scanWithin matcher bound rest

def scan (matcher : Matcher α) (text : List α) : List (Piece α) :=
  scanWithin matcher text.length text

/-- `replace(pattern, "")` of a pattern with the flag `g`. -/
def removeAll (matcher : Matcher α) (text : List α) : List α :=
  (scan matcher text).flatMap fun piece =>
    match piece with
    | .item a => [a]
    | .found _ => []

/-- A match is not empty, and together with what follows it is the text. -/
structure Lawful (matcher : Matcher α) : Prop where
  split : ∀ {text token after}, matcher text = some (token, after) → text = token ++ after
  nonempty : ∀ {text token after}, matcher text = some (token, after) → token ≠ []

/-- Pieces that a scan of their text finds again. -/
def Parsed (matcher : Matcher α) : List (Piece α) → Prop
  | [] => True
  | .item a :: rest => matcher (a :: render rest) = none ∧ Parsed matcher rest
  | .found token :: rest =>
    token ≠ [] ∧ matcher (token ++ render rest) = some (token, render rest) ∧ Parsed matcher rest

variable {matcher : Matcher α} {text : List α} {pieces : List (Piece α)}

@[simp] theorem render_nil : render ([] : List (Piece α)) = [] := rfl

@[simp] theorem render_item (a : α) (rest : List (Piece α)) :
    render (.item a :: rest) = a :: render rest := rfl

@[simp] theorem render_found (token : List α) (rest : List (Piece α)) :
    render (.found token :: rest) = token ++ render rest := rfl

theorem Lawful.length_lt (h : Lawful matcher) {token after : List α}
    (hmatch : matcher text = some (token, after)) : after.length < text.length := by
  have hsplit := h.split hmatch
  have hpos := List.length_pos_iff.mpr (h.nonempty hmatch)
  rw [hsplit, List.length_append]
  omega

theorem scanWithin_parsed (h : Lawful matcher) {bound : Nat} (hbound : text.length ≤ bound) :
    render (scanWithin matcher bound text) = text ∧
      Parsed matcher (scanWithin matcher bound text) := by
  induction bound generalizing text with
  | zero =>
    rw [List.eq_nil_of_length_eq_zero (Nat.le_zero.mp hbound)]
    exact ⟨rfl, trivial⟩
  | succ bound ih =>
    cases text with
    | nil => exact ⟨rfl, trivial⟩
    | cons a rest =>
      rw [List.length_cons] at hbound
      rw [scanWithin]
      cases hmatch : matcher (a :: rest) with
      | none =>
        obtain ⟨hrender, hparsed⟩ := @ih rest (by omega)
        dsimp only
        rw [render_item, hrender]
        refine ⟨rfl, ?_, hparsed⟩
        rw [hrender]
        exact hmatch
      | some found =>
        obtain ⟨token, after⟩ := found
        have hshorter := h.length_lt hmatch
        rw [List.length_cons] at hshorter
        obtain ⟨hrender, hparsed⟩ := @ih after (by omega)
        dsimp only
        rw [render_found, hrender, ← h.split hmatch]
        refine ⟨rfl, h.nonempty hmatch, ?_, hparsed⟩
        rw [hrender, ← h.split hmatch]
        exact hmatch

theorem scanWithin_render {bound : Nat} (hparsed : Parsed matcher pieces)
    (hbound : (render pieces).length ≤ bound) :
    scanWithin matcher bound (render pieces) = pieces := by
  induction pieces generalizing bound with
  | nil => cases bound <;> rfl
  | cons piece rest ih =>
    cases piece with
    | item a =>
      obtain ⟨hnone, hrest⟩ := hparsed
      rw [render_item, List.length_cons] at hbound
      obtain ⟨bound, rfl⟩ := Nat.exists_eq_succ_of_ne_zero (by omega : bound ≠ 0)
      rw [render_item, scanWithin, hnone]
      dsimp only
      rw [ih hrest (by omega)]
    | found token =>
      obtain ⟨hnonempty, hmatch, hrest⟩ := hparsed
      rw [render_found, List.length_append] at hbound
      have hpos := List.length_pos_iff.mpr hnonempty
      obtain ⟨bound, rfl⟩ := Nat.exists_eq_succ_of_ne_zero (by omega : bound ≠ 0)
      obtain ⟨a, token', rfl⟩ := List.exists_cons_of_ne_nil hnonempty
      rw [render_found, List.cons_append, scanWithin, ← List.cons_append, hmatch]
      dsimp only
      rw [ih hrest (by omega)]

/-- The pieces of a scan are the ones that make up the text and are found in it. -/
theorem scan_eq_iff (h : Lawful matcher) :
    scan matcher text = pieces ↔ render pieces = text ∧ Parsed matcher pieces := by
  constructor
  · rintro rfl
    exact scanWithin_parsed h (Nat.le_refl _)
  · rintro ⟨rfl, hparsed⟩
    exact scanWithin_render hparsed (Nat.le_refl _)

/-- A text without a match is passed over. -/
theorem removeAll_eq_self
    (h : ∀ before rest, text = before ++ rest → matcher rest = none) :
    removeAll matcher text = text := by
  have hrender : ∀ items : List α, render (items.map Piece.item) = items := by
    intro items
    induction items with
    | nil => rfl
    | cons a items ih => rw [List.map_cons, render_item, ih]
  have hparsed : Parsed matcher (text.map Piece.item) := by
    induction text with
    | nil => trivial
    | cons a rest ih =>
      refine ⟨?_, ih fun before after heq => h (a :: before) after (by rw [heq, List.cons_append])⟩
      rw [hrender]
      exact h [] (a :: rest) rfl
  have hscan := scanWithin_render hparsed (Nat.le_refl _)
  rw [hrender] at hscan
  rw [removeAll, scan, hscan, List.flatMap_map]
  exact List.flatMap_singleton' text

end Cryptox.Library
