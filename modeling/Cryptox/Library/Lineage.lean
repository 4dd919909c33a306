import Mathlib.Data.List.Nodup
import Mathlib.Data.List.Perm.Basic

/-!
# Rows kept in numbered families

Rows are grouped by a family and numbered within it. `Distinguished` says that two rows of one
family share neither their number nor their content; it survives the loss of rows, and the arrival
of a row numbered above its family whose content the family does not have.
-/
namespace Cryptox.Library

variable {ρ φ κ : Type} (family : ρ → φ) (version : ρ → Nat) (content : ρ → κ)

def Distinguished (rows : List ρ) : Prop :=
  rows.Pairwise fun a b => family a = family b → version a ≠ version b ∧ content a ≠ content b

/-- The number after the largest one given. -/
def nextVersion (versions : List Nat) : Nat := versions.foldr max 0 + 1

theorem lt_nextVersion {versions : List Nat} {n : Nat} (h : n ∈ versions) :
    n < nextVersion versions := by
  induction versions with
  | nil => cases h
  | cons m versions ih =>
    rw [nextVersion, List.foldr_cons]
    rcases List.mem_cons.mp h with rfl | h
    · omega
    · have hlt := ih h
      rw [nextVersion] at hlt
      omega

variable {family version content}

theorem distinguished_nil : Distinguished family version content [] := List.Pairwise.nil

/-- Losing rows keeps the others told apart. -/
theorem Distinguished.sublist {rows rest : List ρ} (h : Distinguished family version content rows)
    (hs : rest.Sublist rows) : Distinguished family version content rest :=
  List.Pairwise.sublist hs h

/-- A row told apart from every row of its family may be added. -/
theorem Distinguished.append {rows added : List ρ} (h : Distinguished family version content rows)
    (hadded : added.Pairwise fun a b => family a ≠ family b)
    (hfresh : ∀ a ∈ rows, ∀ b ∈ added, family a = family b →
      version a ≠ version b ∧ content a ≠ content b) :
    Distinguished family version content (rows ++ added) := by
  refine List.pairwise_append.mpr ⟨h, ?_, hfresh⟩
  exact hadded.imp fun hne heq => absurd heq hne

theorem nextVersion_perm {versions others : List Nat} (h : versions.Perm others) :
    nextVersion versions = nextVersion others := by
  rw [nextVersion, nextVersion, h.foldr_eq]

variable [DecidableEq φ]

theorem pairwise_family {rows : List ρ} (h : Distinguished family version content rows) (f : φ) :
    (rows.filter fun r => family r = f).Pairwise fun a b =>
      version a ≠ version b ∧ content a ≠ content b := by
  have hsub : (rows.filter fun r => family r = f).Sublist rows := List.filter_sublist
  refine List.Pairwise.imp_of_mem ?_ (h.sublist hsub)
  intro a b ha hb hab
  have hfa : family a = f := by simpa using (List.mem_filter.mp ha).2
  have hfb : family b = f := by simpa using (List.mem_filter.mp hb).2
  exact hab (hfa.trans hfb.symm)

/-- In each family the numbers are pairwise distinct, and so are the contents. -/
theorem distinguished_iff {rows : List ρ} :
    Distinguished family version content rows ↔ ∀ f,
      ((rows.filter fun r => family r = f).map version).Nodup ∧
        ((rows.filter fun r => family r = f).map content).Nodup := by
  constructor
  · intro h f
    have hpairs := pairwise_family h f
    exact ⟨List.pairwise_map.mpr (hpairs.imp And.left),
      List.pairwise_map.mpr (hpairs.imp And.right)⟩
  · intro h
    induction rows with
    | nil => exact distinguished_nil
    | cons a rows ih =>
      refine List.pairwise_cons.mpr ⟨?_, ih fun f => ?_⟩
      · intro b hb hab
        have hmem : b ∈ rows.filter fun r => family r = family a :=
          List.mem_filter.mpr ⟨hb, by simpa using hab.symm⟩
        have hself := h (family a)
        rw [List.filter_cons_of_pos (by simp), List.map_cons, List.map_cons] at hself
        constructor
        · intro hv
          exact (List.nodup_cons.mp hself.1).1 (hv ▸ List.mem_map_of_mem hmem)
        · intro hc
          exact (List.nodup_cons.mp hself.2).1 (hc ▸ List.mem_map_of_mem hmem)
      · have hsub : (rows.filter fun r => family r = f).Sublist
            ((a :: rows).filter fun r => family r = f) :=
          (List.sublist_cons_self a rows).filter _
        exact ⟨(h f).1.sublist (hsub.map _), (h f).2.sublist (hsub.map _)⟩

/-- A row numbered right after its family, with a content that the family does not have. -/
structure Successor (family : ρ → φ) (version : ρ → Nat) (content : ρ → κ) (rows : List ρ) (b : ρ) :
    Prop where
  version_eq : version b = nextVersion ((rows.filter fun a => family a = family b).map version)
  content_ne : ∀ a ∈ rows, family a = family b → content a ≠ content b

theorem Successor.apart {rows : List ρ} {a b : ρ} (h : Successor family version content rows b)
    (ha : a ∈ rows) (hf : family a = family b) : version a ≠ version b ∧ content a ≠ content b := by
  have hmem : version a ∈ (rows.filter fun r => family r = family b).map version :=
    List.mem_map_of_mem (List.mem_filter.mpr ⟨ha, by simpa using hf⟩)
  have hlt := lt_nextVersion hmem
  rw [← h.version_eq] at hlt
  exact ⟨Nat.ne_of_lt hlt, h.content_ne a ha hf⟩

/-- Two successors in one family have the same number. -/
theorem Successor.version_eq_of_family {rows : List ρ} {b c : ρ}
    (hb : Successor family version content rows b) (hc : Successor family version content rows c)
    (hf : family b = family c) : version b = version c := by
  rw [hb.version_eq, hc.version_eq, hf]

theorem Distinguished.append_successor {rows : List ρ} {b : ρ}
    (h : Distinguished family version content rows)
    (hb : Successor family version content rows b) :
    Distinguished family version content (rows ++ [b]) := by
  refine h.append (List.pairwise_singleton _ b) fun a ha c hc hf => ?_
  rw [List.mem_singleton.mp hc] at hf ⊢
  exact hb.apart ha hf

/-- Several successors of the same rows stay told apart just when they are of different families. -/
theorem distinguished_append_iff {rows added : List ρ}
    (h : Distinguished family version content rows)
    (hadded : ∀ b ∈ added, Successor family version content rows b) :
    Distinguished family version content (rows ++ added) ↔
      added.Pairwise fun a b => family a ≠ family b := by
  constructor
  · intro hall
    refine List.Pairwise.imp_of_mem ?_ (hall.sublist (List.sublist_append_right rows added))
    intro a b ha hb hab hf
    exact (hab hf).1 ((hadded a ha).version_eq_of_family (hadded b hb) hf)
  · intro hpair
    exact h.append hpair fun a ha b hb hf => (hadded b hb).apart ha hf

end Cryptox.Library
