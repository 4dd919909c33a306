import Cryptox.Library.GuardedSystem
import Mathlib.Logic.Function.Basic
import Mathlib.Data.List.Chain
import Mathlib.Data.List.Nodup

/-!
# Jobs handed out for a while

A desk hands a job to one holder at a time, until an instant; a result is taken from the holder
before that instant only, and ends the job. In every run the leases of a job lie one after the
other, at most one result of it is taken, and that from the holder of its latest lease.
-/
namespace Cryptox.Library

inductive LeasedJob (τ ρ : Type) where
  | idle
  | held (holder : τ) (expiresAt : Int)
  | finished (result : ρ)

structure Grant (κ τ : Type) where
  job : κ
  holder : τ
  grantedAt : Int
  expiresAt : Int
deriving DecidableEq, Repr

structure Acceptance (κ τ ρ : Type) where
  job : κ
  holder : τ
  acceptedAt : Int
  result : ρ
deriving DecidableEq, Repr

/-- The jobs, and what was granted and accepted, the latest first. -/
structure Desk (κ τ ρ : Type) where
  jobs : κ → Option (LeasedJob τ ρ)
  grants : List (Grant κ τ)
  acceptances : List (Acceptance κ τ ρ)

inductive DeskEvent (κ τ ρ : Type) where
  | post (job : κ)
  | claim (grant : Grant κ τ)
  | finish (acceptance : Acceptance κ τ ρ)

/-- Nobody holds the job at `now`, and it has no result. -/
def LeasedJob.Free {τ ρ : Type} (now : Int) : LeasedJob τ ρ → Prop
  | idle => True
  | held _ expiresAt => expiresAt ≤ now
  | finished _ => False

def LeasedJob.result? {τ ρ : Type} : LeasedJob τ ρ → Option ρ
  | idle | held .. => none
  | finished result => some result

namespace Desk

variable {κ τ ρ : Type} [DecidableEq κ]

def empty : Desk κ τ ρ := ⟨fun _ => none, [], []⟩

def enabled (desk : Desk κ τ ρ) : DeskEvent κ τ ρ → Prop
  | .post job => desk.jobs job = none
  | .claim grant => ∃ state, desk.jobs grant.job = some state ∧ state.Free grant.grantedAt
  | .finish acceptance => ∃ expiresAt,
      desk.jobs acceptance.job = some (.held acceptance.holder expiresAt) ∧
        acceptance.acceptedAt < expiresAt

def next (desk : Desk κ τ ρ) : DeskEvent κ τ ρ → Desk κ τ ρ
  | .post job => { desk with jobs := Function.update desk.jobs job (some .idle) }
  | .claim grant =>
    { desk with
      jobs := Function.update desk.jobs grant.job (some (.held grant.holder grant.expiresAt))
      grants := grant :: desk.grants }
  | .finish acceptance =>
    { desk with
      jobs := Function.update desk.jobs acceptance.job (some (.finished acceptance.result))
      acceptances := acceptance :: desk.acceptances }

def system (κ τ ρ : Type) [DecidableEq κ] : GuardedSystem (Desk κ τ ρ) (DeskEvent κ τ ρ) :=
  ⟨enabled, next⟩

def grantsOf (desk : Desk κ τ ρ) (job : κ) : List (Grant κ τ) :=
  desk.grants.filter fun grant => grant.job = job

def acceptancesOf (desk : Desk κ τ ρ) (job : κ) : List (Acceptance κ τ ρ) :=
  desk.acceptances.filter fun acceptance => acceptance.job = job

/-- What the grants and acceptances of a job in a state are. -/
def Explains (grants : List (Grant κ τ)) (acceptances : List (Acceptance κ τ ρ)) :
    Option (LeasedJob τ ρ) → Prop
  | none | some .idle => grants = [] ∧ acceptances = []
  | some (.held holder expiresAt) =>
    (∃ grant ∈ grants.head?, grant.holder = holder ∧ grant.expiresAt = expiresAt) ∧ acceptances = []
  | some (.finished result) => ∃ grant ∈ grants.head?, ∃ acceptance, acceptances = [acceptance] ∧
      acceptance.result = result ∧ acceptance.holder = grant.holder ∧
        acceptance.acceptedAt < grant.expiresAt

/-- A job's leases lie one after the other, and say in which state it is. -/
structure Coherent (desk : Desk κ τ ρ) : Prop where
  explained : ∀ job, Explains (desk.grantsOf job) (desk.acceptancesOf job) (desk.jobs job)
  apart : ∀ job, (desk.grantsOf job).IsChain fun later earlier =>
    earlier.expiresAt ≤ later.grantedAt

theorem coherent_empty : (empty : Desk κ τ ρ).Coherent where
  explained _ := ⟨rfl, rfl⟩
  apart _ := List.IsChain.nil

section Steps

variable {desk : Desk κ τ ρ}

theorem grantsOf_claim (grant : Grant κ τ) (job : κ) :
    (desk.next (.claim grant)).grantsOf job =
      if grant.job = job then grant :: desk.grantsOf job else desk.grantsOf job := by
  by_cases h : grant.job = job <;> simp [grantsOf, next, h]

theorem acceptancesOf_finish (acceptance : Acceptance κ τ ρ) (job : κ) :
    (desk.next (.finish acceptance)).acceptancesOf job =
      if acceptance.job = job then acceptance :: desk.acceptancesOf job
      else desk.acceptancesOf job := by
  by_cases h : acceptance.job = job <;> simp [acceptancesOf, next, h]

theorem coherent_post {job : κ} (h : desk.Coherent) (hnew : desk.jobs job = none) :
    (desk.next (.post job)).Coherent := by
  refine ⟨fun other => ?_, h.apart⟩
  have hother := h.explained other
  by_cases heq : other = job
  · subst heq
    rw [hnew] at hother
    have hjob : (desk.next (.post other)).jobs other = some .idle := Function.update_self ..
    rw [hjob]
    exact hother
  · have hjob : (desk.next (.post job)).jobs other = desk.jobs other :=
      Function.update_of_ne heq ..
    rw [hjob]
    exact hother

/-- What a free job's last lease, if it had one, leaves for the next. -/
theorem Coherent.free {job : κ} {state : LeasedJob τ ρ} {now : Int} (h : desk.Coherent)
    (hjob : desk.jobs job = some state) (hfree : state.Free now) :
    desk.acceptancesOf job = [] ∧ ∀ grant ∈ (desk.grantsOf job).head?, grant.expiresAt ≤ now := by
  have hexplained := h.explained job
  rw [hjob] at hexplained
  cases state with
  | idle =>
    refine ⟨hexplained.2, fun grant hgrant => ?_⟩
    rw [hexplained.1] at hgrant
    cases hgrant
  | held holder expiresAt =>
    obtain ⟨⟨latest, hlatest, -, hexpires⟩, hnone⟩ := hexplained
    refine ⟨hnone, fun grant hgrant => ?_⟩
    rw [Option.mem_unique hgrant hlatest, hexpires]
    exact hfree
  | finished result => exact hfree.elim

theorem coherent_claim {grant : Grant κ τ} (h : desk.Coherent)
    (henabled : desk.enabled (.claim grant)) : (desk.next (.claim grant)).Coherent := by
  obtain ⟨state, hstate, hfree⟩ := henabled
  obtain ⟨hnone, hover⟩ := h.free hstate hfree
  constructor
  · intro other
    rw [grantsOf_claim]
    by_cases heq : grant.job = other
    · subst heq
      have hjob : (desk.next (.claim grant)).jobs grant.job =
          some (.held grant.holder grant.expiresAt) := Function.update_self ..
      rw [if_pos rfl, hjob]
      exact ⟨⟨grant, rfl, rfl, rfl⟩, hnone⟩
    · have hjob : (desk.next (.claim grant)).jobs other = desk.jobs other :=
        Function.update_of_ne (Ne.symm heq) ..
      rw [if_neg heq, hjob]
      exact h.explained other
  · intro other
    rw [grantsOf_claim]
    split
    next heq =>
      subst heq
      exact (h.apart _).cons fun earlier hearlier => hover earlier hearlier
    next => exact h.apart other

theorem coherent_finish {acceptance : Acceptance κ τ ρ} (h : desk.Coherent)
    (henabled : desk.enabled (.finish acceptance)) :
    (desk.next (.finish acceptance)).Coherent := by
  obtain ⟨expiresAt, hheld, hbefore⟩ := henabled
  refine ⟨fun other => ?_, h.apart⟩
  rw [acceptancesOf_finish]
  have hother := h.explained other
  by_cases heq : acceptance.job = other
  · subst heq
    rw [hheld] at hother
    obtain ⟨⟨grant, hgrant, hholder, hexpires⟩, hnone⟩ := hother
    have hjob : (desk.next (.finish acceptance)).jobs acceptance.job =
        some (.finished acceptance.result) := Function.update_self ..
    rw [if_pos rfl, hjob, hnone]
    exact ⟨grant, hgrant, acceptance, rfl, rfl, hholder.symm, hexpires ▸ hbefore⟩
  · have hjob : (desk.next (.finish acceptance)).jobs other = desk.jobs other :=
      Function.update_of_ne (Ne.symm heq) ..
    rw [if_neg heq, hjob]
    exact hother

theorem coherent_next (desk : Desk κ τ ρ) (event : DeskEvent κ τ ρ) (h : desk.Coherent)
    (henabled : (system κ τ ρ).enabled desk event) : ((system κ τ ρ).next desk event).Coherent := by
  cases event with
  | post job => exact coherent_post h henabled
  | claim grant => exact coherent_claim h henabled
  | finish acceptance => exact coherent_finish h henabled

end Steps

section Runs

variable {events : List (DeskEvent κ τ ρ)} {desk : Desk κ τ ρ}

theorem coherent_run (hdesk : desk.Coherent)
    (h : (system κ τ ρ).Legal (fun _ _ => True) desk events) :
    ((system κ τ ρ).run desk events).Coherent :=
  h.invariant Coherent (fun s l hs henabled _ => coherent_next s l hs henabled) hdesk

end Runs

namespace Coherent

variable {desk : Desk κ τ ρ}

omit [DecidableEq κ] in
theorem mem_acceptancesOf [DecidableEq κ] {acceptance : Acceptance κ τ ρ}
    (h : acceptance ∈ desk.acceptances) : acceptance ∈ desk.acceptancesOf acceptance.job :=
  List.mem_filter.mpr ⟨h, decide_eq_true rfl⟩

/-- What was accepted is the result of a finished job, and came from the holder of its latest lease
while the lease ran. -/
theorem accepted (h : desk.Coherent) {acceptance : Acceptance κ τ ρ}
    (hmem : acceptance ∈ desk.acceptances) :
    desk.jobs acceptance.job = some (.finished acceptance.result) ∧
      desk.acceptancesOf acceptance.job = [acceptance] ∧
      ∃ grant ∈ (desk.grantsOf acceptance.job).head?, acceptance.holder = grant.holder ∧
        acceptance.acceptedAt < grant.expiresAt := by
  have hmem := mem_acceptancesOf hmem
  have hexplained := h.explained acceptance.job
  generalize hstate : desk.jobs acceptance.job = state at hexplained
  match state with
  | none =>
    rw [hexplained.2] at hmem
    cases hmem
  | some .idle =>
    rw [hexplained.2] at hmem
    cases hmem
  | some (.held holder expiresAt) =>
    rw [hexplained.2] at hmem
    cases hmem
  | some (.finished result) =>
    obtain ⟨grant, hgrant, other, hother, hresult, hholder, hbefore⟩ := hexplained
    rw [hother, List.mem_singleton] at hmem
    subst hmem
    exact ⟨by rw [hresult], hother, grant, hgrant, hholder, hbefore⟩

/-- The result of a job is the one that was accepted. -/
theorem result_eq (h : desk.Coherent) {job : κ} {state : LeasedJob τ ρ}
    (hjob : desk.jobs job = some state) :
    state.result? = (desk.acceptances.find? fun acceptance => acceptance.job = job).map
      Acceptance.result := by
  have hexplained := h.explained job
  rw [hjob] at hexplained
  rw [← List.head?_filter]
  show state.result? = ((desk.acceptancesOf job).head?).map Acceptance.result
  cases state with
  | idle =>
    rw [hexplained.2]
    rfl
  | held holder expiresAt =>
    rw [hexplained.2]
    rfl
  | finished result =>
    obtain ⟨grant, -, acceptance, haccepted, hresult, -⟩ := hexplained
    rw [haccepted, List.head?_cons, Option.map_some, hresult]
    rfl

/-- At most one result is accepted for a job. -/
theorem accepted_once (h : desk.Coherent) : (desk.acceptances.map Acceptance.job).Nodup := by
  have hpairwise : desk.acceptances.Pairwise fun first second => first.job ≠ second.job := by
    rw [List.pairwise_iff_forall_sublist]
    intro first second hsub heq
    have hfirst : first ∈ desk.acceptances := hsub.subset List.mem_cons_self
    have hboth := hsub.filter fun acceptance => decide (acceptance.job = first.job)
    have hone : desk.acceptances.filter (fun acceptance => decide (acceptance.job = first.job)) =
        [first] := (h.accepted hfirst).2.1
    rw [hone] at hboth
    have hlength := hboth.length_le
    simp [heq] at hlength
  exact List.pairwise_map.mpr hpairwise

end Coherent

end Desk

end Cryptox.Library
