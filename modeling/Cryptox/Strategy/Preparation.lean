import Cryptox.Strategy.Runs

/-!
# What a preparation answers

A preparation answers a stored row or the successor of its family.
-/
namespace Cryptox.Strategy

open Cryptox.Backtesting (JsNumber CompositeComponent)
open Cryptox.Library
open StrategyStore

/-- A definition numbered right after its family. -/
abbrev NextDefinition (store : StrategyStore) (definition : StrategyDefinition) : Prop :=
  Successor familyOf (·.version) StrategyDefinition.content store.definitions.rows definition

abbrev NextComposite (store : StrategyStore) (composite : CompositeStrategyDefinition) : Prop :=
  Successor compositeFamilyOf (·.version) CompositeStrategyDefinition.content store.composites.rows
    composite

namespace StrategyModule

variable {strategies : StrategyModule} {store : StrategyStore} {userId : String}

theorem nextVersion_listed {ρ : Type} (backend : Backend) (version : ρ → Nat) (rows : List ρ) :
    nextVersion ((backend.listed version rows).map version) = nextVersion (rows.map version) := by
  cases backend with
  | inMemory => rfl
  | postgres => exact nextVersion_perm ((List.perm_insertionSort _ rows).map version)

theorem newDefinition_next {factory : StrategyFactory} {content : DefinitionContent} {draw : Draw}
    (h : strategies.storedDefinition store userId content = none) :
    NextDefinition store (strategies.newDefinition store userId factory content draw) := by
  constructor
  · exact nextVersion_listed strategies.backend _ _
  · intro a ha hfamily hcontent
    have hlisted : a ∈ strategies.listDefinitions store userId (definitionFamilyKey content) :=
      Backend.mem_listed.mpr (List.mem_filter.mpr ⟨ha, decide_eq_true hfamily⟩)
    refine List.find?_eq_none.mp h a hlisted ?_
    rw [hcontent]
    exact beq_self_eq_true _

theorem newComposite_next {content : CompositeContent} {draw : Draw}
    (h : strategies.storedComposite store userId content = none) :
    NextComposite store (strategies.newComposite store userId content draw) := by
  constructor
  · exact nextVersion_listed strategies.backend _ _
  · intro a ha hfamily hcontent
    have hlisted : a ∈ strategies.listComposites store userId (compositeFamilyKey content) :=
      Backend.mem_listed.mpr (List.mem_filter.mpr ⟨ha, decide_eq_true hfamily⟩)
    refine List.find?_eq_none.mp h a hlisted ?_
    rw [hcontent]
    exact beq_self_eq_true _

theorem storedDefinition_some {content : DefinitionContent} {existing : StrategyDefinition}
    (h : strategies.storedDefinition store userId content = some existing) :
    existing ∈ store.definitions.rows ∧ existing.userId = userId := by
  have hmem := List.mem_filter.mp (Backend.mem_listed.mp (List.mem_of_find?_eq_some h))
  have hfamily : familyOf existing = (userId, definitionFamilyKey content) := by
    simpa using hmem.2
  exact ⟨hmem.1, congrArg Prod.fst hfamily⟩

theorem storedComposite_some {content : CompositeContent} {existing : CompositeStrategyDefinition}
    (h : strategies.storedComposite store userId content = some existing) :
    existing ∈ store.composites.rows ∧ existing.userId = userId := by
  have hmem := List.mem_filter.mp (Backend.mem_listed.mp (List.mem_of_find?_eq_some h))
  have hfamily : compositeFamilyOf existing = (userId, compositeFamilyKey content) := by
    simpa using hmem.2
  exact ⟨hmem.1, congrArg Prod.fst hfamily⟩

/-- A prepared definition is the stored one of its content, or new. -/
theorem prepareStrategy_eq_ok {strategyName : String} {parameters : Parameters} {draw : Draw}
    {prepared : Prepared StrategyDefinition}
    (h : strategies.prepareStrategy store userId strategyName parameters draw = .ok prepared) :
    ∃ factory content, strategies.requestedContent strategyName parameters = .ok (factory, content) ∧
      ((∃ existing, strategies.storedDefinition store userId content = some existing ∧
          prepared = ⟨existing, false⟩) ∨
        strategies.storedDefinition store userId content = none ∧
          prepared = ⟨strategies.newDefinition store userId factory content draw, true⟩) := by
  rw [prepareStrategy, bind_eq_ok] at h
  obtain ⟨-, -, h⟩ := h
  rw [bind_eq_ok] at h
  obtain ⟨⟨factory, content⟩, hcontent, h⟩ := h
  refine ⟨factory, content, hcontent, ?_⟩
  cases hstored : strategies.storedDefinition store userId content with
  | some existing =>
    simp only [hstored] at h
    exact Or.inl ⟨existing, rfl, (pure_eq_ok.mp h).symm⟩
  | none =>
    simp only [hstored] at h
    exact Or.inr ⟨rfl, (pure_eq_ok.mp h).symm⟩

theorem prepareComposite_eq_ok {command : CompositeCommand} {known : List String} {draw : Draw}
    {prepared : Prepared CompositeStrategyDefinition}
    (h : strategies.prepareComposite store userId command known draw = .ok prepared) :
    ∃ content, strategies.compositeContent store userId command known = .ok content ∧
      ((∃ existing, strategies.storedComposite store userId content = some existing ∧
          prepared = ⟨existing, false⟩) ∨
        strategies.storedComposite store userId content = none ∧
          prepared = ⟨strategies.newComposite store userId content draw, true⟩) := by
  rw [prepareComposite, bind_eq_ok] at h
  obtain ⟨content, hcontent, h⟩ := h
  refine ⟨content, hcontent, ?_⟩
  cases hstored : strategies.storedComposite store userId content with
  | some existing =>
    simp only [hstored] at h
    exact Or.inl ⟨existing, rfl, (pure_eq_ok.mp h).symm⟩
  | none =>
    simp only [hstored] at h
    exact Or.inr ⟨rfl, (pure_eq_ok.mp h).symm⟩

/-- Every new definition of a proposal is the successor of its family as it is stored. -/
theorem newDefinitions_next {entries : List (GeneratedComponent × Draw)}
    {prepared : List (Prepared StrategyDefinition × JsNumber)}
    (h : strategies.prepareComponents store userId entries = .ok prepared) :
    ∀ definition ∈ newDefinitions prepared, NextDefinition store definition := by
  induction entries generalizing prepared with
  | nil =>
    cases h
    exact fun definition hd => absurd hd List.not_mem_nil
  | cons entry entries ih =>
    rw [prepareComponents, bind_eq_ok] at h
    obtain ⟨first, hfirst, h⟩ := h
    rw [bind_eq_ok] at h
    obtain ⟨others, hothers, h⟩ := h
    rw [← pure_eq_ok.mp h]
    obtain ⟨factory, content, -, ⟨existing, -, rfl⟩ | ⟨hnone, rfl⟩⟩ := prepareStrategy_eq_ok hfirst
    · intro definition hd
      exact ih hothers definition hd
    · intro definition hd
      rcases List.mem_cons.mp hd with rfl | hd
      · exact newDefinition_next hnone
      · exact ih hothers definition hd

/-- The identifiers of the new definitions are among those drawn, in their order. -/
theorem newDefinitions_ids {components : List GeneratedComponent} {draws : List Draw}
    {prepared : List (Prepared StrategyDefinition × JsNumber)}
    (h : strategies.prepareComponents store userId (components.zip draws) = .ok prepared) :
    ((newDefinitions prepared).map (·.id)).Sublist (draws.map (·.id)) := by
  induction components generalizing draws prepared with
  | nil =>
    cases h
    exact List.nil_sublist _
  | cons component components ih =>
    cases draws with
    | nil =>
      cases h
      exact List.nil_sublist _
    | cons draw draws =>
      rw [List.zip_cons_cons, prepareComponents, bind_eq_ok] at h
      obtain ⟨first, hfirst, h⟩ := h
      rw [bind_eq_ok] at h
      obtain ⟨others, hothers, h⟩ := h
      rw [← pure_eq_ok.mp h]
      obtain ⟨factory, content, -, ⟨existing, -, rfl⟩ | ⟨hnone, rfl⟩⟩ :=
        prepareStrategy_eq_ok hfirst
      · exact (ih hothers).cons draw.id
      · exact (ih hothers).cons_cons draw.id

end StrategyModule

end Cryptox.Strategy
