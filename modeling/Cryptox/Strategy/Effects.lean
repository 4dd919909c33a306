import Cryptox.Strategy.Preparation

/-!
# What a call stores

A call appends successors of their families to the store, or drops rows from it. A definition that
a call adds is the one prepared for a content that the user had not stored.
-/
namespace Cryptox.Strategy

open Cryptox.Backtesting (JsNumber)
open Cryptox.Library
open StrategyStore

namespace StrategyModule

variable {strategies : StrategyModule} {store : StrategyStore} {userId : String}

/-- What a generation stores: successors under identifiers not in use, and a composite that is
stored already or the successor of its family. -/
structure ReadyToCommit (store : StrategyStore) (generation : GenerationCommit) : Prop where
  next : ∀ definition ∈ generation.definitions, NextDefinition store definition
  ids : (generation.definitions.map (·.id)).Nodup
  fresh : ∀ definition ∈ generation.definitions, store.definitions.get? definition.id = none
  composite : ∀ composite, generation.composite = some composite →
    store.composites.get? composite.id = some composite ∨
      store.composites.get? composite.id = none ∧ NextComposite store composite

theorem insertDefinition_rows {definition : StrategyDefinition} {after : StrategyStore}
    (hfresh : store.definitions.get? definition.id = none)
    (h : strategies.insertDefinition store definition = .ok after) :
    after.definitions.rows = store.definitions.rows ++ [definition] ∧
      after.composites = store.composites := by
  have hrows := Table.rows_put_of_none (v := definition) hfresh
  rw [insertDefinition] at h
  cases hbackend : strategies.backend with
  | inMemory =>
    simp only [hbackend] at h
    cases h
    exact ⟨hrows, rfl⟩
  | postgres =>
    simp only [hbackend] at h
    rw [Postgres.insertDefinition, bind_eq_ok] at h
    obtain ⟨-, -, h⟩ := h
    cases h
    exact ⟨hrows, rfl⟩

theorem insertComposite_rows {composite : CompositeStrategyDefinition} {after : StrategyStore}
    (hfresh : store.composites.get? composite.id = none)
    (h : strategies.insertComposite store composite = .ok after) :
    after.composites.rows = store.composites.rows ++ [composite] ∧
      after.definitions = store.definitions := by
  have hrows := Table.rows_put_of_none (v := composite) hfresh
  rw [insertComposite] at h
  cases hbackend : strategies.backend with
  | inMemory =>
    simp only [hbackend] at h
    cases h
    exact ⟨hrows, rfl⟩
  | postgres =>
    simp only [hbackend] at h
    rw [Postgres.insertComposite, bind_eq_ok] at h
    obtain ⟨-, -, h⟩ := h
    cases h
    exact ⟨hrows, rfl⟩

/-- The rows a transaction added, none of which shares its version with another of its family. -/
theorem commitDefinitions_rows {definitions : List StrategyDefinition} {after : StrategyStore}
    (hids : (definitions.map (·.id)).Nodup)
    (hfresh : ∀ definition ∈ definitions, store.definitions.get? definition.id = none)
    (h : Postgres.commitDefinitions store definitions = .ok after) :
    after.definitions.rows = store.definitions.rows ++ definitions ∧
      after.composites = store.composites ∧
      (∀ row ∈ store.definitions.rows, ∀ definition ∈ definitions,
        familyOf row = familyOf definition → row.version ≠ definition.version) ∧
      definitions.Pairwise fun a b => familyOf a = familyOf b → a.version ≠ b.version := by
  induction definitions generalizing store with
  | nil =>
    cases h
    exact ⟨(List.append_nil _).symm, rfl, by simp, List.Pairwise.nil⟩
  | cons definition definitions ih =>
    have hnone := hfresh definition List.mem_cons_self
    rw [List.map_cons, List.nodup_cons] at hids
    rw [Postgres.commitDefinitions, bind_eq_ok] at h
    obtain ⟨inserted, hinserted, h⟩ := h
    rw [Postgres.commitDefinition, hnone, if_neg (by simp), Postgres.insertDefinition, bind_eq_ok,
      hnone] at hinserted
    obtain ⟨_, hfree, hinserted⟩ := hinserted
    have hfree' : Postgres.definitionTaken store definition = false := by
      simpa using throwIf_eq_ok.mp hfree
    cases hinserted
    have hlater : ∀ later ∈ definitions,
        (store.definitions.put definition).get? later.id = none := by
      intro later hl
      have hne : later.id ≠ definition.id := fun hid =>
        hids.1 (hid ▸ List.mem_map_of_mem hl)
      exact (Table.get?_put_of_ne store.definitions hne).trans
        (hfresh later (List.mem_cons_of_mem _ hl))
    obtain ⟨hrows, hcomposites, hapart, hpair⟩ := ih hids.2 hlater h
    have hput := Table.rows_put_of_none (v := definition) hnone
    rw [hput] at hrows hapart
    refine ⟨by simpa using hrows, hcomposites, ?_, List.pairwise_cons.mpr ⟨?_, hpair⟩⟩
    · intro row hrow other hother hfamily
      rcases List.mem_cons.mp hother with rfl | hother
      · intro hversion
        have hrefused := List.any_eq_false.mp hfree' row hrow
        simp [hfamily, hversion] at hrefused
      · exact hapart row (List.mem_append_left _ hrow) other hother hfamily
    · exact fun other hother =>
        hapart definition (List.mem_append_right _ List.mem_cons_self) other hother

/-- A commit appends its definitions, and its composite where it is new; the database takes the
definitions only if they are of different families. -/
theorem commit_rows {generation : GenerationCommit} {after : StrategyStore}
    (hready : ReadyToCommit store generation)
    (h : strategies.commit store generation = .ok after) :
    after.definitions.rows = store.definitions.rows ++ generation.definitions ∧
      (after.composites.rows = store.composites.rows ∨
        ∃ composite, generation.composite = some composite ∧
          store.composites.get? composite.id = none ∧ NextComposite store composite ∧
          after.composites.rows = store.composites.rows ++ [composite]) ∧
      (strategies.backend = .postgres →
        generation.definitions.Pairwise fun a b => familyOf a ≠ familyOf b) := by
  rw [commit] at h
  cases hbackend : strategies.backend with
  | inMemory =>
    simp only [hbackend] at h
    cases h
    refine ⟨Table.rows_foldl_put hready.ids hready.fresh, ?_, fun hp => by cases hp⟩
    cases hc : generation.composite with
    | none => exact Or.inl (by rw [InMemory.commit, hc, Table.putOption_none])
    | some composite =>
      rw [InMemory.commit, hc, Table.putOption_some]
      rcases hready.composite composite hc with hstored | ⟨hnone, hnext⟩
      · exact Or.inl (Table.rows_put_self hstored)
      · exact Or.inr ⟨composite, rfl, hnone, hnext, Table.rows_put_of_none hnone⟩
  | postgres =>
    simp only [hbackend] at h
    rw [Postgres.commit, bind_eq_ok] at h
    obtain ⟨defined, hdefined, h⟩ := h
    obtain ⟨hrows, hcomposites, -, hpair⟩ :=
      commitDefinitions_rows hready.ids hready.fresh hdefined
    rw [bind_eq_ok] at h
    obtain ⟨composed, hcomposed, h⟩ := h
    rw [bind_eq_ok] at h
    obtain ⟨-, -, h⟩ := h
    cases h
    have hfamilies : generation.definitions.Pairwise fun a b => familyOf a ≠ familyOf b := by
      refine hpair.imp_of_mem ?_
      intro a b ha hb hversion hfamily
      exact hversion hfamily ((hready.next a ha).version_eq_of_family (hready.next b hb) hfamily)
    cases hc : generation.composite with
    | none =>
      rw [hc] at hcomposed
      cases hcomposed
      exact ⟨hrows, Or.inl (by rw [hcomposites]), fun _ => hfamilies⟩
    | some composite =>
      rw [hc, Postgres.commitComposite, hcomposites] at hcomposed
      rcases hready.composite composite hc with hstored | ⟨hnone, hnext⟩
      · rw [hstored, Option.isSome_some, if_pos rfl] at hcomposed
        cases hcomposed
        exact ⟨hrows, Or.inl (by rw [hcomposites]), fun _ => hfamilies⟩
      · rw [hnone, if_neg (by simp), Postgres.insertComposite, bind_eq_ok] at hcomposed
        obtain ⟨-, -, hcomposed⟩ := hcomposed
        cases hcomposed
        refine ⟨hrows, Or.inr ⟨composite, rfl, hnone, hnext, ?_⟩, fun _ => hfamilies⟩
        rw [hcomposites]
        exact Table.rows_put_of_none hnone

theorem generateStrategy_eq_ok {generated : Except String GeneratedStrategyProposal}
    {draws : List Draw} {result audit : Draw} {answer : StrategyStore × GenerationCommit}
    (h : strategies.generateStrategy store userId generated draws result audit = .ok answer) :
    ∃ proposal, generated = .ok proposal ∧
      strategies.prepareGeneration store userId proposal draws result audit = .ok answer.2 ∧
      strategies.commit store answer.2 = .ok answer.1 := by
  rw [generateStrategy, bind_eq_ok] at h
  obtain ⟨-, -, h⟩ := h
  rw [bind_eq_ok] at h
  obtain ⟨generation, hgeneration, h⟩ := h
  rw [bind_eq_ok] at hgeneration h
  obtain ⟨proposal, hproposal, hgeneration⟩ := hgeneration
  obtain ⟨after, hafter, h⟩ := h
  cases h
  exact ⟨proposal, hproposal, hgeneration, hafter⟩

theorem fresh_definition {ids : List String} (h : FreshIds store ids) {id : String}
    (hid : id ∈ ids) : store.definitions.get? id = none :=
  Option.isNone_iff_eq_none.mp (h.2 id hid).2.1

theorem fresh_composite {ids : List String} (h : FreshIds store ids) {id : String}
    (hid : id ∈ ids) : store.composites.get? id = none :=
  Option.isNone_iff_eq_none.mp (h.2 id hid).2.2

theorem prepareGeneration_ready {proposal : GeneratedStrategyProposal} {draws : List Draw}
    {result audit : Draw} {generation : GenerationCommit}
    (hfresh : FreshIds store (result.id :: draws.map (·.id)))
    (h : strategies.prepareGeneration store userId proposal draws result audit = .ok generation) :
    ReadyToCommit store generation := by
  cases proposal with
  | single strategyName parameters =>
    rw [prepareGeneration, bind_eq_ok] at h
    obtain ⟨prepared, hprepared, h⟩ := h
    cases h
    obtain ⟨factory, content, -, ⟨existing, -, rfl⟩ | ⟨hnone, rfl⟩⟩ :=
      prepareStrategy_eq_ok hprepared
    · exact ⟨by simp, by simp, by simp, by simp⟩
    · refine ⟨?_, by simp, ?_, by simp⟩
      · intro definition hd
        rw [List.mem_singleton.mp hd]
        exact newDefinition_next hnone
      · intro definition hd
        rw [List.mem_singleton.mp hd]
        exact fresh_definition hfresh List.mem_cons_self
  | composite components method thresholds =>
    rw [prepareGeneration, bind_eq_ok] at h
    obtain ⟨prepared, hprepared, h⟩ := h
    rw [bind_eq_ok] at h
    obtain ⟨composite, hcomposite, h⟩ := h
    cases h
    have hids := newDefinitions_ids hprepared
    have hnodup : (draws.map (·.id)).Nodup := (List.nodup_cons.mp hfresh.1).2
    refine ⟨newDefinitions_next hprepared, hids.nodup hnodup, ?_, ?_⟩
    · intro definition hd
      have hmem : definition.id ∈ draws.map (·.id) := hids.subset (List.mem_map_of_mem hd)
      exact fresh_definition hfresh (List.mem_cons_of_mem _ hmem)
    · intro row hrow
      obtain ⟨content, -, ⟨existing, hstored, rfl⟩ | ⟨hnone, rfl⟩⟩ :=
        prepareComposite_eq_ok hcomposite
      · cases hrow
        exact Or.inl (Table.get?_of_mem_rows (storedComposite_some hstored).1)
      · cases hrow
        exact Or.inr ⟨fresh_composite hfresh List.mem_cons_self, newComposite_next hnone⟩

theorem defineStrategy_rows {strategyName : String} {parameters : Parameters} {draw : Draw}
    (hfresh : store.definitions.get? draw.id = none) :
    (strategies.afterCall store (.defineStrategy userId strategyName parameters draw)).composites
        = store.composites ∧
      ((strategies.afterCall store
          (.defineStrategy userId strategyName parameters draw)).definitions.rows
          = store.definitions.rows ∨
        ∃ factory content,
          strategies.requestedContent strategyName parameters = .ok (factory, content) ∧
          strategies.storedDefinition store userId content = none ∧
          (strategies.afterCall store
            (.defineStrategy userId strategyName parameters draw)).definitions.rows
            = store.definitions.rows ++ [strategies.newDefinition store userId factory content draw])
      := by
  rw [afterCall]
  cases hcall : strategies.defineStrategy store userId strategyName parameters draw with
  | error e => exact ⟨rfl, Or.inl rfl⟩
  | ok answer =>
    rw [defineStrategy, bind_eq_ok] at hcall
    obtain ⟨prepared, hprepared, hcall⟩ := hcall
    obtain ⟨factory, content, hcontent, ⟨existing, -, rfl⟩ | ⟨hnone, rfl⟩⟩ :=
      prepareStrategy_eq_ok hprepared
    · cases hcall
      exact ⟨rfl, Or.inl rfl⟩
    · rw [if_pos rfl, bind_eq_ok] at hcall
      obtain ⟨after, hafter, hcall⟩ := hcall
      cases hcall
      obtain ⟨hrows, hcomposites⟩ := insertDefinition_rows hfresh hafter
      exact ⟨hcomposites, Or.inr ⟨factory, content, hcontent, hnone, hrows⟩⟩

theorem defineComposite_rows {command : CompositeCommand} {draw : Draw}
    (hfresh : store.composites.get? draw.id = none) :
    (strategies.afterCall store (.defineComposite userId command draw)).definitions
        = store.definitions ∧
      ((strategies.afterCall store (.defineComposite userId command draw)).composites.rows
          = store.composites.rows ∨
        ∃ content, strategies.compositeContent store userId command [] = .ok content ∧
          strategies.storedComposite store userId content = none ∧
          (strategies.afterCall store (.defineComposite userId command draw)).composites.rows
            = store.composites.rows ++ [strategies.newComposite store userId content draw]) := by
  rw [afterCall]
  cases hcall : strategies.defineComposite store userId command draw with
  | error e => exact ⟨rfl, Or.inl rfl⟩
  | ok answer =>
    rw [defineComposite, bind_eq_ok] at hcall
    obtain ⟨prepared, hprepared, hcall⟩ := hcall
    obtain ⟨content, hcontent, ⟨existing, -, rfl⟩ | ⟨hnone, rfl⟩⟩ :=
      prepareComposite_eq_ok hprepared
    · cases hcall
      exact ⟨rfl, Or.inl rfl⟩
    · rw [if_pos rfl, bind_eq_ok] at hcall
      obtain ⟨after, hafter, hcall⟩ := hcall
      cases hcall
      obtain ⟨hrows, hdefinitions⟩ := insertComposite_rows hfresh hafter
      exact ⟨hdefinitions, Or.inr ⟨content, hcontent, hnone, hrows⟩⟩

variable (strategies store userId) in
/-- A deletion only takes rows away. -/
theorem deleteDefinition_sublist (id : String) :
    (strategies.afterCall store (.deleteDefinition userId id)).definitions.rows.Sublist
        store.definitions.rows ∧
      (strategies.afterCall store (.deleteDefinition userId id)).composites.rows.Sublist
        store.composites.rows := by
  rw [afterCall, deleteDefinition]
  split
  · exact ⟨List.Sublist.refl _, List.Sublist.refl _⟩
  · cases strategies.backend with
    | inMemory =>
      simp only [InMemory.deleteDefinition]
      split
      · exact ⟨List.filter_sublist, List.Sublist.refl _⟩
      · exact ⟨List.Sublist.refl _, List.Sublist.refl _⟩
    | postgres =>
      simp only [Postgres.deleteDefinition]
      split
      · exact ⟨List.Sublist.refl _, List.Sublist.refl _⟩
      · exact ⟨List.filter_sublist, List.filter_sublist⟩

variable (strategies store userId) in
theorem deleteComposite_sublist (id : String) :
    (strategies.afterCall store (.deleteComposite userId id)).definitions = store.definitions ∧
      (strategies.afterCall store (.deleteComposite userId id)).composites.rows.Sublist
        store.composites.rows := by
  rw [afterCall, deleteComposite]
  split
  · exact ⟨rfl, List.Sublist.refl _⟩
  · cases strategies.backend with
    | inMemory =>
      simp only [InMemory.deleteComposite]
      split
      · exact ⟨rfl, List.filter_sublist⟩
      · exact ⟨rfl, List.Sublist.refl _⟩
    | postgres => exact ⟨rfl, List.filter_sublist⟩

/-- What holds of every definition that may be prepared holds of those a proposal adds. -/
theorem newDefinitions_forall {P : StrategyDefinition → Prop}
    {entries : List (GeneratedComponent × Draw)}
    (hnew : ∀ strategyName parameters factory content, ∀ draw ∈ entries.map Prod.snd,
      strategies.requestedContent strategyName parameters = .ok (factory, content) →
        P (strategies.newDefinition store userId factory content draw))
    {prepared : List (Prepared StrategyDefinition × JsNumber)}
    (h : strategies.prepareComponents store userId entries = .ok prepared) :
    ∀ definition ∈ newDefinitions prepared, P definition := by
  induction entries generalizing prepared with
  | nil =>
    cases h
    exact fun definition hd => absurd hd List.not_mem_nil
  | cons entry entries ih =>
    rw [prepareComponents, bind_eq_ok] at h
    obtain ⟨first, hfirst, h⟩ := h
    rw [bind_eq_ok] at h
    obtain ⟨others, hothers, h⟩ := h
    rw [← pure_eq_ok.mp h]
    have hrest := ih (fun strategyName parameters factory content draw hdraw =>
      hnew strategyName parameters factory content draw (List.mem_cons_of_mem _ hdraw)) hothers
    obtain ⟨factory, content, hcontent, ⟨existing, -, rfl⟩ | ⟨-, rfl⟩⟩ :=
      prepareStrategy_eq_ok hfirst
    · exact fun definition hd => hrest definition hd
    · intro definition hd
      rcases List.mem_cons.mp hd with rfl | hd
      · exact hnew _ _ _ _ _ List.mem_cons_self hcontent
      · exact hrest definition hd

theorem generation_forall {P : StrategyDefinition → Prop}
    {proposal : GeneratedStrategyProposal} {draws : List Draw} {result audit : Draw}
    (hnew : ∀ strategyName parameters factory content, ∀ draw ∈ result :: draws,
      strategies.requestedContent strategyName parameters = .ok (factory, content) →
        P (strategies.newDefinition store userId factory content draw))
    {generation : GenerationCommit}
    (h : strategies.prepareGeneration store userId proposal draws result audit = .ok generation) :
    ∀ definition ∈ generation.definitions, P definition := by
  cases proposal with
  | single strategyName parameters =>
    rw [prepareGeneration, bind_eq_ok] at h
    obtain ⟨prepared, hprepared, h⟩ := h
    cases h
    obtain ⟨factory, content, hcontent, ⟨existing, -, rfl⟩ | ⟨-, rfl⟩⟩ :=
      prepareStrategy_eq_ok hprepared
    · exact fun definition hd => absurd hd List.not_mem_nil
    · intro definition hd
      rw [List.mem_singleton.mp hd]
      exact hnew _ _ _ _ _ List.mem_cons_self hcontent
  | composite components method thresholds =>
    rw [prepareGeneration, bind_eq_ok] at h
    obtain ⟨prepared, hprepared, h⟩ := h
    rw [bind_eq_ok] at h
    obtain ⟨composite, -, h⟩ := h
    cases h
    refine newDefinitions_forall ?_ hprepared
    intro strategyName parameters factory content draw hdraw
    obtain ⟨entry, hentry, rfl⟩ := List.mem_map.mp hdraw
    exact hnew strategyName parameters factory content _
      (List.mem_cons_of_mem _ (List.of_mem_zip hentry).2)

/-- A definition of the store after a call was there before or was prepared by the call. -/
theorem definitions_afterCall {P : StrategyDefinition → Prop} {call : StrategyCall}
    (hnew : ∀ userId strategyName parameters factory content draw, draw.id ∈ call.drawn →
      strategies.requestedContent strategyName parameters = .ok (factory, content) →
        P (strategies.newDefinition store userId factory content draw))
    (henabled : CallEnabled store call) :
    ∀ definition ∈ (strategies.afterCall store call).definitions.rows,
      definition ∈ store.definitions.rows ∨ P definition := by
  intro definition hd
  cases call with
  | defineStrategy userId strategyName parameters draw =>
    obtain ⟨-, hrows | ⟨factory, content, hcontent, -, hrows⟩⟩ :=
      defineStrategy_rows (fresh_definition henabled.1 List.mem_cons_self)
    · rw [hrows] at hd
      exact Or.inl hd
    · rw [hrows] at hd
      rcases List.mem_append.mp hd with hd | hd
      · exact Or.inl hd
      · rw [List.mem_singleton.mp hd]
        exact Or.inr (hnew _ _ _ _ _ _ List.mem_cons_self hcontent)
  | defineComposite userId command draw =>
    rw [(defineComposite_rows (fresh_composite henabled.1 List.mem_cons_self)).1] at hd
    exact Or.inl hd
  | generateStrategy userId generated draws result audit =>
    rw [afterCall] at hd
    cases hcall : strategies.generateStrategy store userId generated draws result audit with
    | error e =>
      rw [hcall] at hd
      exact Or.inl hd
    | ok answer =>
      obtain ⟨proposal, rfl, hgeneration, hcommit⟩ := generateStrategy_eq_ok hcall
      obtain ⟨hrows, -, -⟩ := commit_rows (prepareGeneration_ready henabled.1 hgeneration) hcommit
      rw [hcall, stored, hrows] at hd
      rcases List.mem_append.mp hd with hd | hd
      · exact Or.inl hd
      · refine Or.inr (generation_forall ?_ hgeneration definition hd)
        intro strategyName parameters factory content draw hdraw
        exact hnew userId strategyName parameters factory content draw
          (List.mem_map_of_mem hdraw (f := Draw.id))
  | deleteDefinition userId id =>
    exact Or.inl ((deleteDefinition_sublist strategies store userId id).1.subset hd)
  | deleteComposite userId id =>
    rw [(deleteComposite_sublist strategies store userId id).1] at hd
    exact Or.inl hd

end StrategyModule

end Cryptox.Strategy
