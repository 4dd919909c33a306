import Mathlib.Data.List.Infix
import Cryptox.Strategy.Api

/-!
# Stored composites can be executed

The components of a stored composite are pairwise distinct and name definitions stored for its
owner, so the backtesting module accepts a submission that names them. It is the caller who must
not name a component twice; and the process-memory store, unlike the database, lets a definition
go while a composite still names it.
-/
namespace Cryptox.Strategy

open Cryptox.Backtesting (JsNumber CombinationMethod CompositeComponent isBlank)
open Cryptox.Library
open StrategyStore

/-- The user has a definition of that id. -/
def Owns (store : StrategyStore) (userId id : String) : Prop :=
  ∃ definition ∈ store.definitions.rows, definition.id = id ∧ definition.userId = userId

structure ExecutableComposite (store : StrategyStore) (composite : CompositeStrategyDefinition) :
    Prop where
  nonempty : composite.components ≠ []
  distinct : (StrategyModule.componentIds composite.components).Nodup
  owned : ∀ id ∈ StrategyModule.componentIds composite.components, Owns store composite.userId id

/-- Every stored composite is executable, and every definition bears a drawn identifier. -/
structure Executable (store : StrategyStore) : Prop where
  composites : ∀ composite ∈ store.composites.rows, ExecutableComposite store composite
  drawn : ∀ definition ∈ store.definitions.rows, isDrawnId definition.id = true

theorem Owns.mono {store after : StrategyStore} {userId id : String} (h : Owns store userId id)
    (hrows : ∀ definition ∈ store.definitions.rows, definition ∈ after.definitions.rows) :
    Owns after userId id := by
  obtain ⟨definition, hd, hid, howner⟩ := h
  exact ⟨definition, hrows definition hd, hid, howner⟩

theorem ExecutableComposite.mono {store after : StrategyStore}
    {composite : CompositeStrategyDefinition} (h : ExecutableComposite store composite)
    (hrows : ∀ definition ∈ store.definitions.rows, definition ∈ after.definitions.rows) :
    ExecutableComposite after composite :=
  ⟨h.nonempty, h.distinct, fun id hid => (h.owned id hid).mono hrows⟩

/-- Appending definitions, and perhaps an executable composite, keeps the store executable. -/
theorem Executable.extend {store after : StrategyStore} (h : Executable store)
    (hkept : ∀ definition ∈ store.definitions.rows, definition ∈ after.definitions.rows)
    (hdrawn : ∀ definition ∈ after.definitions.rows, isDrawnId definition.id = true)
    (hcomposites : ∀ composite ∈ after.composites.rows,
      composite ∈ store.composites.rows ∨ ExecutableComposite after composite) :
    Executable after := by
  refine ⟨fun composite hc => ?_, hdrawn⟩
  rcases hcomposites composite hc with hc | hc
  · exact (h.composites composite hc).mono hkept
  · exact hc

namespace StrategyModule

variable (strategies : StrategyModule)

/-- The stored definitions that a list of components resolves to, by id. -/
def storedMatches (store : StrategyStore) (userId : String)
    (components : List GeneratedComponent) : List String :=
  components.filterMap fun component =>
    match strategies.requestedContent component.strategyName component.parameters with
    | .ok (_, content) => (strategies.storedDefinition store userId content).map (·.id)
    | .error _ => none

/-- An accepted composite names each component once; in process memory, a definition is deleted
only when no composite of its owner names it. -/
def KeepsExecutable (store : StrategyStore) : StrategyCall → Prop
  | .defineComposite userId command _ =>
    (strategies.compositeContent store userId command []).toBool = true →
      (componentIds command.components).Nodup
  | .generateStrategy userId (.ok (.composite components method thresholds)) draws result audit =>
    (strategies.prepareGeneration store userId (.composite components method thresholds) draws
        result audit).toBool = true →
      (strategies.storedMatches store userId components).Nodup
  | .deleteDefinition userId id =>
    strategies.backend = .inMemory → Owns store userId (trim id) →
      ∀ composite ∈ store.composites.rows, composite.userId = userId →
        trim id ∉ componentIds composite.components
  | _ => True

/-- The text of a list of components has each drawn identifier in quotes. -/
def QuotesIds (componentsText : List CompositeComponent → String) : Prop :=
  ∀ components, ∀ id ∈ componentIds components, isDrawnId id = true →
    ∃ before after, (componentsText components).toList =
      before ++ ("\"" ++ id ++ "\"").toList ++ after

/-- A submission that names a composite and its components, in any order, is refused by none of
the checks of its references. -/
def ReferencesPass (store : StrategyStore) (composite : CompositeStrategyDefinition) : Prop :=
  ∀ command ids, command.strategyDefinitionIds = some ids →
    ids.Perm (componentIds composite.components) →
    command.compositeDefinitionId = some composite.id →
      Backtesting.validateStrategyReferences (strategies.api store) composite.userId command ≠
          .error "STRATEGY_DEFINITION_NOT_FOUND" ∧
        Backtesting.validateStrategyReferences (strategies.api store) composite.userId command ≠
          .error "STRATEGY_DEFINITION_MISMATCH"

variable {strategies} {store : StrategyStore} {userId : String}

theorem mem_listByIds {id : String} (h : (store.listByIds userId [id]).length > 0) :
    Owns store userId id := by
  rw [listByIds, List.filterMap_cons, List.filterMap_nil] at h
  cases hfound : (store.definitions.get? id).filter fun definition =>
      definition.userId == userId with
  | none => simp [hfound] at h
  | some definition =>
    obtain ⟨hget, howner⟩ := Option.filter_eq_some_iff.mp hfound
    have hid : definition.id = id := Table.key_of_get? (t := store.definitions) hget
    exact ⟨definition, Table.mem_rows_of_get? hget, hid, by simpa using howner⟩

theorem requireOwnedDefinition_ok {known : List String} {id : String} {u : Unit}
    (h : requireOwnedDefinition store userId known id = .ok u) :
    id ∈ known ∨ Owns store userId id := by
  rw [requireOwnedDefinition] at h
  by_cases hknown : known.contains id = true
  · exact Or.inl (by simpa using hknown)
  · by_cases hlisted : (store.listByIds userId [id]).length > 0
    · exact Or.inr (mem_listByIds hlisted)
    · rw [if_neg hknown, if_neg hlisted] at h
      split at h <;> cases h

/-- The content of an accepted command has the command's components, each known or owned. -/
theorem compositeContent_eq_ok {command : CompositeCommand} {known : List String}
    {content : CompositeContent}
    (h : strategies.compositeContent store userId command known = .ok content) :
    content.components ≠ [] ∧ componentIds content.components = componentIds command.components ∧
      ∀ id ∈ componentIds command.components, id ∈ known ∨ Owns store userId id := by
  rw [compositeContent, bind_eq_ok] at h
  obtain ⟨_, hfilled, h⟩ := h
  have hnonempty : command.components ≠ [] := by
    intro hnil
    have hempty := (Bool.or_eq_false_iff.mp (throwIf_eq_ok.mp hfilled)).2
    rw [hnil] at hempty
    cases hempty
  rw [bind_eq_ok] at h
  obtain ⟨-, -, h⟩ := h
  rw [bind_eq_ok] at h
  obtain ⟨-, -, h⟩ := h
  rw [bind_eq_ok] at h
  obtain ⟨_, howned, h⟩ := h
  have hids : ∀ id ∈ componentIds command.components, id ∈ known ∨ Owns store userId id := by
    intro id hid
    obtain ⟨component, hcomponent, rfl⟩ := List.mem_map.mp hid
    obtain ⟨_, hchecked⟩ := forM_eq_ok howned component hcomponent
    exact requireOwnedDefinition_ok hchecked
  cases hmethod : command.method with
  | majorityVote =>
    simp only [hmethod] at h
    cases h
    refine ⟨by simpa using hnonempty, ?_, hids⟩
    rw [componentIds, componentIds, List.map_map]
    rfl
  | weightedScore =>
    simp only [hmethod] at h
    rw [bind_eq_ok] at h
    obtain ⟨-, -, h⟩ := h
    rw [bind_eq_ok] at h
    obtain ⟨-, -, h⟩ := h
    cases h
    exact ⟨hnonempty, rfl, hids⟩

theorem mem_storedMatches {components : List GeneratedComponent} {id : String}
    (h : id ∈ strategies.storedMatches store userId components) :
    ∃ definition ∈ store.definitions.rows, definition.id = id := by
  obtain ⟨component, -, hmatch⟩ := List.mem_filterMap.mp h
  split at hmatch
  · obtain ⟨definition, hstored, rfl⟩ := Option.map_eq_some_iff.mp hmatch
    exact ⟨definition, (storedDefinition_some hstored).1, rfl⟩
  · cases hmatch

/-- A component of a proposal has the id of a stored definition or one that was drawn for it, and
the ids are pairwise distinct as far as the stored ones are. -/
theorem preparedComponents_ids {components : List GeneratedComponent} {draws : List Draw}
    {prepared : List (Prepared StrategyDefinition × JsNumber)}
    (hdraws : (draws.map (·.id)).Nodup)
    (hfresh : ∀ id ∈ draws.map (·.id), store.definitions.get? id = none)
    (h : strategies.prepareComponents store userId (components.zip draws) = .ok prepared)
    (hmatches : (strategies.storedMatches store userId components).Nodup) :
    (∀ id ∈ componentIds (preparedComponents prepared),
        id ∈ strategies.storedMatches store userId components ∨ id ∈ draws.map (·.id)) ∧
      (componentIds (preparedComponents prepared)).Nodup := by
  induction components generalizing draws prepared with
  | nil =>
    cases h
    exact ⟨fun id hid => absurd hid List.not_mem_nil, List.nodup_nil⟩
  | cons component components ih =>
    cases draws with
    | nil =>
      cases h
      exact ⟨fun id hid => absurd hid List.not_mem_nil, List.nodup_nil⟩
    | cons draw draws =>
      rw [List.zip_cons_cons, prepareComponents, bind_eq_ok] at h
      obtain ⟨first, hfirst, h⟩ := h
      rw [bind_eq_ok] at h
      obtain ⟨others, hothers, h⟩ := h
      rw [← pure_eq_ok.mp h]
      rw [List.map_cons, List.nodup_cons] at hdraws
      have hlater : ∀ id ∈ draws.map (·.id), store.definitions.get? id = none :=
        fun id hid => hfresh id (List.mem_cons_of_mem _ hid)
      have hunused : ∀ id ∈ (draw :: draws).map (·.id),
          id ∉ strategies.storedMatches store userId components := by
        intro id hid hmatch
        obtain ⟨definition, hd, rfl⟩ := mem_storedMatches hmatch
        have hget : store.definitions.get? definition.id = some definition :=
          Table.get?_of_mem_rows hd
        rw [hfresh definition.id hid] at hget
        cases hget
      obtain ⟨factory, content, hcontent, ⟨existing, hstored, rfl⟩ | ⟨hnone, rfl⟩⟩ :=
        prepareStrategy_eq_ok hfirst
      · have hhead : strategies.storedMatches store userId (component :: components) =
            existing.id :: strategies.storedMatches store userId components :=
          List.filterMap_cons_some (by simp [hcontent, hstored])
        rw [hhead] at hmatches ⊢
        obtain ⟨hids, hnodup⟩ := ih hdraws.2 hlater hothers (List.nodup_cons.mp hmatches).2
        refine ⟨?_, List.nodup_cons.mpr ⟨?_, hnodup⟩⟩
        · intro id hid
          rcases List.mem_cons.mp hid with rfl | hid
          · exact Or.inl List.mem_cons_self
          · rcases hids id hid with hid | hid
            · exact Or.inl (List.mem_cons_of_mem _ hid)
            · exact Or.inr (List.mem_cons_of_mem _ hid)
        · intro hrepeated
          rcases hids existing.id hrepeated with hid | hid
          · exact (List.nodup_cons.mp hmatches).1 hid
          · have hget : store.definitions.get? existing.id = some existing :=
              Table.get?_of_mem_rows (storedDefinition_some hstored).1
            rw [hlater existing.id hid] at hget
            cases hget
      · have hhead : strategies.storedMatches store userId (component :: components) =
            strategies.storedMatches store userId components :=
          List.filterMap_cons_none (by simp [hcontent, hnone])
        rw [hhead] at hmatches ⊢
        obtain ⟨hids, hnodup⟩ := ih hdraws.2 hlater hothers hmatches
        refine ⟨?_, List.nodup_cons.mpr ⟨?_, hnodup⟩⟩
        · intro id hid
          rcases List.mem_cons.mp hid with rfl | hid
          · exact Or.inr List.mem_cons_self
          · rcases hids id hid with hid | hid
            · exact Or.inl hid
            · exact Or.inr (List.mem_cons_of_mem _ hid)
        · intro hrepeated
          rcases hids draw.id hrepeated with hid | hid
          · exact hunused draw.id List.mem_cons_self hid
          · exact hdraws.1 hid

theorem newComposite_executable {command : CompositeCommand} {known : List String}
    {content : CompositeContent} {draw : Draw} {after : StrategyStore}
    (hcontent : strategies.compositeContent store userId command known = .ok content)
    (hdistinct : (componentIds command.components).Nodup)
    (howned : ∀ id ∈ componentIds command.components, id ∈ known ∨ Owns store userId id →
      Owns after userId id) :
    ExecutableComposite after (strategies.newComposite store userId content draw) := by
  obtain ⟨hnonempty, hids, hchecked⟩ := compositeContent_eq_ok hcontent
  refine ⟨hnonempty, ?_, ?_⟩
  · rw [newComposite, hids]
    exact hdistinct
  · rw [newComposite, hids]
    exact fun id hid => howned id hid (hchecked id hid)

theorem executable_defineComposite {command : CompositeCommand} {draw : Draw}
    (h : Executable store) (henabled : CallEnabled store (.defineComposite userId command draw))
    (hcond : strategies.KeepsExecutable store (.defineComposite userId command draw)) :
    Executable (strategies.afterCall store (.defineComposite userId command draw)) := by
  obtain ⟨hsame, hrows | ⟨content, hcontent, -, hrows⟩⟩ :=
    defineComposite_rows (fresh_composite henabled.1 List.mem_cons_self)
  · exact h.extend (by rw [hsame]; exact fun _ hd => hd) (by rw [hsame]; exact h.drawn)
      (by rw [hrows]; exact fun _ hc => Or.inl hc)
  · refine h.extend (by rw [hsame]; exact fun _ hd => hd) (by rw [hsame]; exact h.drawn) ?_
    intro composite hc
    rw [hrows] at hc
    rcases List.mem_append.mp hc with hc | hc
    · exact Or.inl hc
    · rw [List.mem_singleton.mp hc]
      refine Or.inr (newComposite_executable hcontent (hcond (by rw [hcontent]; rfl)) ?_)
      intro id _ hid
      refine Owns.mono (hid.resolve_left List.not_mem_nil) ?_
      rw [hsame]
      exact fun _ hd => hd

theorem executable_generateStrategy {generated : Except String GeneratedStrategyProposal}
    {draws : List Draw} {result audit : Draw} (h : Executable store)
    (henabled : CallEnabled store (.generateStrategy userId generated draws result audit))
    (hdrawn : ∀ definition ∈ (strategies.afterCall store
      (.generateStrategy userId generated draws result audit)).definitions.rows,
      isDrawnId definition.id = true)
    (hcond : strategies.KeepsExecutable store
      (.generateStrategy userId generated draws result audit)) :
    Executable (strategies.afterCall store
      (.generateStrategy userId generated draws result audit)) := by
  rw [afterCall] at hdrawn ⊢
  cases hcall : strategies.generateStrategy store userId generated draws result audit with
  | error e => exact h
  | ok answer =>
    rw [hcall] at hdrawn
    obtain ⟨proposal, rfl, hgeneration, hcommit⟩ := generateStrategy_eq_ok hcall
    obtain ⟨hrows, hcomposites, -⟩ :=
      commit_rows (prepareGeneration_ready henabled.1 hgeneration) hcommit
    have hkept : ∀ definition ∈ store.definitions.rows, definition ∈ answer.1.definitions.rows := by
      rw [hrows]
      exact fun definition hd => List.mem_append_left _ hd
    refine h.extend hkept hdrawn ?_
    rcases hcomposites with hsame | ⟨composite, hcomposite, hnone, -, hadded⟩
    · rw [stored, hsame]
      exact fun row hrow => Or.inl hrow
    · rw [stored, hadded]
      intro row hrow
      rcases List.mem_append.mp hrow with hrow | hrow
      · exact Or.inl hrow
      · rw [List.mem_singleton.mp hrow]
        refine Or.inr ?_
        cases proposal with
        | single strategyName parameters =>
          rw [prepareGeneration, bind_eq_ok] at hgeneration
          obtain ⟨prepared, -, hgeneration⟩ := hgeneration
          rw [← pure_eq_ok.mp hgeneration] at hcomposite
          cases hcomposite
        | composite components method thresholds =>
          have hmatches := hcond (by rw [hgeneration]; rfl)
          have howner : ∀ definition ∈ answer.2.definitions, definition.userId = userId :=
            generation_forall (fun _ _ _ _ _ _ _ => rfl) hgeneration
          rw [prepareGeneration, bind_eq_ok] at hgeneration
          obtain ⟨prepared, hprepared, hgeneration⟩ := hgeneration
          rw [bind_eq_ok] at hgeneration
          obtain ⟨preparedRow, hpreparedRow, hgeneration⟩ := hgeneration
          rw [← pure_eq_ok.mp hgeneration] at hcomposite howner hrows
          obtain ⟨content, hcontent, ⟨existing, hstored, rfl⟩ | ⟨-, rfl⟩⟩ :=
            prepareComposite_eq_ok hpreparedRow
          · cases hcomposite
            have hget : store.composites.get? existing.id = some existing :=
              Table.get?_of_mem_rows (storedComposite_some hstored).1
            rw [hget] at hnone
            cases hnone
          · cases hcomposite
            have hfresh : ∀ id ∈ draws.map (·.id), store.definitions.get? id = none :=
              fun id hid => fresh_definition henabled.1 (List.mem_cons_of_mem _ hid)
            have hids := preparedComponents_ids (List.nodup_cons.mp henabled.1.1).2 hfresh
              hprepared hmatches
            refine newComposite_executable hcontent hids.2 ?_
            intro id _ hid
            rcases hid with hid | hid
            · obtain ⟨definition, hd, rfl⟩ := List.mem_map.mp hid
              refine ⟨definition, ?_, rfl, howner definition hd⟩
              rw [hrows]
              exact List.mem_append_right _ hd
            · exact hid.mono hkept

/-- A pattern without wildcards matches just itself. -/
theorem like_append {text : List Char} (h : ∀ c ∈ text, c ≠ '%' ∧ c ≠ '_' ∧ c ≠ '\\')
    (pattern rest : List Char) :
    Postgres.like (text ++ pattern) (text ++ rest) = Postgres.like pattern rest := by
  induction text with
  | nil => rfl
  | cons c text ih =>
    obtain ⟨hpercent, hunderscore, hbackslash⟩ := h c List.mem_cons_self
    rw [List.cons_append, List.cons_append, Postgres.like]
    · rw [List.head?_cons, List.tail_cons, beq_self_eq_true, Bool.true_and]
      exact ih fun d hd => h d (List.mem_cons_of_mem _ hd)
    · exact hpercent
    · exact hunderscore
    · exact fun _ _ hc _ => hbackslash hc

theorem plain_of_isDrawnId {id : String} (h : isDrawnId id = true) :
    ∀ c ∈ id.toList, c ≠ '%' ∧ c ≠ '_' ∧ c ≠ '\\' := by
  intro c hc
  have hplain := List.all_eq_true.mp h c hc
  refine ⟨?_, ?_, ?_⟩
  · rintro rfl
    revert hplain
    decide
  · rintro rfl
    revert hplain
    decide
  · rintro rfl
    revert hplain
    decide

/-- The database finds every composite that names a drawn identifier. -/
theorem namesDefinition_of_mem {componentsText : List CompositeComponent → String}
    (hquotes : QuotesIds componentsText) {id : String} (hdrawn : isDrawnId id = true)
    {composite : CompositeStrategyDefinition} (hmem : id ∈ componentIds composite.components) :
    Postgres.namesDefinition componentsText id composite = true := by
  obtain ⟨before, after, htext⟩ := hquotes composite.components id hmem hdrawn
  have hplain : ∀ c ∈ ("\"" ++ id ++ "\"").toList, c ≠ '%' ∧ c ≠ '_' ∧ c ≠ '\\' := by
    intro c hc
    simp only [String.toList_append, List.mem_append] at hc
    rcases hc with (hc | hc) | hc
    · rw [List.mem_singleton.mp hc]
      decide
    · exact plain_of_isDrawnId hdrawn c hc
    · rw [List.mem_singleton.mp hc]
      decide
  have hpattern : ("%\"" ++ id ++ "\"%").toList =
      '%' :: (("\"" ++ id ++ "\"").toList ++ ['%']) := by
    simp [String.toList_append]
  rw [Postgres.namesDefinition, htext, hpattern, Postgres.like, List.any_eq_true]
  refine ⟨("\"" ++ id ++ "\"").toList ++ after, ?_, ?_⟩
  · rw [List.mem_tails, List.append_assoc]
    exact List.suffix_append before _
  · rw [like_append hplain, Postgres.like, List.any_eq_true]
    exact ⟨[], (List.mem_tails _ _).mpr List.nil_suffix, rfl⟩

theorem executable_deleteDefinition {id : String} (hquotes : QuotesIds strategies.componentsText)
    (h : Executable store)
    (hcond : strategies.KeepsExecutable store (.deleteDefinition userId id)) :
    Executable (strategies.afterCall store (.deleteDefinition userId id)) := by
  have hsublist := deleteDefinition_sublist strategies store userId id
  refine ⟨?_, fun definition hd => h.drawn definition (hsublist.1.subset hd)⟩
  intro composite hc
  have hbefore := h.composites composite (hsublist.2.subset hc)
  refine ⟨hbefore.nonempty, hbefore.distinct, fun component hcomponent => ?_⟩
  obtain ⟨definition, hd, rfl, howner⟩ := hbefore.owned component hcomponent
  refine ⟨definition, ?_, rfl, howner⟩
  revert hc
  rw [afterCall, deleteDefinition]
  split
  · exact fun _ => hd
  · cases hbackend : strategies.backend with
    | inMemory =>
      simp only [InMemory.deleteDefinition]
      split
      · rename_i found hfound
        intro hc
        obtain ⟨hget, hfoundOwner⟩ := Option.filter_eq_some_iff.mp hfound
        have hfoundId : found.id = trim id := Table.key_of_get? (t := store.definitions) hget
        refine List.mem_filter.mpr ⟨hd, ?_⟩
        have hne : definition.id ≠ trim id := by
          intro hid
          have heq : definition = found :=
            Table.eq_of_key hd (Table.get?_key hget) (hid.trans hfoundId.symm)
          have huser : composite.userId = userId := by
            rw [← howner, heq]
            simpa using hfoundOwner
          have hunnamed := hcond hbackend
            ⟨found, Table.mem_rows_of_get? hget, hfoundId, by simpa using hfoundOwner⟩
            composite hc huser
          rw [hid] at hcomponent
          exact hunnamed hcomponent
        simpa using hne
      · exact fun _ => hd
    | postgres =>
      simp only [Postgres.deleteDefinition]
      split
      · exact fun _ => hd
      · intro hc
        refine List.mem_filter.mpr ⟨hd, ?_⟩
        have hkept := (List.mem_filter.mp hc).2
        by_contra hdeleted
        simp only [Bool.not_eq_true, Bool.not_eq_false', Bool.and_eq_true, beq_iff_eq] at hdeleted
        have hnamed :
            Postgres.namesDefinition strategies.componentsText (trim id) composite = true := by
          refine namesDefinition_of_mem hquotes ?_ ?_
          · rw [← hdeleted.2]
            exact h.drawn definition hd
          · rw [← hdeleted.2]
            exact hcomponent
        rw [hnamed, ← howner, hdeleted.1] at hkept
        simp at hkept

/-- A call that meets the condition keeps every stored composite executable. -/
theorem executable_afterCall {call : StrategyCall} (hquotes : QuotesIds strategies.componentsText)
    (h : Executable store) (henabled : CallEnabled store call)
    (hcond : strategies.KeepsExecutable store call) :
    Executable (strategies.afterCall store call) := by
  have hdrawn : ∀ definition ∈ (strategies.afterCall store call).definitions.rows,
      isDrawnId definition.id = true := by
    intro definition hd
    refine (definitions_afterCall (P := fun definition => isDrawnId definition.id = true) ?_ henabled
      definition hd).elim (h.drawn definition) id
    exact fun _ _ _ _ _ draw hdraw _ => (henabled.1.2 draw.id hdraw).1
  cases call with
  | defineStrategy userId strategyName parameters draw =>
    obtain ⟨hsame, hrows | ⟨factory, content, -, -, hrows⟩⟩ :=
      defineStrategy_rows (fresh_definition henabled.1 List.mem_cons_self)
    · exact h.extend (by rw [hrows]; exact fun _ hd => hd) hdrawn
        (by rw [hsame]; exact fun _ hc => Or.inl hc)
    · exact h.extend (by rw [hrows]; exact fun _ hd => List.mem_append_left _ hd) hdrawn
        (by rw [hsame]; exact fun _ hc => Or.inl hc)
  | defineComposite userId command draw => exact executable_defineComposite h henabled hcond
  | generateStrategy userId generated draws result audit =>
    exact executable_generateStrategy h henabled hdrawn hcond
  | deleteDefinition userId id => exact executable_deleteDefinition hquotes h hcond
  | deleteComposite userId id =>
    obtain ⟨hsame, hsublist⟩ := deleteComposite_sublist strategies store userId id
    exact h.extend (by rw [hsame]; exact fun _ hd => hd) hdrawn
      fun composite hc => Or.inl (hsublist.subset hc)

theorem getDefinition_owned {id : String} (h : Owns store userId id) :
    ∃ definition, getDefinition store userId id = .ok definition ∧ definition.id = id := by
  obtain ⟨definition, hd, rfl, howner⟩ := h
  have hget : store.definitions.get? definition.id = some definition := Table.get?_of_mem_rows hd
  refine ⟨definition, ?_, rfl⟩
  rw [getDefinition, listByIds, List.filterMap_cons, hget,
    Option.filter_some_pos (by simpa using howner)]
  rfl

variable (strategies) in
/-- The definitions of owned ids are read, in the order of the ids. -/
theorem readDefinitions_owned {ids : List String} (h : ∀ id ∈ ids, Owns store userId id) :
    ∃ definitions, (strategies.api store).readDefinitions userId ids = .ok definitions ∧
      definitions.map (·.id) = ids := by
  have hread : ∀ id ∈ ids, ∃ definition : Backtesting.StrategyDefinition,
      (getDefinition store userId id).map (·.toStrategyDefinition) = .ok definition ∧
        definition.id = id := by
    intro id hid
    obtain ⟨definition, hdefinition, hkey⟩ := getDefinition_owned (h id hid)
    exact ⟨definition.toStrategyDefinition, by rw [hdefinition]; rfl, hkey⟩
  obtain ⟨definitions, hdefinitions, hids⟩ :=
    mapM_eq_ok_of_forall _ Backtesting.StrategyDefinition.id id hread
  exact ⟨definitions, hdefinitions, hids.trans (List.map_id ids)⟩

theorem definitionWithId_read {definitions : List Backtesting.StrategyDefinition} {id : String}
    (h : id ∈ definitions.map (·.id)) :
    ∃ definition, Backtesting.definitionWithId definitions id = .ok definition := by
  obtain ⟨definition, hd, rfl⟩ := List.mem_map.mp h
  have hfound : (definitions.reverse.find? (·.id == definition.id)).isSome = true :=
    List.find?_isSome.mpr ⟨definition, List.mem_reverse.mpr hd, beq_self_eq_true _⟩
  obtain ⟨found, hfound⟩ := Option.isSome_iff_exists.mp hfound
  exact ⟨found, by rw [Backtesting.definitionWithId, hfound]⟩

/-- What the requirements refuse is an artifact or a descriptor, never a reference. -/
theorem collectRequirements_error {descriptors : List Backtesting.StrategyDescriptor}
    {definitions : List Backtesting.StrategyDefinition}
    {required : Backtesting.StrategyRequirements} {e : String}
    (h : Backtesting.collectRequirements descriptors definitions required = .error e) :
    e = "IMPLEMENTATION_ARTIFACT_UNAVAILABLE" ∨ e = "INVALID_STRATEGY_DESCRIPTOR" := by
  induction definitions generalizing required with
  | nil => cases h
  | cons definition definitions ih =>
    rw [Backtesting.collectRequirements] at h
    cases hfound : descriptors.find? (Backtesting.describes definition) with
    | none =>
      simp only [hfound] at h
      cases h
      exact Or.inl rfl
    | some descriptor =>
      simp only [hfound] at h
      rcases bind_eq_error.mp h with h | ⟨_, -, h⟩
      · exact Or.inr (throwIf_eq_error h)
      · exact ih h

theorem strategyRequirements_error {api : Backtesting.StrategyApi}
    {definitions : List Backtesting.StrategyDefinition} {e : String}
    (h : Backtesting.strategyRequirements api definitions = .error e) :
    e = "IMPLEMENTATION_ARTIFACT_UNAVAILABLE" ∨ e = "INVALID_STRATEGY_DESCRIPTOR" := by
  rw [Backtesting.strategyRequirements] at h
  split at h
  · cases h
  · exact collectRequirements_error h

variable (strategies) in
/-- A submission naming an executable composite and its components, in any order, gets past the
checks of the references: what is left to refuse it is the composite's empty identifier or the
requirements. -/
theorem validateStrategyReferences_executable {composite : CompositeStrategyDefinition}
    {command : Backtesting.StartBacktestCommand} {ids : List String}
    (hstored : composite ∈ store.composites.rows) (h : ExecutableComposite store composite)
    (hids : command.strategyDefinitionIds = some ids)
    (hperm : ids.Perm (componentIds composite.components))
    (hcomposite : command.compositeDefinitionId = some composite.id) :
    ∃ definitions,
      Backtesting.validateStrategyReferences (strategies.api store) composite.userId command = do
        throwIf composite.id.isEmpty "COMPOSITE_STRATEGY_NOT_FOUND"
        let requirements ← Backtesting.strategyRequirements (strategies.api store) definitions
        return ⟨definitions, composite.toCompositeStrategyDefinition, requirements⟩ := by
  have hlength : ids.length = (componentIds composite.components).length := hperm.length_eq
  have hnonempty : ids.isEmpty = false := by
    rw [List.isEmpty_eq_false_iff]
    intro hnil
    rw [hnil, componentIds, List.length_map] at hlength
    exact h.nonempty (List.length_eq_zero_iff.mp hlength.symm)
  have hnodup : ids.Nodup := hperm.nodup_iff.mpr h.distinct
  obtain ⟨read, hread, hreadIds⟩ := readDefinitions_owned strategies
    fun id hid => h.owned id (hperm.mem_iff.mp hid)
  have hreadLength : (read.length != ids.length) = false := by
    rw [← hreadIds, List.length_map, bne_self_eq_false]
  have hread' : Backtesting.readComposite (strategies.api store) composite.userId composite.id =
      .ok composite.toCompositeStrategyDefinition := by
    have hget : store.composites.get? composite.id = some composite :=
      Table.get?_of_mem_rows hstored
    have hgot : readComposite store composite.userId composite.id = .ok composite := by
      rw [readComposite, getComposite, hget, Option.filter_some_pos (by simp)]
    have hmapped : (strategies.api store).readComposite composite.userId composite.id =
        .ok composite.toCompositeStrategyDefinition :=
      congrArg (Except.map fun row : CompositeStrategyDefinition =>
        row.toCompositeStrategyDefinition) hgot
    rw [Backtesting.readComposite, hmapped]
  have hmatches : ((componentIds composite.components).length != ids.length ||
      decide ¬ (componentIds composite.components).Nodup ||
      (componentIds composite.components).any fun id => !ids.contains id) = false := by
    rw [hlength, bne_self_eq_false, decide_eq_false (not_not_intro h.distinct), Bool.false_or,
      Bool.false_or, List.any_eq_false]
    intro id hid
    simpa using hperm.mem_iff.mpr hid
  have hresolved : ∀ id ∈ componentIds composite.components, ∃ definition,
      Backtesting.definitionWithId read id = .ok definition ∧ () = () := by
    intro id hid
    have hmem : id ∈ read.map (·.id) := by
      rw [hreadIds]
      exact hperm.mem_iff.mpr hid
    obtain ⟨definition, hdefinition⟩ := definitionWithId_read hmem
    exact ⟨definition, hdefinition, rfl⟩
  obtain ⟨definitions, hdefinitions, -⟩ :=
    mapM_eq_ok_of_forall _ (fun _ => ()) (fun _ => ()) hresolved
  have hrequested : (ids.isEmpty || decide ¬ ids.Nodup) = false := by
    rw [hnonempty, decide_eq_false (not_not_intro hnodup)]
    rfl
  refine ⟨definitions, ?_⟩
  rw [Backtesting.validateStrategyReferences]
  simp only [hids, hcomposite, Option.some_or, Option.getD_some, hrequested, throwIf_false, ok_bind,
    hread, hreadLength]
  cases hempty : composite.id.isEmpty with
  | true => rfl
  | false =>
    rw [componentIds] at hmatches hdefinitions
    simp only [throwIf_false, ok_bind, hread', hmatches, hdefinitions]

theorem referencesPass_of_executable {composite : CompositeStrategyDefinition}
    (hstored : composite ∈ store.composites.rows) (h : ExecutableComposite store composite) :
    strategies.ReferencesPass store composite := by
  intro command ids hids hperm hcomposite
  obtain ⟨definitions, hanswer⟩ :=
    validateStrategyReferences_executable strategies hstored h hids hperm hcomposite
  have herror : ∀ e, Backtesting.validateStrategyReferences (strategies.api store) composite.userId
      command = .error e → e = "COMPOSITE_STRATEGY_NOT_FOUND" ∨
        e = "IMPLEMENTATION_ARTIFACT_UNAVAILABLE" ∨ e = "INVALID_STRATEGY_DESCRIPTOR" := by
    intro e he
    rw [hanswer] at he
    rcases bind_eq_error.mp he with he | ⟨_, -, he⟩
    · exact Or.inl (throwIf_eq_error he)
    · rcases bind_eq_error.mp he with he | ⟨_, -, he⟩
      · exact Or.inr (strategyRequirements_error he)
      · cases he
  constructor
  · intro he
    have hcases := herror _ he
    revert hcases
    decide
  · intro he
    have hcases := herror _ he
    revert hcases
    decide

/-- Along every run whose calls keep composites executable, each stored composite names distinct
definitions of its owner, and a submission of it passes the checks of its references. -/
theorem stored_composites_executable (strategies : StrategyModule)
    (hquotes : QuotesIds strategies.componentsText) (calls : List StrategyCall)
    (hrun : strategies.system.Legal strategies.KeepsExecutable .empty calls) :
    ∀ composite ∈ (strategies.system.run .empty calls).composites.rows,
      (componentIds composite.components).Nodup ∧
        (∀ id ∈ componentIds composite.components,
          Owns (strategies.system.run .empty calls) composite.userId id) ∧
        strategies.ReferencesPass (strategies.system.run .empty calls) composite := by
  have hexecutable : Executable (strategies.system.run .empty calls) :=
    hrun.invariant Executable (fun _ _ h he hc => executable_afterCall hquotes h he hc)
      ⟨fun _ hc => absurd hc List.not_mem_nil, fun _ hd => absurd hd List.not_mem_nil⟩
  intro composite hc
  have h := hexecutable.composites composite hc
  exact ⟨h.distinct, h.owned, referencesPass_of_executable hc h⟩

end StrategyModule

open StrategyModule (componentIds QuotesIds)

theorem quotesIds_exampleComponentsText : QuotesIds exampleComponentsText := by
  intro components id hid _
  obtain ⟨component, hcomponent, rfl⟩ := List.mem_map.mp hid
  have hmem := List.mem_map_of_mem (f := String.toList) (List.mem_map_of_mem
    (f := fun component : CompositeComponent =>
      "\x7b\"weight\": 0, \"strategyDefinitionId\": \"" ++ component.strategyDefinitionId
        ++ "\"\x7d") hcomponent)
  obtain ⟨i, hi⟩ := List.getElem?_of_mem hmem
  obtain ⟨before, after, hsplit⟩ := List.append_of_mem
    (List.mem_of_getElem? ((@List.getElem?_intersperse_two_mul _ _ ", ".toList i).trans hi))
  refine ⟨"[".toList ++ before.flatten ++
    "\x7b\"weight\": 0, \"strategyDefinitionId\": ".toList, "\x7d".toList ++ after.flatten ++
    "]".toList, ?_⟩
  rw [exampleComponentsText, String.toList_append, String.toList_append, String.toList_intercalate,
    List.intercalate, hsplit]
  simp [String.toList_append]

def drawnAt (id : String) : Draw := ⟨id, "2025-01-01T00:00:00.000Z"⟩

/-- A moving average, and a vote that names it as often as asked. -/
def votesOf (copies : Nat) : List StrategyCall :=
  [.defineStrategy "user-1" "MA" [] (drawnAt "strategy-definition-1"),
    .defineComposite "user-1"
      ⟨.majorityVote, List.replicate copies ⟨"strategy-definition-1", .ofInt 1⟩, none⟩
      (drawnAt "composite-strategy-1")]

/-- A moving average and an oscillator, and a vote of both. -/
def voteOfTwo : List StrategyCall :=
  [.defineStrategy "user-1" "MA" [] (drawnAt "strategy-definition-1"),
    .defineStrategy "user-1" "RSI" [] (drawnAt "strategy-definition-2"),
    .defineComposite "user-1"
      ⟨.majorityVote,
        [⟨"strategy-definition-2", .ofInt 1⟩, ⟨"strategy-definition-1", .ofInt 1⟩], none⟩
      (drawnAt "composite-strategy-1")]

theorem stored_composites_executable_vote :
    (((exampleStrategies .inMemory).system.run .empty voteOfTwo).composites.rows.map
        fun composite => componentIds composite.components) =
          [["strategy-definition-2", "strategy-definition-1"]] ∧
      ∀ composite ∈ ((exampleStrategies .inMemory).system.run .empty voteOfTwo).composites.rows,
        (componentIds composite.components).Nodup ∧
          (∀ id ∈ componentIds composite.components,
            Owns ((exampleStrategies .inMemory).system.run .empty voteOfTwo) composite.userId
              id) ∧
          (exampleStrategies .inMemory).ReferencesPass
            ((exampleStrategies .inMemory).system.run .empty voteOfTwo) composite :=
  ⟨by decide, StrategyModule.stored_composites_executable (exampleStrategies .inMemory)
    quotesIds_exampleComponentsText voteOfTwo
    ⟨⟨by decide, trivial⟩, ⟨by decide, trivial⟩, ⟨by decide, fun _ => by decide⟩, trivial⟩⟩

/-- The composite `votesOf` stores and the submission that names it with its components. -/
def submissionOf (copies : Nat) : Backtesting.StartBacktestCommand where
  leaderboardScopeId := "scope-1"
  strategyDefinitions := none
  compositeDefinition := none
  strategyDefinitionIds := some (List.replicate copies "strategy-definition-1")
  compositeDefinitionId := some "composite-strategy-1"
  executionPolicy := none
  maxAttempts := .ofInt 1
  searchRunId := none
  iterationNumber := none

/-- The error a submission of the stored vote meets at the end of a run. -/
def refusal (backend : Backend) (calls : List StrategyCall) (copies : Nat) : Option String :=
  match Backtesting.validateStrategyReferences
      ((exampleStrategies backend).api ((exampleStrategies backend).system.run .empty calls))
      "user-1" (submissionOf copies) with
  | .ok _ => none
  | .error e => some e

/-- A vote that names its definition twice is stored and cannot be submitted; nor can one whose
definition the process-memory store has deleted since. -/
theorem votesOf_refused :
    ((exampleStrategies .postgres).system.Legal (fun _ _ => True) .empty (votesOf 2) ∧
      (∃ composite ∈ ((exampleStrategies .postgres).system.run .empty (votesOf 2)).composites.rows,
        ¬ (componentIds composite.components).Nodup) ∧
      refusal .postgres (votesOf 2) 2 = some "STRATEGY_DEFINITION_NOT_FOUND") ∧
    (exampleStrategies .inMemory).system.Legal (fun _ _ => True) .empty
        (votesOf 1 ++ [.deleteDefinition "user-1" "strategy-definition-1"]) ∧
      (∃ composite ∈ ((exampleStrategies .inMemory).system.run .empty
          (votesOf 1 ++ [.deleteDefinition "user-1" "strategy-definition-1"])).composites.rows,
        ∃ id ∈ componentIds composite.components,
          ((exampleStrategies .inMemory).system.run .empty
            (votesOf 1 ++ [.deleteDefinition "user-1" "strategy-definition-1"])).definitions.get? id
            = none) ∧
      refusal .inMemory (votesOf 1 ++ [.deleteDefinition "user-1" "strategy-definition-1"]) 1 =
        some "STRATEGY_DEFINITION_NOT_FOUND" := by
  decide

end Cryptox.Strategy
