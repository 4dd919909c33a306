import Cryptox.Strategy.Api

/-!
# Versions and contents within a family

The versions of a user's logical family are pairwise distinct and so are its contents, for the
definitions as for the composites. The process-memory store loses this where one generation stores
two new definitions of one family: both are numbered after the family as it was.
-/
namespace Cryptox.Strategy

open Cryptox.Backtesting (JsNumber CombinationMethod isBlank)
open Cryptox.Library
open StrategyStore

/-- In every family of every user, versions and contents are pairwise distinct. -/
def Versioned (store : StrategyStore) : Prop := ∀ userId logicalFamilyKey,
  (((store.definitionsOf userId logicalFamilyKey).map (·.version)).Nodup ∧
    ((store.definitionsOf userId logicalFamilyKey).map StrategyDefinition.content).Nodup) ∧
  (((store.compositesOf userId logicalFamilyKey).map (·.version)).Nodup ∧
    ((store.compositesOf userId logicalFamilyKey).map CompositeStrategyDefinition.content).Nodup)

abbrev DefinitionsApart (rows : List StrategyDefinition) : Prop :=
  Distinguished familyOf (·.version) StrategyDefinition.content rows

abbrev CompositesApart (rows : List CompositeStrategyDefinition) : Prop :=
  Distinguished compositeFamilyOf (·.version) CompositeStrategyDefinition.content rows

theorem versioned_iff {store : StrategyStore} :
    Versioned store ↔
      DefinitionsApart store.definitions.rows ∧ CompositesApart store.composites.rows := by
  rw [DefinitionsApart, CompositesApart, distinguished_iff, distinguished_iff]
  constructor
  · intro h
    exact ⟨fun family => (h family.1 family.2).1, fun family => (h family.1 family.2).2⟩
  · rintro ⟨hdefinitions, hcomposites⟩ userId logicalFamilyKey
    exact ⟨hdefinitions (userId, logicalFamilyKey), hcomposites (userId, logicalFamilyKey)⟩

namespace StrategyModule

variable (strategies : StrategyModule)

/-- The contents a list of components asks for that the user has not stored. -/
def newContents (store : StrategyStore) (userId : String) (components : List GeneratedComponent) :
    List DefinitionContent :=
  components.filterMap fun component =>
    match strategies.requestedContent component.strategyName component.parameters with
    | .ok (_, content) =>
      if (strategies.storedDefinition store userId content).isNone then some content else none
    | .error _ => none

/-- An accepted composite proposal asks for at most one new content of each family. -/
def FamiliesApart (store : StrategyStore) : StrategyCall → Prop
  | .generateStrategy userId (.ok (.composite components method thresholds)) draws result audit =>
    (strategies.prepareGeneration store userId (.composite components method thresholds) draws
        result audit).toBool = true →
      ((strategies.newContents store userId components).map definitionFamilyKey).Nodup
  | _ => True

variable {strategies} {store : StrategyStore} {userId : String}

/-- The new definitions of a proposal are those of its new contents, family by family. -/
theorem newDefinitions_families {components : List GeneratedComponent} {draws : List Draw}
    {prepared : List (Prepared StrategyDefinition × JsNumber)}
    (hlength : components.length = draws.length)
    (h : strategies.prepareComponents store userId (components.zip draws) = .ok prepared) :
    (newDefinitions prepared).map familyOf =
      (strategies.newContents store userId components).map
        fun content => (userId, definitionFamilyKey content) := by
  induction components generalizing draws prepared with
  | nil =>
    cases h
    rfl
  | cons component components ih =>
    cases draws with
    | nil => cases hlength
    | cons draw draws =>
      rw [List.zip_cons_cons, prepareComponents, bind_eq_ok] at h
      obtain ⟨first, hfirst, h⟩ := h
      rw [bind_eq_ok] at h
      obtain ⟨others, hothers, h⟩ := h
      have hrest := ih (Nat.succ.inj hlength) hothers
      rw [← pure_eq_ok.mp h]
      obtain ⟨factory, content, hcontent, ⟨existing, hstored, rfl⟩ | ⟨hnone, rfl⟩⟩ :=
        prepareStrategy_eq_ok hfirst
      · rw [newContents, List.filterMap_cons_none]
        · exact hrest
        · simp [hcontent, hstored]
      · rw [newContents, List.filterMap_cons_some (b := content)]
        · rw [List.map_cons]
          exact congrArg (_ :: ·) hrest
        · simp [hcontent, hnone]

theorem newDefinitions_apart_iff {components : List GeneratedComponent} {draws : List Draw}
    {prepared : List (Prepared StrategyDefinition × JsNumber)}
    (hlength : components.length = draws.length)
    (h : strategies.prepareComponents store userId (components.zip draws) = .ok prepared) :
    ((newDefinitions prepared).Pairwise fun a b => familyOf a ≠ familyOf b) ↔
      ((strategies.newContents store userId components).map definitionFamilyKey).Nodup := by
  have hfamilies := newDefinitions_families hlength h
  rw [← List.pairwise_map (f := familyOf), hfamilies, List.pairwise_map, List.Nodup,
    List.pairwise_map]
  refine List.Pairwise.iff ?_
  intro a b
  simp

theorem prepareGeneration_owner {components : List GeneratedComponent} {method : CombinationMethod}
    {thresholds : JsNumber × JsNumber} {draws : List Draw} {result audit : Draw}
    {generation : GenerationCommit}
    (h : strategies.prepareGeneration store userId (.composite components method thresholds) draws
      result audit = .ok generation) : isBlank userId = false := by
  rw [prepareGeneration, bind_eq_ok] at h
  obtain ⟨prepared, -, h⟩ := h
  rw [bind_eq_ok] at h
  obtain ⟨composite, hcomposite, -⟩ := h
  obtain ⟨content, hcontent, -⟩ := prepareComposite_eq_ok hcomposite
  rw [compositeContent, bind_eq_ok] at hcontent
  obtain ⟨_, hchecked, -⟩ := hcontent
  exact (Bool.or_eq_false_iff.mp (throwIf_eq_ok.mp hchecked)).1

/-- The definitions that an accepted composite proposal stores are of different families just when
its new contents are. -/
theorem generation_apart_iff {components : List GeneratedComponent} {method : CombinationMethod}
    {thresholds : JsNumber × JsNumber} {draws : List Draw} {result audit : Draw}
    {generation : GenerationCommit} (hlength : components.length = draws.length)
    (h : strategies.prepareGeneration store userId (.composite components method thresholds) draws
      result audit = .ok generation) :
    (generation.definitions.Pairwise fun a b => familyOf a ≠ familyOf b) ↔
      ((strategies.newContents store userId components).map definitionFamilyKey).Nodup := by
  rw [prepareGeneration, bind_eq_ok] at h
  obtain ⟨prepared, hprepared, h⟩ := h
  rw [bind_eq_ok] at h
  obtain ⟨composite, -, h⟩ := h
  cases h
  exact newDefinitions_apart_iff hlength hprepared

theorem single_definitions {strategyName : String} {parameters : Parameters} {draws : List Draw}
    {result audit : Draw} {generation : GenerationCommit}
    (h : strategies.prepareGeneration store userId (.single strategyName parameters) draws result
      audit = .ok generation) :
    generation.definitions.Pairwise fun a b => familyOf a ≠ familyOf b := by
  rw [prepareGeneration, bind_eq_ok] at h
  obtain ⟨prepared, -, h⟩ := h
  cases h
  cases hnew : prepared.isNew with
  | false => exact List.Pairwise.nil
  | true => exact List.pairwise_singleton _ _

/-- A generation keeps the definitions told apart just when the condition on it is met. -/
theorem generateStrategy_apart {generated : Except String GeneratedStrategyProposal}
    {draws : List Draw} {result audit : Draw}
    (henabled : CallEnabled store (.generateStrategy userId generated draws result audit))
    (h : DefinitionsApart store.definitions.rows) :
    DefinitionsApart (strategies.afterCall store
        (.generateStrategy userId generated draws result audit)).definitions.rows ↔
      (strategies.backend = .inMemory →
        strategies.FamiliesApart store (.generateStrategy userId generated draws result audit)) := by
  rw [afterCall]
  cases hcall : strategies.generateStrategy store userId generated draws result audit with
  | error e =>
    refine iff_of_true h fun hmemory => ?_
    cases generated with
    | error e => trivial
    | ok proposal =>
      cases proposal with
      | single strategyName parameters => trivial
      | composite components method thresholds =>
        intro haccepted
        obtain ⟨generation, hgeneration⟩ := exists_ok haccepted
        have howner := prepareGeneration_owner hgeneration
        have hok : strategies.generateStrategy store userId
            (.ok (.composite components method thresholds)) draws result audit =
              .ok (InMemory.commit store generation, generation) := by
          simp only [generateStrategy, howner, commit, hmemory, throwIf, bind, Except.bind,
            hgeneration, pure, Except.pure, Bool.false_eq_true, if_false]
        rw [hok] at hcall
        cases hcall
  | ok answer =>
    obtain ⟨proposal, rfl, hgeneration, hcommit⟩ := generateStrategy_eq_ok hcall
    have hready := prepareGeneration_ready henabled.1 hgeneration
    obtain ⟨hrows, -, hpostgres⟩ := commit_rows hready hcommit
    have happend : DefinitionsApart answer.1.definitions.rows ↔
        answer.2.definitions.Pairwise fun a b => familyOf a ≠ familyOf b := by
      rw [hrows]
      exact distinguished_append_iff h hready.next
    rw [stored, happend]
    cases proposal with
    | single strategyName parameters =>
      exact iff_of_true (single_definitions hgeneration) fun _ => trivial
    | composite components method thresholds =>
      have hlength : components.length = draws.length :=
        henabled.2 (components, draws) rfl
      rw [generation_apart_iff hlength hgeneration]
      constructor
      · exact fun hnodup _ _ => hnodup
      · intro hcond
        cases hbackend : strategies.backend with
        | inMemory => exact hcond hbackend (by rw [hgeneration]; rfl)
        | postgres => exact (generation_apart_iff hlength hgeneration).mp (hpostgres hbackend)

theorem generateStrategy_composites {generated : Except String GeneratedStrategyProposal}
    {draws : List Draw} {result audit : Draw}
    (henabled : CallEnabled store (.generateStrategy userId generated draws result audit))
    (h : CompositesApart store.composites.rows) :
    CompositesApart (strategies.afterCall store
      (.generateStrategy userId generated draws result audit)).composites.rows := by
  rw [afterCall]
  cases hcall : strategies.generateStrategy store userId generated draws result audit with
  | error e => exact h
  | ok answer =>
    obtain ⟨proposal, rfl, hgeneration, hcommit⟩ := generateStrategy_eq_ok hcall
    have hready := prepareGeneration_ready henabled.1 hgeneration
    obtain ⟨-, hsame | ⟨composite, -, -, hnext, hadded⟩, -⟩ := commit_rows hready hcommit
    · rw [stored, hsame]
      exact h
    · rw [stored, hadded]
      exact h.append_successor hnext

/-- One call keeps versions and contents apart just when the condition on it is met. -/
theorem versioned_afterCall {call : StrategyCall} (hversioned : Versioned store)
    (henabled : CallEnabled store call) :
    (strategies.backend = .inMemory → strategies.FamiliesApart store call) ↔
      Versioned (strategies.afterCall store call) := by
  obtain ⟨hdefinitions, hcomposites⟩ := versioned_iff.mp hversioned
  rw [versioned_iff]
  cases call with
  | defineStrategy userId strategyName parameters draw =>
    refine iff_of_true (fun _ => trivial) ?_
    obtain ⟨hsame, hrows | ⟨factory, content, -, hnone, hrows⟩⟩ :=
      defineStrategy_rows (fresh_definition henabled.1 List.mem_cons_self)
    · rw [hsame, hrows]
      exact ⟨hdefinitions, hcomposites⟩
    · rw [hsame, hrows]
      exact ⟨hdefinitions.append_successor (newDefinition_next hnone), hcomposites⟩
  | defineComposite userId command draw =>
    refine iff_of_true (fun _ => trivial) ?_
    obtain ⟨hsame, hrows | ⟨content, -, hnone, hrows⟩⟩ :=
      defineComposite_rows (fresh_composite henabled.1 List.mem_cons_self)
    · rw [hsame, hrows]
      exact ⟨hdefinitions, hcomposites⟩
    · rw [hsame, hrows]
      exact ⟨hdefinitions, hcomposites.append_successor (newComposite_next hnone)⟩
  | generateStrategy userId generated draws result audit =>
    rw [← generateStrategy_apart henabled hdefinitions]
    exact ⟨fun h => ⟨h, generateStrategy_composites henabled hcomposites⟩, And.left⟩
  | deleteDefinition userId id =>
    refine iff_of_true (fun _ => trivial) ?_
    obtain ⟨hd, hc⟩ := deleteDefinition_sublist strategies store userId id
    exact ⟨hdefinitions.sublist hd, hcomposites.sublist hc⟩
  | deleteComposite userId id =>
    refine iff_of_true (fun _ => trivial) ?_
    obtain ⟨hd, hc⟩ := deleteComposite_sublist strategies store userId id
    rw [hd]
    exact ⟨hdefinitions, hcomposites.sublist hc⟩

/-- In every state of a run the versions and the contents of every family are pairwise distinct,
just when no generation in process memory stores two new contents of one family. -/
theorem versions_and_contents_distinct (strategies : StrategyModule) (calls : List StrategyCall)
    (hrun : strategies.system.Legal (fun _ _ => True) .empty calls) :
    (∀ before later, calls = before ++ later →
        Versioned (strategies.system.run .empty before)) ↔
      strategies.system.Legal
        (fun store call => strategies.backend = .inMemory → strategies.FamiliesApart store call)
        .empty calls := by
  have hempty : Versioned .empty := versioned_iff.mpr ⟨distinguished_nil, distinguished_nil⟩
  refine (GuardedSystem.legal_iff_prefixes Versioned ?_ hrun hempty).symm
  exact fun store call hversioned henabled => versioned_afterCall hversioned henabled

end StrategyModule

/-- A model's proposal of two moving averages over the same periods. -/
def proposalOfTwins : StrategyCall :=
  .generateStrategy "user-1"
    (.ok (.composite [⟨"MA", [], .ofInt 1⟩, ⟨"MA", [], .ofInt 1⟩] .majorityVote
      StrategyModule.defaultThresholds))
    [⟨"strategy-definition-1", "2025-01-01T00:00:00.000Z"⟩,
      ⟨"strategy-definition-2", "2025-01-01T00:00:00.000Z"⟩]
    ⟨"composite-strategy-1", "2025-01-01T00:00:00.000Z"⟩
    ⟨"strategy-generation-1", "2025-01-01T00:00:00.000Z"⟩

/-- Two moving averages, one of them twice, a composite of both, and the twins. -/
def definedOverDatabase : List StrategyCall :=
  [.defineStrategy "user-1" "MA" [] ⟨"strategy-definition-3", "2025-01-01T00:00:00.000Z"⟩,
    .defineStrategy "user-1" "MA" [("fastPeriod", .inl (.ofInt 5))]
      ⟨"strategy-definition-4", "2025-01-01T00:00:00.000Z"⟩,
    .defineStrategy "user-1" "MA" [] ⟨"strategy-definition-5", "2025-01-01T00:00:00.000Z"⟩,
    .defineComposite "user-1" ⟨.majorityVote,
        [⟨"strategy-definition-3", .ofInt 1⟩, ⟨"strategy-definition-4", .ofInt 1⟩], none⟩
      ⟨"composite-strategy-2", "2025-01-01T00:00:00.000Z"⟩,
    proposalOfTwins]

/-- The definition that is asked for twice is stored once, and the twins are the stored one. -/
theorem versions_and_contents_distinct_database :
    Versioned ((exampleStrategies .postgres).system.run .empty definedOverDatabase) ∧
      (((exampleStrategies .postgres).system.run .empty definedOverDatabase).definitionsOf "user-1"
        "strategy:MA").map (·.version) = [1, 2] := by
  have hrun : (exampleStrategies .postgres).system.Legal (fun _ _ => True) .empty
      definedOverDatabase := by decide
  have hcond : (exampleStrategies .postgres).system.Legal
      (fun store call => (exampleStrategies .postgres).backend = .inMemory →
        (exampleStrategies .postgres).FamiliesApart store call) .empty definedOverDatabase :=
    hrun.mono fun _ _ _ h => by cases h
  exact ⟨(StrategyModule.versions_and_contents_distinct _ _ hrun).mpr hcond _ [] (by simp),
    by decide⟩

/-- In process memory both are stored, with one version and one content. -/
theorem proposalOfTwins_versions :
    (exampleStrategies .inMemory).system.Legal (fun _ _ => True) .empty [proposalOfTwins] ∧
      ¬ Versioned ((exampleStrategies .inMemory).system.run .empty [proposalOfTwins]) := by
  constructor
  · decide
  · intro h
    have hversions := (h "user-1" "strategy:MA").1.1
    revert hversions
    decide

end Cryptox.Strategy
