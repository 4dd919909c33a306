import Cryptox.Library.Lineage
import Cryptox.Strategy.Store

/-!
# Defining, generating and deleting strategies

A definition or a composite is prepared against the family stored so far: the same content gives
the row that is there, another content a new row numbered after the largest. The identifiers drawn
and the time come with each call.
-/
namespace Cryptox.Strategy

open Cryptox.Backtesting (JsNumber Decimal CombinationMethod CompositeComponent isBlank isJsSpace)
open Cryptox.Library (Table throwIf nextVersion)
open StrategyStore

/-- The registry, the store and the parts of the host that the service calls. -/
structure StrategyModule where
  /-- The registered factories by name, in the order of the map. -/
  factories : List StrategyFactory
  backend : Backend
  digest : DefinitionContent ⊕ CompositeContent → String
  toUpperCase : String → String
  toLowerCase : String → String
  numbers : Numbers
  /-- The text that the database gives for a list of components. -/
  componentsText : List CompositeComponent → String

namespace StrategyModule

variable (strategies : StrategyModule)

/-- White space, underscores and hyphens are dropped. -/
def withoutSeparators (text : String) : String :=
  String.ofList (text.toList.filter fun c => !(isJsSpace c || c == '_' || c == '-'))

/-- Another way to write a registered name. -/
def isAlias (clean rawClean : String) : Bool :=
  clean == rawClean
    || (clean == "BOLLINGER" && ["BOLLINGERBANDS", "BOLLINGERBAND"].contains rawClean)
    || (clean == "MA" && ["MOVINGAVERAGE", "MOVINGAVERAGECROSS", "MACROSS"].contains rawClean)
    || (clean == "SUPPORTRESISTANCE" && ["SUPPORTANDRESISTANCE", "SUPPRES"].contains rawClean)

def lookupFactory (name : String) : Option StrategyFactory :=
  let named := fun text : String => strategies.factories.find? (·.descriptor.name == text)
  let rawClean := withoutSeparators (strategies.toUpperCase (trim name))
  (named name).or <| (named (strategies.toUpperCase name)).or <|
    (strategies.factories.find? fun factory =>
      isAlias (withoutSeparators (strategies.toUpperCase factory.descriptor.name)) rawClean).or <|
    strategies.factories.find? fun factory =>
      strategies.toLowerCase factory.descriptor.name == strategies.toLowerCase name

end StrategyModule

def isFiniteOrText : ParameterValue → Bool
  | .inl number => number.isFinite
  | .inr _ => true

/-- The value a descriptor takes from the record, its default where the record has none. -/
def normalizeParameter (values : Parameters) (descriptor : StrategyParameterDescriptor) :
    Except String (String × ParameterValue) := do
  let value := (values.lookup descriptor.key).getD descriptor.defaultValue
  match descriptor.type, value with
  | .enumerated, .inr text =>
    throwIf (!(descriptor.options.getD []).contains text) "INVALID_STRATEGY_PARAMETERS"
  | .enumerated, .inl _ => .error "INVALID_STRATEGY_PARAMETERS"
  | _, .inr _ => .error "INVALID_STRATEGY_PARAMETERS"
  | type, .inl number =>
    throwIf (!number.isFinite || (type == .integer && !number.isInteger))
      "INVALID_STRATEGY_PARAMETERS"
    throwIf (descriptor.minimum.any fun minimum => number.lt minimum)
      "INVALID_STRATEGY_PARAMETERS"
    throwIf (descriptor.maximum.any fun maximum => maximum.lt number)
      "INVALID_STRATEGY_PARAMETERS"
  return (descriptor.key, value)

def validateParameters (factory : StrategyFactory) (values : Parameters) :
    Except String Parameters := do
  throwIf (!values.all fun entry => isFiniteOrText entry.2) "INVALID_STRATEGY_PARAMETERS"
  throwIf (values.any fun entry =>
    !(factory.descriptor.parameters.any fun descriptor => descriptor.key == entry.1))
    "INVALID_STRATEGY_PARAMETERS"
  let normalized ← factory.descriptor.parameters.mapM (normalizeParameter values)
  match factory.validateParameters normalized with
  | .ok _ => return normalized
  | .error _ => .error "INVALID_STRATEGY_PARAMETERS"

/-- A row of the store, and whether it is still to be stored. -/
structure Prepared (ρ : Type) where
  definition : ρ
  isNew : Bool

/-- The identifier drawn for a new row, and the time. -/
structure Draw where
  id : String
  now : String
deriving DecidableEq, Repr

namespace StrategyModule

variable (strategies : StrategyModule)

/-- The registered strategy a request names and the content it asks for. -/
def requestedContent (strategyName : String) (parameters : Parameters) :
    Except String (StrategyFactory × DefinitionContent) := do
  match strategies.lookupFactory strategyName with
  | none => .error "STRATEGY_NOT_REGISTERED"
  | some factory =>
    let normalized ← validateParameters factory parameters
    return (factory, ⟨factory.descriptor.name, factory.descriptor.implementationSha256, normalized⟩)

def definitionFamilyKey (content : DefinitionContent) : String := "strategy:" ++ content.strategyName

def listDefinitions (store : StrategyStore) (userId logicalFamilyKey : String) :
    List StrategyDefinition :=
  strategies.backend.listed (·.version) (store.definitionsOf userId logicalFamilyKey)

def listComposites (store : StrategyStore) (userId logicalFamilyKey : String) :
    List CompositeStrategyDefinition :=
  strategies.backend.listed (·.version) (store.compositesOf userId logicalFamilyKey)

/-- The stored definition with the digest of a content. -/
def storedDefinition (store : StrategyStore) (userId : String) (content : DefinitionContent) :
    Option StrategyDefinition :=
  (strategies.listDefinitions store userId (definitionFamilyKey content)).find? fun definition =>
    strategies.digest (.inl definition.content) == strategies.digest (.inl content)

def newDefinition (store : StrategyStore) (userId : String) (factory : StrategyFactory)
    (content : DefinitionContent) (draw : Draw) : StrategyDefinition where
  id := draw.id
  strategyName := content.strategyName
  implementationVersion := factory.descriptor.implementationVersion
  implementationSha256 := content.implementationSha256
  parameters := content.parameters
  userId
  logicalFamilyKey := definitionFamilyKey content
  familyName := factory.descriptor.displayName
  version := nextVersion
    ((strategies.listDefinitions store userId (definitionFamilyKey content)).map (·.version))
  createdAt := draw.now

def prepareStrategy (store : StrategyStore) (userId strategyName : String)
    (parameters : Parameters) (draw : Draw) : Except String (Prepared StrategyDefinition) := do
  throwIf (isBlank userId) "INVALID_USER"
  let (factory, content) ← strategies.requestedContent strategyName parameters
  match strategies.storedDefinition store userId content with
  | some existing => return ⟨existing, false⟩
  | none => return ⟨strategies.newDefinition store userId factory content draw, true⟩

def requireOwnedDefinition (store : StrategyStore) (userId : String) (known : List String)
    (id : String) : Except String Unit :=
  if known.contains id then .ok ()
  else if (store.listByIds userId [id]).length > 0 then .ok ()
  else if (store.definitions.get? id).isSome then .error "OWNERSHIP_MISMATCH"
  else .error "UNKNOWN_STRATEGY_DEFINITION"

def defaultThresholds : JsNumber × JsNumber := (.finite ⟨3, 1⟩, .finite ⟨-3, 1⟩)

def withinUnit (threshold : JsNumber) : Bool :=
  !threshold.lt (.ofInt (-1)) && !(JsNumber.ofInt 1).lt threshold

def validThresholds (thresholds : JsNumber × JsNumber) : Bool :=
  thresholds.1.isFinite && thresholds.2.isFinite && !thresholds.1.le thresholds.2
    && withinUnit thresholds.1 && withinUnit thresholds.2

/-- Whether the weights add up to one, up to a ten-thousandth either way. -/
def balanced (components : List CompositeComponent) : Bool :=
  let totalWeight := components.foldl (fun sum component => strategies.numbers.add sum component.weight)
    (.ofInt 0)
  let difference := strategies.numbers.subtract totalWeight (.ofInt 1)
  let tolerance := JsNumber.finite ⟨1, 4⟩
  !tolerance.lt difference && !difference.lt (.finite ⟨-1, 4⟩)

/-- What a composite command asks for, once its checks pass. -/
def compositeContent (store : StrategyStore) (userId : String) (command : CompositeCommand)
    (known : List String) : Except String CompositeContent := do
  throwIf (isBlank userId || command.components.isEmpty) "INVALID_COMPOSITE_STRATEGY"
  throwIf (command.components.any fun component =>
    isBlank component.strategyDefinitionId || !component.weight.isFinite)
    "INVALID_COMPOSITE_STRATEGY"
  throwIf (command.components.any fun component => component.weight.lt (.ofInt 0))
    "INVALID_COMPOSITE_STRATEGY"
  command.components.forM fun component =>
    requireOwnedDefinition store userId known component.strategyDefinitionId
  match command.method with
  | .majorityVote =>
    return {
      method := .majorityVote
      components := command.components.map fun component => { component with weight := .ofInt 0 }
      thresholds := some defaultThresholds }
  | .weightedScore =>
    throwIf (!strategies.balanced command.components) "INVALID_COMPOSITE_STRATEGY"
    let thresholds := command.thresholds.getD defaultThresholds
    throwIf (!validThresholds thresholds) "INVALID_COMPOSITE_STRATEGY"
    return ⟨.weightedScore, command.components, some thresholds⟩

def methodText : CombinationMethod → String
  | .majorityVote => "MAJORITY_VOTE"
  | .weightedScore => "WEIGHTED_SCORE"

def componentIds (components : List CompositeComponent) : List String :=
  components.map (·.strategyDefinitionId)

def compositeFamilyKey (content : CompositeContent) : String :=
  "composite:" ++ methodText content.method ++ ":"
    ++ ",".intercalate ((componentIds content.components).insertionSort (· ≤ ·))

def storedComposite (store : StrategyStore) (userId : String) (content : CompositeContent) :
    Option CompositeStrategyDefinition :=
  (strategies.listComposites store userId (compositeFamilyKey content)).find? fun composite =>
    strategies.digest (.inr composite.content) == strategies.digest (.inr content)

def newComposite (store : StrategyStore) (userId : String) (content : CompositeContent)
    (draw : Draw) : CompositeStrategyDefinition where
  id := draw.id
  method := content.method
  components := content.components
  thresholds := content.thresholds
  userId
  logicalFamilyKey := compositeFamilyKey content
  version := nextVersion
    ((strategies.listComposites store userId (compositeFamilyKey content)).map (·.version))
  createdAt := draw.now

def prepareComposite (store : StrategyStore) (userId : String) (command : CompositeCommand)
    (known : List String) (draw : Draw) :
    Except String (Prepared CompositeStrategyDefinition) := do
  let content ← strategies.compositeContent store userId command known
  match strategies.storedComposite store userId content with
  | some existing => return ⟨existing, false⟩
  | none => return ⟨strategies.newComposite store userId content draw, true⟩

/-- The store after a call with the call's answer. -/
abbrev Outcome (α : Type) := StrategyStore × Except String α

def insertDefinition (store : StrategyStore) (definition : StrategyDefinition) :
    Except String StrategyStore :=
  match strategies.backend with
  | .inMemory => .ok (InMemory.insertDefinition store definition)
  | .postgres => Postgres.insertDefinition store definition

def insertComposite (store : StrategyStore) (composite : CompositeStrategyDefinition) :
    Except String StrategyStore :=
  match strategies.backend with
  | .inMemory => .ok (InMemory.insertComposite store composite)
  | .postgres => Postgres.insertComposite store composite

def commit (store : StrategyStore) (input : GenerationCommit) : Except String StrategyStore :=
  match strategies.backend with
  | .inMemory => .ok (InMemory.commit store input)
  | .postgres => Postgres.commit store input

def defineStrategy (store : StrategyStore) (userId strategyName : String) (parameters : Parameters)
    (draw : Draw) : Except String (StrategyStore × StrategyDefinition) := do
  let prepared ← strategies.prepareStrategy store userId strategyName parameters draw
  if prepared.isNew then
    let stored ← strategies.insertDefinition store prepared.definition
    return (stored, prepared.definition)
  else return (store, prepared.definition)

def defineComposite (store : StrategyStore) (userId : String) (command : CompositeCommand)
    (draw : Draw) : Except String (StrategyStore × CompositeStrategyDefinition) := do
  let prepared ← strategies.prepareComposite store userId command [] draw
  if prepared.isNew then
    let stored ← strategies.insertComposite store prepared.definition
    return (stored, prepared.definition)
  else return (store, prepared.definition)

/-- The components are prepared one by one, all against the store before any is kept. -/
def prepareComponents (store : StrategyStore) (userId : String) :
    List (GeneratedComponent × Draw) →
      Except String (List (Prepared StrategyDefinition × JsNumber))
  | [] => .ok []
  | (component, draw) :: rest => do
    let prepared ← strategies.prepareStrategy store userId component.strategyName
      component.parameters draw
    let others ← prepareComponents store userId rest
    return (prepared, component.weight) :: others

def newDefinitions (prepared : List (Prepared StrategyDefinition × JsNumber)) :
    List StrategyDefinition :=
  (prepared.filter (·.1.isNew)).map (·.1.definition)

def preparedComponents (prepared : List (Prepared StrategyDefinition × JsNumber)) :
    List CompositeComponent :=
  prepared.map fun entry => ⟨entry.1.definition.id, entry.2⟩

/-- What one generation stores: the definition of a single proposal, or the definitions and the
composite of a composite one. -/
def prepareGeneration (store : StrategyStore) (userId : String) :
    GeneratedStrategyProposal → List Draw → Draw → Draw → Except String GenerationCommit
  | .single strategyName parameters, _, result, audit => do
    let prepared ← strategies.prepareStrategy store userId strategyName parameters result
    return {
      definitions := if prepared.isNew then [prepared.definition] else []
      composite := none
      audit := ⟨audit.id, userId, some prepared.definition.id, none⟩ }
  | .composite components method thresholds, draws, result, audit => do
    let prepared ← strategies.prepareComponents store userId (components.zip draws)
    let composite ← strategies.prepareComposite store userId
      ⟨method, preparedComponents prepared, some thresholds⟩
      ((newDefinitions prepared).map (·.id)) result
    return {
      definitions := newDefinitions prepared
      composite := some composite.definition
      audit := ⟨audit.id, userId, none, some composite.definition.id⟩ }

/-- `generateStrategy` from the proposal on, or from the error that ended it before. -/
def generateStrategy (store : StrategyStore) (userId : String)
    (generated : Except String GeneratedStrategyProposal) (draws : List Draw)
    (result audit : Draw) : Except String (StrategyStore × GenerationCommit) := do
  throwIf (isBlank userId) "VALIDATION_ERROR"
  let generation ← generated >>= fun proposal =>
    strategies.prepareGeneration store userId proposal draws result audit
  let stored ← strategies.commit store generation
  return (stored, generation)

def deleteDefinition (store : StrategyStore) (userId id : String) : Outcome Bool :=
  if isBlank userId || isBlank id then (store, .error "VALIDATION_ERROR")
  else
    match strategies.backend with
    | .inMemory =>
      let deleted := InMemory.deleteDefinition store userId (trim id)
      (deleted.1, .ok deleted.2)
    | .postgres => Postgres.deleteDefinition strategies.componentsText store userId (trim id)

def deleteComposite (store : StrategyStore) (userId id : String) : Outcome Bool :=
  if isBlank userId || isBlank id then (store, .error "VALIDATION_ERROR")
  else
    let deleted := match strategies.backend with
      | .inMemory => InMemory.deleteComposite store userId (trim id)
      | .postgres => Postgres.deleteComposite store userId (trim id)
    (deleted.1, .ok deleted.2)

end StrategyModule

end Cryptox.Strategy
