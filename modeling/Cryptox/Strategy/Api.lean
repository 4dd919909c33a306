import Cryptox.Backtesting.Service.Submission
import Cryptox.Strategy.Effects
import Cryptox.Strategy.Plugins

/-!
# The strategy module as the backtesting module sees it

The descriptors it lists, the definitions and the composite it reads back, and the answers of the
strategies it resolves. Every definition it stores was accepted by a registered factory.
-/
namespace Cryptox.Strategy

open Cryptox.Backtesting (JsNumber CompositeComponent)
open Cryptox.Library
open StrategyStore

def categoryText : StrategyCategory → String
  | .trend => "TREND"
  | .momentum => "MOMENTUM"
  | .volatility => "VOLATILITY"
  | .structural => "STRUCTURE"
  | .information => "INFORMATION"

def listedDescriptor (descriptor : StrategyPluginDescriptor) : Backtesting.StrategyDescriptor where
  name := descriptor.name
  category := some (categoryText descriptor.category)
  implementationSha256 := descriptor.implementationSha256
  implementationVersion := some descriptor.implementationVersion
  minimumHistoryCandles := some (.ofInt descriptor.minimumHistoryCandles)
  requiresSentiment := if descriptor.requiresSentiment then some true else none

namespace StrategyModule

variable (strategies : StrategyModule)

/-- The retained implementation of a definition, by name and hash. -/
def resolveStrategy (definition : Backtesting.StrategyDefinition) :
    Except String Backtesting.Strategy :=
  match strategies.factories.find? fun factory =>
      factory.descriptor.name == definition.strategyName
        && factory.descriptor.implementationSha256 == definition.implementationSha256 with
  | some factory => .ok (factory.create definition.parameters)
  | none => .error "IMPLEMENTATION_ARTIFACT_UNAVAILABLE"

def signalWeight (signal : String) : JsNumber :=
  if signal == "BUY" then .ofInt 1 else if signal == "SELL" then .ofInt (-1) else .ofInt 0

def combineSignals (definition : Backtesting.CompositeStrategyDefinition)
    (signals : List (String × String)) : String :=
  let selected := definition.components.map fun component =>
    (component, (signals.lookup component.strategyDefinitionId).getD "HOLD")
  if selected.isEmpty then "HOLD"
  else
    match definition.method with
    | .majorityVote =>
      let count := fun signal : String => selected.countP (·.2 == signal)
      if count "SELL" < count "BUY" && count "HOLD" < count "BUY" then "BUY"
      else if count "BUY" < count "SELL" && count "HOLD" < count "SELL" then "SELL"
      else "HOLD"
    | .weightedScore =>
      let score := selected.foldl (fun sum entry => strategies.numbers.add sum
        (strategies.numbers.multiply entry.1.weight (signalWeight entry.2))) (.ofInt 0)
      let thresholds := definition.thresholds.getD defaultThresholds
      if thresholds.1.lt score then "BUY" else if score.lt thresholds.2 then "SELL" else "HOLD"

def getDefinition (store : StrategyStore) (userId id : String) :
    Except String StrategyDefinition :=
  match (store.listByIds userId [id]).head? with
  | some definition => .ok definition
  | none => .error "STRATEGY_DEFINITION_NOT_FOUND"

def readComposite (store : StrategyStore) (userId id : String) :
    Except String CompositeStrategyDefinition :=
  match store.getComposite userId id with
  | some composite => .ok composite
  | none => .error "COMPOSITE_STRATEGY_NOT_FOUND"

def api (store : StrategyStore) : Backtesting.StrategyApi where
  listStrategies := some (strategies.factories.map fun factory =>
    listedDescriptor factory.descriptor)
  resolveStrategy := strategies.resolveStrategy
  combineSignals := fun definition signals => .ok (strategies.combineSignals definition signals)
  readDefinitions := fun userId ids =>
    ids.mapM fun id => (getDefinition store userId id).map (·.toStrategyDefinition)
  readComposite := fun userId id =>
    (readComposite store userId id).map (·.toCompositeStrategyDefinition)

/-- A definition as its factory accepts it. -/
structure AcceptedBy (factory : StrategyFactory) (definition : StrategyDefinition) : Prop where
  name_eq : definition.strategyName = factory.descriptor.name
  sha_eq : definition.implementationSha256 = factory.descriptor.implementationSha256
  version_eq : definition.implementationVersion = factory.descriptor.implementationVersion
  accepted : ∃ values, validateParameters factory values = .ok definition.parameters

def Registered (definition : StrategyDefinition) : Prop :=
  ∃ factory ∈ strategies.factories, AcceptedBy factory definition

variable {strategies} {store : StrategyStore}

theorem lookupFactory_mem {name : String} {factory : StrategyFactory}
    (h : strategies.lookupFactory name = some factory) : factory ∈ strategies.factories := by
  simp only [lookupFactory, Option.or_eq_some_iff] at h
  rcases h with h | ⟨-, h | ⟨-, h | ⟨-, h⟩⟩⟩ <;> exact List.mem_of_find?_eq_some h

theorem requestedContent_eq_ok {strategyName : String} {parameters : Parameters}
    {factory : StrategyFactory} {content : DefinitionContent}
    (h : strategies.requestedContent strategyName parameters = .ok (factory, content)) :
    factory ∈ strategies.factories ∧ content.strategyName = factory.descriptor.name ∧
      content.implementationSha256 = factory.descriptor.implementationSha256 ∧
      validateParameters factory parameters = .ok content.parameters := by
  rw [requestedContent] at h
  cases hlookup : strategies.lookupFactory strategyName with
  | none =>
    simp only [hlookup] at h
    cases h
  | some found =>
    simp only [hlookup] at h
    rw [bind_eq_ok] at h
    obtain ⟨normalized, hnormalized, h⟩ := h
    cases h
    exact ⟨lookupFactory_mem hlookup, rfl, rfl, hnormalized⟩

theorem newDefinition_registered {strategyName : String} {parameters : Parameters} {userId : String}
    {factory : StrategyFactory} {content : DefinitionContent} {draw : Draw}
    (h : strategies.requestedContent strategyName parameters = .ok (factory, content)) :
    strategies.Registered (strategies.newDefinition store userId factory content draw) := by
  obtain ⟨hmem, hname, hsha, hparameters⟩ := requestedContent_eq_ok h
  exact ⟨factory, hmem, hname, hsha, rfl, parameters, hparameters⟩

end StrategyModule

/-- Exact arithmetic, as the host has it on small decimals. -/
def exampleNumbers : Numbers where
  add := fun left right => match left, right with
    | .finite l, .finite r => .finite (l.add r)
    | _, _ => .nan
  subtract := fun left right => match left, right with
    | .finite l, .finite r => .finite (l.subtract r)
    | _, _ => .nan
  multiply := fun left right => match left, right with
    | .finite l, .finite r => .finite (l.multiply r)
    | _, _ => .nan
  divide := fun left right => match left, right with
    | .finite l, .finite r => ((l.divide r 15).toOption.map JsNumber.finite).getD .nan
    | _, _ => .nan
  square := fun value => match value with
    | .finite v => .finite (v.multiply v)
    | other => other
  sqrt := id
  ofText := fun _ => .nan

def exampleNumberText : JsNumber → String
  | .finite shown => toString shown.units ++ "e-" ++ toString shown.scale
  | .nan => "NaN"
  | .infinity negative => if negative then "-Infinity" else "Infinity"

def exampleValueText : ParameterValue → String
  | .inl number => exampleNumberText number
  | .inr text => text

/-- A text that tells contents apart, in the place of their hash. -/
def exampleDigest : DefinitionContent ⊕ CompositeContent → String
  | .inl content => content.strategyName ++ ":" ++ content.implementationSha256 ++ ":" ++
      ",".intercalate (content.parameters.map fun entry => entry.1 ++ "=" ++ exampleValueText entry.2)
  | .inr content => StrategyModule.methodText content.method ++ ":" ++
      ",".intercalate (content.components.map fun component =>
        component.strategyDefinitionId ++ "=" ++ exampleNumberText component.weight) ++ ":" ++
      ((content.thresholds.map fun thresholds =>
        exampleNumberText thresholds.1 ++ "," ++ exampleNumberText thresholds.2).getD "")

/-- Components as the database shows those of a majority vote, whose weights are zero. -/
def exampleComponentsText (components : List CompositeComponent) : String :=
  "[" ++ ", ".intercalate (components.map fun component =>
    "\x7b\"weight\": 0, \"strategyDefinitionId\": \"" ++ component.strategyDefinitionId
      ++ "\"\x7d") ++ "]"

/-- The built-in strategies on a backend. -/
def exampleStrategies (backend : Backend) : StrategyModule where
  factories := builtInFactories exampleNumbers fun name => "sha256-of-" ++ name
  backend
  digest := exampleDigest
  toUpperCase := fun text => String.ofList (text.toList.map Char.toUpper)
  toLowerCase := fun text => String.ofList (text.toList.map Char.toLower)
  numbers := exampleNumbers
  componentsText := exampleComponentsText

end Cryptox.Strategy
