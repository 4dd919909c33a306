import Cryptox.Library.Table
import Cryptox.Backtesting.Simulator

/-!
# Strategies, their plug-ins and their stored definitions

A stored definition is what the backtesting module reads of it together with its owner, its
family and its version in the family. Labels and descriptions are not kept.
-/
namespace Cryptox.Strategy

open Cryptox.Backtesting (JsNumber CombinationMethod CompositeComponent isJsSpace)
open Cryptox.Library (Table)

abbrev ParameterValue := JsNumber ⊕ String

/-- A record of parameters, as the list of its entries. -/
abbrev Parameters := List (String × ParameterValue)

/-- The arithmetic of numbers, and the number that a text denotes. -/
structure Numbers where
  add : JsNumber → JsNumber → JsNumber
  subtract : JsNumber → JsNumber → JsNumber
  multiply : JsNumber → JsNumber → JsNumber
  divide : JsNumber → JsNumber → JsNumber
  square : JsNumber → JsNumber
  sqrt : JsNumber → JsNumber
  ofText : String → JsNumber

inductive ParameterType where
  | integer | number | enumerated
deriving DecidableEq, Repr

structure StrategyParameterDescriptor where
  key : String
  type : ParameterType
  defaultValue : ParameterValue
  minimum : Option JsNumber
  maximum : Option JsNumber
  options : Option (List String)
deriving DecidableEq, Repr

inductive StrategyCategory where
  | trend | momentum | volatility | structural | information
deriving DecidableEq, Repr

structure StrategyPluginDescriptor where
  name : String
  displayName : String
  category : StrategyCategory
  implementationVersion : String
  implementationSha256 : String
  /-- `descriptor` refuses anything but a whole number that is not negative. -/
  minimumHistoryCandles : Nat
  parameters : List StrategyParameterDescriptor
  requiresSentiment : Bool
deriving DecidableEq, Repr

structure StrategyFactory where
  descriptor : StrategyPluginDescriptor
  create : Parameters → Backtesting.Strategy
  validateParameters : Parameters → Except String Unit

structure StrategyDefinition extends Backtesting.StrategyDefinition where
  userId : String
  logicalFamilyKey : String
  familyName : String
  version : Nat
  createdAt : String
deriving DecidableEq, Repr

structure CompositeStrategyDefinition extends Backtesting.CompositeStrategyDefinition where
  userId : String
  logicalFamilyKey : String
  version : Nat
  createdAt : String
deriving DecidableEq, Repr

/-- What a definition is told apart by within its family. -/
structure DefinitionContent where
  strategyName : String
  implementationSha256 : String
  parameters : Parameters
deriving DecidableEq, Repr

structure CompositeContent where
  method : CombinationMethod
  components : List CompositeComponent
  thresholds : Option (JsNumber × JsNumber)
deriving DecidableEq, Repr

def StrategyDefinition.content (definition : StrategyDefinition) : DefinitionContent :=
  ⟨definition.strategyName, definition.implementationSha256, definition.parameters⟩

def CompositeStrategyDefinition.content (composite : CompositeStrategyDefinition) :
    CompositeContent :=
  ⟨composite.method, composite.components, composite.thresholds⟩

/-- The audit record of a generation, with the one result it names. -/
structure StrategyGenerationRequest where
  id : String
  ownerUserId : String
  strategyDefinitionId : Option String
  compositeDefinitionId : Option String
deriving DecidableEq, Repr

structure CompositeCommand where
  method : CombinationMethod
  components : List CompositeComponent
  thresholds : Option (JsNumber × JsNumber)
deriving DecidableEq, Repr

structure GeneratedComponent where
  strategyName : String
  parameters : Parameters
  weight : JsNumber
deriving DecidableEq, Repr

/-- A proposal of the model, once its schema is checked. -/
inductive GeneratedStrategyProposal where
  | single (strategyName : String) (parameters : Parameters)
  | composite (components : List GeneratedComponent) (method : CombinationMethod)
      (thresholds : JsNumber × JsNumber)
deriving DecidableEq, Repr

/-- `String.prototype.trim`. -/
def trim (text : String) : String :=
  String.ofList
    (((text.toList.dropWhile isJsSpace).reverse.dropWhile isJsSpace).reverse)

end Cryptox.Strategy
