import Cryptox.Library.Outcome
import Cryptox.Search.Contracts
import Cryptox.Strategy.Contracts

/-!
# The space a search draws from

Definitions with the category and the parameter descriptors of their strategy as the search was
started, the rules of a guided search, and what `start` asks of them.
-/
namespace Cryptox.Search

open Cryptox.Backtesting (JsNumber)
open Cryptox.Library (throwIf)

structure SearchParameterDescriptor extends Strategy.StrategyParameterDescriptor where
  required : Bool
  step : Option JsNumber
deriving DecidableEq, Repr

structure SearchStrategyDefinition extends toDefinition : Strategy.StrategyDefinition where
  category : Option String
  parameterDescriptors : Option (List SearchParameterDescriptor)
deriving DecidableEq, Repr

structure DomainRules where
  requiredCategories : Option (List String)
  allowedCategories : Option (List String)
  forbiddenCategories : Option (List String)
deriving DecidableEq, Repr

def DomainRules.none : DomainRules := ⟨.none, .none, .none⟩

structure SearchSpaceConfig where
  availableStrategies : List SearchStrategyDefinition
  domainRules : Option DomainRules
  maxComponents : Option JsNumber
  generatedFingerprints : List String
deriving DecidableEq, Repr

/-- What `start` is asked for. -/
structure StartCommand where
  stopCondition : StopCondition
  maxInFlight : Nat
  leaderboardScopeId : String
  generatorType : GeneratorType
  searchSpace : SearchSpaceConfig
deriving DecidableEq, Repr

def categories : List String := ["TREND", "MOMENTUM", "VOLATILITY", "STRUCTURE", "INFORMATION"]

def validateSearchSpaceOwner (ownerUserId : String) (searchSpace : SearchSpaceConfig) :
    Except String Unit :=
  throwIf (searchSpace.availableStrategies.any fun definition => definition.userId != ownerUserId)
    "INVALID_SEARCH_CONFIG"

/-- A list of categories is refused with one that is not known or is there twice. -/
def readCategories (value : Option (List String)) : Except String (Option (List String)) := do
  throwIf (value.any fun listed => listed.any fun category => !categories.contains category)
    "INVALID_SEARCH_CONFIG"
  throwIf (value.any fun listed => listed.eraseDups.length != listed.length)
    "INVALID_SEARCH_CONFIG"
  return value

/-- The category is among the allowed ones, where there are any, and not among the forbidden. -/
def permitted (allowed forbidden : Option (List String)) (category : Option String) : Bool :=
  (allowed.all fun listed => category.any listed.contains) &&
    category.all fun named => named.isEmpty || !forbidden.any fun listed => listed.contains named

def validateDomainRules (generatorType : GeneratorType) (searchSpace : SearchSpaceConfig) :
    Except String Unit := do
  throwIf (generatorType != .domainGuided && searchSpace.domainRules.isSome)
    "INVALID_SEARCH_CONFIG"
  match searchSpace.domainRules with
  | none => return ()
  | some rules =>
    let required ← readCategories rules.requiredCategories
    let allowed ← readCategories rules.allowedCategories
    let forbidden ← readCategories rules.forbiddenCategories
    throwIf (required.any fun names => forbidden.any fun listed => names.any listed.contains)
      "DOMAIN_RULE_UNSATISFIABLE"
    throwIf (allowed.any fun listed => required.any fun names =>
      names.any fun category => !listed.contains category) "DOMAIN_RULE_UNSATISFIABLE"
    throwIf (allowed.any fun listed => forbidden.any fun names => names.any listed.contains)
      "DOMAIN_RULE_UNSATISFIABLE"
    let eligible := searchSpace.availableStrategies.filter fun definition =>
      permitted allowed forbidden definition.category
    throwIf (eligible.isEmpty || required.any fun names =>
      names.any fun category => !eligible.any fun definition => definition.category == some category)
      "DOMAIN_RULE_UNSATISFIABLE"
    throwIf (searchSpace.maxComponents.any fun maxComponents =>
      required.any fun names => maxComponents.lt (.ofInt names.length)) "DOMAIN_RULE_UNSATISFIABLE"

/-- The checks of `start`, in their order. -/
def checkStart (ownerUserId : String) (command : StartCommand) : Except String Unit := do
  validateStopCondition command.stopCondition
  throwIf (command.maxInFlight == 0 || command.leaderboardScopeId.isEmpty
    || command.searchSpace.availableStrategies.isEmpty) "INVALID_SEARCH_CONFIG"
  validateSearchSpaceOwner ownerUserId command.searchSpace
  validateDomainRules command.generatorType command.searchSpace

end Cryptox.Search
