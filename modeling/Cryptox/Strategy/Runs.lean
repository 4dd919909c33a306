import Cryptox.Library.GuardedSystem
import Cryptox.Strategy.Service

/-!
# Calls of the strategy module, one after the other

A run is a sequence of calls by any users. Each call brings the identifiers that the generator
draws for it; none of them has been drawn before.
-/
namespace Cryptox.Strategy

open Cryptox.Library (GuardedSystem)

inductive StrategyCall where
  | defineStrategy (userId strategyName : String) (parameters : Parameters) (draw : Draw)
  | defineComposite (userId : String) (command : CompositeCommand) (draw : Draw)
  | generateStrategy (userId : String) (generated : Except String GeneratedStrategyProposal)
      (draws : List Draw) (result audit : Draw)
  | deleteDefinition (userId id : String)
  | deleteComposite (userId id : String)

namespace StrategyCall

/-- One draw for each component of a proposed composite. -/
def componentDraws : StrategyCall → Option (List GeneratedComponent × List Draw)
  | generateStrategy _ (.ok (.composite components _ _)) draws _ _ => some (components, draws)
  | _ => none

/-- The identifiers a call draws for definitions and composites. -/
def drawn : StrategyCall → List String
  | defineStrategy _ _ _ draw => [draw.id]
  | defineComposite _ _ draw => [draw.id]
  | generateStrategy _ _ draws result _ => result.id :: draws.map (·.id)
  | _ => []

end StrategyCall

/-- A drawn identifier is a kind and a UUID: letters, digits and hyphens. -/
def isDrawnId (id : String) : Bool := id.toList.all fun c => c.isAlphanum || c == '-'

/-- Identifiers that are well formed, pairwise distinct and not in use. -/
def FreshIds (store : StrategyStore) (ids : List String) : Prop :=
  ids.Nodup ∧ ∀ id ∈ ids, isDrawnId id = true ∧ (store.definitions.get? id).isNone = true
    ∧ (store.composites.get? id).isNone = true

instance (store : StrategyStore) (ids : List String) : Decidable (FreshIds store ids) :=
  inferInstanceAs (Decidable (_ ∧ _))

namespace StrategyModule

variable (strategies : StrategyModule)

/-- The store after a call that may be refused. -/
def stored {α : Type} (store : StrategyStore) :
    Except String (StrategyStore × α) → StrategyStore
  | .ok answer => answer.1
  | .error _ => store

def afterCall (store : StrategyStore) : StrategyCall → StrategyStore
  | .defineStrategy userId strategyName parameters draw =>
    stored store (strategies.defineStrategy store userId strategyName parameters draw)
  | .defineComposite userId command draw =>
    stored store (strategies.defineComposite store userId command draw)
  | .generateStrategy userId generated draws result audit =>
    stored store (strategies.generateStrategy store userId generated draws result audit)
  | .deleteDefinition userId id => (strategies.deleteDefinition store userId id).1
  | .deleteComposite userId id => (strategies.deleteComposite store userId id).1

def CallEnabled (store : StrategyStore) (call : StrategyCall) : Prop :=
  FreshIds store call.drawn ∧ ∀ drawn ∈ call.componentDraws, drawn.1.length = drawn.2.length

instance (store : StrategyStore) (call : StrategyCall) : Decidable (CallEnabled store call) :=
  inferInstanceAs (Decidable (_ ∧ _))

def system : GuardedSystem StrategyStore StrategyCall where
  enabled := CallEnabled
  next := strategies.afterCall

instance (store : StrategyStore) (call : StrategyCall) :
    Decidable (strategies.system.enabled store call) :=
  inferInstanceAs (Decidable (CallEnabled store call))

end StrategyModule

end Cryptox.Strategy
