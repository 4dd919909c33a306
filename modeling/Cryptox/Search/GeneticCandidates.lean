import Cryptox.Search.Genetic
import Cryptox.Search.RestoringDraws

/-!
# What a genetic candidate tells of itself

The components of a candidate are distinct, of the space and within the bound, and its lineage names
the component that was replaced. The keys of its mutated parameters are those that differ from the
sources, unless a repair can restore a parameter of an available definition.
-/
namespace Cryptox.Search.Genetic

open Cryptox.Backtesting (JsNumber IsRandom randomIndex)
open Cryptox.Library

section Stream

end Stream

section Crossing

variable {random : Nat → ℚ} {available selected : List SearchStrategyDefinition} {limit : Nat}

/-- Some of the available definitions, at least one and no more than the limit. -/
structure Drawn (available : List SearchStrategyDefinition) (limit : Nat)
    (selected : List SearchStrategyDefinition) : Prop extends Chosen available selected where
  nonempty : 0 < selected.length
  within : selected.length ≤ limit

/-- An id takes the place of another. -/
def withReplaced (mutation : SelectionMutation) (id : String) : String :=
  if id = mutation.replacedStrategyId then mutation.replacementStrategyId else id

/-- What a selection may be: the crossed child, or the child with one component that was in it
replaced by one that was not. -/
structure Selection (available : List SearchStrategyDefinition) (limit : Nat)
    (crossed : List SearchStrategyDefinition) (selected : Selected) : Prop extends
    Drawn available limit selected.child where
  unchanged : selected.selectionMutation = none → selected.child = crossed
  replaced : ∀ mutation ∈ selected.selectionMutation,
    mutation.replacedStrategyId ∈ crossed.map (·.id) ∧
      mutation.replacementStrategyId ∉ crossed.map (·.id) ∧
      selected.child.map (·.id) = (crossed.map (·.id)).map (withReplaced mutation)

end Crossing

section Mutations

variable {host : GeneticHost} {random : Nat → ℚ} {space : SearchSpaceConfig}

end Mutations

section Refusals

variable {host : GeneticHost}

def refusals : List String :=
  ["EMPTY_SEARCH_SPACE", "INVALID_SEARCH_CONFIG", "GENETIC_SEARCH_SPACE_UNSATISFIABLE"]

end Refusals

section Attempts

variable {host : GeneticHost} {now : String} {available : List SearchStrategyDefinition}
  {limit : Nat} {context : GeneratorContext}

end Attempts

section Generator

variable {host : GeneticHost} {now : String} {space : SearchSpaceConfig}

end Generator

section TwoPeriods

end TwoPeriods

end Cryptox.Search.Genetic
