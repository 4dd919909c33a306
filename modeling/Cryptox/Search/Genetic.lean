import Cryptox.Search.DomainGuided
import Cryptox.Search.Fingerprints
import Cryptox.Search.Mutation

/-!
# The genetic generator

Two parents are drawn from the available definitions and crossed, one component may be replaced, and
the parameters of every component may be mutated. What is drawn depends on the context alone. A
candidate whose fingerprint is known is dropped, and the next attempt draws from another stream.
-/
namespace Cryptox.Search.Genetic

open Cryptox.Backtesting (JsNumber CompositeComponent randomIndex IsRandom)
open Cryptox.Library
open Cryptox.Strategy (tenths)

structure SelectionMutation where
  replacedStrategyId : String
  replacementStrategyId : String
deriving DecidableEq, Repr

structure CandidateLineage where
  parentFingerprints : List String
  crossoverPoint : Nat
  mutatedParameterKeys : List String
  selectionMutation : Option SelectionMutation
deriving DecidableEq, Repr

/-- A generated candidate with all it tells. -/
structure Candidate where
  generatedBy : GeneratorType
  strategyDefinitions : List SearchStrategyDefinition
  compositeDefinition : Strategy.CompositeStrategyDefinition
  executionPolicyMode : String
  fingerprint : String
  lineage : CandidateLineage
deriving DecidableEq, Repr

section Stream

end Stream

section Selection

variable (random : Nat → ℚ)

/-- In the order of numbers that are drawn for the items. -/
def shuffled {α : Type} (position : Nat) (items : List α) : List α :=
  (sortWith (fun left right : α × ℚ => compare left.2 right.2)
    ((items.zipIdx position).map fun item => (item.1, random item.2))).map (·.1)

/-- The first of each id. -/
def unique (items : List SearchStrategyDefinition) : List SearchStrategyDefinition :=
  items.foldl withDefinition []

structure Crossed where
  child : List SearchStrategyDefinition
  point : Nat
  position : Nat
deriving DecidableEq, Repr

def crossover (first second : List SearchStrategyDefinition) (limit position : Nat) : Crossed :=
  let point :=
    if first.isEmpty then 0 else randomIndex (random position) (min first.length second.length + 1)
  let child := unique (first.take point ++ second.drop point)
  { child := (fillUp (.ofInt limit) (first ++ second) child).take limit
    point
    position := if first.isEmpty then position else position + 1 }

/-- The components of a child, and which of the crossed ones was replaced. -/
structure Selected where
  child : List SearchStrategyDefinition
  selectionMutation : Option SelectionMutation
  position : Nat
deriving DecidableEq, Repr

end Selection

section Host

variable (host : GeneticHost)

def mutatedParameterKeys (mutations : List MutatedDefinition) : List String :=
  mutations.flatMap fun result => result.keys.map fun key => result.definition.id ++ "." ++ key

/-- It is asked for selections with a component in them only. -/
def fingerprintFor (selected : List SearchStrategyDefinition) : String :=
  ((fingerprintText host.localeCompare .genetic selected).map host.sha256).getD ""

def candidate (now : String) (selected : List SearchStrategyDefinition)
    (lineage : CandidateLineage) : Except String Candidate :=
  match selected with
  | [] => .error "INVALID_SEARCH_CONFIG"
  | first :: rest =>
    if first.userId.isEmpty || rest.any fun definition => definition.userId != first.userId then
      .error "INVALID_SEARCH_CONFIG"
    else
      let fingerprint := fingerprintFor host selected
      .ok {
        generatedBy := .genetic
        strategyDefinitions := selected
        compositeDefinition := {
          id := "generated-genetic-" ++ fingerprint
          userId := first.userId
          logicalFamilyKey :=
            if rest.isEmpty then "composite:SINGLE:" ++ first.id else "generated:genetic"
          version := 1
          method := if rest.isEmpty then .weightedScore else .majorityVote
          components :=
            if rest.isEmpty then [⟨first.id, .ofInt 1⟩]
            else selected.map fun definition => ⟨definition.id, .ofInt 0⟩
          thresholds := some (tenths 3, tenths (-3))
          createdAt := now }
        executionPolicyMode := "TWO_SIDED_ONE_X_V1"
        fingerprint
        lineage }

end Host

end Cryptox.Search.Genetic
