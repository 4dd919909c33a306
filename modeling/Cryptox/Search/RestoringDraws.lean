import Mathlib.Algebra.Order.BigOperators.Group.List
import Cryptox.Library.Draws
import Cryptox.Search.MutatedKeys

/-!
# The draws that restore a parameter

Each legal value and each legal pair is the one that some draw takes. So the parameters of a
definition that can be restored are changed, and one of them put back, on some stream.
-/
namespace Cryptox.Search

open Cryptox.Backtesting (JsNumber IsRandom randomIndex)
open Cryptox.Library
open Cryptox.Strategy (Parameters ParameterValue sameNumber)

section Indexes

end Indexes

section Loops

variable {host : GeneticHost} {wish : String → Option JsNumber} {mutation : Mutation}

end Loops

section Repairs

variable {descriptors : List SearchParameterDescriptor} {relationship : Relationship}
  {mutation : Mutation}

/-- Two numbers are in order, or there is a legal pair to draw. -/
def Meets (descriptors : List SearchParameterDescriptor) (parameters : Parameters)
    (relationship : Relationship) : Prop :=
  ∀ left right, numericParameter descriptors parameters relationship.left = some left →
    numericParameter descriptors parameters relationship.right = some right →
    satisfies relationship.below left.2 right.2 = true ∨ legalPairs relationship left right ≠ []

theorem Meets.congr {parameters parameters' : Parameters}
    (h : Meets descriptors parameters relationship)
    (hsame : ∀ key ∈ relationship.parameters, parameters'.lookup key = parameters.lookup key) :
    Meets descriptors parameters' relationship := by
  intro left right
  rw [numericParameter, numericParameter, hsame _ relationship.left_mem,
    hsame _ relationship.right_mem, ← numericParameter, ← numericParameter]
  exact h left right

end Repairs

section Wishes

variable {descriptors : List SearchParameterDescriptor} {source : Parameters}

end Wishes

section Definition

variable {host : GeneticHost} {definition : SearchStrategyDefinition} {parameters : Parameters}
  {descriptors : List SearchParameterDescriptor}

end Definition

end Cryptox.Search
