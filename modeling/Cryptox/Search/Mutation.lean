import Cryptox.Backtesting.Arithmetic
import Cryptox.Search.Space
import Cryptox.Strategy.Plugins

/-!
# Mutated parameters

A definition is normalized against its descriptors, some of its parameters are drawn anew from their
legal values, and two related parameters that ended up in the wrong order are drawn together.
-/
namespace Cryptox.Search

open Cryptox.Backtesting (JsNumber randomIndex IsRandom)
open Cryptox.Library
open Cryptox.Strategy (ParameterValue Parameters ParameterType trim sameNumber hundredths tenths)

/-- What the generator uses of the host. -/
structure GeneticHost where
  localeCompare : String → String → Ordering
  /-- The digest of a text in hexadecimal digits. -/
  sha256 : String → String
  toUpperCase : String → String
  toLowerCase : String → String
  /-- `Number` of a text. -/
  toNumber : String → JsNumber

/-- `===` -/
def sameValue : ParameterValue → ParameterValue → Bool
  | .inl left, .inl right => sameNumber left right
  | .inr left, .inr right => left == right
  | _, _ => false

/-- `values.includes(value)`, for which `NaN` is `NaN`. -/
def includes (values : List JsNumber) (value : JsNumber) : Bool :=
  values.any fun other => sameNumber other value || (other == .nan && value == .nan)

def isDescriptor (descriptor : SearchParameterDescriptor) : Bool :=
  !(trim descriptor.key).isEmpty &&
    match descriptor.type, descriptor.defaultValue with
    | .enumerated, .inr text =>
      descriptor.options.any fun options =>
        !options.isEmpty && options.eraseDups.length == options.length && options.contains text
    | .enumerated, .inl _ | _, .inr _ => false
    | _, .inl default =>
      default.isFinite
        && (descriptor.minimum.all fun minimum =>
          minimum.isFinite && !descriptor.maximum.any fun maximum => maximum.lt minimum)
        && descriptor.maximum.all (·.isFinite)
        && descriptor.step.all fun step => step.isFinite && (JsNumber.ofInt 0).lt step

/-- The descriptor of a parameter of which nothing but its value is known. -/
def derivedDescriptor (entry : String × ParameterValue) : SearchParameterDescriptor where
  key := entry.1
  type := match entry.2 with
    | .inl number => if number.isInteger then .integer else .number
    | .inr _ => .enumerated
  required := false
  defaultValue := entry.2
  minimum := none
  maximum := none
  step := match entry.2 with
    | .inl number => some (if number.isInteger then .ofInt 1 else tenths 1)
    | .inr _ => none
  options := match entry.2 with
    | .inl _ => none
    | .inr text => some [text]

/-- The descriptors that were supplied with the definition, else derived from its parameters. The
source also looks at a `descriptor`, which the contract of a definition does not have. -/
def descriptorsFor (definition : SearchStrategyDefinition) :
    Except String (List SearchParameterDescriptor) :=
  match definition.parameterDescriptors with
  | none => .ok (definition.parameters.map derivedDescriptor)
  | some supplied =>
    if supplied.any (fun descriptor => !isDescriptor descriptor)
        || (supplied.map (·.key)).eraseDups.length != supplied.length then
      .error "INVALID_SEARCH_CONFIG"
    else .ok supplied

def aligned (value : JsNumber) (descriptor : SearchParameterDescriptor) : Bool :=
  !(descriptor.minimum.any fun minimum => value.lt (minimum.subtract (.finite ⟨1, 9⟩)))
    && !(descriptor.maximum.any fun maximum => (maximum.add (.finite ⟨1, 9⟩)).lt value)
    && !(descriptor.type == .integer && !value.isInteger)
    && descriptor.step.all fun step =>
      let turns := (value.subtract (descriptor.minimum.getD (.ofInt 0))).divide step
      !(JsNumber.finite ⟨1, 7⟩).lt (turns.subtract turns.round).absolute

def validValue (value : ParameterValue) (descriptor : SearchParameterDescriptor) : Bool :=
  match descriptor.type, value with
  | .enumerated, .inr text => (descriptor.options.getD []).contains text
  | .enumerated, .inl _ | _, .inr _ => false
  | _, .inl number => number.isFinite && aligned number descriptor

/-- The entry of a descriptor: what the source gives for its key, or its default. -/
def normalizeEntry (parameters : Parameters) (descriptor : SearchParameterDescriptor) :
    Except String (String × ParameterValue) :=
  let value := (parameters.lookup descriptor.key).getD descriptor.defaultValue
  if validValue value descriptor then .ok (descriptor.key, value)
  else .error "INVALID_SEARCH_CONFIG"

def normalize (definition : SearchStrategyDefinition) :
    Except String (Parameters × List SearchParameterDescriptor) := do
  let descriptors ← descriptorsFor definition
  throwIf (definition.parameters.any fun entry =>
    !(descriptors.any fun descriptor => descriptor.key == entry.1)) "INVALID_SEARCH_CONFIG"
  let parameters ← descriptors.mapM (normalizeEntry definition.parameters)
  return (parameters, descriptors)

def stepOf (descriptor : SearchParameterDescriptor) (current : JsNumber) : JsNumber :=
  descriptor.step.getD <|
    if descriptor.type = .integer then .ofInt 1
    else JsNumber.mathMax (hundredths 1)
      ((((descriptor.maximum.getD (current.add (.ofInt 8))).subtract
        (descriptor.minimum.getD (current.subtract (.ofInt 8)))).absolute).divide (.ofInt 100))

def firstOf (descriptor : SearchParameterDescriptor) (current : JsNumber) : JsNumber :=
  descriptor.minimum.getD (current.subtract ((stepOf descriptor current).multiply (.ofInt 8)))

def countOf (descriptor : SearchParameterDescriptor) (current : JsNumber) : JsNumber :=
  let step := stepOf descriptor current
  let maximum := descriptor.maximum.getD (current.add (step.multiply (.ofInt 8)))
  JsNumber.mathMin (.ofInt 10000)
    (((((maximum.subtract (firstOf descriptor current)).divide step).add (.finite ⟨1, 9⟩)).floor).add
      (.ofInt 1))

/-- The value of an index: so many steps from the first, to twelve places. -/
def valueAt (descriptor : SearchParameterDescriptor) (current : JsNumber) (index : Nat) : JsNumber :=
  ((firstOf descriptor current).add
    ((JsNumber.ofInt index).multiply (stepOf descriptor current))).toFixed 12

/-- The rounds of the loop from an index on. -/
def collectValues (descriptor : SearchParameterDescriptor) (current : JsNumber) :
    Nat → Nat → List JsNumber → List JsNumber
  | 0, _, values => values
  | turns + 1, index, values =>
    if (JsNumber.ofInt index).lt (countOf descriptor current) then
      let value := valueAt descriptor current index
      collectValues descriptor current turns (index + 1)
        (if aligned value descriptor && !includes values value then values ++ [value] else values)
    else values

/-- There are ten thousand rounds at most. -/
def numericValues (descriptor : SearchParameterDescriptor) (current : JsNumber) : List JsNumber :=
  collectValues descriptor current 10000 0 []

section Host

variable (host : GeneticHost)

def toNumber : ParameterValue → JsNumber
  | .inl number => number
  | .inr text => host.toNumber text

def legalValues (descriptor : SearchParameterDescriptor) (current : ParameterValue) :
    List ParameterValue :=
  match descriptor.type, current with
  | .enumerated, _ => (descriptor.options.getD []).map .inr
  | _, .inl number => (numericValues descriptor number).map .inl
  | _, .inr _ => (numericValues descriptor (toNumber host descriptor.defaultValue)).map .inl

/-- A draw from a list, at a position of the stream. The index lies within the list. -/
def draw {α : Type} (random : Nat → ℚ) (position : Nat) (values : List α) (fallback : α) : α :=
  values.getD (randomIndex (random position) values.length) fallback

/-- The new value, and the position of the stream behind it. -/
def mutateValue (random : Nat → ℚ) (descriptor : SearchParameterDescriptor)
    (current : ParameterValue) (position : Nat) : ParameterValue × Nat :=
  let choices := (legalValues host descriptor current).filter fun value => !sameValue value current
  if choices.isEmpty then (current, position)
  else (draw random position choices current, position + 1)

/-- `parameters[key] = value` -/
def assign (parameters : Parameters) (key : String) (value : ParameterValue) : Parameters :=
  if parameters.any (·.1 == key) then
    parameters.map fun entry => if entry.1 = key then (key, value) else entry
  else parameters ++ [(key, value)]

/-- The parameters so far, the keys that were changed, and the position in the stream. -/
structure Mutation where
  parameters : Parameters
  keys : List String
  position : Nat
deriving DecidableEq, Repr

def mutateAt (random : Nat → ℚ) (descriptor : SearchParameterDescriptor) (mutation : Mutation) :
    Mutation :=
  match mutation.parameters.lookup descriptor.key with
  | none => mutation
  | some current =>
    let next := mutateValue host random descriptor current mutation.position
    if sameValue next.1 current then { mutation with position := next.2 }
    else
      { parameters := assign mutation.parameters descriptor.key next.1
        keys := mutation.keys ++ [descriptor.key]
        position := next.2 }

/-- A parameter is drawn anew with a probability of 0.55. -/
def mutateSome (random : Nat → ℚ) : List SearchParameterDescriptor → Mutation → Mutation
  | [], mutation => mutation
  | descriptor :: descriptors, mutation =>
    let drawn := { mutation with position := mutation.position + 1 }
    mutateSome random descriptors <|
      if random mutation.position < roundDouble (55 / 100) then mutateAt host random descriptor drawn
      else drawn

/-- Up to the first that changes. -/
def mutateOne (random : Nat → ℚ) : List SearchParameterDescriptor → Mutation → Mutation
  | [], mutation => mutation
  | descriptor :: descriptors, mutation =>
    let next := mutateAt host random descriptor mutation
    if next.keys.isEmpty then mutateOne random descriptors next else next

/-- The loops over the descriptors, before anything is repaired. -/
def mutateParameters (random : Nat → ℚ) (descriptors : List SearchParameterDescriptor)
    (parameters : Parameters) (position : Nat) (force : Bool) : Mutation :=
  let mutation := mutateSome host random descriptors ⟨parameters, [], position⟩
  if force && mutation.keys.isEmpty then mutateOne host random descriptors mutation else mutation

def parameterKey (parameters : Parameters) (name : String) : Option String :=
  (parameters.find? fun entry => host.toLowerCase entry.1 == name).map (·.1)

structure Relationship where
  left : String
  right : String
  /-- The left one is to be below the right one, else above it. -/
  below : Bool
deriving DecidableEq, Repr

def relationships (strategyName : String) (parameters : Parameters) : List Relationship :=
  (match parameterKey host parameters "fastperiod", parameterKey host parameters "slowperiod" with
    | some left, some right => [⟨left, right, true⟩]
    | _, _ => []) ++
  (match parameterKey host parameters "buythreshold",
      parameterKey host parameters "sellthreshold" with
    | some left, some right => [⟨left, right, host.toUpperCase strategyName != "SENTIMENT"⟩]
    | _, _ => [])

def satisfies (below : Bool) (left right : JsNumber) : Bool :=
  if below then left.lt right else right.lt left

/-- A parameter that is a number, with its descriptor if that is of numbers. -/
def numericParameter (descriptors : List SearchParameterDescriptor) (parameters : Parameters)
    (key : String) : Option (SearchParameterDescriptor × JsNumber) :=
  match descriptors.find? (·.key == key), parameters.lookup key with
  | some descriptor, some (.inl number) =>
    if descriptor.type = .enumerated then none else some (descriptor, number)
  | _, _ => none

/-- The legal pairs that satisfy a relationship. -/
def legalPairs (relationship : Relationship) (left right : SearchParameterDescriptor × JsNumber) :
    List (JsNumber × JsNumber) :=
  (numericValues left.1 left.2).flatMap fun leftValue =>
    ((numericValues right.1 right.2).filter (satisfies relationship.below leftValue)).map
      fun rightValue => (leftValue, rightValue)

/-- `pair` is assigned, and the keys are noted whose values it changes. -/
def assignPair (relationship : Relationship) (left right : JsNumber) (pair : JsNumber × JsNumber)
    (mutation : Mutation) : Mutation where
  parameters := assign (assign mutation.parameters relationship.left (.inl pair.1))
    relationship.right (.inl pair.2)
  keys := mutation.keys ++ (if sameNumber left pair.1 then [] else [relationship.left])
    ++ (if sameNumber right pair.2 then [] else [relationship.right])
  position := mutation.position + 1

def repairRelationship (random : Nat → ℚ) (descriptors : List SearchParameterDescriptor)
    (relationship : Relationship) (mutation : Mutation) : Except String Mutation :=
  match numericParameter descriptors mutation.parameters relationship.left,
      numericParameter descriptors mutation.parameters relationship.right with
  | some left, some right =>
    if satisfies relationship.below left.2 right.2 then .ok mutation
    else
      let pairs := legalPairs relationship left right
      if pairs.isEmpty then .error "GENETIC_SEARCH_SPACE_UNSATISFIABLE"
      else
        .ok (assignPair relationship left.2 right.2
          (draw random mutation.position pairs (left.2, right.2)) mutation)
  | _, _ => .ok mutation

def repairAll (random : Nat → ℚ) (descriptors : List SearchParameterDescriptor) :
    List Relationship → Mutation → Except String Mutation
  | [], mutation => .ok mutation
  | relationship :: relationships, mutation => do
    let next ← repairRelationship random descriptors relationship mutation
    repairAll random descriptors relationships next

/-- The relationships are read off the mutated parameters. -/
def repairRelationships (random : Nat → ℚ) (strategyName : String)
    (descriptors : List SearchParameterDescriptor) (mutation : Mutation) : Except String Mutation :=
  repairAll random descriptors (relationships host strategyName mutation.parameters) mutation

structure MutatedDefinition where
  definition : SearchStrategyDefinition
  keys : List String
  position : Nat
deriving DecidableEq, Repr

def SearchStrategyDefinition.withParameters (definition : SearchStrategyDefinition)
    (parameters : Parameters) : SearchStrategyDefinition :=
  { definition with parameters := parameters }

def mutateSearchStrategyDefinition (random : Nat → ℚ) (definition : SearchStrategyDefinition)
    (position : Nat) (force : Bool) : Except String MutatedDefinition := do
  let (parameters, descriptors) ← normalize definition
  let mutated := mutateParameters host random descriptors parameters position force
  let repaired ← repairRelationships host random definition.strategyName descriptors mutated
  return ⟨definition.withParameters repaired.parameters, repaired.keys.eraseDups, repaired.position⟩

end Host

end Cryptox.Search
