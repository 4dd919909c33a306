import Mathlib.Data.List.Sort
import Cryptox.Library.Outcome
import Cryptox.Strategy.Contracts

/-!
# Where definitions, composites and generations are kept

The process keeps them in maps, the database in tables whose constraints can refuse a write. The
operations are given the rows to store; what a refusal leaves behind is what the source leaves.
-/
namespace Cryptox.Strategy

open Cryptox.Backtesting (CompositeComponent)
open Cryptox.Library (Table throwIf)

structure StrategyStore where
  definitions : Table fun definition : StrategyDefinition => definition.id
  composites : Table fun composite : CompositeStrategyDefinition => composite.id
  generations : Table StrategyGenerationRequest.id

namespace StrategyStore

def empty : StrategyStore := ⟨.empty, .empty, .empty⟩

def listByIds (store : StrategyStore) (ownerUserId : String) (ids : List String) :
    List StrategyDefinition :=
  ids.filterMap fun id =>
    (store.definitions.get? id).filter fun definition => definition.userId == ownerUserId

def getComposite (store : StrategyStore) (ownerUserId id : String) :
    Option CompositeStrategyDefinition :=
  (store.composites.get? id).filter fun composite => composite.userId == ownerUserId

def familyOf (definition : StrategyDefinition) : String × String :=
  (definition.userId, definition.logicalFamilyKey)

def compositeFamilyOf (composite : CompositeStrategyDefinition) : String × String :=
  (composite.userId, composite.logicalFamilyKey)

/-- The definitions of a user's logical family. -/
def definitionsOf (store : StrategyStore) (userId logicalFamilyKey : String) :
    List StrategyDefinition :=
  store.definitions.rows.filter fun definition => familyOf definition = (userId, logicalFamilyKey)

def compositesOf (store : StrategyStore) (userId logicalFamilyKey : String) :
    List CompositeStrategyDefinition :=
  store.composites.rows.filter fun composite =>
    compositeFamilyOf composite = (userId, logicalFamilyKey)

end StrategyStore

open StrategyStore

/-- What a unit of work stores in one go. -/
structure GenerationCommit where
  definitions : List StrategyDefinition
  composite : Option CompositeStrategyDefinition
  audit : StrategyGenerationRequest

namespace InMemory

def insertDefinition (store : StrategyStore) (definition : StrategyDefinition) : StrategyStore :=
  { store with definitions := store.definitions.put definition }

def insertComposite (store : StrategyStore) (composite : CompositeStrategyDefinition) :
    StrategyStore :=
  { store with composites := store.composites.put composite }

def deleteDefinition (store : StrategyStore) (ownerUserId id : String) : StrategyStore × Bool :=
  match (store.definitions.get? id).filter fun item => item.userId == ownerUserId with
  | some _ => ({ store with definitions := store.definitions.filter fun item => item.id != id }, true)
  | none => (store, false)

def deleteComposite (store : StrategyStore) (ownerUserId id : String) : StrategyStore × Bool :=
  match store.getComposite ownerUserId id with
  | some _ => ({ store with composites := store.composites.filter fun item => item.id != id }, true)
  | none => (store, false)

/-- None of the writes to the maps can fail, so there is nothing to restore. -/
def commit (store : StrategyStore) (input : GenerationCommit) : StrategyStore where
  definitions := input.definitions.foldl Table.put store.definitions
  composites := store.composites.putOption input.composite
  generations := store.generations.put input.audit

end InMemory

namespace Postgres

/-- The unique index on owner, family and version. -/
def definitionTaken (store : StrategyStore) (definition : StrategyDefinition) : Bool :=
  store.definitions.rows.any fun row =>
    familyOf row == familyOf definition && row.version == definition.version

def compositeTaken (store : StrategyStore) (composite : CompositeStrategyDefinition) : Bool :=
  store.composites.rows.any fun row =>
    compositeFamilyOf row == compositeFamilyOf composite && row.version == composite.version

def insertDefinition (store : StrategyStore) (definition : StrategyDefinition) :
    Except String StrategyStore := do
  throwIf ((store.definitions.get? definition.id).isSome || definitionTaken store definition)
    "UNIQUE_VIOLATION"
  return { store with definitions := store.definitions.put definition }

def insertComposite (store : StrategyStore) (composite : CompositeStrategyDefinition) :
    Except String StrategyStore := do
  throwIf ((store.composites.get? composite.id).isSome || compositeTaken store composite)
    "UNIQUE_VIOLATION"
  return { store with composites := store.composites.put composite }

/-- `ON CONFLICT (id) DO NOTHING`: a row of a known id is left alone, the other index still
refuses. -/
def commitDefinition (store : StrategyStore) (definition : StrategyDefinition) :
    Except String StrategyStore :=
  if (store.definitions.get? definition.id).isSome then .ok store
  else insertDefinition store definition

def commitComposite (store : StrategyStore) : Option CompositeStrategyDefinition →
    Except String StrategyStore
  | none => .ok store
  | some composite =>
    if (store.composites.get? composite.id).isSome then .ok store
    else insertComposite store composite

def commitDefinitions (store : StrategyStore) : List StrategyDefinition →
    Except String StrategyStore
  | [] => .ok store
  | definition :: rest => do
    let store ← commitDefinition store definition
    commitDefinitions store rest

/-- One transaction: any refusal rolls back the whole of it. -/
def commit (store : StrategyStore) (input : GenerationCommit) : Except String StrategyStore := do
  let store ← commitDefinitions store input.definitions
  let store ← commitComposite store input.composite
  throwIf (store.generations.get? input.audit.id).isSome "UNIQUE_VIOLATION"
  return { store with generations := store.generations.put input.audit }

/-- `LIKE` on characters: a percent sign stands for any text, an underscore for any character, and
a backslash takes the character after it as it is. -/
def like : List Char → List Char → Bool
  | [], text => text.isEmpty
  | '%' :: pattern, text => text.tails.any (like pattern)
  | '_' :: pattern, text => !text.isEmpty && like pattern text.tail
  | '\\' :: c :: pattern, text => text.head? == some c && like pattern text.tail
  | c :: pattern, text => text.head? == some c && like pattern text.tail

/-- `components::text LIKE '%"id"%'`, on the text the database gives for the components. -/
def namesDefinition (componentsText : List CompositeComponent → String) (id : String)
    (composite : CompositeStrategyDefinition) : Bool :=
  like ("%\"" ++ id ++ "\"%").toList (componentsText composite.components).toList

/-- The statements run one by one: the audits of the definition go first, then the composites
naming it, which an audit of one of them forbids, and last the definition. What the deletion takes
out of the tables of backtesting and of the leaderboard beforehand is left out. -/
def deleteDefinition (componentsText : List CompositeComponent → String) (store : StrategyStore)
    (ownerUserId id : String) : StrategyStore × Except String Bool :=
  let generations := store.generations.filter fun audit =>
    !(audit.ownerUserId == ownerUserId && audit.strategyDefinitionId == some id)
  let named := fun composite : CompositeStrategyDefinition =>
    composite.userId == ownerUserId && namesDefinition componentsText id composite
  let audited := generations.rows.any fun audit =>
    store.composites.rows.any fun composite => named composite
      && audit.ownerUserId == ownerUserId && audit.compositeDefinitionId == some composite.id
  if audited then ({ store with generations }, .error "FOREIGN_KEY_VIOLATION")
  else
    let deleted := fun definition : StrategyDefinition =>
      definition.userId == ownerUserId && definition.id == id
    ({ definitions := store.definitions.filter fun definition => !deleted definition
       composites := store.composites.filter fun composite => !named composite
       generations },
      .ok (store.definitions.rows.any deleted))

def deleteComposite (store : StrategyStore) (ownerUserId id : String) : StrategyStore × Bool :=
  let deleted := fun composite : CompositeStrategyDefinition =>
    composite.userId == ownerUserId && composite.id == id
  ({ store with
      composites := store.composites.filter fun composite => !deleted composite
      generations := store.generations.filter fun audit =>
        !(audit.ownerUserId == ownerUserId && audit.compositeDefinitionId == some id) },
    store.composites.rows.any deleted)

end Postgres

/-- Where a deployment keeps its strategies. -/
inductive Backend where
  | inMemory | postgres
deriving DecidableEq, Repr

/-- The database answers a family in the order of its versions. -/
def Backend.listed {ρ : Type} (backend : Backend) (version : ρ → Nat) (rows : List ρ) : List ρ :=
  match backend with
  | .inMemory => rows
  | .postgres => rows.insertionSort fun left right => version left ≤ version right

theorem Backend.mem_listed {ρ : Type} {backend : Backend} {version : ρ → Nat} {rows : List ρ}
    {row : ρ} : row ∈ backend.listed version rows ↔ row ∈ rows := by
  cases backend with
  | inMemory => exact Iff.rfl
  | postgres => exact (List.perm_insertionSort _ rows).mem_iff

end Cryptox.Strategy
