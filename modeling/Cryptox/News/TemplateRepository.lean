import Cryptox.Library.Comparators
import Cryptox.Library.Table
import Cryptox.Strategy.Contracts

/-!
# The repositories of extraction templates

`template-repository.ts`: a template is stored under its normalized domain and its version, and one
of the templates of a domain is the active one. The repository in memory mutates the templates of
its map, the one over Postgres runs a statement after the other, any of which the database may
refuse.
-/
namespace Cryptox.News

open Cryptox.Library
open Cryptox.Strategy (trim)

structure TemplateSelectors where
  container : Option String
  title : Option String
  summary : Option String
  link : Option String
  time : Option String
  tags : Option String
deriving DecidableEq, Repr

structure ExtractionTemplate where
  id : String
  domain : String
  version : String
  selectors : TemplateSelectors
  sampleHtmlSnippet : Option String
  confidence : ℚ
  defectRate : ℚ
  isActive : Bool
  createdAt : Int
  updatedAt : Int
deriving DecidableEq, Repr

variable (toLowerCase : String → String)

def normalizedDomain (domain : String) : String := trim (toLowerCase domain)

def notFound (domain version : String) : String :=
  "TEMPLATE_NOT_FOUND:" ++ domain ++ ":" ++ version

/-- The templates that pass a test are activated or deactivated. -/
def marked (test : ExtractionTemplate → Bool) (isActive : Bool) (now : Option Int)
    (t : ExtractionTemplate) : ExtractionTemplate :=
  if test t then { t with isActive := isActive, updatedAt := now.getD t.updatedAt } else t

section Marked

variable {test : ExtractionTemplate → Bool} {isActive : Bool} {now : Option Int}

@[simp] theorem domain_marked (t : ExtractionTemplate) :
    (marked test isActive now t).domain = t.domain := by unfold marked; split <;> rfl

@[simp] theorem version_marked (t : ExtractionTemplate) :
    (marked test isActive now t).version = t.version := by unfold marked; split <;> rfl

@[simp] theorem id_marked (t : ExtractionTemplate) :
    (marked test isActive now t).id = t.id := by unfold marked; split <;> rfl

@[simp] theorem selectors_marked (t : ExtractionTemplate) :
    (marked test isActive now t).selectors = t.selectors := by unfold marked; split <;> rfl

theorem marked_of_not {t : ExtractionTemplate} (h : test t = false) :
    marked test isActive now t = t := by
  rw [marked, h, if_neg Bool.false_ne_true]

theorem isActive_marked {t : ExtractionTemplate} (h : test t = true) :
    (marked test isActive now t).isActive = isActive := by
  rw [marked, if_pos h]

end Marked

section InMemory

def memoryKey (template : ExtractionTemplate) : String :=
  template.domain ++ ":" ++ template.version

abbrev InMemoryNewsTemplateRepository := Table memoryKey

/-- The body of the loop of `setActiveVersion`. -/
def switched (normalized version : String) (now : Int) (t : ExtractionTemplate) :
    ExtractionTemplate :=
  if toLowerCase t.domain = normalized then
    if t.version = version then marked (fun _ => true) true (some now) t
    else marked (fun _ => true) false none t
  else t

section Switched

variable {toLowerCase} {normalized version : String} {now : Int} {t : ExtractionTemplate}

@[simp] theorem domain_switched :
    (switched toLowerCase normalized version now t).domain = t.domain := by
  unfold switched; split
  · split <;> exact domain_marked t
  · rfl

@[simp] theorem version_switched :
    (switched toLowerCase normalized version now t).version = t.version := by
  unfold switched; split
  · split <;> exact version_marked t
  · rfl

@[simp] theorem selectors_switched :
    (switched toLowerCase normalized version now t).selectors = t.selectors := by
  unfold switched; split
  · split <;> exact selectors_marked t
  · rfl

/-- Templates of other domains stay as they are. -/
theorem switched_of_ne (h : toLowerCase t.domain ≠ normalized) :
    switched toLowerCase normalized version now t = t := by
  rw [switched, if_neg h]

/-- Other versions of the domain are switched off. -/
theorem isActive_switched (h : toLowerCase t.domain = normalized) (hv : t.version ≠ version) :
    (switched toLowerCase normalized version now t).isActive = false := by
  rw [switched, if_pos h, if_neg hv]
  exact isActive_marked rfl

end Switched

namespace InMemoryNewsTemplateRepository

variable (repository : InMemoryNewsTemplateRepository)

def findActiveByDomain (domain : String) : Option ExtractionTemplate :=
  let normalized := normalizedDomain toLowerCase domain
  repository.rows.find? fun t => toLowerCase t.domain = normalized && t.isActive

/-- The loop of `save` over what is stored. -/
def deactivateOthers (normalized version : String) : InMemoryNewsTemplateRepository :=
  repository.modify
    (marked (fun t => toLowerCase t.domain = normalized && t.version ≠ version) false none)
    fun t => by rw [memoryKey, domain_marked, version_marked, memoryKey]

def save (template : ExtractionTemplate) :
    Except String ExtractionTemplate × InMemoryNewsTemplateRepository :=
  let normalized := normalizedDomain toLowerCase template.domain
  let others :=
    if template.isActive then deactivateOthers toLowerCase repository normalized template.version
    else repository
  (.ok template, others.put { template with domain := normalized })

/-- The loop of `setActiveVersion` over what is stored. -/
def switch (normalized version : String) (now : Int) : InMemoryNewsTemplateRepository :=
  repository.modify (switched toLowerCase normalized version now) fun t => by
    rw [memoryKey, domain_switched, version_switched, memoryKey]

def setActiveVersion (now : Int) (domain version : String) :
    Except String ExtractionTemplate × InMemoryNewsTemplateRepository :=
  let normalized := normalizedDomain toLowerCase domain
  let switched := switch toLowerCase repository normalized version now
  let activated :=
    (switched.rows.filter fun t =>
      toLowerCase t.domain = normalized && t.version = version).getLast?
  match activated with
  | none => (.error (notFound domain version), switched)
  | some t => (.ok t, switched)

end InMemoryNewsTemplateRepository

end InMemory

section Postgres

/-- The constraint `news_extraction_templates_domain_version_unique`. -/
def rowKey (row : ExtractionTemplate) : String × String := (row.domain, row.version)

abbrev PostgresNewsTemplateRepository := Table rowKey

/-- What the database answers to the statements of a call that it refuses. A refused statement changes
no row: one that is applied though its answer is lost is outside the model. -/
abbrev Refusals := Nat → Option String

/-- `Number(row.confidence) || 0.85`, a rate of zero being read as zero. -/
def mapRow (row : ExtractionTemplate) : ExtractionTemplate :=
  { row with confidence := if row.confidence = 0 then 17 / 20 else row.confidence }

@[simp] theorem selectors_mapRow (row : ExtractionTemplate) :
    (mapRow row).selectors = row.selectors := rfl

@[simp] theorem version_mapRow (row : ExtractionTemplate) :
    (mapRow row).version = row.version := rfl

namespace PostgresNewsTemplateRepository

variable (repository : PostgresNewsTemplateRepository)

def findActiveByDomain (domain : String) : Option ExtractionTemplate :=
  let normalized := normalizedDomain toLowerCase domain
  let found := repository.rows.filter fun row => row.domain = normalized && row.isActive
  (sortWith (fun left right => compare right.createdAt left.createdAt) found).head?.map mapRow

/-- `UPDATE … SET is_active … WHERE`. -/
def update (test : ExtractionTemplate → Bool) (isActive : Bool) (now : Option Int) :
    PostgresNewsTemplateRepository :=
  repository.modify (marked test isActive now) fun row => by
    rw [rowKey, domain_marked, version_marked, rowKey]

/-- What `ON CONFLICT` updates of the row that is there. -/
def updated (existing excluded : ExtractionTemplate) : ExtractionTemplate :=
  { existing with
    selectors := excluded.selectors, sampleHtmlSnippet := excluded.sampleHtmlSnippet,
    confidence := excluded.confidence, defectRate := excluded.defectRate,
    isActive := excluded.isActive, updatedAt := excluded.updatedAt }

def duplicateId : String :=
  "duplicate key value violates unique constraint \"news_extraction_templates_pkey\""

/-- `INSERT … ON CONFLICT (domain, version) DO UPDATE … RETURNING`. -/
def insert (row : ExtractionTemplate) :
    Except String (List ExtractionTemplate × PostgresNewsTemplateRepository) :=
  match repository.get? (rowKey row) with
  | some existing => .ok ([updated existing row], repository.put (updated existing row))
  | none =>
    if repository.rows.any fun other => other.id == row.id then .error duplicateId
    else .ok ([row], repository.put row)

/-- The second statement of `save`. -/
def store (refusals : Refusals) (row : ExtractionTemplate) :
    Except String ExtractionTemplate × PostgresNewsTemplateRepository :=
  match refusals 1 with
  | some message => (.error message, repository)
  | none =>
    match insert repository row with
    | .error message => (.error message, repository)
    | .ok (returned, written) =>
      match returned.head? with
      | none => (.error "TEMPLATE_PERSISTENCE_ERROR", written)
      | some row => (.ok (mapRow row), written)

def save (refusals : Refusals) (template : ExtractionTemplate) :
    Except String ExtractionTemplate × PostgresNewsTemplateRepository :=
  let normalized := normalizedDomain toLowerCase template.domain
  if template.isActive then
    match refusals 0 with
    | some message => (.error message, repository)
    | none =>
      let others :=
        update repository (fun row => row.domain = normalized && row.version ≠ template.version)
          false none
      store others refusals { template with domain := normalized }
  else store repository refusals { template with domain := normalized }

/-- The second statement of `setActiveVersion`. -/
def activate (refusals : Refusals) (now : Int) (domain version : String) :
    Except String ExtractionTemplate × PostgresNewsTemplateRepository :=
  let normalized := normalizedDomain toLowerCase domain
  match refusals 1 with
  | some message => (.error message, repository)
  | none =>
    let activated :=
      update repository (fun row => row.domain = normalized && row.version = version) true
        (some now)
    match activated.get? (normalized, version) with
    | none => (.error (notFound domain version), activated)
    | some row => (.ok (mapRow row), activated)

def setActiveVersion (refusals : Refusals) (now : Int) (domain version : String) :
    Except String ExtractionTemplate × PostgresNewsTemplateRepository :=
  let normalized := normalizedDomain toLowerCase domain
  match refusals 0 with
  | some message => (.error message, repository)
  | none =>
    let cleared := update repository (fun row => row.domain = normalized) false (some now)
    activate toLowerCase cleared refusals now domain version

end PostgresNewsTemplateRepository

end Postgres

end Cryptox.News
