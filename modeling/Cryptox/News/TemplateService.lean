import Cryptox.Backtesting.Arithmetic
import Cryptox.Library.Numeral
import Cryptox.News.TemplateRepository
import Mathlib.Data.List.SplitBy

/-!
# Healing of extraction templates

The template generator, and what the news service does with templates: it looks up the active one
of a domain, generates one where there is none, has it repaired, and stores the repaired one. What
the language model answers, what is extracted and what the database refuses comes from outside.
-/
namespace Cryptox.News

open Cryptox.Backtesting (JsNumber)
open Cryptox.Library
open Cryptox.Strategy (trim)

/-- What the generator uses of the host. -/
structure TemplateHost where
  toLowerCase : String → String
  /-- `Number` of a text. -/
  toNumber : String → JsNumber
  /-- The digest of a text in hexadecimal digits. -/
  sha256 : String → String
  /-- `text.slice(0, length)` -/
  slice : String → Nat → String

variable (host : TemplateHost)

section Generator

/-- `text.includes(part)` -/
def includesText (text part : String) : Bool :=
  text.toList.tails.any fun rest => part.toList.isPrefixOf rest

def defaultSelectorsForDomain (domain : String) : TemplateSelectors :=
  let d := host.toLowerCase domain
  if includesText d "decrypt" then
    { container := some "article, div.grid-cols-1"
      title := some "h3, h2, .article-title"
      summary := some "p, .summary, description"
      link := some "a[href*='/']"
      time := some "time, span.date"
      tags := some "span.category, a[href*='/tag']" }
  else if includesText d "bankless" then
    { container := some "article, div.article-card"
      title := some "h2, h1, .headline"
      summary := some "p, .excerpt, .description"
      link := some "a[href*='/read']"
      time := some "time, span.published"
      tags := some "div.tags" }
  else if includesText d "cryptoslate" then
    { container := some "article, div.news-feed-item"
      title := some "h1, h2, h3"
      summary := some "p, .subdeck"
      link := some "a"
      time := some "time, span.posted-date"
      tags := some "div.categories" }
  else
    { container := some "article, div.card, div.post, div.news-item"
      title := some "h1, h2, h3, .title, .headline"
      summary := some "p, .summary, .description, .excerpt"
      link := some "a"
      time := some "time, .date, .pubDate"
      tags := some ".tags, .categories" }

/-- `value || other` -/
def orElse (value : Option String) (other : String) : Option String :=
  match value with
  | none | some "" => some other
  | some text => some text

/-- What a template literal shows of a value. -/
def shown (value : Option String) : String := value.getD "undefined"

/-- `` `${number}` `` -/
def shownNumber : JsNumber → String
  | .finite decimal =>
    String.ofList (DecimalNumber.ofScaled decimal.units (-decimal.scale)).print
  | .nan => "NaN"
  | .infinity negative => if negative then "-Infinity" else "Infinity"

def templateId (domain version : String) : String :=
  "tpl-" ++ host.slice (host.sha256 (domain ++ ":" ++ version)) 16

/-- The answer is that of the language model, where it has selectors. -/
def generateTemplate (answer : Option TemplateSelectors) (domain sampleHtml : String) (now : Int) :
    ExtractionTemplate :=
  let normalized := normalizedDomain host.toLowerCase domain
  let snippet := host.slice sampleHtml 4000
  let selectors := answer.getD (defaultSelectorsForDomain host normalized)
  { id := templateId host normalized "v1.0"
    domain := normalized
    version := "v1.0"
    selectors :=
      { container := orElse selectors.container "article"
        title := orElse selectors.title "h1, h2, h3"
        summary := orElse selectors.summary "p"
        link := orElse selectors.link "a"
        time := orElse selectors.time "time"
        tags := orElse selectors.tags "tags" }
    sampleHtmlSnippet := some (host.slice snippet 500)
    confidence := 17 / 20
    defectRate := 0
    isActive := true
    createdAt := now
    updatedAt := now }

/-- What is generated is always the first version. -/
@[simp] theorem version_generateTemplate (answer : Option TemplateSelectors)
    (domain sampleHtml : String) (now : Int) :
    (generateTemplate host answer domain sampleHtml now).version = "v1.0" := rfl

def nextVersion (version : String) : String :=
  if version = "v1.0" then "v1.1"
  else
    let minor :=
      match (version.toList.splitOn '.')[1]? with
      | none | some [] => JsNumber.ofInt 1
      | some digits => host.toNumber (String.ofList digits)
    "v1." ++ shownNumber (minor.add (JsNumber.ofInt 1))

def repairTemplate (answer : Option TemplateSelectors) (domain : String)
    (currentTemplate : ExtractionTemplate) (sampleHtml : String) (now : Int) :
    ExtractionTemplate :=
  let normalized := normalizedDomain host.toLowerCase domain
  let snippet := host.slice sampleHtml 4000
  let version := nextVersion host currentTemplate.version
  let current := currentTemplate.selectors
  let base := defaultSelectorsForDomain host normalized
  { id := templateId host normalized version
    domain := normalized
    version
    selectors := answer.getD
      { container := some (shown current.container ++ ", " ++ shown base.container)
        title := some (shown current.title ++ ", " ++ shown base.title ++
          ", .headline, .article-header")
        summary := some (shown current.summary ++ ", " ++ shown base.summary ++ ", div.desc")
        link := some (shown current.link ++ ", " ++ shown base.link)
        time := some (shown current.time ++ ", " ++ shown base.time ++ ", pubDate")
        tags := some (current.tags.getD "" ++ ", " ++ shown base.tags) }
    sampleHtmlSnippet := some (host.slice snippet 500)
    confidence := 19 / 20
    defectRate := 0
    isActive := true
    createdAt := now
    updatedAt := now }

end Generator

/-- The port of the service. A call is told which statements the database refuses in it. -/
structure NewsTemplateRepository (ρ : Type) where
  findActiveByDomain : Refusals → ρ → String → Except String (Option ExtractionTemplate)
  save : Refusals → ρ → ExtractionTemplate → Except String ExtractionTemplate × ρ
  setActiveVersion :
    Refusals → ρ → Int → String → String → Except String ExtractionTemplate × ρ

def inMemoryTemplates : NewsTemplateRepository InMemoryNewsTemplateRepository where
  findActiveByDomain _ repository domain :=
    .ok (repository.findActiveByDomain host.toLowerCase domain)
  save _ repository template := repository.save host.toLowerCase template
  setActiveVersion _ repository now domain version :=
    repository.setActiveVersion host.toLowerCase now domain version

def postgresTemplates : NewsTemplateRepository PostgresNewsTemplateRepository where
  findActiveByDomain refusals repository domain :=
    match refusals 0 with
    | some message => .error message
    | none => .ok (repository.findActiveByDomain host.toLowerCase domain)
  save refusals repository template := repository.save host.toLowerCase refusals template
  setActiveVersion refusals repository now domain version :=
    repository.setActiveVersion host.toLowerCase refusals now domain version

section Ports

variable {host} {refusals : Refusals} {template : ExtractionTemplate} {now : Int}
  {domain version : String}

@[simp] theorem inMemoryTemplates_save (state : InMemoryNewsTemplateRepository) :
    (inMemoryTemplates host).save refusals state template =
      state.save host.toLowerCase template := rfl

@[simp] theorem inMemoryTemplates_setActiveVersion (state : InMemoryNewsTemplateRepository) :
    (inMemoryTemplates host).setActiveVersion refusals state now domain version =
      state.setActiveVersion host.toLowerCase now domain version := rfl

@[simp] theorem postgresTemplates_save (state : PostgresNewsTemplateRepository) :
    (postgresTemplates host).save refusals state template =
      state.save host.toLowerCase refusals template := rfl

@[simp] theorem postgresTemplates_setActiveVersion (state : PostgresNewsTemplateRepository) :
    (postgresTemplates host).setActiveVersion refusals state now domain version =
      state.setActiveVersion host.toLowerCase refusals now domain version := rfl

end Ports

section Service

/-- What comes from outside while a template is healed. -/
structure Surroundings where
  /-- What the database refuses in each call of the repository. -/
  refusals : Nat → Refusals
  generated : Option TemplateSelectors
  repaired : Option TemplateSelectors
  now : Int

/-- A page of a source of type `WEBSITE`, no text if it could not be fetched. -/
structure WebsiteSource where
  domain : String
  html : String
  /-- Whether what is extracted with some selectors has a high defect rate. -/
  isHighError : TemplateSelectors → Except String Bool
  around : Surroundings

variable {ρ : Type} (repository : NewsTemplateRepository ρ)

def collectSource (autoHealing : Option Bool) (state : ρ) (source : WebsiteSource) :
    Except String Unit × ρ :=
  let around := source.around
  if source.html = "" then (.ok (), state)
  else
    match repository.findActiveByDomain (around.refusals 0) state source.domain with
    | .error message => (.error message, state)
    | .ok found =>
      let looked : Option ExtractionTemplate × ρ :=
        match found with
        | some active => (some active, state)
        | none =>
          let generated :=
            generateTemplate host around.generated source.domain source.html around.now
          let saved := repository.save (around.refusals 1) state generated
          (saved.1.toOption, saved.2)
      match looked.1 with
      | none => (.ok (), looked.2)
      | some active =>
        match source.isHighError active.selectors with
        | .error message => (.error message, looked.2)
        | .ok false => (.ok (), looked.2)
        | .ok true =>
          let repaired :=
            repairTemplate host around.repaired source.domain active source.html around.now
          let applied := { repaired with isActive := autoHealing != some false }
          (.ok (), (repository.save (around.refusals 2) looked.2 applied).2)

/-- The sources are collected one after the other, and what one throws ends it. -/
def collect (autoHealing : Option Bool) (state : ρ) : List WebsiteSource → Except String Unit × ρ
  | [] => (.ok (), state)
  | source :: sources =>
    match collectSource host repository autoHealing state source with
    | (.error message, collected) => (.error message, collected)
    | (.ok (), collected) => collect autoHealing collected sources

def applyTemplate (refusals : Refusals) (now : Int) (state : ρ) (domain version : String) :
    Except String ExtractionTemplate × ρ :=
  repository.setActiveVersion refusals state now domain version

def healTemplate (around : Surroundings) (state : ρ) (domain html : String) (autoApply : Bool) :
    Except String ExtractionTemplate × ρ :=
  match repository.findActiveByDomain (around.refusals 0) state domain with
  | .error message => (.error message, state)
  | .ok found =>
    let looked : Except String ExtractionTemplate × ρ :=
      match found with
      | some active => (.ok active, state)
      | none =>
        let generated := generateTemplate host around.generated domain html around.now
        let saved := repository.save (around.refusals 1) state generated
        (saved.1.map fun _ => generated, saved.2)
    match looked.1 with
    | .error message => (.error message, looked.2)
    | .ok active =>
      let repaired := repairTemplate host around.repaired domain active html around.now
      repository.save (around.refusals 2) looked.2 { repaired with isActive := autoApply }

inductive NewsCall where
  | collect (autoHealing : Option Bool) (sources : List WebsiteSource)
  | healTemplate (around : Surroundings) (domain html : String) (autoApply : Bool)
  | applyTemplate (refusals : Refusals) (now : Int) (domain version : String)

def performCall (state : ρ) : NewsCall → ρ
  | .collect autoHealing sources => (collect host repository autoHealing state sources).2
  | .healTemplate around domain html autoApply =>
    (healTemplate host repository around state domain html autoApply).2
  | .applyTemplate refusals now domain version =>
    (applyTemplate repository refusals now state domain version).2

end Service

end Cryptox.News
