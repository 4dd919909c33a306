import Cryptox.Library.GuardedSystem
import Cryptox.News.TemplateActivation
import Cryptox.News.TemplateService

/-!
# The history of a template

What is stored under a domain and a version keeps its selectors as long as no heal writes to a
version that is stored already. The next version is derived from the active template only, so after
a return to an older version it may be one that is.
-/
namespace Cryptox.News

open Cryptox.Backtesting (JsNumber isJsSpace)
open Cryptox.Library
open Cryptox.Strategy (trim)

section Normalization

theorem trim_trim (text : String) : trim (trim text) = trim text := by
  have htail : ∀ list : List Char, (list.reverse.dropWhile isJsSpace).reverse =
      list.rdropWhile isJsSpace := fun _ => rfl
  simp only [trim, String.toList_ofList, htail]
  set front := text.toList.dropWhile isJsSpace with hfront
  have hkept : (front.rdropWhile isJsSpace).dropWhile isJsSpace = front.rdropWhile isJsSpace := by
    refine List.dropWhile_eq_self_iff.mpr fun hl hspace => ?_
    have hpos : 0 < front.length := hl.trans_le (List.rdropWhile_prefix _ _).length_le
    have hsame : (front.rdropWhile isJsSpace)[0] = front[0] :=
      (List.rdropWhile_prefix _ _).getElem hl
    rw [hsame] at hspace
    exact List.dropWhile_get_zero_not _ _ hpos hspace
  rw [hkept, List.rdropWhile_idempotent]

/-- To normalize twice is to normalize once, so that the service and the store agree on a domain. -/
theorem LowerCases.normalizedDomain_normalizedDomain {toLowerCase : String → String}
    (h : LowerCases toLowerCase) (domain : String) :
    News.normalizedDomain toLowerCase (News.normalizedDomain toLowerCase domain) =
      News.normalizedDomain toLowerCase domain := by
  rw [News.normalizedDomain, h.normalizedDomain, News.normalizedDomain, trim_trim]

theorem colon_not_mem_shownNumber (number : JsNumber) : ':' ∉ (shownNumber number).toList := by
  cases number with
  | nan => decide
  | infinity negative => cases negative <;> decide
  | finite decimal =>
    rw [shownNumber, String.toList_ofList]
    intro hmem
    exact absurd (DecimalNumber.format.numeral _ _ hmem) (by decide)

/-- The versions that the service allots have no colon, which parts domain and version in a key. -/
theorem colon_not_mem_nextVersion (host : TemplateHost) (version : String) :
    ':' ∉ (nextVersion host version).toList := by
  unfold nextVersion
  split
  · decide
  · rw [String.toList_append, List.mem_append, not_or]
    exact ⟨by decide, colon_not_mem_shownNumber _⟩

end Normalization

section Stored

def selectorsAt (rows : List ExtractionTemplate) (domain version : String) :
    Option TemplateSelectors :=
  (rows.find? fun t => t.domain = domain && t.version = version).map (·.selectors)

def Unique (rows : List ExtractionTemplate) : Prop :=
  ∀ t ∈ rows, ∀ u ∈ rows, t.domain = u.domain → t.version = u.version → t = u

/-- Every template is still there, with the selectors it had. -/
def Extends (before after : List ExtractionTemplate) : Prop :=
  ∀ t ∈ before, ∃ u ∈ after,
    u.domain = t.domain ∧ u.version = t.version ∧ u.selectors = t.selectors

variable {before middle after rows : List ExtractionTemplate} {domain version : String}
  {selectors : TemplateSelectors}

theorem Extends.refl (rows : List ExtractionTemplate) : Extends rows rows :=
  fun t ht => ⟨t, ht, rfl, rfl, rfl⟩

theorem Extends.trans (h : Extends before middle) (h' : Extends middle after) :
    Extends before after := by
  intro t ht
  obtain ⟨u, hu, hd, hv, hs⟩ := h t ht
  obtain ⟨w, hw, hd', hv', hs'⟩ := h' u hu
  exact ⟨w, hw, hd'.trans hd, hv'.trans hv, hs'.trans hs⟩

theorem extends_map {f : ExtractionTemplate → ExtractionTemplate}
    (hdomain : ∀ t, (f t).domain = t.domain) (hversion : ∀ t, (f t).version = t.version)
    (hselectors : ∀ t, (f t).selectors = t.selectors) : Extends rows (rows.map f) :=
  fun t ht => ⟨f t, List.mem_map_of_mem ht, hdomain t, hversion t, hselectors t⟩

theorem selectorsAt_eq_some_iff (h : Unique rows) :
    selectorsAt rows domain version = some selectors ↔
      ∃ t ∈ rows, t.domain = domain ∧ t.version = version ∧ t.selectors = selectors := by
  rw [selectorsAt, Option.map_eq_some_iff]
  constructor
  · rintro ⟨t, hfind, hs⟩
    have hthere := List.find?_some hfind
    rw [Bool.and_eq_true, decide_eq_true_eq, decide_eq_true_eq] at hthere
    exact ⟨t, List.mem_of_find?_eq_some hfind, hthere.1, hthere.2, hs⟩
  · rintro ⟨t, ht, rfl, rfl, hs⟩
    cases hfind : rows.find? fun u => u.domain = t.domain && u.version = t.version with
    | none => exact absurd (List.find?_eq_none.mp hfind t ht) (by simp)
    | some u =>
      have hthere := List.find?_some hfind
      rw [Bool.and_eq_true, decide_eq_true_eq, decide_eq_true_eq] at hthere
      rw [h t ht u (List.mem_of_find?_eq_some hfind) hthere.1.symm hthere.2.symm] at hs
      exact ⟨u, rfl, hs⟩

theorem Extends.selectorsAt (h : Extends before after) (hbefore : Unique before)
    (hafter : Unique after) (hstored : selectorsAt before domain version = some selectors) :
    News.selectorsAt after domain version = some selectors := by
  obtain ⟨t, ht, rfl, rfl, rfl⟩ := (selectorsAt_eq_some_iff hbefore).mp hstored
  obtain ⟨u, hu, hd, hv, hs⟩ := h t ht
  exact (selectorsAt_eq_some_iff hafter).mpr ⟨u, hu, hd, hv, hs⟩

def isStored (rows : List ExtractionTemplate) (domain version : String) : Bool :=
  rows.any fun t => t.domain = domain && t.version = version

theorem isStored_iff : isStored rows domain version = true ↔ stores rows domain version := by
  simp [isStored, stores]

end Stored

/-- What the service relies on in a repository: a template that is saved under a new version leaves
the others as they were, and to activate one changes no selectors. -/
structure Lawful {ρ : Type} (host : TemplateHost) (repository : NewsTemplateRepository ρ)
    (rows : ρ → List ExtractionTemplate) (Inv : ρ → Prop) : Prop where
  unique : ∀ state, Inv state → Unique (rows state)
  inv_save : ∀ refusals state template, Inv state → ':' ∉ template.version.toList →
    Inv (repository.save refusals state template).2
  inv_setActiveVersion : ∀ refusals state now domain version, Inv state →
    Inv (repository.setActiveVersion refusals state now domain version).2
  save_ok : ∀ refusals state template saved,
    (repository.save refusals state template).1 = .ok saved →
      saved.version = template.version ∧ saved.selectors = template.selectors
  save_extends : ∀ refusals state template, Inv state → ':' ∉ template.version.toList →
    ¬ stores (rows state) (normalizedDomain host.toLowerCase template.domain) template.version →
      Extends (rows state) (rows (repository.save refusals state template).2)
  save_only : ∀ refusals state template domain version,
    stores (rows (repository.save refusals state template).2) domain version →
      stores (rows state) domain version ∨ version = template.version
  setActiveVersion_extends : ∀ refusals state now domain version,
    Extends (rows state) (rows (repository.setActiveVersion refusals state now domain version).2)
  setActiveVersion_ok : ∀ refusals state now domain version activated, Inv state →
    (repository.setActiveVersion refusals state now domain version).1 = .ok activated →
      selectorsAt (rows state) (normalizedDomain host.toLowerCase domain) version =
        some activated.selectors

section InMemory

namespace InMemoryNewsTemplateRepository

variable {host : TemplateHost} {repository : InMemoryNewsTemplateRepository}

/-- A key is made of the domain and of a version without a colon in one way. -/
theorem memoryKey_inj {t u : ExtractionTemplate} (ht : ':' ∉ t.version.toList)
    (hu : ':' ∉ u.version.toList) (h : memoryKey t = memoryKey u) :
    t.domain = u.domain ∧ t.version = u.version := by
  have hlist : t.domain.toList ++ ':' :: t.version.toList =
      u.domain.toList ++ ':' :: u.version.toList := by
    have htext := congrArg String.toList h
    simpa [memoryKey, String.toList_append] using htext
  have hreverse := congrArg List.reverse hlist
  simp only [List.reverse_append, List.reverse_cons, List.append_assoc, List.singleton_append]
    at hreverse
  obtain ⟨hversion, hdomain⟩ := append_cons_inj (by simpa using ht) (by simpa using hu) hreverse
  exact ⟨String.toList_inj.mp (List.reverse_injective hdomain),
    String.toList_inj.mp (List.reverse_injective hversion)⟩

structure Tidy (toLowerCase : String → String) (repository : InMemoryNewsTemplateRepository) :
    Prop where
  sound : Sound toLowerCase repository.rows
  versions : ∀ t ∈ repository.rows, ':' ∉ t.version.toList

/-- A template is put among the others, of which at most the activity is changed. -/
theorem save_state (toLowerCase : String → String) (repository : InMemoryNewsTemplateRepository)
    (template : ExtractionTemplate) :
    ∃ (others : InMemoryNewsTemplateRepository) (f : ExtractionTemplate → ExtractionTemplate),
      (save toLowerCase repository template).2 =
        others.put { template with domain := normalizedDomain toLowerCase template.domain } ∧
      others.rows = repository.rows.map f ∧ (∀ t, (f t).domain = t.domain) ∧
      (∀ t, (f t).version = t.version) ∧ ∀ t, (f t).selectors = t.selectors := by
  unfold save
  by_cases hactive : template.isActive = true
  · simp only [hactive, ↓reduceIte]
    exact ⟨_, _, rfl, rfl, domain_marked, version_marked, selectors_marked⟩
  · simp only [hactive, Bool.false_eq_true, ↓reduceIte]
    exact ⟨_, id, rfl, (List.map_id _).symm, fun _ => rfl, fun _ => rfl, fun _ => rfl⟩

/-- The map is such a repository, as long as versions have no colon. -/
theorem lawful_inMemory (hcase : LowerCases host.toLowerCase) :
    Lawful host (inMemoryTemplates host) (·.rows) (Tidy host.toLowerCase) where
  unique state _ := unique_rows state
  inv_save _ state template h hversion := by
    refine ⟨sound_save hcase h.sound template, fun t ht => ?_⟩
    obtain ⟨others, f, hsave, hrows, -, hkept, -⟩ := save_state host.toLowerCase state template
    rw [inMemoryTemplates_save, hsave] at ht
    rcases Table.mem_rows_put ht with rfl | hmem
    · exact hversion
    · rw [hrows] at hmem
      obtain ⟨u, hu, rfl⟩ := List.mem_map.mp hmem
      rw [hkept]
      exact h.versions u hu
  inv_setActiveVersion _ state now domain version h := by
    rw [inMemoryTemplates_setActiveVersion, setActiveVersion_state]
    refine ⟨sound_switch hcase h.sound _ version now, fun t ht => ?_⟩
    obtain ⟨u, hu, rfl⟩ := List.mem_map.mp ht
    rw [version_switched]
    exact h.versions u hu
  save_ok _ state template saved hok := by
    cases hok
    exact ⟨rfl, rfl⟩
  save_extends _ state template h hversion hnew := by
    obtain ⟨others, f, hsave, hrows, hd, hv, hs⟩ := save_state host.toLowerCase state template
    rw [inMemoryTemplates_save, hsave]
    set row : ExtractionTemplate :=
      { template with domain := normalizedDomain host.toLowerCase template.domain } with hrow
    intro t ht
    have hmem : f t ∈ others.rows := by
      rw [hrows]
      exact List.mem_map_of_mem ht
    refine ⟨f t, ?_, hd t, hv t, hs t⟩
    have hne : memoryKey (f t) ≠ memoryKey row := by
      intro hkey
      have hcolon : ':' ∉ (f t).version.toList := by
        rw [hv]
        exact h.versions t ht
      obtain ⟨hdomain, hsame⟩ := memoryKey_inj (u := row) hcolon hversion hkey
      exact hnew ⟨t, ht, (hd t).symm.trans hdomain, (hv t).symm.trans hsame⟩
    refine Table.mem_rows_of_get? (k := memoryKey (f t)) ?_
    rw [Table.get?_put_of_ne _ hne]
    exact Table.get?_of_mem_rows hmem
  save_only _ state template domain version hstored := by
    obtain ⟨others, f, hsave, hrows, hd, hv, -⟩ := save_state host.toLowerCase state template
    rw [inMemoryTemplates_save, hsave] at hstored
    obtain ⟨t, ht, hdomain, hversion⟩ := hstored
    rcases Table.mem_rows_put ht with rfl | hmem
    · exact Or.inr hversion.symm
    · rw [hrows] at hmem
      obtain ⟨u, hu, rfl⟩ := List.mem_map.mp hmem
      exact Or.inl ⟨u, hu, (hd u).symm.trans hdomain, (hv u).symm.trans hversion⟩
  setActiveVersion_extends _ state now domain version := by
    rw [inMemoryTemplates_setActiveVersion, setActiveVersion_state]
    exact extends_map (fun _ => domain_switched) (fun _ => version_switched)
      fun _ => selectors_switched
  setActiveVersion_ok _ state now domain version activated h hok := by
    rw [inMemoryTemplates_setActiveVersion, setActiveVersion] at hok
    split at hok
    · cases hok
    · rename_i found hlast
      obtain rfl : found = activated := Except.ok.inj hok
      have hmem := List.mem_filter.mp (List.mem_of_getLast? hlast)
      obtain ⟨t, ht, rfl⟩ := List.mem_map.mp hmem.1
      rw [domain_switched, version_switched, lower_stored hcase h.sound t ht, Bool.and_eq_true,
        decide_eq_true_eq, decide_eq_true_eq] at hmem
      exact (selectorsAt_eq_some_iff (unique_rows state)).mpr
        ⟨t, ht, hmem.2.1, hmem.2.2, selectors_switched.symm⟩

end InMemoryNewsTemplateRepository

end InMemory

section Postgres

namespace PostgresNewsTemplateRepository

variable {host : TemplateHost}

theorem extends_update (repository : PostgresNewsTemplateRepository)
    (test : ExtractionTemplate → Bool) (isActive : Bool) (now : Option Int) :
    Extends repository.rows (update repository test isActive now).rows :=
  extends_map domain_marked version_marked selectors_marked

/-- A new version leaves the others as they were. -/
theorem extends_store {repository : PostgresNewsTemplateRepository} {refusals : Refusals}
    {row : ExtractionTemplate} (hnew : ¬ stores repository.rows row.domain row.version) :
    Extends repository.rows (store repository refusals row).2.rows := by
  rcases store_cases repository refusals row with ⟨written, hstore, hkey, -⟩ | ⟨_, hstore, -⟩
  · rw [hstore]
    intro t ht
    have hne : rowKey t ≠ rowKey written := by
      intro hsame
      obtain ⟨hd, hv⟩ := Prod.mk.inj (hsame.trans hkey)
      exact hnew ⟨t, ht, hd, hv⟩
    refine ⟨t, Table.mem_rows_of_get? (k := rowKey t) ?_, rfl, rfl, rfl⟩
    rw [Table.get?_put_of_ne _ hne]
    exact Table.get?_of_mem_rows ht
  · rw [hstore]
    exact Extends.refl _

theorem stores_of_store {repository : PostgresNewsTemplateRepository} {refusals : Refusals}
    {row : ExtractionTemplate} {domain version : String}
    (h : stores (store repository refusals row).2.rows domain version) :
    stores repository.rows domain version ∨ version = row.version := by
  rcases store_cases repository refusals row with ⟨written, hstore, hkey, -⟩ | ⟨_, hstore, -⟩
  · rw [hstore] at h
    obtain ⟨t, ht, hd, hv⟩ := h
    rcases Table.mem_rows_put ht with rfl | hmem
    · exact Or.inr (hv.symm.trans (Prod.mk.inj hkey).2)
    · exact Or.inl ⟨t, hmem, hd, hv⟩
  · rw [hstore] at h
    exact Or.inl h

theorem ok_of_store {repository : PostgresNewsTemplateRepository} {refusals : Refusals}
    {row saved : ExtractionTemplate} (h : (store repository refusals row).1 = .ok saved) :
    saved.version = row.version ∧ saved.selectors = row.selectors := by
  rcases store_cases repository refusals row with
    ⟨written, hstore, hkey, -, hselectors, -⟩ | ⟨_, hstore, -⟩
  · rw [hstore] at h
    obtain rfl := Except.ok.inj h
    rw [version_mapRow, selectors_mapRow]
    exact ⟨(Prod.mk.inj hkey).2, hselectors⟩
  · rw [hstore] at h
    cases h

/-- A template is stored among the others, or nothing is stored. -/
theorem save_eq (toLowerCase : String → String) (repository : PostgresNewsTemplateRepository)
    (refusals : Refusals) (template : ExtractionTemplate) :
    (∃ message, save toLowerCase repository refusals template = (.error message, repository)) ∨
    save toLowerCase repository refusals template =
      store repository refusals
        { template with domain := normalizedDomain toLowerCase template.domain } ∨
    ∃ test, save toLowerCase repository refusals template =
      store (update repository test false none) refusals
        { template with domain := normalizedDomain toLowerCase template.domain } := by
  unfold save
  by_cases hactive : template.isActive = true
  · rw [if_pos hactive]
    cases refusals 0 with
    | some message => exact Or.inl ⟨message, rfl⟩
    | none => exact Or.inr (Or.inr ⟨_, rfl⟩)
  · rw [if_neg hactive]
    exact Or.inr (Or.inl rfl)

/-- The table is such a repository, whatever its statements are refused. -/
theorem lawful_postgres :
    Lawful host (postgresTemplates host) (·.rows) fun _ => True where
  unique state _ := unique_rows state
  inv_save _ _ _ _ _ := trivial
  inv_setActiveVersion _ _ _ _ _ _ := trivial
  save_ok refusals state template saved hok := by
    rw [postgresTemplates_save] at hok
    rcases save_eq host.toLowerCase state refusals template with
      ⟨message, hsave⟩ | hsave | ⟨test, hsave⟩
    · rw [hsave] at hok
      cases hok
    · rw [hsave] at hok
      have hstored := ok_of_store hok
      exact hstored
    · rw [hsave] at hok
      have hstored := ok_of_store hok
      exact hstored
  save_extends refusals state template _ _ hnew := by
    rw [postgresTemplates_save]
    rcases save_eq host.toLowerCase state refusals template with
      ⟨message, hsave⟩ | hsave | ⟨test, hsave⟩
    · rw [hsave]
      exact Extends.refl _
    · rw [hsave]
      exact extends_store hnew
    · rw [hsave]
      exact (extends_update state test false none).trans (extends_store (mt stores_update.mp hnew))
  save_only refusals state template domain version hstored := by
    rw [postgresTemplates_save] at hstored
    rcases save_eq host.toLowerCase state refusals template with
      ⟨message, hsave⟩ | hsave | ⟨test, hsave⟩
    · rw [hsave] at hstored
      exact Or.inl hstored
    · rw [hsave] at hstored
      have hcases := stores_of_store hstored
      exact hcases
    · rw [hsave] at hstored
      have hcases := stores_of_store hstored
      exact hcases.imp_left stores_update.mp
  setActiveVersion_extends refusals state now domain version := by
    rw [postgresTemplates_setActiveVersion, setActiveVersion]
    cases refusals 0 with
    | some message => exact Extends.refl _
    | none =>
      simp only [activate]
      cases refusals 1 with
      | some message => exact extends_update _ _ _ _
      | none =>
        dsimp only
        split <;> exact (extends_update _ _ _ _).trans (extends_update _ _ _ _)
  setActiveVersion_ok refusals state now domain version activated _ hok := by
    rw [postgresTemplates_setActiveVersion, setActiveVersion] at hok
    cases hfirst : refusals 0 with
    | some message =>
      rw [hfirst] at hok
      cases hok
    | none =>
      simp only [hfirst, activate] at hok
      cases hsecond : refusals 1 with
      | some message =>
        rw [hsecond] at hok
        cases hok
      | none =>
        simp only [hsecond] at hok
        split at hok
        · cases hok
        · rename_i found hget
          obtain rfl := Except.ok.inj hok
          have hkey : rowKey found = (normalizedDomain host.toLowerCase domain, version) :=
            Table.key_of_get? hget
          obtain ⟨hd, hv⟩ := Prod.mk.inj hkey
          obtain ⟨u, hu, rfl⟩ := List.mem_map.mp (Table.mem_rows_of_get? hget)
          obtain ⟨t, ht, rfl⟩ := List.mem_map.mp hu
          rw [domain_marked, domain_marked] at hd
          rw [version_marked, version_marked] at hv
          refine (selectorsAt_eq_some_iff (unique_rows state)).mpr ⟨t, ht, hd, hv, ?_⟩
          rw [selectors_mapRow, selectors_marked, selectors_marked]

end PostgresNewsTemplateRepository

end Postgres

section Fresh

variable {ρ : Type} (host : TemplateHost) (repository : NewsTemplateRepository ρ)
  (rows : ρ → List ExtractionTemplate)

/-- A heal of a domain writes to no version that is stored already. Whether it comes to a repair
depends on the selectors of the active template. -/
def freshHeal (around : Surroundings) (state : ρ) (domain html : String)
    (repairs : TemplateSelectors → Bool) : Bool :=
  let normalized := normalizedDomain host.toLowerCase domain
  match repository.findActiveByDomain (around.refusals 0) state domain with
  | .error _ => true
  | .ok (some active) =>
    !repairs active.selectors ||
      !isStored (rows state) normalized (nextVersion host active.version)
  | .ok none =>
    !isStored (rows state) normalized "v1.0" &&
      (!repairs (generateTemplate host around.generated domain html around.now).selectors ||
        !isStored (rows state) normalized "v1.1")

def WebsiteSource.repairs (source : WebsiteSource) (selectors : TemplateSelectors) : Bool :=
  match source.isHighError selectors with
  | .ok high => high
  | .error _ => false

def freshSources (autoHealing : Option Bool) (state : ρ) : List WebsiteSource → Bool
  | [] => true
  | source :: sources =>
    (source.html = "" ||
      freshHeal host repository rows source.around state source.domain source.html source.repairs) &&
      match collectSource host repository autoHealing state source with
      | (.error _, _) => true
      | (.ok (), collected) => freshSources autoHealing collected sources

def freshCall (state : ρ) : NewsCall → Bool
  | .collect autoHealing sources => freshSources host repository rows autoHealing state sources
  | .healTemplate around domain html _ =>
    freshHeal host repository rows around state domain html fun _ => true
  | .applyTemplate .. => true

end Fresh

section Steps

variable {ρ : Type} {host : TemplateHost} {repository : NewsTemplateRepository ρ}
  {rows : ρ → List ExtractionTemplate} {Inv : ρ → Prop}

structure Grown (rows : ρ → List ExtractionTemplate) (Inv : ρ → Prop) (before after : ρ) :
    Prop where
  inv : Inv after
  kept : Extends (rows before) (rows after)

theorem Grown.refl {state : ρ} (h : Inv state) : Grown rows Inv state state :=
  ⟨h, Extends.refl _⟩

theorem Grown.trans {first second third : ρ} (h : Grown rows Inv first second)
    (h' : Grown rows Inv second third) : Grown rows Inv first third :=
  ⟨h'.inv, h.kept.trans h'.kept⟩

section Saves

variable (law : Lawful host repository rows Inv) (hcase : LowerCases host.toLowerCase)
include law hcase

theorem grown_generated {state : ρ} (h : Inv state) (refusals : Refusals)
    (answer : Option TemplateSelectors) (domain html : String) (now : Int)
    (hnew : ¬ stores (rows state) (normalizedDomain host.toLowerCase domain) "v1.0") :
    Grown rows Inv state
      (repository.save refusals state (generateTemplate host answer domain html now)).2 := by
  have hcolon : ':' ∉ (generateTemplate host answer domain html now).version.toList := by
    rw [version_generateTemplate]
    decide
  refine ⟨law.inv_save _ _ _ h hcolon, law.save_extends _ _ _ h hcolon ?_⟩
  rw [generateTemplate, hcase.normalizedDomain_normalizedDomain]
  exact hnew

theorem grown_repaired {state : ρ} (h : Inv state) (refusals : Refusals)
    (answer : Option TemplateSelectors) (domain html : String) (now : Int)
    (active : ExtractionTemplate) (isActive : Bool)
    (hnew : ¬ stores (rows state) (normalizedDomain host.toLowerCase domain)
      (nextVersion host active.version)) :
    Grown rows Inv state (repository.save refusals state
      { repairTemplate host answer domain active html now with isActive := isActive }).2 := by
  have hcolon := colon_not_mem_nextVersion host active.version
  refine ⟨law.inv_save _ _ _ h hcolon, law.save_extends _ _ _ h hcolon ?_⟩
  rw [repairTemplate, hcase.normalizedDomain_normalizedDomain]
  exact hnew

omit hcase in
theorem not_stores_generated {state : ρ} {refusals : Refusals} {answer : Option TemplateSelectors}
    {domain html normalized : String} {now : Int}
    (hnew : ¬ stores (rows state) normalized "v1.1") :
    ¬ stores (rows (repository.save refusals state
      (generateTemplate host answer domain html now)).2) normalized "v1.1" := by
  intro hstored
  rcases law.save_only _ _ _ _ _ hstored with hbefore | hversion
  · exact hnew hbefore
  · rw [version_generateTemplate] at hversion
    exact absurd hversion (by decide)

/-- A heal that writes to new versions only adds to what is stored. -/
theorem grown_healTemplate {state : ρ} (h : Inv state) (around : Surroundings)
    (domain html : String) (autoApply : Bool)
    (hfresh : freshHeal host repository rows around state domain html (fun _ => true) = true) :
    Grown rows Inv state
      (healTemplate host repository around state domain html autoApply).2 := by
  unfold freshHeal at hfresh
  unfold healTemplate
  cases hfind : repository.findActiveByDomain (around.refusals 0) state domain with
  | error message => exact Grown.refl h
  | ok found =>
    rw [hfind] at hfresh
    cases found with
    | some active =>
      simp only [Bool.not_true, Bool.false_or, Bool.not_eq_true', ← Bool.not_eq_true,
        isStored_iff] at hfresh
      exact grown_repaired law hcase h _ _ domain html _ active autoApply hfresh
    | none =>
      simp only [Bool.and_eq_true, Bool.not_true, Bool.false_or, Bool.not_eq_true',
        ← Bool.not_eq_true, isStored_iff] at hfresh
      have hgrown := grown_generated law hcase h (around.refusals 1) around.generated domain html
        around.now hfresh.1
      dsimp only
      cases hsaved : (repository.save (around.refusals 1) state
          (generateTemplate host around.generated domain html around.now)).1 with
      | error message => exact hgrown
      | ok saved =>
        exact hgrown.trans (grown_repaired law hcase hgrown.inv _ _ domain html _ _ autoApply
          (not_stores_generated law hfresh.2))

theorem grown_collectSource {state : ρ} (h : Inv state) (autoHealing : Option Bool)
    (source : WebsiteSource)
    (hfresh : (source.html = "" || freshHeal host repository rows source.around state source.domain
      source.html source.repairs) = true) :
    Grown rows Inv state (collectSource host repository autoHealing state source).2 := by
  unfold collectSource
  by_cases hhtml : source.html = ""
  · rw [if_pos hhtml]
    exact Grown.refl h
  rw [if_neg hhtml]
  simp only [hhtml, decide_false, Bool.false_or] at hfresh
  unfold freshHeal at hfresh
  cases hfind : repository.findActiveByDomain (source.around.refusals 0) state source.domain with
  | error message => exact Grown.refl h
  | ok found =>
    rw [hfind] at hfresh
    cases found with
    | some active =>
      dsimp only
      cases hhigh : source.isHighError active.selectors with
      | error message => exact Grown.refl h
      | ok high =>
        cases high with
        | false => exact Grown.refl h
        | true =>
          simp only [WebsiteSource.repairs, hhigh, Bool.not_true, Bool.false_or,
            Bool.not_eq_true', ← Bool.not_eq_true, isStored_iff] at hfresh
          exact grown_repaired law hcase h _ _ source.domain source.html _ active _ hfresh
    | none =>
      simp only [Bool.and_eq_true, Bool.or_eq_true, Bool.not_eq_true', ← Bool.not_eq_true,
        isStored_iff] at hfresh
      have hgrown := grown_generated law hcase h (source.around.refusals 1) source.around.generated
        source.domain source.html source.around.now hfresh.1
      dsimp only
      cases hsaved : (repository.save (source.around.refusals 1) state (generateTemplate host
          source.around.generated source.domain source.html source.around.now)).1 with
      | error message => exact hgrown
      | ok saved =>
        obtain ⟨hversion, hselectors⟩ := law.save_ok _ _ _ _ hsaved
        simp only [Except.toOption]
        cases hhigh : source.isHighError saved.selectors with
        | error message => exact hgrown
        | ok high =>
          cases high with
          | false => exact hgrown
          | true =>
            have hnew := hfresh.2.resolve_left (by simp [WebsiteSource.repairs, ← hselectors, hhigh])
            refine hgrown.trans (grown_repaired law hcase hgrown.inv _ _ source.domain source.html _
              saved _ ?_)
            rw [hversion]
            exact not_stores_generated law hnew

theorem grown_collect {state : ρ} (h : Inv state) (autoHealing : Option Bool)
    (sources : List WebsiteSource)
    (hfresh : freshSources host repository rows autoHealing state sources = true) :
    Grown rows Inv state (collect host repository autoHealing state sources).2 := by
  induction sources generalizing state with
  | nil => exact Grown.refl h
  | cons source sources ih =>
    rw [freshSources, Bool.and_eq_true] at hfresh
    have hgrown := grown_collectSource law hcase h autoHealing source hfresh.1
    have hrest := hfresh.2
    rw [collect]
    cases hcollected : collectSource host repository autoHealing state source with
    | mk outcome collected =>
      rw [hcollected] at hgrown hrest
      cases outcome with
      | error message => exact hgrown
      | ok _ => exact hgrown.trans (ih hgrown.inv hrest)

/-- A call that is fresh where it is made adds to what is stored, and activation takes nothing away.
-/
theorem grown_performCall {state : ρ} (h : Inv state) (call : NewsCall)
    (hfresh : freshCall host repository rows state call = true) :
    Grown rows Inv state (performCall host repository state call) := by
  cases call with
  | collect autoHealing sources => exact grown_collect law hcase h autoHealing sources hfresh
  | healTemplate around domain html autoApply =>
    exact grown_healTemplate law hcase h around domain html autoApply hfresh
  | applyTemplate refusals now domain version =>
    exact ⟨law.inv_setActiveVersion _ _ _ _ _ h, law.setActiveVersion_extends _ _ _ _ _⟩

end Saves

end Steps

section Runs

variable {ρ : Type} (host : TemplateHost) (repository : NewsTemplateRepository ρ)
  (rows : ρ → List ExtractionTemplate)

def newsSystem : GuardedSystem ρ NewsCall where
  enabled _ _ := True
  next := performCall host repository

/-- In a run whose calls are fresh where they are made, what is stored keeps its selectors, and to
return to a version brings back the selectors that were stored under it. -/
def HistoryKept (start : ρ) : Prop :=
  ∀ calls more, (newsSystem host repository).Legal
      (fun state call => freshCall host repository rows state call = true) start (calls ++ more) →
    ∀ domain version selectors,
      selectorsAt (rows ((newsSystem host repository).run start calls)) domain version =
          some selectors →
        selectorsAt (rows ((newsSystem host repository).run start (calls ++ more))) domain version =
            some selectors ∧
          ∀ refusals now asked activated, normalizedDomain host.toLowerCase asked = domain →
            (applyTemplate repository refusals now
              ((newsSystem host repository).run start (calls ++ more)) asked version).1 =
                .ok activated →
              activated.selectors = selectors

variable {host} {repository} {rows} {Inv : ρ → Prop}

theorem grown_run (law : Lawful host repository rows Inv) (hcase : LowerCases host.toLowerCase)
    {state : ρ} {calls : List NewsCall} (h : Inv state)
    (hlegal : (newsSystem host repository).Legal
      (fun state call => freshCall host repository rows state call = true) state calls) :
    Grown rows Inv state ((newsSystem host repository).run state calls) := by
  refine hlegal.invariant (Grown rows Inv state) ?_ (Grown.refl h)
  intro reached call hgrown _ hfresh
  exact hgrown.trans (grown_performCall law hcase hgrown.inv call hfresh)

/-- The history is kept over every repository that the service can rely on. -/
theorem Lawful.historyKept (law : Lawful host repository rows Inv)
    (hcase : LowerCases host.toLowerCase) {start : ρ} (h : Inv start) :
    HistoryKept host repository rows start := by
  intro calls more hlegal domain version selectors hstored
  obtain ⟨hfirst, hlater⟩ := GuardedSystem.legal_append.mp hlegal
  have hreached := grown_run law hcase h hfirst
  have hgrown := grown_run law hcase hreached.inv hlater
  rw [← GuardedSystem.run_append] at hgrown
  have hkept := hgrown.kept.selectorsAt (law.unique _ hreached.inv) (law.unique _ hgrown.inv) hstored
  refine ⟨hkept, ?_⟩
  rintro refusals now asked activated rfl hok
  have hrestored := law.setActiveVersion_ok _ _ _ _ _ _ hgrown.inv hok
  rw [hkept] at hrestored
  exact (Option.some.inj hrestored).symm

end Runs

/-- The history of the templates is kept in every run whose heals write to new versions. -/
theorem template_history_kept (host : TemplateHost) (hcase : LowerCases host.toLowerCase) :
    HistoryKept host (inMemoryTemplates host) (·.rows) Table.empty ∧
      HistoryKept host (postgresTemplates host) (·.rows) Table.empty := by
  constructor
  · exact (InMemoryNewsTemplateRepository.lawful_inMemory hcase).historyKept hcase
      ⟨sound_nil, fun t ht => absurd ht List.not_mem_nil⟩
  · exact PostgresNewsTemplateRepository.lawful_postgres.historyKept hcase trivial

section Rollback

/-- The host as far as the templates of one domain need it. -/
def decryptHost : TemplateHost where
  toLowerCase := asciiLowerCase
  toNumber _ := .nan
  sha256 text :=
    if text = "decrypt.co:v1.0" then
      "a39279e63152096d1869b37e313f674ba2c017718d990c8db52f3feed73049be"
    else if text = "decrypt.co:v1.1" then
      "42e3799ab32be15853073c0e206de2a8b6f5925365961ba1c4cba49dd62e37ee"
    else ""
  slice text length := String.ofList (text.toList.take length)

def newSelectors : TemplateSelectors :=
  ⟨some "main", some "h1", some "p.lead", some "a.story", some "time", none⟩

/-- A heal for which the language model answers nothing, or what it is given to answer. -/
def healCall (repaired : Option TemplateSelectors) : NewsCall :=
  .healTemplate ⟨fun _ _ => none, none, repaired, 0⟩ "decrypt.co" "" true

def returnCall : NewsCall := .applyTemplate (fun _ => none) 0 "decrypt.co" "v1.0"

/-- What the first heal stores under the version after the first. -/
def healedSelectors : TemplateSelectors where
  container := some "article, div.grid-cols-1, article, div.grid-cols-1"
  title := some "h3, h2, .article-title, h3, h2, .article-title, .headline, .article-header"
  summary := some "p, .summary, description, p, .summary, description, div.desc"
  link := some "a[href*='/'], a[href*='/']"
  time := some "time, span.date, time, span.date, pubDate"
  tags := some "span.category, a[href*='/tag'], span.category, a[href*='/tag']"

theorem template_history_kept_return :
    selectorsAt ((newsSystem decryptHost (inMemoryTemplates decryptHost)).run Table.empty
        ([healCall none] ++ [returnCall])).rows "decrypt.co" "v1.1" = some healedSelectors ∧
      selectorsAt ((newsSystem decryptHost (postgresTemplates decryptHost)).run Table.empty
        ([healCall none] ++ [returnCall])).rows "decrypt.co" "v1.1" = some healedSelectors := by
  obtain ⟨hmemory, hpostgres⟩ := template_history_kept decryptHost lowerCases_asciiLowerCase
  constructor
  · exact (hmemory [healCall none] [returnCall]
      ⟨⟨trivial, by decide +kernel⟩, ⟨trivial, by decide +kernel⟩, trivial⟩ "decrypt.co" "v1.1"
      healedSelectors (by decide +kernel)).1
  · exact (hpostgres [healCall none] [returnCall]
      ⟨⟨trivial, by decide +kernel⟩, ⟨trivial, by decide +kernel⟩, trivial⟩ "decrypt.co" "v1.1"
      healedSelectors (by decide +kernel)).1

/-- After a return to the first version the next heal writes over the second one. -/
theorem template_history_overwritten :
    (¬ ∀ calls more domain version selectors,
      selectorsAt ((newsSystem decryptHost (inMemoryTemplates decryptHost)).run Table.empty
        calls).rows domain version = some selectors →
      selectorsAt ((newsSystem decryptHost (inMemoryTemplates decryptHost)).run Table.empty
        (calls ++ more)).rows domain version = some selectors) ∧
    ¬ ∀ calls more domain version selectors,
      selectorsAt ((newsSystem decryptHost (postgresTemplates decryptHost)).run Table.empty
        calls).rows domain version = some selectors →
      selectorsAt ((newsSystem decryptHost (postgresTemplates decryptHost)).run Table.empty
        (calls ++ more)).rows domain version = some selectors := by
  constructor
  · intro h
    have hkept := h [healCall none, returnCall] [healCall (some newSelectors)] "decrypt.co" "v1.1"
      healedSelectors (by decide +kernel)
    revert hkept
    decide +kernel
  · intro h
    have hkept := h [healCall none, returnCall] [healCall (some newSelectors)] "decrypt.co" "v1.1"
      healedSelectors (by decide +kernel)
    revert hkept
    decide +kernel

end Rollback

end Cryptox.News
