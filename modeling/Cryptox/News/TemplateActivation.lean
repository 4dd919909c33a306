import Cryptox.News.TemplateRepository
import Mathlib.Data.List.Induction

/-!
# The active template of a domain

No call makes a second template of a domain active. A call that throws after its first step leaves
the domain without the active template it had, and the calls that do so are told apart exactly. The
database refuses a statement as a whole; none is applied whose answer is an error.
-/
namespace Cryptox.News

open Cryptox.Library
open Cryptox.Backtesting (isJsSpace)
open Cryptox.Strategy (trim)

/-- A part of a text in lower case is in lower case. -/
def LowerCases (toLowerCase : String → String) : Prop :=
  ∀ text part, part.toList <:+: (toLowerCase text).toList → toLowerCase part = part

variable {toLowerCase : String → String}

theorem trim_within (text : String) : (trim text).toList <:+: text.toList := by
  rw [trim, String.toList_ofList]
  have hback := (List.dropWhile_suffix (l := (text.toList.dropWhile isJsSpace).reverse)
    isJsSpace)
  rw [← List.reverse_prefix, List.reverse_reverse] at hback
  exact hback.isInfix.trans (List.dropWhile_suffix isJsSpace).isInfix

theorem LowerCases.normalizedDomain (h : LowerCases toLowerCase) (domain : String) :
    toLowerCase (normalizedDomain toLowerCase domain) = normalizedDomain toLowerCase domain :=
  h domain _ (trim_within _)

/-! What is active among some templates, wherever they are stored. -/

def activeOf (rows : List ExtractionTemplate) (domain : String) : List ExtractionTemplate :=
  rows.filter fun t => t.domain = domain && t.isActive

theorem mem_activeOf {rows : List ExtractionTemplate} {domain : String} {t : ExtractionTemplate} :
    t ∈ activeOf rows domain ↔ t ∈ rows ∧ t.domain = domain ∧ t.isActive = true := by
  simp [activeOf]

structure Sound (toLowerCase : String → String) (rows : List ExtractionTemplate) : Prop where
  oneActive : ∀ t ∈ rows, ∀ u ∈ rows, t.isActive → u.isActive → t.domain = u.domain → t = u
  normalized : ∀ t ∈ rows, ∃ domain, t.domain = normalizedDomain toLowerCase domain

section Active

variable {before after rows : List ExtractionTemplate} {normalized version : String}

theorem sound_nil : Sound toLowerCase [] where
  oneActive _ ht := absurd ht List.not_mem_nil
  normalized _ ht := absurd ht List.not_mem_nil

/-- The templates of a domain that an update leaves active are of one version. -/
theorem Sound.of_update (h : Sound toLowerCase rows) {f : ExtractionTemplate → ExtractionTemplate}
    (hkey : ∀ t ∈ rows, ∀ u ∈ rows, t.domain = u.domain → t.version = u.version → t = u)
    (hdomain : ∀ t, (f t).domain = t.domain)
    (hversion : ∀ t ∈ rows, (f t).isActive = true → t.domain = normalized → t.version = version)
    (hother : ∀ t ∈ rows, t.domain ≠ normalized → f t = t) :
    Sound toLowerCase (rows.map f) where
  oneActive t' ht' u' hu' hta hua hsame := by
    obtain ⟨t, ht, rfl⟩ := List.mem_map.mp ht'
    obtain ⟨u, hu, rfl⟩ := List.mem_map.mp hu'
    rw [hdomain, hdomain] at hsame
    by_cases hn : t.domain = normalized
    · have htv := hversion t ht hta hn
      have huv := hversion u hu hua (hsame.symm.trans hn)
      rw [hkey t ht u hu hsame (htv.trans huv.symm)]
    · have hun : u.domain ≠ normalized := fun hu' => hn (hsame.trans hu')
      rw [hother t ht hn] at hta ⊢
      rw [hother u hu hun] at hua ⊢
      exact h.oneActive t ht u hu hta hua hsame
  normalized t' ht' := by
    obtain ⟨t, ht, rfl⟩ := List.mem_map.mp ht'
    rw [hdomain]
    exact h.normalized t ht

/-- An update that marks rows keeps the rule that one version is active. -/
theorem versions_of_update {f : ExtractionTemplate → ExtractionTemplate}
    (hdomain : ∀ t, (f t).domain = t.domain) (hkept : ∀ t, (f t).version = t.version)
    (hversion : ∀ t ∈ rows, (f t).isActive = true → t.domain = normalized → t.version = version) :
    ∀ t ∈ rows.map f, t.isActive = true → t.domain = normalized → t.version = version := by
  intro t' ht' hactive hn
  obtain ⟨t, ht, rfl⟩ := List.mem_map.mp ht'
  rw [hdomain] at hn
  rw [hkept]
  exact hversion t ht hactive hn

theorem Sound.of_put (h : Sound toLowerCase before) {row : ExtractionTemplate}
    (hrow : ∃ domain, row.domain = normalizedDomain toLowerCase domain)
    (hkey : ∀ t ∈ after, ∀ u ∈ after, t.domain = u.domain → t.version = u.version → t = u)
    (hafter : ∀ t ∈ after, t = row ∨ t ∈ before)
    (hactive : row.isActive = true →
      ∀ t ∈ before, t.isActive = true → t.domain = row.domain → t.version = row.version) :
    Sound toLowerCase after where
  oneActive t ht u hu hta hua hsame := by
    rcases hafter t ht with rfl | htb
    · rcases hafter u hu with rfl | hub
      · rfl
      · exact hkey t ht u hu hsame (hactive hta u hub hua hsame.symm).symm
    · rcases hafter u hu with rfl | hub
      · exact hkey t ht u hu hsame (hactive hua t htb hta hsame)
      · exact h.oneActive t htb u hub hta hua hsame
  normalized t ht := by
    rcases hafter t ht with rfl | htb
    · exact hrow
    · exact h.normalized t htb

/-- An update that leaves what it does not deactivate as it is. -/
theorem activeOf_map {f : ExtractionTemplate → ExtractionTemplate} {p : ExtractionTemplate → Bool}
    {domain : String} (hdomain : ∀ t ∈ rows, (f t).domain = t.domain)
    (hkept : ∀ t ∈ rows, t.domain = domain → p t = true → f t = t)
    (hcleared : ∀ t ∈ rows, t.domain = domain → p t = false → (f t).isActive = false) :
    activeOf (rows.map f) domain = (activeOf rows domain).filter p := by
  induction rows with
  | nil => rfl
  | cons t rows ih =>
    have hrest := ih (fun u hu => hdomain u (List.mem_cons_of_mem _ hu))
      (fun u hu => hkept u (List.mem_cons_of_mem _ hu))
      (fun u hu => hcleared u (List.mem_cons_of_mem _ hu))
    unfold activeOf at hrest ⊢
    rw [List.map_cons, List.filter_cons, List.filter_cons, hrest,
      hdomain t List.mem_cons_self]
    by_cases hd : t.domain = domain
    · cases hp : p t with
      | true =>
        rw [hkept t List.mem_cons_self hd hp]
        by_cases ha : t.isActive = true
        · simp [hd, ha, hp]
        · simp [ha]
      | false =>
        rw [hcleared t List.mem_cons_self hd hp]
        by_cases ha : t.isActive = true
        · simp [hd, ha, hp]
        · simp [ha]
    · simp [hd]

/-- Of at most one template, one that is dropped is missed. -/
theorem view_filter_iff {view : List ExtractionTemplate → Option ExtractionTemplate}
    (hview : ∀ list, view list = none ↔ list = []) {list : List ExtractionTemplate}
    (hone : ∀ t ∈ list, ∀ u ∈ list, t = u) (p : ExtractionTemplate → Bool) :
    view (list.filter p) = view list ↔ ∀ t ∈ list, p t = true := by
  constructor
  · intro h t ht
    by_contra hp
    have hempty : list.filter p = [] := by
      refine List.filter_eq_nil_iff.mpr fun u hu => ?_
      rw [hone u hu t ht]
      exact hp
    rw [(hview _).mpr hempty] at h
    rw [(hview list).mp h.symm] at ht
    exact absurd ht List.not_mem_nil
  · intro h
    rw [List.filter_eq_self.mpr h]

/-- The active templates of a domain are one at most. -/
theorem Sound.activeOf_unique (h : Sound toLowerCase rows) (domain : String) :
    ∀ t ∈ activeOf rows domain, ∀ u ∈ activeOf rows domain, t = u := by
  intro t ht u hu
  obtain ⟨ht, htd, hta⟩ := mem_activeOf.mp ht
  obtain ⟨hu, hud, hua⟩ := mem_activeOf.mp hu
  exact h.oneActive t ht u hu hta hua (htd.trans hud.symm)

/-- When only one domain was touched, and there only the templates passing a test kept, every domain
has its active template as before just when all that was active there passes. -/
theorem views_eq_iff {view : List ExtractionTemplate → Option ExtractionTemplate}
    (hview : ∀ list, view list = none ↔ list = []) (h : Sound toLowerCase before)
    {p : ExtractionTemplate → Bool} {domain : String}
    (hthere : activeOf after (normalizedDomain toLowerCase domain) =
      (activeOf before (normalizedDomain toLowerCase domain)).filter p)
    (helse : ∀ other, other ≠ normalizedDomain toLowerCase domain →
      activeOf after other = activeOf before other) :
    (∀ other, view (activeOf after (normalizedDomain toLowerCase other)) =
      view (activeOf before (normalizedDomain toLowerCase other))) ↔
      ∀ t ∈ activeOf before (normalizedDomain toLowerCase domain), p t = true := by
  rw [← view_filter_iff hview (h.activeOf_unique _) p, ← hthere]
  refine ⟨fun hall => hall domain, fun hsame other => ?_⟩
  by_cases hn : normalizedDomain toLowerCase other = normalizedDomain toLowerCase domain
  · rw [hn]
    exact hsame
  · rw [helse _ hn]

theorem activeOf_map_of_ne {f : ExtractionTemplate → ExtractionTemplate} {domain : String}
    (hdomain : ∀ t ∈ rows, (f t).domain = t.domain)
    (hkept : ∀ t ∈ rows, t.domain = domain → f t = t) :
    activeOf (rows.map f) domain = activeOf rows domain := by
  have hall := activeOf_map (p := fun _ => true) hdomain (fun t ht hd _ => hkept t ht hd)
    fun _ _ _ hfalse => absurd hfalse Bool.noConfusion
  rw [hall, List.filter_true]

def stores (rows : List ExtractionTemplate) (domain version : String) : Prop :=
  ∃ t ∈ rows, t.domain = domain ∧ t.version = version

end Active

inductive TemplateCall where
  | save (template : ExtractionTemplate)
  | setActiveVersion (now : Int) (domain version : String)

/-- A call that throws leaves every domain with the active template it had. -/
def Spares {ρ : Type} (find : ρ → String → Option ExtractionTemplate) (before : ρ)
    (result : Except String ExtractionTemplate × ρ) : Prop :=
  ∀ message, result.1 = .error message → ∀ domain, find result.2 domain = find before domain

namespace InMemoryNewsTemplateRepository

variable (toLowerCase)

def perform (repository : InMemoryNewsTemplateRepository) :
    TemplateCall → Except String ExtractionTemplate × InMemoryNewsTemplateRepository
  | .save template => save toLowerCase repository template
  | .setActiveVersion now domain version =>
    setActiveVersion toLowerCase repository now domain version

def run (calls : List TemplateCall) : InMemoryNewsTemplateRepository :=
  calls.foldl (fun repository call => (perform toLowerCase repository call).2) Table.empty

/-- The calls after which no active template is missed. -/
def Keeps (repository : InMemoryNewsTemplateRepository) : TemplateCall → Prop
  | .save _ => True
  | .setActiveVersion _ domain version =>
    let normalized := normalizedDomain toLowerCase domain
    stores repository.rows normalized version ∨ activeOf repository.rows normalized = []

variable {toLowerCase} {repository : InMemoryNewsTemplateRepository}

theorem unique_rows (repository : InMemoryNewsTemplateRepository) :
    ∀ t ∈ repository.rows, ∀ u ∈ repository.rows, t.domain = u.domain → t.version = u.version →
      t = u := by
  intro t ht u hu hdomain hversion
  refine Table.eq_of_key ht (Table.get?_of_mem_rows hu) ?_
  rw [memoryKey, memoryKey, hdomain, hversion]

section Steps

variable (hcase : LowerCases toLowerCase) (h : Sound toLowerCase repository.rows)
include hcase h

/-- Stored domains are in lower case, so that the two comparisons of the source agree on them. -/
theorem lower_stored : ∀ t ∈ repository.rows, toLowerCase t.domain = t.domain := by
  intro t ht
  obtain ⟨domain, hdomain⟩ := h.normalized t ht
  rw [hdomain, hcase.normalizedDomain]

theorem findActiveByDomain_eq (domain : String) :
    findActiveByDomain toLowerCase repository domain =
      (activeOf repository.rows (normalizedDomain toLowerCase domain)).head? := by
  have hfilter : activeOf repository.rows (normalizedDomain toLowerCase domain) =
      repository.rows.filter fun t =>
        toLowerCase t.domain = normalizedDomain toLowerCase domain && t.isActive :=
    List.filter_congr fun t ht => by rw [lower_stored hcase h t ht]
  rw [hfilter, List.head?_filter, findActiveByDomain]

/-- The first step of `save`: at most the version that is about to be stored stays active. -/
theorem sound_deactivateOthers (normalized version : String) :
    Sound toLowerCase (deactivateOthers toLowerCase repository normalized version).rows ∧
      ∀ t ∈ (deactivateOthers toLowerCase repository normalized version).rows,
        t.isActive = true → t.domain = normalized → t.version = version := by
  have hversion : ∀ t ∈ repository.rows,
      (marked (fun t => toLowerCase t.domain = normalized && t.version ≠ version) false none
        t).isActive = true → t.domain = normalized → t.version = version := by
    intro t ht hactive hdomain
    have hlower : toLowerCase t.domain = normalized := (lower_stored hcase h t ht).trans hdomain
    by_contra hne
    rw [isActive_marked (by simp [hlower, hne])] at hactive
    exact absurd hactive Bool.false_ne_true
  constructor
  · refine h.of_update (unique_rows repository) domain_marked hversion fun t ht hne => ?_
    exact marked_of_not (by simp [lower_stored hcase h t ht, hne])
  · exact versions_of_update domain_marked version_marked hversion

theorem sound_save (template : ExtractionTemplate) :
    Sound toLowerCase (save toLowerCase repository template).2.rows := by
  have hrow : ∃ domain, (normalizedDomain toLowerCase template.domain) =
      normalizedDomain toLowerCase domain := ⟨_, rfl⟩
  unfold save
  by_cases hactive : template.isActive = true
  · simp only [hactive, ↓reduceIte]
    obtain ⟨hsound, hversion⟩ := sound_deactivateOthers hcase h
      (normalizedDomain toLowerCase template.domain) template.version
    exact hsound.of_put hrow (unique_rows _) (fun t ht => Table.mem_rows_put ht)
      fun _ t ht ha hd => hversion t ht ha hd
  · simp only [hactive, Bool.false_eq_true, ↓reduceIte]
    exact h.of_put hrow (unique_rows _) (fun t ht => Table.mem_rows_put ht)
      fun ha => absurd ha Bool.false_ne_true

/-- Activation in place keeps one active template, the version asked for or none. -/
theorem sound_switch (normalized version : String) (now : Int) :
    Sound toLowerCase (switch toLowerCase repository normalized version now).rows := by
  have hversion : ∀ t ∈ repository.rows,
      (switched toLowerCase normalized version now t).isActive = true → t.domain = normalized →
        t.version = version := by
    intro t ht hactive hdomain
    by_contra hne
    rw [isActive_switched ((lower_stored hcase h t ht).trans hdomain) hne] at hactive
    exact absurd hactive Bool.false_ne_true
  refine h.of_update (unique_rows repository) (fun _ => domain_switched) hversion fun t ht hne => ?_
  refine switched_of_ne ?_
  rw [lower_stored hcase h t ht]
  exact hne

omit hcase h in
theorem setActiveVersion_state (now : Int) (domain version : String) :
    (setActiveVersion toLowerCase repository now domain version).2 =
      switch toLowerCase repository (normalizedDomain toLowerCase domain) version now := by
  unfold setActiveVersion
  dsimp only
  split <;> rfl

/-- It throws where it activated nothing. -/
theorem setActiveVersion_error_iff (now : Int) (domain version : String) :
    (∃ message, (setActiveVersion toLowerCase repository now domain version).1 = .error message) ↔
      ¬ stores repository.rows (normalizedDomain toLowerCase domain) version := by
  have hnone : ((switch toLowerCase repository (normalizedDomain toLowerCase domain) version
      now).rows.filter fun t =>
        toLowerCase t.domain = normalizedDomain toLowerCase domain && t.version = version) = [] ↔
      ¬ stores repository.rows (normalizedDomain toLowerCase domain) version := by
    rw [List.filter_eq_nil_iff]
    constructor
    · rintro hnone ⟨t, ht, hd, hv⟩
      refine hnone _ (List.mem_map_of_mem ht) ?_
      rw [domain_switched, version_switched, lower_stored hcase h t ht, hd, hv]
      simp
    · intro hnot t' ht'
      obtain ⟨t, ht, rfl⟩ := List.mem_map.mp ht'
      rw [domain_switched, version_switched, lower_stored hcase h t ht, Bool.and_eq_true,
        decide_eq_true_eq, decide_eq_true_eq]
      exact fun hthere => hnot ⟨t, ht, hthere⟩
  rw [← hnone, ← List.getLast?_eq_none_iff]
  unfold setActiveVersion
  dsimp only
  cases ((switch toLowerCase repository (normalizedDomain toLowerCase domain) version
      now).rows.filter fun t => toLowerCase t.domain = normalizedDomain toLowerCase domain &&
        t.version = version).getLast? with
  | none => simp
  | some t => simp

/-- No call makes a second template of a domain active, whether it answers or throws. -/
theorem sound_perform (call : TemplateCall) :
    Sound toLowerCase (perform toLowerCase repository call).2.rows := by
  cases call with
  | save template => exact sound_save hcase h template
  | setActiveVersion now domain version =>
    rw [perform, setActiveVersion_state]
    exact sound_switch hcase h _ version now

/-- The calls that lose an active template are those that throw after switching the others off. -/
theorem spares_iff (call : TemplateCall) :
    Spares (findActiveByDomain toLowerCase) repository (perform toLowerCase repository call) ↔
      Keeps toLowerCase repository call := by
  cases call with
  | save template => exact iff_of_true (fun _ herror => nomatch herror) trivial
  | setActiveVersion now domain version =>
    set normalized := normalizedDomain toLowerCase domain with hnormalized
    rw [Spares, perform, Keeps]
    by_cases hstored : stores repository.rows normalized version
    · refine iff_of_true (fun message herror => ?_) (Or.inl hstored)
      exact absurd hstored ((setActiveVersion_error_iff hcase h now domain version).mp ⟨_, herror⟩)
    · obtain ⟨message, herror⟩ :=
        (setActiveVersion_error_iff hcase h now domain version).mpr hstored
      have hswitch := sound_switch hcase h normalized version now
      have hthere : activeOf (switch toLowerCase repository normalized version now).rows
          normalized = (activeOf repository.rows normalized).filter fun _ => false := by
        refine activeOf_map (fun t _ => domain_switched) ?_ ?_
        · exact fun _ _ _ hfalse => absurd hfalse Bool.false_ne_true
        · intro t ht hd _
          exact isActive_switched ((lower_stored hcase h t ht).trans hd)
            fun hv => hstored ⟨t, ht, hd, hv⟩
      have helse : ∀ other, other ≠ normalized →
          activeOf (switch toLowerCase repository normalized version now).rows other =
            activeOf repository.rows other := by
        intro other hne
        refine activeOf_map_of_ne (fun t _ => domain_switched) fun t ht hd => ?_
        refine switched_of_ne ?_
        rw [lower_stored hcase h t ht, hd]
        exact hne
      have hviews := views_eq_iff (fun list => List.head?_eq_none_iff) h hthere helse
      rw [setActiveVersion_state]
      constructor
      · intro hspares
        refine Or.inr (List.eq_nil_iff_forall_not_mem.mpr fun t ht => ?_)
        refine absurd (hviews.mp (fun other => ?_) t ht) Bool.false_ne_true
        rw [← findActiveByDomain_eq hcase h, ← findActiveByDomain_eq hcase hswitch]
        exact hspares message herror other
      · rintro (hthere' | hempty) message' _ other
        · exact absurd hthere' hstored
        · rw [findActiveByDomain_eq hcase h, findActiveByDomain_eq hcase hswitch]
          refine hviews.mpr (fun t ht => ?_) other
          rw [hempty] at ht
          exact absurd ht List.not_mem_nil

end Steps

/-- At most one template of a domain is active after any calls. -/
theorem sound_run (hcase : LowerCases toLowerCase) (calls : List TemplateCall) :
    Sound toLowerCase (run toLowerCase calls).rows := by
  induction calls using List.reverseRecOn with
  | nil => exact sound_nil
  | append_singleton calls call ih =>
    rw [run, List.foldl_concat]
    exact sound_perform hcase ih call

end InMemoryNewsTemplateRepository

namespace PostgresNewsTemplateRepository

variable (toLowerCase)

def perform (refusals : Refusals) (repository : PostgresNewsTemplateRepository) :
    TemplateCall → Except String ExtractionTemplate × PostgresNewsTemplateRepository
  | .save template => save toLowerCase repository refusals template
  | .setActiveVersion now domain version =>
    setActiveVersion toLowerCase repository refusals now domain version

def run (calls : List (Refusals × TemplateCall)) : PostgresNewsTemplateRepository :=
  calls.foldl (fun repository call => (perform toLowerCase call.1 repository call.2).2) Table.empty

/-- A row can be written under its domain and version. -/
def Insertable (rows : List ExtractionTemplate) (row : ExtractionTemplate) : Prop :=
  stores rows row.domain row.version ∨ ∀ other ∈ rows, other.id ≠ row.id

/-- The calls after which no active template is missed. -/
def Keeps (refusals : Refusals) (repository : PostgresNewsTemplateRepository) :
    TemplateCall → Prop
  | .save template =>
    let normalized := normalizedDomain toLowerCase template.domain
    template.isActive = true → refusals 0 = none →
      (refusals 1 = none ∧ Insertable repository.rows { template with domain := normalized }) ∨
        ∀ row ∈ activeOf repository.rows normalized, row.version = template.version
  | .setActiveVersion _ domain version =>
    let normalized := normalizedDomain toLowerCase domain
    refusals 0 = none →
      (refusals 1 = none ∧ stores repository.rows normalized version) ∨
        activeOf repository.rows normalized = []

variable {toLowerCase} {repository : PostgresNewsTemplateRepository} {refusals : Refusals}

theorem unique_rows (repository : PostgresNewsTemplateRepository) :
    ∀ t ∈ repository.rows, ∀ u ∈ repository.rows, t.domain = u.domain → t.version = u.version →
      t = u := by
  intro t ht u hu hdomain hversion
  refine Table.eq_of_key ht (Table.get?_of_mem_rows hu) ?_
  rw [rowKey, rowKey, hdomain, hversion]

/-- What a look-up answers from the active templates of a domain. -/
def view (found : List ExtractionTemplate) : Option ExtractionTemplate :=
  (sortWith (fun left right => compare right.createdAt left.createdAt) found).head?.map mapRow

theorem view_eq_none {found : List ExtractionTemplate} : view found = none ↔ found = [] := by
  rw [view, Option.map_eq_none_iff, List.head?_eq_none_iff]
  constructor
  · intro h
    have hperm := sortWith_perm
      (fun left right : ExtractionTemplate => compare right.createdAt left.createdAt) found
    rw [h] at hperm
    exact hperm.nil_eq.symm
  · rintro rfl
    rfl

theorem get?_eq_none_iff {domain version : String} :
    repository.get? (domain, version) = none ↔ ¬ stores repository.rows domain version := by
  rw [Table.get?, List.find?_eq_none]
  constructor
  · rintro hnone ⟨t, ht, rfl, rfl⟩
    exact hnone t ht (decide_eq_true rfl)
  · intro hnot t ht hkey
    obtain ⟨hd, hv⟩ := Prod.mk.inj (of_decide_eq_true hkey)
    exact hnot ⟨t, ht, hd, hv⟩

/-- The second statement of `save` writes a row under the key asked for, or changes nothing. -/
theorem store_cases (repository : PostgresNewsTemplateRepository) (refusals : Refusals)
    (row : ExtractionTemplate) :
    (∃ written, store repository refusals row = (.ok (mapRow written), repository.put written) ∧
      rowKey written = rowKey row ∧ written.isActive = row.isActive ∧
      written.selectors = row.selectors ∧ refusals 1 = none ∧ Insertable repository.rows row) ∨
    (∃ message, store repository refusals row = (.error message, repository) ∧
      ¬ (refusals 1 = none ∧ Insertable repository.rows row)) := by
  unfold store
  cases hrefused : refusals 1 with
  | some message => exact Or.inr ⟨message, rfl, by simp⟩
  | none =>
    unfold insert
    cases hget : repository.get? (rowKey row) with
    | some existing =>
      have hkey : rowKey existing = rowKey row := Table.key_of_get? hget
      obtain ⟨hd, hv⟩ := Prod.mk.inj hkey
      exact Or.inl ⟨updated existing row, rfl, hkey, rfl, rfl, rfl,
        Or.inl ⟨existing, Table.mem_rows_of_get? hget, hd, hv⟩⟩
    | none =>
      have hnot := get?_eq_none_iff.mp hget
      by_cases hid : repository.rows.any (fun other => other.id == row.id) = true
      · rw [if_pos hid]
        refine Or.inr ⟨duplicateId, rfl, ?_⟩
        rintro ⟨-, hstored | hfresh⟩
        · exact hnot hstored
        · obtain ⟨other, hother, hsame⟩ := List.any_eq_true.mp hid
          exact hfresh other hother (beq_iff_eq.mp hsame)
      · rw [if_neg hid]
        refine Or.inl ⟨row, rfl, rfl, rfl, rfl, rfl, Or.inr fun other hother hsame => hid ?_⟩
        exact List.any_eq_true.mpr ⟨other, hother, beq_iff_eq.mpr hsame⟩

theorem stores_update {test : ExtractionTemplate → Bool} {isActive : Bool} {now : Option Int}
    {domain version : String} :
    stores (update repository test isActive now).rows domain version ↔
      stores repository.rows domain version := by
  constructor
  · rintro ⟨t', ht', hd, hv⟩
    obtain ⟨t, ht, rfl⟩ := List.mem_map.mp ht'
    rw [domain_marked] at hd
    rw [version_marked] at hv
    exact ⟨t, ht, hd, hv⟩
  · rintro ⟨t, ht, hd, hv⟩
    exact ⟨_, List.mem_map_of_mem ht, (domain_marked t).trans hd, (version_marked t).trans hv⟩

theorem insertable_update {test : ExtractionTemplate → Bool} {isActive : Bool} {now : Option Int}
    {row : ExtractionTemplate} :
    Insertable (update repository test isActive now).rows row ↔ Insertable repository.rows row := by
  unfold Insertable
  rw [stores_update]
  refine or_congr_right ?_
  constructor
  · intro h other hother
    have hid := h _ (List.mem_map_of_mem hother)
    rwa [id_marked] at hid
  · intro h other' hother'
    obtain ⟨other, hother, rfl⟩ := List.mem_map.mp hother'
    rw [id_marked]
    exact h other hother

section Steps

variable (h : Sound toLowerCase repository.rows)
include h

theorem sound_store {row : ExtractionTemplate}
    (hrow : ∃ domain, row.domain = normalizedDomain toLowerCase domain)
    (hactive : row.isActive = true → ∀ t ∈ repository.rows, t.isActive = true →
      t.domain = row.domain → t.version = row.version) :
    Sound toLowerCase (store repository refusals row).2.rows := by
  rcases store_cases repository refusals row with
    ⟨written, hstore, hkey, hsame, -⟩ | ⟨message, hstore, -⟩
  · obtain ⟨hd, hv⟩ := Prod.mk.inj hkey
    rw [hstore]
    refine h.of_put (hd ▸ hrow) (unique_rows _) (fun t ht => Table.mem_rows_put ht) ?_
    rw [hsame, hd, hv]
    exact hactive
  · rw [hstore]
    exact h

/-- The first statement of `save` leaves its own version active at most. -/
theorem sound_deactivateOthers (normalized version : String) :
    Sound toLowerCase (update repository
      (fun row => row.domain = normalized && row.version ≠ version) false none).rows ∧
      ∀ t ∈ (update repository
        (fun row => row.domain = normalized && row.version ≠ version) false none).rows,
        t.isActive = true → t.domain = normalized → t.version = version := by
  have hversion : ∀ t ∈ repository.rows,
      (marked (fun row => row.domain = normalized && row.version ≠ version) false none
        t).isActive = true → t.domain = normalized → t.version = version := by
    intro t ht hactive hdomain
    by_contra hne
    rw [isActive_marked (by simp [hdomain, hne])] at hactive
    exact absurd hactive Bool.false_ne_true
  constructor
  · refine h.of_update (unique_rows repository) domain_marked hversion fun t ht hne => ?_
    exact marked_of_not (by simp [hne])
  · exact versions_of_update domain_marked version_marked hversion

theorem sound_save (template : ExtractionTemplate) :
    Sound toLowerCase (save toLowerCase repository refusals template).2.rows := by
  unfold save
  by_cases hactive : template.isActive = true
  · rw [if_pos hactive]
    cases refusals 0 with
    | some message => exact h
    | none =>
      obtain ⟨hsound, hversion⟩ := sound_deactivateOthers h
        (normalizedDomain toLowerCase template.domain) template.version
      exact sound_store hsound ⟨_, rfl⟩ fun _ => hversion
  · rw [if_neg hactive]
    exact sound_store h ⟨_, rfl⟩ fun ha => absurd ha hactive

/-- The first statement of `setActiveVersion` leaves nothing active in the domain. -/
theorem sound_deactivateAll (normalized : String) (now : Int) :
    Sound toLowerCase
      (update repository (fun row => row.domain = normalized) false (some now)).rows ∧
      activeOf (update repository (fun row => row.domain = normalized) false (some now)).rows
        normalized = [] := by
  have hinactive : ∀ t ∈ repository.rows, t.domain = normalized →
      (marked (fun row => row.domain = normalized) false (some now) t).isActive = false :=
    fun t _ hd => isActive_marked (decide_eq_true hd)
  have hversion : ∀ t ∈ repository.rows,
      (marked (fun row => row.domain = normalized) false (some now) t).isActive = true →
        t.domain = normalized → t.version = "" := by
    intro t ht hactive hd
    rw [hinactive t ht hd] at hactive
    exact absurd hactive Bool.false_ne_true
  constructor
  · exact h.of_update (unique_rows repository) domain_marked hversion
      fun t _ hne => marked_of_not (decide_eq_false hne)
  · refine List.eq_nil_iff_forall_not_mem.mpr fun t' ht' => ?_
    obtain ⟨hmem, hd, hactive⟩ := mem_activeOf.mp ht'
    obtain ⟨t, ht, rfl⟩ := List.mem_map.mp hmem
    rw [domain_marked] at hd
    rw [hinactive t ht hd] at hactive
    exact absurd hactive Bool.false_ne_true

/-- The second statement of `setActiveVersion` activates one version where none is active. -/
theorem sound_activate {normalized : String} (hnone : activeOf repository.rows normalized = [])
    (version : String) (now : Int) :
    Sound toLowerCase (update repository
      (fun row => row.domain = normalized && row.version = version) true (some now)).rows := by
  have hversion : ∀ t ∈ repository.rows,
      (marked (fun row => row.domain = normalized && row.version = version) true (some now)
        t).isActive = true → t.domain = normalized → t.version = version := by
    intro t ht hactive hd
    by_contra hne
    rw [marked_of_not (by simp [hne])] at hactive
    have hmem : t ∈ activeOf repository.rows normalized := mem_activeOf.mpr ⟨ht, hd, hactive⟩
    rw [hnone] at hmem
    exact absurd hmem List.not_mem_nil
  exact h.of_update (unique_rows repository) domain_marked hversion
    fun t _ hne => marked_of_not (by simp [hne])

omit h in
/-- It activates the version, or throws and leaves everything as it was. -/
theorem activate_cases (toLowerCase : String → String) (repository : PostgresNewsTemplateRepository)
    (refusals : Refusals) (now : Int) (domain version : String) :
    ((refusals 1 = none ∧ stores repository.rows (normalizedDomain toLowerCase domain) version) ∧
      ∃ t, (activate toLowerCase repository refusals now domain version).1 = .ok t) ∨
    (¬ (refusals 1 = none ∧
        stores repository.rows (normalizedDomain toLowerCase domain) version) ∧
      (∃ message, (activate toLowerCase repository refusals now domain version).1 =
        .error message) ∧
      (activate toLowerCase repository refusals now domain version).2.rows = repository.rows) := by
  unfold activate
  cases refusals 1 with
  | some message => exact Or.inr ⟨by simp, ⟨message, rfl⟩, rfl⟩
  | none =>
    dsimp only
    cases hget : (update repository (fun row => row.domain = normalizedDomain toLowerCase domain &&
        row.version = version) true (some now)).get?
          (normalizedDomain toLowerCase domain, version) with
    | some row =>
      refine Or.inl ⟨⟨rfl, ?_⟩, mapRow row, rfl⟩
      by_contra hnot
      rw [get?_eq_none_iff.mpr (mt stores_update.mp hnot)] at hget
      cases hget
    | none =>
      have hnot := mt stores_update.mpr (get?_eq_none_iff.mp hget)
      refine Or.inr ⟨fun hboth => hnot hboth.2, ⟨_, rfl⟩, ?_⟩
      refine (List.map_congr_left fun t ht => ?_).trans repository.rows.map_id
      refine marked_of_not ?_
      by_contra hthere
      simp only [Bool.not_eq_false, Bool.and_eq_true, decide_eq_true_eq] at hthere
      exact hnot ⟨t, ht, hthere⟩

/-- Whatever the database refuses, no call makes a second template of a domain active. -/
theorem sound_perform (call : TemplateCall) :
    Sound toLowerCase (perform toLowerCase refusals repository call).2.rows := by
  cases call with
  | save template => exact sound_save h template
  | setActiveVersion now domain version =>
    obtain ⟨hsound, hnone⟩ := sound_deactivateAll h (normalizedDomain toLowerCase domain) now
    rw [perform]
    unfold setActiveVersion
    cases refusals 0 with
    | some message => exact h
    | none =>
      have hactivated := sound_activate hsound hnone version now
      dsimp only
      unfold activate
      cases refusals 1 with
      | some message => exact hsound
      | none =>
        dsimp only
        split
        · exact hactivated
        · exact hactivated

/-- `save` loses the active template when it switched another version off and then cannot insert. -/
theorem spares_save_iff (template : ExtractionTemplate) :
    Spares (findActiveByDomain toLowerCase) repository
        (save toLowerCase repository refusals template) ↔
      Keeps toLowerCase refusals repository (.save template) := by
  set normalized := normalizedDomain toLowerCase template.domain with hnormalized
  by_cases hactive : template.isActive = true
  · cases hrefused : refusals 0 with
    | some message =>
      refine iff_of_true (fun _ _ domain => ?_) fun _ hnone => ?_
      · simp only [save, hactive, ↓reduceIte, hrefused]
      · rw [hrefused] at hnone
        cases hnone
    | none =>
      have hthere : activeOf (update repository
          (fun row => row.domain = normalized && row.version ≠ template.version) false none).rows
          normalized =
          (activeOf repository.rows normalized).filter fun row =>
            row.version = template.version := by
        refine activeOf_map (fun t _ => domain_marked t) ?_ ?_
        · intro t _ _ hversion
          exact marked_of_not (by simp [of_decide_eq_true hversion])
        · intro t _ hd hversion
          exact isActive_marked (by simp [hd, of_decide_eq_false hversion])
      have helse : ∀ other, other ≠ normalized → activeOf (update repository
          (fun row => row.domain = normalized && row.version ≠ template.version) false none).rows
          other = activeOf repository.rows other := by
        intro other hne
        refine activeOf_map_of_ne (fun t _ => domain_marked t) fun t _ hd => ?_
        exact marked_of_not (by simp [hd, hne])
      have hviews := views_eq_iff (fun list => view_eq_none) h hthere helse
      have hsave : save toLowerCase repository refusals template =
          store (update repository
            (fun row => row.domain = normalized && row.version ≠ template.version) false none)
            refusals { template with domain := normalized } := by
        simp only [save, hactive, ↓reduceIte, hrefused, hnormalized]
      rw [hsave, Keeps]
      rcases store_cases (update repository
          (fun row => row.domain = normalized && row.version ≠ template.version) false none)
          refusals { template with domain := normalized } with
        ⟨written, hstore, -, -, -, hrefused', hinsert⟩ | ⟨message, hstore, hnot⟩
      · rw [hstore]
        refine iff_of_true (fun _ herror => nomatch herror) fun _ _ => Or.inl ⟨hrefused', ?_⟩
        exact insertable_update.mp hinsert
      · rw [hstore]
        rw [insertable_update] at hnot
        constructor
        · intro hspares _ _
          refine Or.inr fun t ht => of_decide_eq_true (hviews.mp (fun other => ?_) t ht)
          exact hspares message rfl other
        · intro hkeeps _ _ other
          refine hviews.mpr (fun t ht => decide_eq_true ?_) other
          exact (hkeeps hactive hrefused).resolve_left hnot t ht
  · refine iff_of_true (fun message herror domain => ?_) fun ha => absurd ha hactive
    have hsave : save toLowerCase repository refusals template =
        store repository refusals { template with domain := normalized } := by
      rw [save, if_neg hactive]
    rw [hsave] at herror ⊢
    rcases store_cases repository refusals { template with domain := normalized } with
      ⟨_, hstore, -⟩ | ⟨_, hstore, -⟩
    · rw [hstore] at herror
      cases herror
    · rw [hstore]

/-- `setActiveVersion` loses the active template when its second statement activates nothing. -/
theorem spares_setActiveVersion_iff (now : Int) (domain version : String) :
    Spares (findActiveByDomain toLowerCase) repository
        (setActiveVersion toLowerCase repository refusals now domain version) ↔
      Keeps toLowerCase refusals repository (.setActiveVersion now domain version) := by
  cases hrefused : refusals 0 with
  | some message =>
    refine iff_of_true (fun _ _ other => ?_) fun hnone => ?_
    · simp only [setActiveVersion, hrefused]
    · rw [hrefused] at hnone
      cases hnone
  | none =>
    set normalized := normalizedDomain toLowerCase domain with hnormalized
    have hset : setActiveVersion toLowerCase repository refusals now domain version =
        activate toLowerCase (update repository (fun row => row.domain = normalized) false
          (some now)) refusals now domain version := by
      simp only [setActiveVersion, hrefused, hnormalized]
    have hcases := activate_cases toLowerCase
      (update repository (fun row => row.domain = normalized) false (some now)) refusals now domain
      version
    rw [stores_update, ← hset] at hcases
    rw [Keeps, ← hnormalized]
    rcases hcases with ⟨hthere, t, hok⟩ | ⟨hnot, ⟨message, herror⟩, hrows⟩
    · refine iff_of_true (fun message herror => ?_) fun _ => Or.inl hthere
      rw [hok] at herror
      cases herror
    · have hthere : activeOf (setActiveVersion toLowerCase repository refusals now domain
          version).2.rows normalized = (activeOf repository.rows normalized).filter
            fun _ => false := by
        rw [hrows, (sound_deactivateAll h normalized now).2]
        simp
      have helse : ∀ other, other ≠ normalized → activeOf (setActiveVersion toLowerCase repository
          refusals now domain version).2.rows other = activeOf repository.rows other := by
        intro other hne
        rw [hrows]
        refine activeOf_map_of_ne (fun t _ => domain_marked t) fun t _ hd => ?_
        exact marked_of_not (decide_eq_false (hd.trans_ne hne))
      have hviews := views_eq_iff (fun list => view_eq_none) h hthere helse
      constructor
      · intro hspares _
        refine Or.inr (List.eq_nil_iff_forall_not_mem.mpr fun t ht => ?_)
        exact absurd (hviews.mp (hspares message herror) t ht) Bool.false_ne_true
      · intro hkeeps _ _ other
        refine hviews.mpr (fun t ht => ?_) other
        rw [(hkeeps hrefused).resolve_left hnot] at ht
        exact absurd ht List.not_mem_nil

end Steps

/-- At most one template of a domain is active, whatever was called and refused before. -/
theorem sound_run (calls : List (Refusals × TemplateCall)) :
    Sound toLowerCase (run toLowerCase calls).rows := by
  induction calls using List.reverseRecOn with
  | nil => exact sound_nil
  | append_singleton calls call ih =>
    rw [run, List.foldl_concat]
    exact sound_perform ih call.2

theorem spares_iff (h : Sound toLowerCase repository.rows) (call : TemplateCall) :
    Spares (findActiveByDomain toLowerCase) repository
        (perform toLowerCase refusals repository call) ↔
      Keeps toLowerCase refusals repository call := by
  cases call with
  | save template => exact spares_save_iff h template
  | setActiveVersion now domain version => exact spares_setActiveVersion_iff h now domain version

end PostgresNewsTemplateRepository

/-- Whatever was called before, a domain has at most one active template, and a call leaves every
domain its active template when it throws just when it is one of those that can. -/
theorem activation_exact (toLowerCase : String → String) (hcase : LowerCases toLowerCase) :
    (∀ calls, let repository := InMemoryNewsTemplateRepository.run toLowerCase calls
      Sound toLowerCase repository.rows ∧ ∀ call,
        Spares (InMemoryNewsTemplateRepository.findActiveByDomain toLowerCase) repository
            (repository.perform toLowerCase call) ↔
          repository.Keeps toLowerCase call) ∧
    (∀ calls, let repository := PostgresNewsTemplateRepository.run toLowerCase calls
      Sound toLowerCase repository.rows ∧ ∀ refusals call,
        Spares (PostgresNewsTemplateRepository.findActiveByDomain toLowerCase) repository
            (repository.perform toLowerCase refusals call) ↔
          repository.Keeps toLowerCase refusals call) := by
  constructor
  · intro calls
    have hsound := InMemoryNewsTemplateRepository.sound_run hcase calls
    exact ⟨hsound, fun call => InMemoryNewsTemplateRepository.spares_iff hcase hsound call⟩
  · intro calls
    have hsound : Sound toLowerCase (PostgresNewsTemplateRepository.run toLowerCase calls).rows :=
      PostgresNewsTemplateRepository.sound_run calls
    exact ⟨hsound, fun refusals call => PostgresNewsTemplateRepository.spares_iff hsound call⟩

theorem toLower_toLower (c : Char) : c.toLower.toLower = c.toLower := by
  by_cases h : c.val ≥ 'A'.val ∧ c.val ≤ 'Z'.val
  · have hval : c.toLower.val = c.val + ('a'.val - 'A'.val) :=
      congrArg Char.val (dif_pos h)
    have hnot : ¬ (c.toLower.val ≥ 'A'.val ∧ c.toLower.val ≤ 'Z'.val) := by
      have hfrom := UInt32.le_iff_toNat_le.mp h.1
      have hto := UInt32.le_iff_toNat_le.mp h.2
      rw [hval, ge_iff_le, UInt32.le_iff_toNat_le, UInt32.le_iff_toNat_le, UInt32.toNat_add]
      simp at hfrom hto ⊢
      omega
    exact dif_neg hnot
  · have hsame : c.toLower = c := dif_neg h
    rw [hsame, hsame]

/-- Lower case for the letters of ASCII. -/
def asciiLowerCase (text : String) : String := String.ofList (text.toList.map Char.toLower)

theorem lowerCases_asciiLowerCase : LowerCases asciiLowerCase := by
  intro text part hpart
  rw [asciiLowerCase, String.toList_ofList] at hpart
  have hkept : ∀ c ∈ part.toList, c.toLower = c := by
    intro c hc
    obtain ⟨c', -, rfl⟩ := List.mem_map.mp (hpart.subset hc)
    exact toLower_toLower c'
  rw [asciiLowerCase, List.map_congr_left hkept, List.map_id', String.ofList_toList]

def sampleTemplate : ExtractionTemplate where
  id := "tpl-123"
  domain := "decrypt.co"
  version := "v1.0"
  selectors := ⟨some "article", some "h2, h3", some "p", some "a", some "time", some "span"⟩
  sampleHtmlSnippet := none
  confidence := 9 / 10
  defectRate := 0
  isActive := true
  createdAt := 0
  updatedAt := 0

/-- A later version, stored beside the active one. -/
def laterTemplate : ExtractionTemplate :=
  { sampleTemplate with id := "tpl-124", version := "v1.1", isActive := false }

def memoryVersions : InMemoryNewsTemplateRepository :=
  InMemoryNewsTemplateRepository.run asciiLowerCase [.save sampleTemplate, .save laterTemplate]

def databaseVersions : PostgresNewsTemplateRepository :=
  PostgresNewsTemplateRepository.run asciiLowerCase
    [(fun _ => none, .save sampleTemplate), (fun _ => none, .save laterTemplate)]

/-- The domain, the version and the activity of the stored templates. -/
def stored (rows : List ExtractionTemplate) : List (String × String × Bool) :=
  rows.map fun t => (t.domain, t.version, t.isActive)

theorem stored_versions :
    stored memoryVersions.rows = [("decrypt.co", "v1.0", true), ("decrypt.co", "v1.1", false)] ∧
      stored databaseVersions.rows =
        [("decrypt.co", "v1.0", true), ("decrypt.co", "v1.1", false)] := by
  decide

theorem stores_of_stored {rows : List ExtractionTemplate} {versions : List (String × String × Bool)}
    {domain version : String} {active : Bool} (hrows : stored rows = versions)
    (h : (domain, version, active) ∈ versions) :
    ∃ t ∈ rows, t.domain = domain ∧ t.version = version ∧ t.isActive = active := by
  rw [← hrows] at h
  obtain ⟨t, ht, heq⟩ := List.mem_map.mp h
  simp only [Prod.mk.injEq] at heq
  exact ⟨t, ht, heq⟩

/-- A stored version can be activated, in any spelling of its domain; over Postgres not while the
second statement is refused. -/
theorem activation_exact_asciiLowerCase :
    Spares (InMemoryNewsTemplateRepository.findActiveByDomain asciiLowerCase) memoryVersions
        (memoryVersions.perform asciiLowerCase (.setActiveVersion 1 " Decrypt.co" "v1.1")) ∧
      Spares (PostgresNewsTemplateRepository.findActiveByDomain asciiLowerCase) databaseVersions
        (databaseVersions.perform asciiLowerCase (fun _ => none)
          (.setActiveVersion 1 " Decrypt.co" "v1.1")) ∧
      ¬ Spares (PostgresNewsTemplateRepository.findActiveByDomain asciiLowerCase) databaseVersions
        (databaseVersions.perform asciiLowerCase
          (fun statement => if statement = 1 then some "TIMEOUT" else none)
          (.setActiveVersion 1 " Decrypt.co" "v1.1")) := by
  obtain ⟨hmemory, hdatabase⟩ := activation_exact asciiLowerCase lowerCases_asciiLowerCase
  obtain ⟨-, hrows⟩ := hdatabase
    [(fun _ => none, .save sampleTemplate), (fun _ => none, .save laterTemplate)]
  have hdomain : normalizedDomain asciiLowerCase " Decrypt.co" = "decrypt.co" := by decide
  obtain ⟨t, ht, htd, htv, -⟩ := stores_of_stored stored_versions.1 (.tail _ (.head _))
  obtain ⟨u, hu, hud, huv, -⟩ := stores_of_stored stored_versions.2 (.tail _ (.head _))
  obtain ⟨v, hv, hvd, -, hactive⟩ := stores_of_stored stored_versions.2 (.head _)
  refine ⟨((hmemory [.save sampleTemplate, .save laterTemplate]).2 _).mpr
      (.inl ⟨t, ht, htd.trans hdomain.symm, htv⟩),
    (hrows (fun _ => none) _).mpr fun _ => .inl ⟨rfl, u, hu, hud.trans hdomain.symm, huv⟩,
    fun h => ?_⟩
  rcases (hrows _ _).mp h rfl with ⟨hrefused, -⟩ | hnone
  · exact absurd hrefused (by simp)
  · have hfound := mem_activeOf.mpr ⟨hv, hvd.trans hdomain.symm, hactive⟩
    rw [databaseVersions, hnone] at hfound
    cases hfound

/-- A version that was never stored is asked for, and the domain has no active template any more. -/
theorem activation_lost :
    (¬ Spares (InMemoryNewsTemplateRepository.findActiveByDomain asciiLowerCase)
      (InMemoryNewsTemplateRepository.run asciiLowerCase [.save sampleTemplate])
      ((InMemoryNewsTemplateRepository.run asciiLowerCase [.save sampleTemplate]).perform
        asciiLowerCase (.setActiveVersion 1 "decrypt.co" "v9.9"))) ∧
    ¬ Spares (PostgresNewsTemplateRepository.findActiveByDomain asciiLowerCase)
      (PostgresNewsTemplateRepository.run asciiLowerCase [(fun _ => none, .save sampleTemplate)])
      ((PostgresNewsTemplateRepository.run asciiLowerCase
        [(fun _ => none, .save sampleTemplate)]).perform asciiLowerCase (fun _ => none)
          (.setActiveVersion 1 "decrypt.co" "v9.9")) := by
  constructor
  · intro h
    have hsame := h "TEMPLATE_NOT_FOUND:decrypt.co:v9.9" (by rfl) "decrypt.co"
    revert hsame
    decide
  · intro h
    have hsame := h "TEMPLATE_NOT_FOUND:decrypt.co:v9.9" (by rfl) "decrypt.co"
    revert hsame
    decide

end Cryptox.News
