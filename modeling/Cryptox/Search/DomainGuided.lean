import Mathlib.Data.List.Perm.Subperm
import Mathlib.Data.List.Sort
import Cryptox.Backtesting.Simulator.Market
import Cryptox.Search.Space
import Cryptox.Strategy.Indicators

/-!
# Guided by the rules of the domain

The generator takes a definition of each required category first and fills the rest up in the order
of the ids. What `start` accepts leaves it nothing to refuse.
-/
namespace Cryptox.Search

open Cryptox.Backtesting (JsNumber)
open Cryptox.Library

/-- A category that is not known counts as none. -/
def strategyCategory (definition : SearchStrategyDefinition) : Option String :=
  definition.category.filter categories.contains

def ordered (localeCompare : String → String → Ordering) (space : SearchSpaceConfig) :
    List SearchStrategyDefinition :=
  space.availableStrategies.insertionSort fun left right => localeCompare left.id right.id ≠ .gt

/-- `Math.max(1, Math.min(space.maxComponents ?? count, count))`. -/
def maxComponents (space : SearchSpaceConfig) (count : Nat) : JsNumber :=
  JsNumber.max (.ofInt 1)
    (JsNumber.min (space.maxComponents.getD (.ofInt count)) (.ofInt count))

/-- A definition is selected once. -/
def withDefinition (selected : List SearchStrategyDefinition)
    (definition : SearchStrategyDefinition) : List SearchStrategyDefinition :=
  if selected.any (·.id == definition.id) then selected else selected ++ [definition]

/-- The first available definition of each required category. -/
def selectRequired (available : List SearchStrategyDefinition) :
    List String → List SearchStrategyDefinition → Except String (List SearchStrategyDefinition)
  | [], selected => .ok selected
  | category :: required, selected =>
    match available.find? fun item => strategyCategory item == some category with
    | none => .error "DOMAIN_RULE_UNSATISFIABLE"
    | some definition => selectRequired available required (withDefinition selected definition)

def fillUp (limit : JsNumber) : List SearchStrategyDefinition → List SearchStrategyDefinition →
    List SearchStrategyDefinition
  | [], selected => selected
  | definition :: available, selected =>
    if (JsNumber.ofInt selected.length).lt limit then
      fillUp limit available (withDefinition selected definition)
    else fillUp limit available selected

/-- The selection of the domain-guided generator, before parameters vary. -/
def domainGuidedSelection (localeCompare : String → String → Ordering)
    (space : SearchSpaceConfig) : Except String (List SearchStrategyDefinition) := do
  let rules := space.domainRules.getD .none
  let required := (rules.requiredCategories.getD []).eraseDups
  let forbidden := rules.forbiddenCategories.getD []
  throwIf (required.any fun category =>
    (rules.allowedCategories.any fun listed => !listed.contains category)
      || forbidden.contains category) "DOMAIN_RULE_UNSATISFIABLE"
  let available := (ordered localeCompare space).filter fun definition =>
    permitted rules.allowedCategories (some forbidden) (strategyCategory definition)
  let selected ← selectRequired available required []
  let limit := maxComponents space available.length
  throwIf (limit.lt (.ofInt selected.length)) "DOMAIN_RULE_UNSATISFIABLE"
  let filled := fillUp limit available selected
  throwIf filled.isEmpty "EMPTY_SEARCH_SPACE"
  return filled

section Selection

variable {available selected : List SearchStrategyDefinition}

/-- A selection from the available definitions, none of them twice. -/
structure Chosen (available selected : List SearchStrategyDefinition) : Prop where
  available : ∀ definition ∈ selected, definition ∈ available
  distinct : (selected.map (·.id)).Nodup

theorem Chosen.length_le (h : Chosen available selected) : selected.length ≤ available.length := by
  have hnodup : selected.Nodup := List.Nodup.of_map _ h.distinct
  exact (hnodup.subperm fun definition hd => h.available definition hd).length_le

/-- What was selected stays, and what is added is there unless its id was. -/
theorem withDefinition_subset (definition : SearchStrategyDefinition) :
    ∀ item ∈ selected, item ∈ withDefinition selected definition := by
  intro item hitem
  unfold withDefinition
  split_ifs
  · exact hitem
  · exact List.mem_append_left _ hitem

theorem withDefinition_length (definition : SearchStrategyDefinition) :
    (withDefinition selected definition).length ≤ selected.length + 1 := by
  unfold withDefinition
  split_ifs
  · omega
  · simp

theorem Chosen.withDefinition (h : Chosen available selected)
    {definition : SearchStrategyDefinition} (hd : definition ∈ available) :
    Chosen available (withDefinition selected definition) := by
  unfold Search.withDefinition
  split_ifs with hany
  · exact h
  · refine ⟨?_, ?_⟩
    · intro item hitem
      rcases List.mem_append.mp hitem with hitem | hitem
      · exact h.available item hitem
      · rw [List.mem_singleton.mp hitem]
        exact hd
    · rw [List.map_append, List.nodup_append]
      refine ⟨h.distinct, List.nodup_singleton _, ?_⟩
      intro id hid other hother heq
      subst heq
      obtain ⟨item, hitem, rfl⟩ := List.mem_map.mp hid
      refine hany (List.any_eq_true.mpr ⟨item, hitem, beq_iff_eq.mpr ?_⟩)
      simpa using hother

/-- Where ids are distinct, the definition itself is then selected. -/
theorem mem_withDefinition (hids : (available.map (·.id)).Nodup) (h : Chosen available selected)
    {definition : SearchStrategyDefinition} (hd : definition ∈ available) :
    definition ∈ withDefinition selected definition := by
  unfold withDefinition
  split_ifs with hany
  · obtain ⟨item, hitem, hid⟩ := List.any_eq_true.mp hany
    have hsame : item = definition :=
      List.inj_on_of_nodup_map hids (h.available item hitem) hd (beq_iff_eq.mp hid)
    exact hsame ▸ hitem
  · simp

/-- Each category that has a definition gets one. -/
theorem selectRequired_ok (hids : (available.map (·.id)).Nodup) {required : List String}
    (hrequired : ∀ category ∈ required, ∃ definition ∈ available,
      strategyCategory definition = some category) (h : Chosen available selected) :
    ∃ chosen, selectRequired available required selected = .ok chosen ∧ Chosen available chosen ∧
      (∀ item ∈ selected, item ∈ chosen) ∧
      chosen.length ≤ selected.length + required.length ∧
      ∀ category ∈ required, ∃ definition ∈ chosen, strategyCategory definition = some category := by
  induction required generalizing selected with
  | nil => exact ⟨selected, rfl, h, fun _ hitem => hitem, by simp, by simp⟩
  | cons category required ih =>
    obtain ⟨witness, hwitness, hcategory⟩ := hrequired category List.mem_cons_self
    have hsome : (available.find? fun item => strategyCategory item == some category).isSome = true :=
      List.find?_isSome.mpr ⟨witness, hwitness, beq_iff_eq.mpr hcategory⟩
    obtain ⟨definition, hfound⟩ := Option.isSome_iff_exists.mp hsome
    have hd : definition ∈ available := List.mem_of_find?_eq_some hfound
    have hnamed : strategyCategory definition = some category := by
      simpa using List.find?_some hfound
    obtain ⟨chosen, hchosen, hgood, hsubset, hlength, hall⟩ :=
      ih (fun other hother => hrequired other (List.mem_cons_of_mem _ hother))
        (h.withDefinition hd)
    refine ⟨chosen, ?_, hgood, ?_, ?_, ?_⟩
    · rw [selectRequired, hfound]
      exact hchosen
    · exact fun item hitem => hsubset item (withDefinition_subset definition item hitem)
    · have hone := @withDefinition_length selected definition
      rw [List.length_cons]
      omega
    · intro other hother
      rcases List.mem_cons.mp hother with rfl | hother
      · exact ⟨definition, hsubset definition (mem_withDefinition hids h hd), hnamed⟩
      · exact hall other hother

/-- Filling up keeps what was selected and stops at the limit. -/
theorem fillUp_chosen {limit : JsNumber} {n : Nat}
    (hlimit : ∀ k : Nat, (JsNumber.ofInt k).lt limit = true ↔ k < n)
    {rest : List SearchStrategyDefinition} (hrest : ∀ definition ∈ rest, definition ∈ available)
    (h : Chosen available selected) (hlength : selected.length ≤ n) :
    Chosen available (fillUp limit rest selected) ∧ (fillUp limit rest selected).length ≤ n ∧
      ∀ item ∈ selected, item ∈ fillUp limit rest selected := by
  induction rest generalizing selected with
  | nil => exact ⟨h, hlength, fun _ hitem => hitem⟩
  | cons definition rest ih =>
    have hrest' : ∀ item ∈ rest, item ∈ available := fun item hitem =>
      hrest item (List.mem_cons_of_mem _ hitem)
    rw [fillUp]
    split_ifs with hroom
    · have hlt := (hlimit _).mp hroom
      have hone := @withDefinition_length selected definition
      obtain ⟨hgood, hbound, hsubset⟩ := ih hrest'
        (h.withDefinition (hrest definition List.mem_cons_self)) (by omega)
      exact ⟨hgood, hbound, fun item hitem =>
        hsubset item (withDefinition_subset definition item hitem)⟩
    · exact ih hrest' h hlength

theorem fillUp_nonempty {limit : JsNumber}
    (hlimit : (JsNumber.ofInt (0 : Nat)).lt limit = true) (hsome : available ≠ []) :
    fillUp limit available selected ≠ [] := by
  have hkept : ∀ (rest chosen : List SearchStrategyDefinition), chosen ≠ [] →
      fillUp limit rest chosen ≠ [] := by
    intro rest
    induction rest with
    | nil => exact fun _ hchosen => hchosen
    | cons definition rest ih =>
      intro chosen hchosen
      rw [fillUp]
      split_ifs
      · refine ih _ fun hnil => hchosen (List.eq_nil_iff_forall_not_mem.mpr fun item hitem => ?_)
        have hmem := withDefinition_subset definition item hitem
        rw [hnil] at hmem
        exact List.not_mem_nil hmem
      · exact ih _ hchosen
  cases selected with
  | cons item selected => exact hkept available _ (List.cons_ne_nil _ _)
  | nil =>
    cases available with
    | nil => exact absurd rfl hsome
    | cons definition rest =>
      have hroom : (JsNumber.ofInt ([] : List SearchStrategyDefinition).length).lt limit = true :=
        hlimit
      rw [fillUp, if_pos hroom]
      exact hkept rest _ (by simp [withDefinition])

end Selection

section Limit

/-- The limit is a natural number: at least one, within the bound that is given, and no lower than
what is there and what the bound allows. -/
theorem maxComponents_nat {space : SearchSpaceConfig}
    (hinteger : ∀ bound ∈ space.maxComponents, bound.isInteger = true) (count : Nat) :
    ∃ n : Nat, 0 < n ∧ (maxComponents space count).isFinite = true ∧
      (maxComponents space count).toRat = n ∧
      (∀ bound ∈ space.maxComponents, (n : ℚ) ≤ max 1 bound.toRat) ∧
      ∀ k : Nat, k ≤ count → (∀ bound ∈ space.maxComponents, (k : ℚ) ≤ bound.toRat) → k ≤ n := by
  have hbound : (space.maxComponents.getD (.ofInt count)).isInteger = true := by
    cases hmax : space.maxComponents with
    | none => rfl
    | some bound => exact hinteger bound hmax
  obtain ⟨shown, hshown, hrat⟩ := Strategy.toRat_of_isInteger hbound
  have hfinite : (space.maxComponents.getD (.ofInt count)).isFinite = true := by rw [hshown]; rfl
  have hcount : (JsNumber.ofInt count).isFinite = true := rfl
  have hunit : (JsNumber.ofInt 1).isFinite = true := rfl
  obtain ⟨hmin, hminRat⟩ := JsNumber.min_toRat hfinite hcount
  obtain ⟨hmaxFinite, hmaxRat⟩ := JsNumber.max_toRat hunit hmin
  generalize shown.normalize.units = z at hrat
  have hone : (JsNumber.ofInt 1).toRat = 1 := by simpa using Strategy.toRat_ofInt 1
  have hvalue : (maxComponents space count).toRat = ((max 1 (min z count) : ℤ) : ℚ) := by
    rw [maxComponents, hmaxRat, hminRat, hone, hrat, Strategy.toRat_ofInt]
    push_cast
    rfl
  have hcast : (((max 1 (min z count)).toNat : ℕ) : ℤ) = max 1 (min z count) :=
    Int.toNat_of_nonneg (by omega)
  refine ⟨(max 1 (min z count)).toNat, by omega, hmaxFinite, ?_, ?_, ?_⟩
  · rw [hvalue, ← hcast]
    rfl
  · intro bound hb
    have hz : bound.toRat = z := by rwa [Option.mem_def.mp hb] at hrat
    rw [hz]
    have hle : max 1 (min z count) ≤ max 1 z := by omega
    have hle' : (((max 1 (min z count)).toNat : ℤ) : ℚ) ≤ ((max 1 z : ℤ) : ℚ) := by
      exact_mod_cast hcast ▸ hle
    push_cast at hle'
    exact_mod_cast hle'
  · intro k hk hall
    have hz : (k : ℤ) ≤ z ∨ (k : ℤ) ≤ count ∧ z = count := by
      cases hmax : space.maxComponents with
      | none =>
        refine Or.inr ⟨by exact_mod_cast hk, ?_⟩
        rw [hmax, Option.getD_none, Strategy.toRat_ofInt] at hrat
        exact_mod_cast hrat.symm
      | some bound =>
        rw [hmax, Option.getD_some] at hrat
        have hle := hall bound hmax
        rw [hrat] at hle
        exact Or.inl (by exact_mod_cast hle)
    omega

end Limit

section Rules

variable {space : SearchSpaceConfig} {rules : DomainRules}

theorem readCategories_ok {value answer : Option (List String)}
    (h : readCategories value = .ok answer) :
    answer = value ∧ ∀ listed ∈ value, ∀ category ∈ listed, category ∈ categories := by
  rw [readCategories, bind_eq_ok] at h
  obtain ⟨_, hknown, h⟩ := h
  rw [bind_eq_ok] at h
  obtain ⟨-, -, h⟩ := h
  refine ⟨(pure_eq_ok.mp h).symm, ?_⟩
  intro listed hlisted category hcategory
  have hany := throwIf_eq_ok.mp hknown
  rw [Option.mem_def.mp hlisted, Option.any_some] at hany
  have hcontains := List.any_eq_false.mp hany category hcategory
  simpa using hcontains

/-- What the checks of the rules leave of them. -/
structure Satisfiable (space : SearchSpaceConfig) (rules : DomainRules) : Prop where
  requiredKnown : ∀ names ∈ rules.requiredCategories, ∀ category ∈ names, category ∈ categories
  allowedKnown : ∀ listed ∈ rules.allowedCategories, ∀ category ∈ listed, category ∈ categories
  forbiddenKnown : ∀ listed ∈ rules.forbiddenCategories, ∀ category ∈ listed, category ∈ categories
  notForbidden : ∀ names ∈ rules.requiredCategories, ∀ listed ∈ rules.forbiddenCategories,
    ∀ category ∈ names, category ∉ listed
  allowed : ∀ names ∈ rules.requiredCategories, ∀ listed ∈ rules.allowedCategories,
    ∀ category ∈ names, category ∈ listed
  eligible : ∃ definition ∈ space.availableStrategies,
    permitted rules.allowedCategories rules.forbiddenCategories definition.category = true
  covered : ∀ names ∈ rules.requiredCategories, ∀ category ∈ names,
    ∃ definition ∈ space.availableStrategies,
      permitted rules.allowedCategories rules.forbiddenCategories definition.category = true ∧
        definition.category = some category
  withinBound : ∀ names ∈ rules.requiredCategories, ∀ bound ∈ space.maxComponents,
    bound.lt (.ofInt names.length) = false

theorem validateDomainRules_ok {u : Unit} (h : validateDomainRules .domainGuided space = .ok u)
    (hrules : rules ∈ space.domainRules) : Satisfiable space rules := by
  rw [validateDomainRules, bind_eq_ok] at h
  obtain ⟨-, -, h⟩ := h
  simp only [Option.mem_def.mp hrules, bind_eq_ok] at h
  obtain ⟨_, hrequired, _, hallowed, _, hforbidden, _, hclash, _, houtside, -, -, _, heligible, h⟩ := h
  obtain ⟨rfl, hknownRequired⟩ := readCategories_ok hrequired
  obtain ⟨rfl, hknownAllowed⟩ := readCategories_ok hallowed
  obtain ⟨rfl, hknownForbidden⟩ := readCategories_ok hforbidden
  have hclash := throwIf_eq_ok.mp hclash
  have houtside := throwIf_eq_ok.mp houtside
  have hbound := throwIf_eq_ok.mp h
  obtain ⟨hsome, hcovered⟩ := Bool.or_eq_false_iff.mp (throwIf_eq_ok.mp heligible)
  refine ⟨hknownRequired, hknownAllowed, hknownForbidden, ?_, ?_, ?_, ?_, ?_⟩
  · intro names hnames listed hlisted category hcategory hmem
    simp only [Option.mem_def.mp hnames, Option.mem_def.mp hlisted, Option.any_some] at hclash
    exact List.any_eq_false.mp hclash category hcategory (List.contains_iff_mem.mpr hmem)
  · intro names hnames listed hlisted category hcategory
    simp only [Option.mem_def.mp hnames, Option.mem_def.mp hlisted, Option.any_some] at houtside
    simpa using List.any_eq_false.mp houtside category hcategory
  · obtain ⟨definition, hd⟩ := List.isEmpty_eq_false_iff_exists_mem.mp hsome
    exact ⟨definition, (List.mem_filter.mp hd).1, (List.mem_filter.mp hd).2⟩
  · intro names hnames category hcategory
    simp only [Option.mem_def.mp hnames, Option.any_some] at hcovered
    have hany := List.any_eq_false.mp hcovered category hcategory
    simp only [Bool.not_eq_true, Bool.not_eq_false'] at hany
    obtain ⟨definition, hd, hnamed⟩ := List.any_eq_true.mp hany
    exact ⟨definition, (List.mem_filter.mp hd).1, (List.mem_filter.mp hd).2, beq_iff_eq.mp hnamed⟩
  · intro names hnames bound hb
    simpa only [Option.mem_def.mp hnames, Option.mem_def.mp hb, Option.any_some] using hbound

theorem strategyCategory_of_known {definition : SearchStrategyDefinition} {category : String}
    (h : definition.category = some category) (hknown : category ∈ categories) :
    strategyCategory definition = some category := by
  rw [strategyCategory, h]
  exact Option.filter_eq_some_iff.mpr ⟨rfl, List.contains_iff_mem.mpr hknown⟩

theorem category_of_strategyCategory {definition : SearchStrategyDefinition} {category : String}
    (h : strategyCategory definition = some category) : definition.category = some category :=
  (Option.filter_eq_some_iff.mp h).1

/-- A definition that is eligible as the search starts is available to the generator. -/
theorem Satisfiable.available (h : Satisfiable space rules) {definition : SearchStrategyDefinition}
    (hd : permitted rules.allowedCategories rules.forbiddenCategories definition.category = true) :
    permitted rules.allowedCategories (some (rules.forbiddenCategories.getD []))
      (strategyCategory definition) = true := by
  have hforbidden : ∀ category : Option String,
      permitted rules.allowedCategories (some (rules.forbiddenCategories.getD [])) category =
        permitted rules.allowedCategories rules.forbiddenCategories category := by
    intro category
    cases rules.forbiddenCategories <;> simp [permitted]
  rw [hforbidden]
  cases hcategory : definition.category with
  | none =>
    rw [hcategory] at hd
    rwa [strategyCategory, hcategory, Option.filter_none]
  | some category =>
    by_cases hknown : category ∈ categories
    · rwa [strategyCategory_of_known hcategory hknown, ← hcategory]
    · -- a category that is not known is allowed only where every category is
      have hunknown : strategyCategory definition = none := by
        rw [strategyCategory, hcategory, Option.filter_eq_none_iff]
        intro named hnamed
        cases hnamed
        simpa using hknown
      rw [hunknown]
      cases hallowed : rules.allowedCategories with
      | none => simp [permitted]
      | some listed =>
        rw [hcategory, permitted, hallowed, Bool.and_eq_true] at hd
        have hlisted : category ∈ listed := by simpa using hd.1
        exact absurd (h.allowedKnown listed hallowed category hlisted) hknown

theorem ordered_perm (localeCompare : String → String → Ordering) (space : SearchSpaceConfig) :
    (ordered localeCompare space).Perm space.availableStrategies :=
  List.perm_insertionSort _ _

/-- The definitions the generator draws from. -/
def availableFor (localeCompare : String → String → Ordering) (space : SearchSpaceConfig)
    (rules : DomainRules) : List SearchStrategyDefinition :=
  (ordered localeCompare space).filter fun definition =>
    permitted rules.allowedCategories (some (rules.forbiddenCategories.getD []))
      (strategyCategory definition)

theorem length_eraseDups_le (names : List String) : names.eraseDups.length ≤ names.length := by
  induction hn : names.length using Nat.strong_induction_on generalizing names with
  | _ n ih =>
    cases names with
    | nil => simp
    | cons name rest =>
      have hfilter := List.length_filter_le (fun other => !other == name) rest
      rw [List.length_cons] at hn
      have hrest := ih (rest.filter fun other => !other == name).length (by omega) _ rfl
      rw [List.eraseDups_cons, List.length_cons]
      omega

theorem required_of_listed {rules : DomainRules} {category : String}
    (h : category ∈ (rules.requiredCategories.getD []).eraseDups) :
    ∃ names, rules.requiredCategories = some names ∧ category ∈ names := by
  rw [List.mem_eraseDups] at h
  cases hrequired : rules.requiredCategories with
  | none => simp [hrequired] at h
  | some names => exact ⟨names, rfl, by rwa [hrequired, Option.getD_some] at h⟩

/-- Satisfiable rules leave the generator nothing to refuse. -/
theorem domainGuidedSelection_ok (localeCompare : String → String → Ordering)
    (hids : (space.availableStrategies.map (·.id)).Nodup)
    (hinteger : ∀ bound ∈ space.maxComponents, bound.isInteger = true)
    (hrules : space.domainRules.getD .none = rules) (h : Satisfiable space rules) :
    ∃ selected, domainGuidedSelection localeCompare space = .ok selected ∧ selected ≠ [] ∧
      Chosen (availableFor localeCompare space rules) selected ∧
      (∀ bound ∈ space.maxComponents, (selected.length : ℚ) ≤ max 1 bound.toRat) ∧
      ∀ names ∈ rules.requiredCategories, ∀ category ∈ names,
        ∃ definition ∈ selected, strategyCategory definition = some category := by
  have hperm := ordered_perm localeCompare space
  have havailableIds : ((availableFor localeCompare space rules).map (·.id)).Nodup :=
    (((hperm.map (·.id)).nodup_iff.mpr hids)).sublist (List.filter_sublist.map _)
  have hmem : ∀ definition ∈ space.availableStrategies,
      permitted rules.allowedCategories rules.forbiddenCategories definition.category = true →
        definition ∈ availableFor localeCompare space rules := fun definition hd hpermitted =>
    List.mem_filter.mpr ⟨hperm.mem_iff.mpr hd, h.available hpermitted⟩
  have hcovered : ∀ category ∈ (rules.requiredCategories.getD []).eraseDups,
      ∃ definition ∈ availableFor localeCompare space rules,
        strategyCategory definition = some category := by
    intro category hcategory
    obtain ⟨names, hrequired, hcategory⟩ := required_of_listed hcategory
    obtain ⟨definition, hd, hpermitted, hnamed⟩ := h.covered names hrequired category hcategory
    exact ⟨definition, hmem definition hd hpermitted,
      strategyCategory_of_known hnamed (h.requiredKnown names hrequired category hcategory)⟩
  obtain ⟨selected, hselected, hchosen, -, hlength, hnamed⟩ := selectRequired_ok havailableIds
    hcovered ⟨fun _ hitem => absurd hitem List.not_mem_nil, List.nodup_nil⟩
  obtain ⟨n, hpos, hfinite, hrat, hbound, hgreatest⟩ :=
    maxComponents_nat hinteger (availableFor localeCompare space rules).length
  have hlt : ∀ k : Nat, (JsNumber.ofInt k).lt
      (maxComponents space (availableFor localeCompare space rules).length) = true ↔ k < n := by
    intro k
    rw [JsNumber.lt_iff rfl hfinite, hrat, Strategy.toRat_ofInt]
    exact_mod_cast Iff.rfl
  have hwithin : selected.length ≤ n := by
    cases hrequired : rules.requiredCategories with
    | none =>
      rw [hrequired, Option.getD_none, List.eraseDups_nil] at hlength
      simp only [List.length_nil] at hlength
      omega
    | some names =>
      have hnames := length_eraseDups_le names
      rw [hrequired, Option.getD_some, List.length_nil] at hlength
      refine hgreatest _ hchosen.length_le fun bound hb => ?_
      obtain ⟨shown, hshown, -⟩ := Strategy.toRat_of_isInteger (hinteger bound hb)
      have hle : ((names.length : Nat) : ℚ) ≤ bound.toRat := by
        have hnot := h.withinBound names hrequired bound hb
        rw [← Strategy.toRat_ofInt, ← not_lt, ← JsNumber.lt_iff (by rw [hshown]; rfl) rfl, hnot]
        exact Bool.false_ne_true
      have hcast : ((selected.length : Nat) : ℚ) ≤ names.length := by exact_mod_cast by omega
      exact hcast.trans hle
  have hnotOver : (maxComponents space (availableFor localeCompare space rules).length).lt
      (.ofInt selected.length) = false := by
    rw [← Bool.not_eq_true, JsNumber.lt_iff hfinite rfl, hrat, Strategy.toRat_ofInt]
    exact_mod_cast not_lt.mpr hwithin
  have hsome : availableFor localeCompare space rules ≠ [] := by
    obtain ⟨definition, hd, hpermitted⟩ := h.eligible
    exact List.ne_nil_of_mem (hmem definition hd hpermitted)
  obtain ⟨hfilled, hcount, hkept⟩ := fillUp_chosen hlt (fun _ hd => hd) hchosen hwithin
  have hnonempty := @fillUp_nonempty _ selected _ ((hlt 0).mpr hpos) hsome
  have hallowed : ((rules.requiredCategories.getD []).eraseDups.any fun category =>
      (rules.allowedCategories.any fun listed => !listed.contains category)
        || (rules.forbiddenCategories.getD []).contains category) = false := by
    rw [List.any_eq_false]
    intro category hcategory
    obtain ⟨names, hrequired, hcategory⟩ := required_of_listed hcategory
    have hin := fun listed hlisted => h.allowed names hrequired listed hlisted category hcategory
    have hout := fun listed hlisted =>
      h.notForbidden names hrequired listed hlisted category hcategory
    cases hc : rules.allowedCategories <;> cases hf : rules.forbiddenCategories <;>
      simp_all
  refine ⟨fillUp (maxComponents space (availableFor localeCompare space rules).length)
    (availableFor localeCompare space rules) selected, ?_, hnonempty, hfilled, ?_, ?_⟩
  · rw [domainGuidedSelection]
    simp only [hrules, hallowed, throwIf_false, ok_bind]
    rw [availableFor] at hselected hnotOver hnonempty ⊢
    simp only [hselected, ok_bind, hnotOver, throwIf_false]
    rw [List.isEmpty_eq_false_iff.mpr hnonempty]
    rfl
  · intro bound hb
    have hcast : (((fillUp (maxComponents space (availableFor localeCompare space rules).length)
        (availableFor localeCompare space rules) selected).length : Nat) : ℚ) ≤ n := by
      exact_mod_cast hcount
    exact hcast.trans (hbound bound hb)
  · intro names hrequired category hcategory
    have hlisted : category ∈ (rules.requiredCategories.getD []).eraseDups := by
      rw [List.mem_eraseDups, Option.mem_def.mp hrequired, Option.getD_some]
      exact hcategory
    obtain ⟨definition, hd, hcategory⟩ := hnamed category hlisted
    exact ⟨definition, hkept definition hd, hcategory⟩

/-- Without rules every definition is eligible. -/
theorem satisfiable_none (h : space.availableStrategies ≠ []) : Satisfiable space .none := by
  obtain ⟨definition, hd⟩ := List.exists_mem_of_ne_nil _ h
  exact ⟨nofun, nofun, nofun, nofun, nofun, ⟨definition, hd, by simp [permitted, DomainRules.none]⟩,
    nofun, nofun⟩

theorem checkStart_satisfiable {ownerUserId : String} {command : StartCommand} {u : Unit}
    (hguided : command.generatorType = .domainGuided)
    (h : checkStart ownerUserId command = .ok u) :
    Satisfiable command.searchSpace (command.searchSpace.domainRules.getD .none) := by
  rw [checkStart, bind_eq_ok] at h
  obtain ⟨-, -, h⟩ := h
  rw [bind_eq_ok] at h
  obtain ⟨_, hfilled, h⟩ := h
  rw [bind_eq_ok] at h
  obtain ⟨-, -, h⟩ := h
  rw [hguided] at h
  cases hrules : command.searchSpace.domainRules with
  | some rules => exact validateDomainRules_ok h hrules
  | none =>
    have hsome := (Bool.or_eq_false_iff.mp (throwIf_eq_ok.mp hfilled)).2
    exact satisfiable_none (List.isEmpty_eq_false_iff.mp hsome)

/-- What `start` accepts for a guided search leaves the selection nothing to refuse, and the
selection keeps to the rules. -/
theorem accepted_rules_satisfiable (localeCompare : String → String → Ordering)
    (ownerUserId : String) (command : StartCommand)
    (hguided : command.generatorType = .domainGuided)
    (hids : (command.searchSpace.availableStrategies.map (·.id)).Nodup)
    (hinteger : ∀ bound ∈ command.searchSpace.maxComponents, bound.isInteger = true)
    (hstart : checkStart ownerUserId command = .ok ()) :
    ∃ selected, domainGuidedSelection localeCompare command.searchSpace = .ok selected ∧
      selected ≠ [] ∧
      (∀ definition ∈ selected, definition ∈ command.searchSpace.availableStrategies) ∧
      (selected.map (·.id)).Nodup ∧
      (∀ bound ∈ command.searchSpace.maxComponents, (selected.length : ℚ) ≤ max 1 bound.toRat) ∧
      ∀ rules ∈ command.searchSpace.domainRules,
        (∀ names ∈ rules.requiredCategories, ∀ category ∈ names,
          ∃ definition ∈ selected, definition.category = some category) ∧
        (∀ listed ∈ rules.allowedCategories, ∀ definition ∈ selected,
          ∃ category ∈ listed, definition.category = some category) ∧
        ∀ listed ∈ rules.forbiddenCategories, ∀ definition ∈ selected,
          ∀ category ∈ listed, definition.category ≠ some category := by
  have hsatisfiable := checkStart_satisfiable hguided hstart
  obtain ⟨selected, hselected, hnonempty, hchosen, hbound, hcovered⟩ :=
    domainGuidedSelection_ok localeCompare hids hinteger rfl hsatisfiable
  refine ⟨selected, hselected, hnonempty, ?_, hchosen.distinct, hbound, ?_⟩
  · intro definition hd
    exact (ordered_perm localeCompare _).mem_iff.mp
      (List.mem_filter.mp (hchosen.available definition hd)).1
  · intro rules hrules
    rw [Option.mem_def.mp hrules, Option.getD_some] at hsatisfiable hchosen hcovered
    have hpermitted : ∀ definition ∈ selected, permitted rules.allowedCategories
        (some (rules.forbiddenCategories.getD [])) (strategyCategory definition) = true :=
      fun definition hd => (List.mem_filter.mp (hchosen.available definition hd)).2
    refine ⟨?_, ?_, ?_⟩
    · intro names hnames category hcategory
      obtain ⟨definition, hd, hnamed⟩ := hcovered names hnames category hcategory
      exact ⟨definition, hd, category_of_strategyCategory hnamed⟩
    · intro listed hlisted definition hd
      have hallowed := hpermitted definition hd
      rw [permitted, Option.mem_def.mp hlisted, Option.all_some, Bool.and_eq_true] at hallowed
      cases hnamed : strategyCategory definition with
      | none => simp [hnamed] at hallowed
      | some category =>
        rw [hnamed, Option.any_some] at hallowed
        exact ⟨category, List.contains_iff_mem.mp hallowed.1,
          category_of_strategyCategory hnamed⟩
    · intro listed hlisted definition hd category hcategory hnamed
      have hknown := hsatisfiable.forbiddenKnown listed hlisted category hcategory
      have hnames : ∀ named ∈ categories, named.isEmpty = false := by decide
      have hfilled := hnames category hknown
      have hforbidden := hpermitted definition hd
      rw [permitted, Option.mem_def.mp hlisted, Option.getD_some,
        strategyCategory_of_known hnamed hknown, Bool.and_eq_true, Option.all_some,
        Option.any_some, hfilled, Bool.false_or, Bool.not_eq_true'] at hforbidden
      simp [hcategory] at hforbidden

end Rules

/-- A definition of a strategy with nothing but its id and its category. -/
def categorised (id : String) (category : Option String) : SearchStrategyDefinition where
  id
  strategyName := "RSI"
  implementationVersion := "1.0.0"
  implementationSha256 := "sha256-of-RSI"
  parameters := []
  userId := "user-1"
  logicalFamilyKey := "strategy:RSI"
  familyName := "RSI"
  version := 1
  createdAt := "2025-01-01T00:00:00.000Z"
  category
  parameterDescriptors := none

/-- A trend is required, of two trends and a definition without a category. -/
def requiresTrend : StartCommand where
  stopCondition := ⟨some 5, none, none⟩
  maxInFlight := 1
  leaderboardScopeId := "scope-1"
  generatorType := .domainGuided
  searchSpace :=
    { availableStrategies := [categorised "strategy-definition-3" none,
        categorised "strategy-definition-2" (some "TREND"),
        categorised "strategy-definition-1" (some "TREND")]
      domainRules := some ⟨some ["TREND"], none, some ["VOLATILITY"]⟩
      maxComponents := some (.ofInt 2)
      generatedFingerprints := [] }

theorem accepted_rules_satisfiable_trend :
    ∃ selected, domainGuidedSelection compare requiresTrend.searchSpace = .ok selected ∧
      ∃ definition ∈ selected, definition.category = some "TREND" := by
  obtain ⟨selected, hselected, -, -, -, -, hrules⟩ := accepted_rules_satisfiable compare "user-1"
    requiresTrend rfl (by decide) (by decide) (by decide)
  exact ⟨selected, hselected, (hrules _ rfl).1 _ rfl "TREND" (by decide)⟩

end Cryptox.Search
