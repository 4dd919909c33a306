import Mathlib.Algebra.BigOperators.Ring.List
import Cryptox.Strategy.Executable

/-!
# What a composite makes of the signals of its components

The score of a weighted composite is compared strictly with its two thresholds, and the thresholds
may lie anywhere from minus one to one. So components that agree carry the composite with them
only where their joint weight reaches past the threshold.
-/
namespace Cryptox.Strategy

open Cryptox.Backtesting (JsNumber CombinationMethod CompositeComponent isBlank)
open Cryptox.Library
open StrategyStore

/-- Sums and products of finite numbers are not rounded. -/
structure Numbers.Exact (numbers : Numbers) : Prop where
  add_finite : ∀ {left right : JsNumber}, left.isFinite = true → right.isFinite = true →
    (numbers.add left right).isFinite = true
  add_toRat : ∀ {left right : JsNumber}, left.isFinite = true → right.isFinite = true →
    (numbers.add left right).toRat = left.toRat + right.toRat
  multiply_finite : ∀ {left right : JsNumber}, left.isFinite = true → right.isFinite = true →
    (numbers.multiply left right).isFinite = true
  multiply_toRat : ∀ {left right : JsNumber}, left.isFinite = true → right.isFinite = true →
    (numbers.multiply left right).toRat = left.toRat * right.toRat

def IsSignal (signal : String) : Prop := signal = "BUY" ∨ signal = "SELL" ∨ signal = "HOLD"

/-- What the checks of a composite leave of its content. -/
structure Combinable (composite : Backtesting.CompositeStrategyDefinition) : Prop where
  nonempty : composite.components ≠ []
  finite : ∀ component ∈ composite.components, component.weight.isFinite = true
  thresholds : StrategyModule.validThresholds
    (composite.thresholds.getD StrategyModule.defaultThresholds) = true

/-- One signal for each component. -/
def OneSignalEach (composite : Backtesting.CompositeStrategyDefinition)
    (signals : List (String × String)) : Prop :=
  (signals.map Prod.fst).Perm (composite.components.map (·.strategyDefinitionId))

/-- The entries of one definition bear one signal. -/
def Consistent (signals : List (String × String)) : Prop :=
  ∀ first ∈ signals, ∀ second ∈ signals, first.1 = second.1 → first.2 = second.2

def totalWeight (composite : Backtesting.CompositeStrategyDefinition) : ℚ :=
  (composite.components.map (·.weight.toRat)).sum

def buyThreshold (composite : Backtesting.CompositeStrategyDefinition) : ℚ :=
  (composite.thresholds.getD StrategyModule.defaultThresholds).1.toRat

def sellThreshold (composite : Backtesting.CompositeStrategyDefinition) : ℚ :=
  (composite.thresholds.getD StrategyModule.defaultThresholds).2.toRat

/-- Components that all give the signal carry the composite with them. -/
def Carried (composite : Backtesting.CompositeStrategyDefinition) (signal : String) : Prop :=
  composite.method = .weightedScore →
    (signal = "BUY" → buyThreshold composite < totalWeight composite) ∧
    (signal = "SELL" → -totalWeight composite < sellThreshold composite) ∧
    (signal = "HOLD" → sellThreshold composite ≤ 0 ∧ 0 ≤ buyThreshold composite)

theorem lookup_eq_some_iff_of_consistent {signals : List (String × String)}
    (h : Consistent signals) {id signal : String} :
    signals.lookup id = some signal ↔ (id, signal) ∈ signals := by
  constructor
  · intro hlookup
    obtain ⟨before, after, rfl, -⟩ := List.lookup_eq_some_iff.mp hlookup
    simp
  · intro hmem
    have hsome : (signals.lookup id).isSome = true :=
      List.lookup_isSome_iff.mpr ⟨(id, signal), hmem, beq_self_eq_true id⟩
    obtain ⟨found, hfound⟩ := Option.isSome_iff_exists.mp hsome
    obtain ⟨before, after, heq, -⟩ := List.lookup_eq_some_iff.mp hfound
    have hin : (id, found) ∈ signals := by simp [heq]
    rw [hfound, show found = signal from h _ hin _ hmem rfl]

theorem lookup_perm {signals others : List (String × String)} (h : Consistent signals)
    (hperm : signals.Perm others) (id : String) : signals.lookup id = others.lookup id := by
  have hothers : Consistent others := fun first hf second hs =>
    h first (hperm.mem_iff.mpr hf) second (hperm.mem_iff.mpr hs)
  refine Option.ext fun signal => ?_
  rw [lookup_eq_some_iff_of_consistent h, lookup_eq_some_iff_of_consistent hothers,
    hperm.mem_iff]

theorem lookup_of_agree {signals : List (String × String)} {signal id : String}
    (hagree : ∀ entry ∈ signals, entry.2 = signal) (hid : id ∈ signals.map Prod.fst) :
    signals.lookup id = some signal := by
  have hconsistent : Consistent signals := fun first hf second hs _ =>
    (hagree first hf).trans (hagree second hs).symm
  obtain ⟨entry, hentry, rfl⟩ := List.mem_map.mp hid
  rw [lookup_eq_some_iff_of_consistent hconsistent, ← hagree entry hentry]
  exact hentry

namespace StrategyModule

variable {strategies : StrategyModule}

theorem combineSignals_congr {composite : Backtesting.CompositeStrategyDefinition}
    {signals others : List (String × String)}
    (h : ∀ component ∈ composite.components, signals.lookup component.strategyDefinitionId =
      others.lookup component.strategyDefinitionId) :
    strategies.combineSignals composite signals = strategies.combineSignals composite others := by
  have hselected : (composite.components.map fun component =>
      (component, (signals.lookup component.strategyDefinitionId).getD "HOLD")) =
      composite.components.map fun component =>
        (component, (others.lookup component.strategyDefinitionId).getD "HOLD") :=
    List.map_congr_left fun component hc => by rw [h component hc]
  simp only [combineSignals, hselected]

/-- What one signal contributes for each unit of weight. -/
def encoded (signal : String) : ℚ := (signalWeight signal).toRat

theorem signalWeight_finite (signal : String) : (signalWeight signal).isFinite = true := by
  unfold signalWeight
  split_ifs <;> rfl

theorem encoded_buy : encoded "BUY" = 1 := by
  simp [encoded, signalWeight, JsNumber.ofInt, JsNumber.toRat]

theorem encoded_sell : encoded "SELL" = -1 := by
  simp [encoded, signalWeight, JsNumber.ofInt, JsNumber.toRat]

theorem encoded_hold : encoded "HOLD" = 0 := by
  simp [encoded, signalWeight, JsNumber.ofInt, JsNumber.toRat]

/-- The score is the weighted sum of the encoded signals. -/
theorem score_toRat (hexact : strategies.numbers.Exact)
    {entries : List (CompositeComponent × String)}
    (hfinite : ∀ entry ∈ entries, entry.1.weight.isFinite = true) {start : JsNumber}
    (hstart : start.isFinite = true) :
    (entries.foldl (fun sum entry => strategies.numbers.add sum
        (strategies.numbers.multiply entry.1.weight (signalWeight entry.2))) start).isFinite = true ∧
      (entries.foldl (fun sum entry => strategies.numbers.add sum
        (strategies.numbers.multiply entry.1.weight (signalWeight entry.2))) start).toRat =
      start.toRat + (entries.map fun entry => entry.1.weight.toRat * encoded entry.2).sum := by
  induction entries generalizing start with
  | nil => exact ⟨hstart, by simp⟩
  | cons entry entries ih =>
    have hweight := hfinite entry List.mem_cons_self
    have hproduct := hexact.multiply_finite hweight (signalWeight_finite entry.2)
    obtain ⟨hscore, hvalue⟩ := ih (fun other hother => hfinite other (List.mem_cons_of_mem _ hother))
      (hexact.add_finite hstart hproduct)
    refine ⟨hscore, ?_⟩
    rw [List.foldl_cons, hvalue, hexact.add_toRat hstart hproduct,
      hexact.multiply_toRat hweight (signalWeight_finite entry.2), List.map_cons, List.sum_cons,
      encoded, add_assoc]

theorem combineSignals_agree {composite : Backtesting.CompositeStrategyDefinition}
    {signals : List (String × String)} {signal : String} (heach : OneSignalEach composite signals)
    (hagree : ∀ entry ∈ signals, entry.2 = signal) :
    (composite.components.map fun component =>
      (component, (signals.lookup component.strategyDefinitionId).getD "HOLD")) =
      composite.components.map fun component => (component, signal) := by
  refine List.map_congr_left fun component hc => ?_
  have hid : component.strategyDefinitionId ∈ signals.map Prod.fst :=
    heach.mem_iff.mpr (List.mem_map_of_mem hc)
  rw [lookup_of_agree hagree hid]
  rfl

theorem countP_agree (components : List CompositeComponent) (signal counted : String) :
    (components.map fun component => (component, signal)).countP (·.2 == counted) =
      if signal = counted then components.length else 0 := by
  rw [List.countP_map]
  split_ifs with h
  · exact List.countP_eq_length.mpr fun component _ => by simp [h]
  · exact List.countP_eq_zero.mpr fun component _ => by simp [h]

theorem majority_agree {composite : Backtesting.CompositeStrategyDefinition}
    (hmethod : composite.method = .majorityVote) (hnonempty : composite.components ≠ [])
    {signals : List (String × String)} {signal : String} (hsignal : IsSignal signal)
    (heach : OneSignalEach composite signals) (hagree : ∀ entry ∈ signals, entry.2 = signal) :
    strategies.combineSignals composite signals = signal := by
  have hlength : 0 < composite.components.length := List.length_pos_iff.mpr hnonempty
  have hselected : ((composite.components.map fun component => (component, signal)).isEmpty) =
      false := by simpa using hnonempty
  rw [combineSignals, combineSignals_agree heach hagree]
  simp only [hselected, hmethod, countP_agree, Bool.false_eq_true, if_false]
  rcases hsignal with rfl | rfl | rfl <;> simp [hlength]

theorem score_agree (hexact : strategies.numbers.Exact)
    {composite : Backtesting.CompositeStrategyDefinition} (h : Combinable composite)
    (signal : String) :
    ∃ score : JsNumber, (composite.components.map fun component => (component, signal)).foldl
        (fun sum entry => strategies.numbers.add sum
          (strategies.numbers.multiply entry.1.weight (signalWeight entry.2))) (.ofInt 0) = score ∧
      score.isFinite = true ∧ score.toRat = totalWeight composite * encoded signal := by
  have hfinite : ∀ entry ∈ composite.components.map fun component => (component, signal),
      entry.1.weight.isFinite = true := by
    intro entry hentry
    obtain ⟨component, hc, rfl⟩ := List.mem_map.mp hentry
    exact h.finite component hc
  have hzero : (JsNumber.ofInt 0).isFinite = true := rfl
  obtain ⟨hscore, hvalue⟩ := score_toRat hexact hfinite hzero
  refine ⟨_, rfl, hscore, ?_⟩
  rw [hvalue, List.map_map, totalWeight, ← List.sum_map_mul_right]
  simp [JsNumber.ofInt, JsNumber.toRat, Function.comp_def]

/-- Components that agree carry a weighted composite to their signal just where they outweigh the
threshold that stands in their way. -/
theorem weighted_agree (hexact : strategies.numbers.Exact)
    {composite : Backtesting.CompositeStrategyDefinition} (h : Combinable composite)
    (hmethod : composite.method = .weightedScore) {signals : List (String × String)}
    {signal : String} (hsignal : IsSignal signal) (heach : OneSignalEach composite signals)
    (hagree : ∀ entry ∈ signals, entry.2 = signal) :
    strategies.combineSignals composite signals = signal ↔ Carried composite signal := by
  have hselected : ((composite.components.map fun component => (component, signal)).isEmpty) =
      false := by simpa using h.nonempty
  obtain ⟨score, hfold, hfinite, hscore⟩ := score_agree hexact h signal
  have hvalid := h.thresholds
  simp only [validThresholds, Bool.and_eq_true, Bool.not_eq_true'] at hvalid
  obtain ⟨⟨⟨⟨hbuy, hsell⟩, horder⟩, -⟩, -⟩ := hvalid
  have horder : sellThreshold composite < buyThreshold composite := by
    rw [sellThreshold, buyThreshold, ← not_le, ← JsNumber.le_iff hbuy hsell, horder]
    exact Bool.false_ne_true
  have hover : (composite.thresholds.getD defaultThresholds).1.lt score = true ↔
      buyThreshold composite < totalWeight composite * encoded signal := by
    rw [JsNumber.lt_iff hbuy hfinite, hscore, buyThreshold]
  have hunder : score.lt (composite.thresholds.getD defaultThresholds).2 = true ↔
      totalWeight composite * encoded signal < sellThreshold composite := by
    rw [JsNumber.lt_iff hfinite hsell, hscore, sellThreshold]
  rw [combineSignals, combineSignals_agree heach hagree, Carried]
  simp only [hselected, hmethod, hfold, Bool.false_eq_true, if_false, hover, hunder,
    forall_const]
  rcases hsignal with rfl | rfl | rfl
  · simp only [encoded_buy, mul_one]
    split_ifs with h1 h2 <;> simp [h1]
  · simp only [encoded_sell, mul_neg, mul_one]
    split_ifs with h1 h2
    · simp
      linarith
    · simp [h2]
    · simp [h2]
  · simp only [encoded_hold, mul_zero]
    split_ifs with h1 h2
    · simp [h1]
    · simp [h2]
    · simp [not_lt.mp h1, not_lt.mp h2]

variable {store : StrategyStore} {userId : String}

theorem newComposite_combinable {command : CompositeCommand} {known : List String}
    {content : CompositeContent} {base : StrategyStore} {draw : Draw}
    (h : strategies.compositeContent store userId command known = .ok content) :
    Combinable (strategies.newComposite base userId content draw).toCompositeStrategyDefinition := by
  have hnonempty := (compositeContent_eq_ok h).1
  rw [compositeContent, bind_eq_ok] at h
  obtain ⟨-, -, h⟩ := h
  rw [bind_eq_ok] at h
  obtain ⟨_, hchecked, h⟩ := h
  have hfinite : ∀ component ∈ command.components, component.weight.isFinite = true := by
    intro component hc
    have hcomponent := List.any_eq_false.mp (throwIf_eq_ok.mp hchecked) component hc
    simp only [Bool.or_eq_true, Bool.not_eq_true', not_or, Bool.not_eq_false] at hcomponent
    exact hcomponent.2
  rw [bind_eq_ok] at h
  obtain ⟨-, -, h⟩ := h
  rw [bind_eq_ok] at h
  obtain ⟨-, -, h⟩ := h
  cases hmethod : command.method with
  | majorityVote =>
    simp only [hmethod] at h
    cases h
    have hdefault : validThresholds defaultThresholds = true := by decide
    refine ⟨hnonempty, ?_, hdefault⟩
    intro component hc
    obtain ⟨given, -, rfl⟩ := List.mem_map.mp hc
    rfl
  | weightedScore =>
    simp only [hmethod] at h
    rw [bind_eq_ok] at h
    obtain ⟨-, -, h⟩ := h
    rw [bind_eq_ok] at h
    obtain ⟨_, hthresholds, h⟩ := h
    have hvalid : validThresholds (command.thresholds.getD defaultThresholds) = true := by
      simpa using throwIf_eq_ok.mp hthresholds
    cases h
    exact ⟨hnonempty, hfinite, hvalid⟩

/-- Every stored composite passed the checks. -/
def StoredCombinable (store : StrategyStore) : Prop :=
  ∀ composite ∈ store.composites.rows, Combinable composite.toCompositeStrategyDefinition

/-- What a preparation answers passed the checks, now or when it was stored. -/
theorem prepared_combinable (hstore : StoredCombinable store) {command : CompositeCommand}
    {known : List String} {draw : Draw} {prepared : Prepared CompositeStrategyDefinition}
    (h : strategies.prepareComposite store userId command known draw = .ok prepared) :
    Combinable prepared.definition.toCompositeStrategyDefinition := by
  obtain ⟨content, hcontent, ⟨existing, hstored, rfl⟩ | ⟨-, rfl⟩⟩ := prepareComposite_eq_ok h
  · exact hstore existing (storedComposite_some hstored).1
  · exact newComposite_combinable hcontent

theorem storedCombinable_append (hstore : StoredCombinable store)
    {composite : CompositeStrategyDefinition}
    (h : Combinable composite.toCompositeStrategyDefinition) {after : StrategyStore}
    (hrows : after.composites.rows = store.composites.rows ++ [composite]) :
    StoredCombinable after := by
  intro row hrow
  rw [hrows] at hrow
  rcases List.mem_append.mp hrow with hrow | hrow
  · exact hstore row hrow
  · rw [List.mem_singleton.mp hrow]
    exact h

theorem generation_combinable (hstore : StoredCombinable store)
    {proposal : GeneratedStrategyProposal} {draws : List Draw} {result audit : Draw}
    {generation : GenerationCommit}
    (h : strategies.prepareGeneration store userId proposal draws result audit = .ok generation)
    {composite : CompositeStrategyDefinition} (hcomposite : generation.composite = some composite) :
    Combinable composite.toCompositeStrategyDefinition := by
  cases proposal with
  | single strategyName parameters =>
    rw [prepareGeneration, bind_eq_ok] at h
    obtain ⟨prepared, -, h⟩ := h
    cases h
    cases hcomposite
  | composite components method thresholds =>
    rw [prepareGeneration, bind_eq_ok] at h
    obtain ⟨prepared, -, h⟩ := h
    rw [bind_eq_ok] at h
    obtain ⟨answered, hanswered, h⟩ := h
    cases h
    cases hcomposite
    exact prepared_combinable hstore hanswered

theorem storedCombinable_afterCall {call : StrategyCall} (henabled : CallEnabled store call)
    (hstore : StoredCombinable store) : StoredCombinable (strategies.afterCall store call) := by
  cases call with
  | defineStrategy userId strategyName parameters draw =>
    intro composite hc
    rw [(defineStrategy_rows (fresh_definition henabled.1 List.mem_cons_self)).1] at hc
    exact hstore composite hc
  | defineComposite userId command draw =>
    obtain ⟨-, hrows | ⟨content, hcontent, -, hrows⟩⟩ :=
      defineComposite_rows (fresh_composite henabled.1 List.mem_cons_self)
    · intro composite hc
      rw [hrows] at hc
      exact hstore composite hc
    · exact storedCombinable_append hstore (newComposite_combinable hcontent) hrows
  | generateStrategy userId generated draws result audit =>
    rw [afterCall]
    cases hcall : strategies.generateStrategy store userId generated draws result audit with
    | error e => exact hstore
    | ok answer =>
      obtain ⟨proposal, rfl, hgeneration, hcommit⟩ := generateStrategy_eq_ok hcall
      obtain ⟨-, hsame | ⟨composite, hcomposite, -, -, hadded⟩, -⟩ :=
        commit_rows (prepareGeneration_ready henabled.1 hgeneration) hcommit
      · intro composite hc
        rw [stored, hsame] at hc
        exact hstore composite hc
      · exact storedCombinable_append hstore (generation_combinable hstore hgeneration hcomposite)
          hadded
  | deleteDefinition userId id =>
    exact fun composite hc =>
      hstore composite ((deleteDefinition_sublist strategies store userId id).2.subset hc)
  | deleteComposite userId id =>
    exact fun composite hc =>
      hstore composite ((deleteComposite_sublist strategies store userId id).2.subset hc)

/-- A single candidate has one definition, which its one component names with the whole weight. -/
theorem selectionMode_single {definitions : List Backtesting.StrategyDefinition}
    {composite : Backtesting.CompositeStrategyDefinition}
    (h : Backtesting.selectionMode definitions composite = .single) :
    ∃ definition component, definitions = [definition] ∧ composite.components = [component] ∧
      (composite.method = .weightedScore →
        component.weight.le (.ofInt 1) = true ∧ (JsNumber.ofInt 1).le component.weight = true) := by
  unfold Backtesting.selectionMode at h
  split at h
  · next definition component hcomponents hmethod =>
    split_ifs at h with hone
    simp only [Bool.and_eq_true] at hone
    exact ⟨definition, component, rfl, hcomponents, fun _ => ⟨hone.1.2, hone.2⟩⟩
  · next definition component hcomponents hmethod =>
    exact ⟨definition, component, rfl, hcomponents, fun hweighted => by simp [hmethod] at hweighted⟩
  · cases h

theorem single_totalWeight {definitions : List Backtesting.StrategyDefinition}
    {composite : Backtesting.CompositeStrategyDefinition} (hcombinable : Combinable composite)
    (h : Backtesting.selectionMode definitions composite = .single)
    (hmethod : composite.method = .weightedScore) : totalWeight composite = 1 := by
  obtain ⟨definition, component, -, hcomponents, hweight⟩ := selectionMode_single h
  have hfinite : component.weight.isFinite = true :=
    hcombinable.finite component (by simp [hcomponents])
  obtain ⟨hupper, hlower⟩ := hweight hmethod
  rw [JsNumber.le_iff hfinite rfl] at hupper
  rw [JsNumber.le_iff rfl hfinite] at hlower
  have hone : (JsNumber.ofInt 1).toRat = 1 := by simp [JsNumber.ofInt, JsNumber.toRat]
  rw [hone] at hupper hlower
  rw [totalWeight, hcomponents]
  simp only [List.map_cons, List.map_nil, List.sum_cons, List.sum_nil, add_zero]
  exact le_antisymm hupper hlower

/-- The strategy of a single candidate asks its one strategy and combines the one answer. -/
theorem single_analyze {definitions : List Backtesting.StrategyDefinition}
    {composite : Backtesting.CompositeStrategyDefinition} {strategy : Backtesting.Strategy}
    (h : Backtesting.selectionMode definitions composite = .single)
    (hstrategy : Backtesting.compositeStrategy (strategies.api store) definitions composite =
      .ok strategy) :
    ∃ definition own, definitions = [definition] ∧
      composite.components.map (·.strategyDefinitionId) = [definition.id] ∧
      strategies.resolveStrategy definition = .ok own ∧
      ∀ context, strategy.analyze context = (own.analyze context).map fun signal =>
        strategies.combineSignals composite [(definition.id, signal)] := by
  obtain ⟨definition, component, rfl, hcomponents, -⟩ := selectionMode_single h
  rw [Backtesting.compositeStrategy, bind_eq_ok] at hstrategy
  obtain ⟨_, hknown, hstrategy⟩ := hstrategy
  have hid : definition.id = component.strategyDefinitionId := by
    have hany := throwIf_eq_ok.mp hknown
    simp only [hcomponents, List.isEmpty_cons, List.any_cons, List.any_nil, Bool.false_or,
      Bool.or_false, Bool.not_eq_false'] at hany
    exact eq_of_beq hany
  rw [bind_eq_ok] at hstrategy
  obtain ⟨resolved, hresolved, hstrategy⟩ := hstrategy
  rw [List.mapM_cons, bind_eq_ok] at hresolved
  obtain ⟨entry, hentry, hresolved⟩ := hresolved
  rw [bind_eq_ok] at hentry
  obtain ⟨own, hown, hentry⟩ := hentry
  cases hentry
  cases hresolved
  cases hstrategy
  refine ⟨definition, own, rfl, by simp [hcomponents, hid], hown, fun context => ?_⟩
  simp only [hcomponents, Backtesting.componentSignals, List.reverse_cons, List.reverse_nil,
    List.nil_append, List.find?_cons, hid, beq_self_eq_true]
  cases own.analyze context with
  | error e => rfl
  | ok signal => rfl

theorem combineSignals_eq_iff (hexact : strategies.numbers.Exact)
    {composite : Backtesting.CompositeStrategyDefinition} (h : Combinable composite)
    {signals : List (String × String)} {signal : String} (hsignal : IsSignal signal)
    (heach : OneSignalEach composite signals) (hagree : ∀ entry ∈ signals, entry.2 = signal) :
    strategies.combineSignals composite signals = signal ↔ Carried composite signal := by
  cases hmethod : composite.method with
  | majorityVote =>
    refine iff_of_true (majority_agree hmethod h.nonempty hsignal heach hagree) ?_
    intro hweighted
    rw [hmethod] at hweighted
    cases hweighted
  | weightedScore => exact weighted_agree hexact h hmethod hsignal heach hagree

/-- In every run, a prepared composite combines the signals of its components in whatever order
they are listed; components that agree carry it just where they outweigh the thresholds; and a
single candidate so trades on the signals of its one strategy. -/
theorem combined_signals (strategies : StrategyModule) (hexact : strategies.numbers.Exact)
    (calls : List StrategyCall)
    (hrun : strategies.system.Legal (fun _ _ => True) .empty calls) (userId : String)
    (command : CompositeCommand) (known : List String) (draw : Draw)
    (prepared : Prepared CompositeStrategyDefinition)
    (h : strategies.prepareComposite (strategies.system.run .empty calls) userId command known draw
      = .ok prepared) :
    (∀ signals others, OneSignalEach prepared.definition.toCompositeStrategyDefinition signals →
      Consistent signals → signals.Perm others →
        strategies.combineSignals prepared.definition.toCompositeStrategyDefinition signals =
          strategies.combineSignals prepared.definition.toCompositeStrategyDefinition others) ∧
    (∀ signals signal, OneSignalEach prepared.definition.toCompositeStrategyDefinition signals →
      (∀ entry ∈ signals, entry.2 = signal) → IsSignal signal →
        (strategies.combineSignals prepared.definition.toCompositeStrategyDefinition signals = signal
          ↔ Carried prepared.definition.toCompositeStrategyDefinition signal)) ∧
    ∀ store definitions strategy,
      Backtesting.compositeStrategy (strategies.api store) definitions
        prepared.definition.toCompositeStrategyDefinition = .ok strategy →
      Backtesting.selectionMode definitions prepared.definition.toCompositeStrategyDefinition =
        .single →
      (prepared.definition.method = .weightedScore →
        totalWeight prepared.definition.toCompositeStrategyDefinition = 1) ∧
      ∃ definition own, definitions = [definition] ∧
        strategies.resolveStrategy definition = .ok own ∧
        ∀ context, (∀ error, own.analyze context = .error error →
            strategy.analyze context = .error error) ∧
          ∀ signal, own.analyze context = .ok signal → IsSignal signal →
            (strategy.analyze context = .ok signal ↔
              Carried prepared.definition.toCompositeStrategyDefinition signal) := by
  have hstored : StoredCombinable (strategies.system.run .empty calls) :=
    hrun.invariant StoredCombinable
      (fun _ _ hstore henabled _ => storedCombinable_afterCall henabled hstore)
      fun _ hc => absurd hc List.not_mem_nil
  have hcombinable := prepared_combinable hstored h
  refine ⟨?_, ?_, ?_⟩
  · intro signals others _ hconsistent hperm
    exact combineSignals_congr fun component _ => lookup_perm hconsistent hperm _
  · exact fun signals signal heach hagree hsignal =>
      combineSignals_eq_iff hexact hcombinable hsignal heach hagree
  · intro store definitions strategy hstrategy hsingle
    refine ⟨single_totalWeight hcombinable hsingle, ?_⟩
    obtain ⟨definition, own, hdefinitions, hids, hown, hanalyze⟩ :=
      single_analyze hsingle hstrategy
    refine ⟨definition, own, hdefinitions, hown, fun context => ⟨?_, ?_⟩⟩
    · intro error herror
      rw [hanalyze context, herror]
      rfl
    · intro signal hsignal hissignal
      have heach : OneSignalEach prepared.definition.toCompositeStrategyDefinition
          [(definition.id, signal)] := by
        rw [OneSignalEach, hids]
        exact List.Perm.refl _
      rw [hanalyze context, hsignal, ok_map, Except.ok.injEq]
      exact combineSignals_eq_iff hexact hcombinable hissignal heach (by simp)

end StrategyModule

open StrategyModule

theorem exact_exampleNumbers : exampleNumbers.Exact := by
  constructor
  all_goals
    intro left right hl hr
    cases left <;> cases right <;> simp_all [exampleNumbers, JsNumber.isFinite, JsNumber.toRat]

/-- A moving average is stored, and a weighted composite of it alone is asked for. -/
def averageAlone : List StrategyCall :=
  [.defineStrategy "user-1" "MA" [] (drawnAt "strategy-definition-1")]

/-- A weighted composite that gives the moving average each of some weights. -/
def weightedCommand (weights : List JsNumber) (thresholds : JsNumber × JsNumber) :
    CompositeCommand where
  method := .weightedScore
  components := weights.map fun weight => ⟨"strategy-definition-1", weight⟩
  thresholds := some thresholds

/-- A moving average and an oscillator are stored. -/
def averageAndOscillator : List StrategyCall :=
  [.defineStrategy "user-1" "MA" [] (drawnAt "strategy-definition-1"),
    .defineStrategy "user-1" "RSI" [] (drawnAt "strategy-definition-2")]

/-- A quarter of the weight on the average, the rest on the oscillator. -/
def quarterCommand : CompositeCommand where
  method := .weightedScore
  components := [⟨"strategy-definition-1", .finite ⟨25, 2⟩⟩, ⟨"strategy-definition-2", .finite ⟨75, 2⟩⟩]
  thresholds := some defaultThresholds

/-- Listed either way two signals are combined alike, and two that agree carry the composite. -/
theorem combined_signals_quarter :
    ∃ prepared, (exampleStrategies .inMemory).prepareComposite
        ((exampleStrategies .inMemory).system.run .empty averageAndOscillator) "user-1"
        quarterCommand [] (drawnAt "composite-strategy-1") = .ok prepared ∧
      (exampleStrategies .inMemory).combineSignals
          prepared.definition.toCompositeStrategyDefinition
          [("strategy-definition-1", "BUY"), ("strategy-definition-2", "SELL")] =
        (exampleStrategies .inMemory).combineSignals
          prepared.definition.toCompositeStrategyDefinition
          [("strategy-definition-2", "SELL"), ("strategy-definition-1", "BUY")] ∧
      (exampleStrategies .inMemory).combineSignals
          prepared.definition.toCompositeStrategyDefinition
          [("strategy-definition-2", "SELL"), ("strategy-definition-1", "SELL")] = "SELL" := by
  obtain ⟨prepared, hprepared⟩ := exists_ok (x := (exampleStrategies .inMemory).prepareComposite
    ((exampleStrategies .inMemory).system.run .empty averageAndOscillator) "user-1" quarterCommand []
    (drawnAt "composite-strategy-1")) (by decide)
  have hcontent : ((exampleStrategies .inMemory).prepareComposite
      ((exampleStrategies .inMemory).system.run .empty averageAndOscillator) "user-1" quarterCommand []
      (drawnAt "composite-strategy-1")).toOption.map (fun prepared =>
        (prepared.definition.components, prepared.definition.thresholds)) =
      some (quarterCommand.components, some defaultThresholds) := by decide
  rw [hprepared] at hcontent
  obtain ⟨hcomponents, hthresholds⟩ := Prod.mk.inj (Option.some.inj hcontent)
  obtain ⟨hordered, hagreed, -⟩ := combined_signals (exampleStrategies .inMemory)
    exact_exampleNumbers averageAndOscillator
    ⟨⟨by decide, trivial⟩, ⟨by decide, trivial⟩, trivial⟩ "user-1" _ [] _ prepared hprepared
  have heach : ∀ first second, OneSignalEach prepared.definition.toCompositeStrategyDefinition
      [("strategy-definition-1", first), ("strategy-definition-2", second)] := by
    intro first second
    rw [OneSignalEach, hcomponents]
    exact List.Perm.refl _
  refine ⟨prepared, hprepared, hordered _ _ (heach "BUY" "SELL") ?_ (List.Perm.swap _ _ _),
    (hagreed _ "SELL" ?_ (by simp) (.inr (.inl rfl))).mpr ?_⟩
  · rw [Consistent]
    decide
  · exact (List.Perm.swap _ _ _).trans (heach "SELL" "SELL")
  · intro _
    rw [totalWeight, buyThreshold, sellThreshold, hcomponents, hthresholds]
    refine ⟨nofun, fun _ => ?_, nofun⟩
    norm_num [quarterCommand, defaultThresholds, JsNumber.toRat, Backtesting.Decimal.toRat]

/-- The composite that a command of the averages' owner is answered with. -/
def answeredComposite (command : CompositeCommand) :
    Option Backtesting.CompositeStrategyDefinition :=
  match (exampleStrategies .inMemory).prepareComposite
      ((exampleStrategies .inMemory).system.run .empty averageAlone) "user-1" command []
      (drawnAt "composite-strategy-1") with
  | .ok prepared => some prepared.definition.toCompositeStrategyDefinition
  | .error _ => none

def combinedSignal (command : CompositeCommand) (signals : List String) : Option String :=
  (answeredComposite command).map fun composite => (exampleStrategies .inMemory).combineSignals
    composite (signals.map fun signal => ("strategy-definition-1", signal))

/-- With a threshold of one a single candidate holds where its strategy buys; with two negative
thresholds it buys where its strategy holds; and a definition named twice is heard by the signal
that is listed first. -/
theorem weightedCommand_uncarried :
    ((answeredComposite (weightedCommand [.ofInt 1] (.ofInt 1, .ofInt (-1)))).map
        (Backtesting.selectionMode [⟨"strategy-definition-1", "MA", "1.0.0", "sha256-of-MA", []⟩])
        = some .single ∧
      combinedSignal (weightedCommand [.ofInt 1] (.ofInt 1, .ofInt (-1))) ["BUY"] = some "HOLD") ∧
    combinedSignal (weightedCommand [.ofInt 1] (.finite ⟨-5, 1⟩, .ofInt (-1))) ["HOLD"]
      = some "BUY" ∧
    combinedSignal (weightedCommand [.finite ⟨5, 1⟩, .finite ⟨5, 1⟩] defaultThresholds)
      ["BUY", "SELL"] = some "BUY" ∧
    combinedSignal (weightedCommand [.finite ⟨5, 1⟩, .finite ⟨5, 1⟩] defaultThresholds)
      ["SELL", "BUY"] = some "SELL" := by
  decide

end Cryptox.Strategy
