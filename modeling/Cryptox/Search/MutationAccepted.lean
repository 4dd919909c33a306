import Cryptox.Library.Comparators
import Cryptox.Search.MutationSteps

/-!
# Mutations of the built-in strategies

A definition that its strategy accepts is mutated into another one that it accepts: the legal values
are the accepted ones, and a relationship that a mutation breaks is one the strategy asks for.
-/
namespace Cryptox.Search

open Cryptox.Backtesting (JsNumber Decimal IsRandom)
open Cryptox.Library
open Cryptox.Strategy (Parameters ParameterValue StrategyFactory StrategyParameterDescriptor Numbers
  normalizeParameter validateParameters isFiniteOrText builtInFactories numberParameter requireBelow)

section Normalized

variable {values : Parameters} {descriptor : StrategyParameterDescriptor}
  {entry : String × ParameterValue}

theorem accepted_iff_checks {number : JsNumber} : Accepted descriptor number ↔
    (!number.isFinite || (descriptor.type == .integer && !number.isInteger)) = false ∧
      (descriptor.minimum.any fun minimum => number.lt minimum) = false ∧
      (descriptor.maximum.any fun maximum => maximum.lt number) = false := by
  constructor
  · rintro ⟨hfinite, hinteger, hminimum, hmaximum⟩
    refine ⟨?_, ?_, ?_⟩
    · rw [hfinite]
      cases htype : descriptor.type <;> simp_all
    · cases hm : descriptor.minimum with
      | none => rfl
      | some minimum => exact hminimum minimum hm
    · cases hm : descriptor.maximum with
      | none => rfl
      | some maximum => exact hmaximum maximum hm
  · rintro ⟨hkind, hminimum, hmaximum⟩
    rw [Bool.or_eq_false_iff, Bool.not_eq_false'] at hkind
    refine ⟨hkind.1, fun htype => ?_, fun minimum hm => ?_, fun maximum hm => ?_⟩
    · simpa [htype] using hkind.2
    · rw [Option.mem_def.mp hm] at hminimum
      exact hminimum
    · rw [Option.mem_def.mp hm] at hmaximum
      exact hmaximum

/-- The value that a descriptor finds, or its default. -/
def found (values : Parameters) (descriptor : StrategyParameterDescriptor) :
    String × ParameterValue :=
  (descriptor.key, (values.lookup descriptor.key).getD descriptor.defaultValue)

/-- A descriptor of numbers takes a value just where it is a number that is accepted. -/
theorem normalizeParameter_eq_ok_iff (hkind : descriptor.type ≠ .enumerated) :
    normalizeParameter values descriptor = .ok entry ↔
      ∃ number, (values.lookup descriptor.key).getD descriptor.defaultValue = .inl number ∧
        Accepted descriptor number ∧ entry = (descriptor.key, .inl number) := by
  rw [normalizeParameter]
  cases (values.lookup descriptor.key).getD descriptor.defaultValue with
  | inr text =>
    constructor
    · intro h
      cases htype : descriptor.type with
      | enumerated => exact absurd htype hkind
      | integer =>
        simp only [htype] at h
        cases h
      | number =>
        simp only [htype] at h
        cases h
    · rintro ⟨number, hnumber, -⟩
      cases hnumber
  | inl number =>
    have hchecks : (do
        throwIf (!number.isFinite || (descriptor.type == .integer && !number.isInteger))
          "INVALID_STRATEGY_PARAMETERS"
        throwIf (descriptor.minimum.any fun minimum => number.lt minimum)
          "INVALID_STRATEGY_PARAMETERS"
        throwIf (descriptor.maximum.any fun maximum => maximum.lt number)
          "INVALID_STRATEGY_PARAMETERS"
        return (descriptor.key, .inl number) : Except String (String × ParameterValue)) =
          .ok entry ↔
        ∃ other, (Sum.inl number : ParameterValue) = .inl other ∧ Accepted descriptor other ∧
          entry = (descriptor.key, .inl other) := by
      simp only [bind_eq_ok, throwIf_eq_ok, pure_eq_ok]
      constructor
      · rintro ⟨-, hkind, -, hminimum, -, hmaximum, rfl⟩
        exact ⟨number, rfl, accepted_iff_checks.mpr ⟨hkind, hminimum, hmaximum⟩, rfl⟩
      · rintro ⟨other, hother, haccepted, rfl⟩
        obtain rfl := Sum.inl.inj hother
        obtain ⟨hkind, hminimum, hmaximum⟩ := accepted_iff_checks.mp haccepted
        exact ⟨(), hkind, (), hminimum, (), hmaximum, rfl⟩
    cases htype : descriptor.type with
    | enumerated => exact absurd htype hkind
    | integer =>
      rw [htype] at hchecks
      exact hchecks
    | number =>
      rw [htype] at hchecks
      exact hchecks

end Normalized

theorem eraseDups_of_nodup {names : List String} (h : names.Nodup) : names.eraseDups = names := by
  induction names with
  | nil => rfl
  | cons name names ih =>
    rw [List.nodup_cons] at h
    have hfilter : (names.filter fun other => !(other == name)) = names := by
      refine List.filter_eq_self.mpr fun other hother => ?_
      have hne : other ≠ name := fun heq => h.1 (heq ▸ hother)
      simpa using hne
    rw [List.eraseDups_cons, hfilter, ih h.2]

/-- Descriptors of numbers under different keys, of which the generator and the strategy agree what
is legal. -/
structure Agreed (descriptors : List StrategyParameterDescriptor) : Prop where
  keys : (descriptors.map (·.key)).Nodup
  sound : ∀ descriptor ∈ descriptors, Sound (snapshot descriptor)
  wellFormed : ∀ descriptor ∈ descriptors, isDescriptor (snapshot descriptor) = true

/-- A number that is accepted by the descriptor of its key. -/
def AcceptedAt (descriptors : List StrategyParameterDescriptor) (key : String)
    (value : ParameterValue) : Prop :=
  ∃ number, value = .inl number ∧
    ∀ descriptor ∈ descriptors, descriptor.key = key → Accepted descriptor number

namespace Agreed

variable {descriptors : List StrategyParameterDescriptor} {factory : StrategyFactory}
  {definition : SearchStrategyDefinition} {values normalized parameters : Parameters}

theorem kind (h : Agreed descriptors) {descriptor : StrategyParameterDescriptor}
    (hmem : descriptor ∈ descriptors) : descriptor.type ≠ .enumerated :=
  (h.sound descriptor hmem).kind

theorem eq_of_key (h : Agreed descriptors) {first second : StrategyParameterDescriptor}
    (hfirst : first ∈ descriptors) (hsecond : second ∈ descriptors) (hkey : first.key = second.key) :
    first = second :=
  List.inj_on_of_nodup_map h.keys hfirst hsecond hkey

/-- The normalized parameters are what each descriptor finds, an accepted number. -/
theorem normalized_eq (h : Agreed descriptors)
    (hnormalized : descriptors.mapM (normalizeParameter values) = .ok normalized) :
    normalized = descriptors.map (found values) ∧
      ∀ descriptor ∈ descriptors, ∃ number,
        (found values descriptor).2 = .inl number ∧ Accepted descriptor number := by
  have hentry : ∀ descriptor ∈ descriptors, ∀ entry,
      normalizeParameter values descriptor = .ok entry → entry = found values descriptor := by
    intro descriptor hmem entry hentry
    obtain ⟨number, hnumber, -, rfl⟩ := (normalizeParameter_eq_ok_iff (h.kind hmem)).mp hentry
    rw [found, hnumber]
  obtain ⟨hvalues, hall⟩ := mapM_eq_ok_map hentry hnormalized
  refine ⟨hvalues, fun descriptor hmem => ?_⟩
  obtain ⟨number, hnumber, haccepted, -⟩ :=
    (normalizeParameter_eq_ok_iff (h.kind hmem)).mp (hall descriptor hmem)
  exact ⟨number, hnumber, haccepted⟩

theorem lookup_found (h : Agreed descriptors) {descriptor : StrategyParameterDescriptor}
    (hmem : descriptor ∈ descriptors) :
    (descriptors.map (found values)).lookup descriptor.key = some (found values descriptor).2 := by
  refine (lookup_eq_some_iff ?_).mpr (List.mem_map_of_mem hmem)
  rw [List.map_map]
  exact h.keys

theorem kept_normalized (h : Agreed descriptors)
    (hnormalized : descriptors.mapM (normalizeParameter values) = .ok normalized) :
    Kept (descriptors.map (·.key)) (AcceptedAt descriptors) normalized := by
  obtain ⟨rfl, haccepted⟩ := h.normalized_eq hnormalized
  have hkeys : (descriptors.map (found values)).map (·.1) = descriptors.map (·.key) := by
    rw [List.map_map]
    rfl
  refine ⟨hkeys, fun key value hvalue => ?_⟩
  have hmem : key ∈ descriptors.map (·.key) := by
    rw [← hkeys, mem_keys_iff, hvalue]
    rfl
  obtain ⟨descriptor, hdescriptor, rfl⟩ := List.mem_map.mp hmem
  rw [h.lookup_found hdescriptor] at hvalue
  obtain rfl := Option.some.inj hvalue
  obtain ⟨number, hnumber, hok⟩ := haccepted descriptor hdescriptor
  refine ⟨number, hnumber, fun other hother hkey => ?_⟩
  rw [h.eq_of_key hother hdescriptor hkey]
  exact hok

theorem legal (h : Agreed descriptors) (host : GeneticHost) :
    Kept.Legal host (AcceptedAt descriptors) (descriptors.map snapshot) := by
  intro snapshotted hmem current _ value hvalue
  obtain ⟨descriptor, hdescriptor, rfl⟩ := List.mem_map.mp hmem
  have hnumbers : ∃ current, value ∈ (numericValues (snapshot descriptor) current).map .inl := by
    unfold legalValues at hvalue
    split at hvalue
    · rename_i htype _
      exact absurd htype (h.kind hdescriptor)
    · exact ⟨_, hvalue⟩
    · exact ⟨_, hvalue⟩
  obtain ⟨current, hvalue⟩ := hnumbers
  obtain ⟨number, hnumber, rfl⟩ := List.mem_map.mp hvalue
  refine ⟨number, rfl, fun other hother hkey => ?_⟩
  rw [h.eq_of_key hother hdescriptor hkey]
  exact (h.sound descriptor hdescriptor).legal current number hnumber

/-- Kept parameters are what the descriptors find among them. -/
theorem eq_found_of_kept (h : Agreed descriptors)
    (hkept : Kept (descriptors.map (·.key)) (AcceptedAt descriptors) parameters) :
    descriptors.map (found parameters) = parameters := by
  have hnodup : (parameters.map (·.1)).Nodup := hkept.keys_eq ▸ h.keys
  have hkeys : (descriptors.map (found parameters)).map (·.1) = parameters.map (·.1) := by
    rw [List.map_map, hkept.keys_eq]
    rfl
  refine eq_of_perm_of_keys (perm_of_lookup_eq (hkeys ▸ hnodup) hnodup fun key => ?_) hkeys
    (hkeys ▸ hnodup)
  cases hvalue : parameters.lookup key with
  | none =>
    have habsent : key ∉ (descriptors.map (found parameters)).map (·.1) := by
      rw [hkeys, mem_keys_iff, hvalue]
      exact Bool.false_ne_true
    rw [mem_keys_iff] at habsent
    exact Option.not_isSome_iff_eq_none.mp habsent
  | some value =>
    have hmem := hkept.mem_keys hvalue
    obtain ⟨descriptor, hdescriptor, rfl⟩ := List.mem_map.mp hmem
    rw [h.lookup_found hdescriptor, found, hvalue, Option.getD_some]

/-- Parameters of accepted numbers pass the strategy unchanged, if it has nothing against them
together. -/
theorem validateParameters_of_kept (h : Agreed factory.descriptor.parameters)
    (hkept : Kept (factory.descriptor.parameters.map (·.key))
      (AcceptedAt factory.descriptor.parameters) parameters)
    (hchecked : ∃ u, factory.validateParameters parameters = .ok u) :
    validateParameters factory parameters = .ok parameters := by
  have hnodup : (parameters.map (·.1)).Nodup := hkept.keys_eq ▸ h.keys
  have hentries : ∀ entry ∈ parameters, isFiniteOrText entry.2 = true ∧
      (factory.descriptor.parameters.any fun descriptor => descriptor.key == entry.1) = true := by
    intro entry hentry
    have hlookup := (lookup_eq_some_iff hnodup).mpr hentry
    obtain ⟨descriptor, hdescriptor, hkey⟩ := List.mem_map.mp (hkept.mem_keys hlookup)
    obtain ⟨number, hnumber, haccepted⟩ := hkept.holds _ _ hlookup
    refine ⟨?_, List.any_eq_true.mpr ⟨descriptor, hdescriptor, beq_iff_eq.mpr hkey⟩⟩
    rw [hnumber]
    exact (haccepted descriptor hdescriptor hkey).finite
  have hfinite : (parameters.all fun entry => isFiniteOrText entry.2) = true :=
    List.all_eq_true.mpr fun entry hentry => (hentries entry hentry).1
  have hknown : (parameters.any fun entry => !(factory.descriptor.parameters.any
      fun descriptor => descriptor.key == entry.1)) = false := by
    rw [List.any_eq_false]
    intro entry hentry
    rw [(hentries entry hentry).2]
    exact Bool.false_ne_true
  obtain ⟨entries, hentries, hsame⟩ := mapM_eq_ok_of_forall (normalizeParameter parameters) id
    (found parameters) fun descriptor hmem => by
      have hlookup : (parameters.lookup descriptor.key).isSome = true := by
        rw [← mem_keys_iff, hkept.keys_eq]
        exact List.mem_map_of_mem hmem
      obtain ⟨value, hvalue⟩ := Option.isSome_iff_exists.mp hlookup
      obtain ⟨number, rfl, haccepted⟩ := hkept.holds _ _ hvalue
      refine ⟨found parameters descriptor, (normalizeParameter_eq_ok_iff (h.kind hmem)).mpr
        ⟨number, ?_, haccepted descriptor hmem rfl, ?_⟩, rfl⟩
      · rw [hvalue, Option.getD_some]
      · rw [found, hvalue, Option.getD_some]
  rw [List.map_id, h.eq_found_of_kept hkept] at hsame
  obtain ⟨u, hu⟩ := hchecked
  rw [validateParameters, hfinite, hknown, hentries, hsame]
  simp only [Bool.not_true, throwIf_false, ok_bind, hu]
  rfl

theorem descriptorsFor_eq (h : Agreed descriptors)
    (hdescriptors : definition.parameterDescriptors = some (descriptors.map snapshot)) :
    descriptorsFor definition = .ok (descriptors.map snapshot) := by
  have hformed : ((descriptors.map snapshot).any fun descriptor => !isDescriptor descriptor) =
      false := by
    rw [List.any_eq_false]
    intro snapshotted hmem
    obtain ⟨descriptor, hdescriptor, rfl⟩ := List.mem_map.mp hmem
    rw [h.wellFormed descriptor hdescriptor]
    exact Bool.false_ne_true
  have hkeys : (descriptors.map snapshot).map (·.key) = descriptors.map (·.key) := by
    rw [List.map_map]
    rfl
  have hlength : (((descriptors.map snapshot).map (·.key)).eraseDups.length !=
      (descriptors.map snapshot).length) = false := by
    rw [hkeys, eraseDups_of_nodup h.keys, List.length_map, List.length_map]
    exact bne_self_eq_false _
  rw [descriptorsFor, hdescriptors]
  dsimp only
  rw [hformed, hlength]
  rfl

theorem normalizeEntry_snapshot (h : Agreed descriptors) {descriptor : StrategyParameterDescriptor}
    {number : JsNumber} (hmem : descriptor ∈ descriptors)
    (hnumber : (found values descriptor).2 = .inl number) (hok : Accepted descriptor number) :
    normalizeEntry values (snapshot descriptor) = .ok (found values descriptor) := by
  have haligned := (h.sound descriptor hmem).aligned number hok
  have hvalid : validValue (.inl number) (snapshot descriptor) = true := by
    unfold validValue
    cases htype : (snapshot descriptor).type with
    | enumerated => exact absurd htype (h.kind hmem)
    | integer => simp only [hok.finite, haligned, Bool.and_self]
    | number => simp only [hok.finite, haligned, Bool.and_self]
  have hvalue : (values.lookup (snapshot descriptor).key).getD (snapshot descriptor).defaultValue =
      .inl number := hnumber
  rw [normalizeEntry, hvalue, if_pos hvalid, found, ← hnumber]
  rfl

/-- The generator normalizes accepted parameters as the strategy does. -/
theorem normalize_eq (h : Agreed factory.descriptor.parameters)
    (hdescriptors : definition.parameterDescriptors =
      some (factory.descriptor.parameters.map snapshot))
    (hok : validateParameters factory definition.parameters = .ok normalized) :
    normalize definition = .ok (normalized, factory.descriptor.parameters.map snapshot) := by
  have hnormalized := (Strategy.validateParameters_eq_ok hok).1
  rw [validateParameters, bind_eq_ok] at hok
  obtain ⟨-, -, hok⟩ := hok
  rw [bind_eq_ok] at hok
  obtain ⟨_, hknown, -⟩ := hok
  rw [throwIf_eq_ok] at hknown
  have hknown' : (definition.parameters.any fun entry =>
      !((factory.descriptor.parameters.map snapshot).any fun descriptor =>
        descriptor.key == entry.1)) = false := by
    rw [← hknown]
    congr 1
    funext entry
    rw [List.any_map]
    rfl
  obtain ⟨rfl, haccepted⟩ := h.normalized_eq hnormalized
  have hentry : ∀ descriptor ∈ factory.descriptor.parameters.map snapshot,
      ∃ entry, normalizeEntry definition.parameters descriptor = .ok entry ∧
        id entry = found definition.parameters descriptor.toStrategyParameterDescriptor := by
    intro snapshotted hmem
    obtain ⟨descriptor, hdescriptor, rfl⟩ := List.mem_map.mp hmem
    obtain ⟨number, hnumber, hok⟩ := haccepted descriptor hdescriptor
    exact ⟨_, h.normalizeEntry_snapshot hdescriptor hnumber hok, rfl⟩
  obtain ⟨entries, hentries, hsame⟩ := mapM_eq_ok_of_forall _ id _ hentry
  rw [List.map_id, List.map_map] at hsame
  rw [normalize, h.descriptorsFor_eq hdescriptors, ok_bind, hknown', throwIf_false, ok_bind,
    hentries, hsame]
  rfl

theorem numericParameter_snapshot (h : Agreed descriptors)
    (hkept : Kept (descriptors.map (·.key)) (AcceptedAt descriptors) parameters)
    {descriptor : StrategyParameterDescriptor} (hmem : descriptor ∈ descriptors) :
    ∃ number, numericParameter (descriptors.map snapshot) parameters descriptor.key =
      some (snapshot descriptor, number) := by
  have hlookup : (parameters.lookup descriptor.key).isSome = true := by
    rw [← mem_keys_iff, hkept.keys_eq]
    exact List.mem_map_of_mem hmem
  obtain ⟨value, hvalue⟩ := Option.isSome_iff_exists.mp hlookup
  obtain ⟨number, rfl, -⟩ := hkept.holds _ _ hvalue
  have hfind : (descriptors.map snapshot).find? (·.key == descriptor.key) =
      some (snapshot descriptor) := by
    cases hfound : (descriptors.map snapshot).find? (·.key == descriptor.key) with
    | none =>
      have hnone := List.find?_eq_none.mp hfound (snapshot descriptor) (List.mem_map_of_mem hmem)
      exact absurd (beq_self_eq_true _) hnone
    | some other =>
      obtain ⟨second, hsecond, rfl⟩ := List.mem_map.mp (List.mem_of_find?_eq_some hfound)
      have hkey : (snapshot second).key = descriptor.key := by simpa using List.find?_some hfound
      rw [h.eq_of_key hsecond hmem hkey]
  refine ⟨number, ?_⟩
  rw [numericParameter, hfind, hvalue]
  exact if_neg (h.kind hmem)

end Agreed

/-- A relationship that a strategy asks for: of two of its parameters, which have a legal pair. -/
structure Asked (factory : StrategyFactory) (relationship : Relationship) : Prop where
  ne : relationship.left ≠ relationship.right
  pair : ∃ left ∈ factory.descriptor.parameters, ∃ right ∈ factory.descriptor.parameters,
    left.key = relationship.left ∧ right.key = relationship.right ∧ ∀ low high,
      legalPairs relationship (snapshot left, low) (snapshot right, high) ≠ []
  checked : ∀ parameters low high, parameters.lookup relationship.left = some (.inl low) →
    parameters.lookup relationship.right = some (.inl high) →
    low.isFinite = true → high.isFinite = true → satisfies relationship.below low high = true →
    ∃ u, factory.validateParameters parameters = .ok u

/-- Among the parameters of a strategy the generator sees what the strategy asks of them together:
nothing, or one relationship. -/
def Related (host : GeneticHost) (factory : StrategyFactory) : Prop :=
  ∀ parameters : Parameters,
    parameters.map (·.1) = factory.descriptor.parameters.map (·.key) →
    (relationships host factory.descriptor.name parameters = [] ∧
      ∃ u, factory.validateParameters parameters = .ok u) ∨
    ∃ relationship, relationships host factory.descriptor.name parameters = [relationship] ∧
      Asked factory relationship

section Mutated

variable {host : GeneticHost} {random : Nat → ℚ} {factory : StrategyFactory}
  {definition : SearchStrategyDefinition} {normalized : Parameters} {mutation : Mutation}

theorem repairRelationships_related (h : Agreed factory.descriptor.parameters)
    (hrelated : Related host factory) (hrandom : ∀ n, IsRandom (random n))
    (hkept : Kept (factory.descriptor.parameters.map (·.key))
      (AcceptedAt factory.descriptor.parameters) mutation.parameters) :
    ∃ next, repairRelationships host random factory.descriptor.name
        (factory.descriptor.parameters.map snapshot) mutation = .ok next ∧
      Kept (factory.descriptor.parameters.map (·.key))
        (AcceptedAt factory.descriptor.parameters) next.parameters ∧
      ∃ u, factory.validateParameters next.parameters = .ok u := by
  rw [repairRelationships]
  obtain ⟨hnone, hchecked⟩ | ⟨relationship, hone, hasked⟩ :=
    hrelated mutation.parameters hkept.keys_eq
  · rw [hnone]
    exact ⟨mutation, rfl, hkept, hchecked⟩
  · obtain ⟨left, hleftMem, right, hrightMem, hleftKey, hrightKey, hpairs⟩ := hasked.pair
    obtain ⟨low, hleft⟩ := h.numericParameter_snapshot hkept hleftMem
    obtain ⟨high, hright⟩ := h.numericParameter_snapshot hkept hrightMem
    rw [hleftKey] at hleft
    rw [hrightKey] at hright
    obtain ⟨next, hnext⟩ := repairRelationship_isOk hleft hright (hpairs low high)
    obtain ⟨hkept', low', high', hlow, hhigh, hsatisfied⟩ :=
      hkept.repairRelationship hrandom (h.legal host) hasked.ne hleft hright hnext
    have hfinite : ∀ key ∈ factory.descriptor.parameters.map (·.key), ∀ number,
        next.parameters.lookup key = some (.inl number) → number.isFinite = true := by
      intro key hkey number hnumber
      obtain ⟨descriptor, hdescriptor, rfl⟩ := List.mem_map.mp hkey
      obtain ⟨other, hother, haccepted⟩ := hkept'.holds _ _ hnumber
      obtain rfl := Sum.inl.inj hother
      exact (haccepted descriptor hdescriptor rfl).finite
    refine ⟨next, ?_, hkept', hasked.checked _ _ _ hlow hhigh ?_ ?_ hsatisfied⟩
    · rw [hone, repairAll, hnext]
      rfl
    · exact hfinite _ (hkept'.mem_keys hlow) _ hlow
    · exact hfinite _ (hkept'.mem_keys hhigh) _ hhigh

/-- Where generator and strategy agree, an accepted definition is mutated into an accepted one. -/
theorem mutate_of_agreed (h : Agreed factory.descriptor.parameters)
    (hrelated : Related host factory) (hrandom : ∀ n, IsRandom (random n))
    (hname : definition.strategyName = factory.descriptor.name)
    (hdescriptors : definition.parameterDescriptors =
      some (factory.descriptor.parameters.map snapshot))
    (hok : validateParameters factory definition.parameters = .ok normalized)
    (position : Nat) (force : Bool) :
    ∃ result, mutateSearchStrategyDefinition host random definition position force = .ok result ∧
      validateParameters factory result.definition.parameters =
        .ok result.definition.parameters ∧
      result.definition = definition.withParameters result.definition.parameters := by
  have hkept := h.kept_normalized (Strategy.validateParameters_eq_ok hok).1
  obtain ⟨next, hnext, hkept', hchecked⟩ := repairRelationships_related h hrelated hrandom
    (hkept.mutateParameters hrandom (h.legal host) position force)
  refine ⟨⟨definition.withParameters next.parameters, next.keys.eraseDups, next.position⟩, ?_,
    h.validateParameters_of_kept hkept' hchecked, rfl⟩
  rw [mutateSearchStrategyDefinition, h.normalize_eq hdescriptors hok, ok_bind]
  dsimp only
  rw [hname, hnext]
  rfl

end Mutated

/-- On ASCII texts the host changes the case of each letter. -/
structure AsciiCase (host : GeneticHost) : Prop where
  lower : ∀ text, text.toList.all (·.toNat < 128) = true →
    host.toLowerCase text = String.ofList (text.toList.map Char.toLower)
  upper : ∀ text, text.toList.all (·.toNat < 128) = true →
    host.toUpperCase text = String.ofList (text.toList.map Char.toUpper)

section BuiltIn

variable {host : GeneticHost} (numbers : Numbers) (artifactSha256 : String → String)
  {factory : StrategyFactory}

theorem builtIn_agreed (hfactory : factory ∈ builtInFactories numbers artifactSha256) :
    Agreed factory.descriptor.parameters := by
  have hsound : ∀ descriptor ∈ factory.descriptor.parameters, Sound (snapshot descriptor) :=
    fun descriptor hmem => builtIn_sound hfactory hmem
  simp only [builtInFactories, List.mem_cons, List.not_mem_nil, or_false] at hfactory
  rcases hfactory with rfl | rfl | rfl | rfl | rfl
  all_goals
    refine ⟨?_, hsound, ?_⟩
    · simp [Strategy.bollinger, Strategy.ma, Strategy.rsi, Strategy.sentimentFactory,
        Strategy.supportResistanceFactory, Strategy.parameter]
    · simp only [Strategy.bollinger, Strategy.ma, Strategy.rsi, Strategy.sentimentFactory,
        Strategy.supportResistanceFactory]
      decide

theorem requireBelow_eq_ok {low high : String} {parameters : Parameters} {left right : JsNumber}
    (hlow : parameters.lookup low = some (.inl left))
    (hhigh : parameters.lookup high = some (.inl right)) (hl : left.isFinite = true)
    (hr : right.isFinite = true) (hlt : left.lt right = true) :
    ∃ u, requireBelow numbers low high parameters = .ok u := by
  have hnot : right.le left = false := by
    rw [Bool.eq_false_iff, ne_eq, JsNumber.le_iff hr hl, not_le]
    exact (JsNumber.lt_iff hl hr).mp hlt
  refine ⟨(), throwIf_eq_ok.mpr ?_⟩
  rw [numberParameter, numberParameter, hlow, hhigh]
  exact hnot

/-- The first legal values of two bounded numbers are a legal pair, if they are in order. -/
theorem legalPairs_ne_nil {relationship : Relationship} {left right : SearchParameterDescriptor}
    {a b c d : Decimal} (hleft : Bounded left a b) (hright : Bounded right c d)
    (hleftFirst : (JsNumber.ofInt 0).lt (countOf left (.ofInt 0)) = true ∧
      aligned (valueAt left (.ofInt 0) 0) left = true)
    (hrightFirst : (JsNumber.ofInt 0).lt (countOf right (.ofInt 0)) = true ∧
      aligned (valueAt right (.ofInt 0) 0) right = true)
    (hsatisfied : satisfies relationship.below (valueAt left (.ofInt 0) 0)
      (valueAt right (.ofInt 0) 0) = true) (low high : JsNumber) :
    legalPairs relationship (left, low) (right, high) ≠ [] := by
  have hfirst : ∀ {descriptor : SearchParameterDescriptor} {minimum maximum : Decimal}
      (current : JsNumber), Bounded descriptor minimum maximum →
      (JsNumber.ofInt 0).lt (countOf descriptor (.ofInt 0)) = true ∧
        aligned (valueAt descriptor (.ofInt 0) 0) descriptor = true →
      valueAt descriptor (.ofInt 0) 0 ∈ numericValues descriptor current := by
    intro descriptor minimum maximum current hbounded hclosed
    have hvalue : valueAt descriptor current 0 = valueAt descriptor (.ofInt 0) 0 :=
      hbounded.valueAt_eq 0
    rw [← hvalue]
    apply first_mem_numericValues
    · rw [hbounded.countOf_eq]
      exact hclosed.1
    · rw [hvalue]
      exact hclosed.2
  have hpair : (valueAt left (.ofInt 0) 0, valueAt right (.ofInt 0) 0) ∈
      legalPairs relationship (left, low) (right, high) :=
    mem_legalPairs.mpr
      ⟨hfirst low hleft hleftFirst, hfirst high hright hrightFirst, hsatisfied⟩
  exact List.ne_nil_of_mem hpair

theorem bounded_snapshot {key : String} {type : Strategy.ParameterType} {default : JsNumber}
    {minimum maximum : Decimal} (hkind : type ≠ .enumerated) :
    Bounded (snapshot (Strategy.parameter key type default (.finite minimum) (.finite maximum)))
      minimum maximum :=
  ⟨hkind, rfl, rfl, rfl⟩

theorem ma_asked : Asked (Strategy.ma numbers artifactSha256) ⟨"fastPeriod", "slowPeriod", true⟩ where
  ne := by decide
  pair := by
    refine ⟨_, List.mem_cons_self, _, List.mem_cons_of_mem _ List.mem_cons_self, rfl, rfl, ?_⟩
    exact legalPairs_ne_nil (bounded_snapshot (by decide)) (bounded_snapshot (by decide))
      (by decide +kernel) (by decide +kernel) (by decide +kernel)
  checked _ _ _ hlow hhigh hl hr hlt := requireBelow_eq_ok numbers hlow hhigh hl hr hlt

theorem rsi_asked :
    Asked (Strategy.rsi numbers artifactSha256) ⟨"buyThreshold", "sellThreshold", true⟩ where
  ne := by decide
  pair := by
    refine ⟨_, List.mem_cons_of_mem _ List.mem_cons_self, _,
      List.mem_cons_of_mem _ (List.mem_cons_of_mem _ List.mem_cons_self), rfl, rfl, ?_⟩
    exact legalPairs_ne_nil (bounded_snapshot (by decide)) (bounded_snapshot (by decide))
      (by decide +kernel) (by decide +kernel) (by decide +kernel)
  checked _ _ _ hlow hhigh hl hr hlt := requireBelow_eq_ok numbers hlow hhigh hl hr hlt

/-- Sentiment buys above the threshold it sells below. -/
theorem sentiment_asked :
    Asked (Strategy.sentimentFactory numbers artifactSha256)
      ⟨"buyThreshold", "sellThreshold", false⟩ where
  ne := by decide
  pair := by
    refine ⟨_, List.mem_cons_self, _, List.mem_cons_of_mem _ List.mem_cons_self, rfl, rfl, ?_⟩
    exact legalPairs_ne_nil (bounded_snapshot (by decide)) (bounded_snapshot (by decide))
      (by decide +kernel) (by decide +kernel) (by decide +kernel)
  checked _ _ _ hlow hhigh hl hr hlt := requireBelow_eq_ok numbers hhigh hlow hr hl hlt

theorem AsciiCase.lower_eq (h : AsciiCase host) {text lowered : String}
    (hascii : text.toList.all (·.toNat < 128) = true)
    (hlowered : String.ofList (text.toList.map Char.toLower) = lowered) :
    host.toLowerCase text = lowered :=
  (h.lower text hascii).trans hlowered

theorem builtIn_related (hcase : AsciiCase host)
    (hfactory : factory ∈ builtInFactories numbers artifactSha256) : Related host factory := by
  intro parameters hkeys
  have hfast : host.toLowerCase "fastPeriod" = "fastperiod" := hcase.lower_eq (by decide) (by decide)
  have hslow : host.toLowerCase "slowPeriod" = "slowperiod" := hcase.lower_eq (by decide) (by decide)
  have hbuy : host.toLowerCase "buyThreshold" = "buythreshold" :=
    hcase.lower_eq (by decide) (by decide)
  have hsell : host.toLowerCase "sellThreshold" = "sellthreshold" :=
    hcase.lower_eq (by decide) (by decide)
  have hperiod : host.toLowerCase "period" = "period" := hcase.lower_eq (by decide) (by decide)
  have hdeviations : host.toLowerCase "deviations" = "deviations" :=
    hcase.lower_eq (by decide) (by decide)
  have hlookback : host.toLowerCase "lookback" = "lookback" := hcase.lower_eq (by decide) (by decide)
  have hproximity : host.toLowerCase "proximityPercent" = "proximitypercent" :=
    hcase.lower_eq (by decide) (by decide)
  have hrsi : host.toUpperCase "RSI" = "RSI" := (hcase.upper "RSI" (by decide)).trans (by decide)
  have hsentiment : host.toUpperCase "SENTIMENT" = "SENTIMENT" :=
    (hcase.upper "SENTIMENT" (by decide)).trans (by decide)
  rw [relationships, parameterKey_eq hkeys, parameterKey_eq hkeys, parameterKey_eq hkeys,
    parameterKey_eq hkeys]
  simp only [builtInFactories, List.mem_cons, List.not_mem_nil, or_false] at hfactory
  rcases hfactory with rfl | rfl | rfl | rfl | rfl
  · refine Or.inl ⟨?_, (), rfl⟩
    simp [Strategy.bollinger, Strategy.parameter, hperiod, hdeviations]
  · refine Or.inr ⟨_, ?_, ma_asked numbers artifactSha256⟩
    simp [Strategy.ma, Strategy.parameter, hfast, hslow]
  · refine Or.inr ⟨_, ?_, rsi_asked numbers artifactSha256⟩
    simp [Strategy.rsi, Strategy.parameter, hperiod, hbuy, hsell, hrsi]
  · refine Or.inr ⟨_, ?_, sentiment_asked numbers artifactSha256⟩
    simp [Strategy.sentimentFactory, Strategy.parameter, hbuy, hsell, hsentiment]
  · refine Or.inl ⟨?_, (), rfl⟩
    simp [Strategy.supportResistanceFactory, Strategy.parameter, hlookback, hproximity]

/-- A definition of a built-in strategy that the strategy accepts is mutated into one that it accepts
unchanged, with nothing but its parameters changed, whatever is drawn. -/
theorem mutated_definition_accepted (hcase : AsciiCase host)
    (hfactory : factory ∈ builtInFactories numbers artifactSha256)
    {definition : SearchStrategyDefinition} {normalized : Parameters} {random : Nat → ℚ}
    (hname : definition.strategyName = factory.descriptor.name)
    (hdescriptors : definition.parameterDescriptors =
      some (factory.descriptor.parameters.map snapshot))
    (hok : validateParameters factory definition.parameters = .ok normalized)
    (hrandom : ∀ n, IsRandom (random n)) (position : Nat) (force : Bool) :
    ∃ result, mutateSearchStrategyDefinition host random definition position force = .ok result ∧
      validateParameters factory result.definition.parameters =
        .ok result.definition.parameters ∧
      result.definition = definition.withParameters result.definition.parameters :=
  mutate_of_agreed (builtIn_agreed numbers artifactSha256 hfactory)
    (builtIn_related numbers artifactSha256 hcase hfactory) hrandom hname hdescriptors hok position
    force

end BuiltIn

/-- A host that knows the case of ASCII letters. -/
def asciiHost : GeneticHost where
  localeCompare := compare
  sha256 _ := "0000000000000000"
  toUpperCase text := String.ofList (text.toList.map Char.toUpper)
  toLowerCase text := String.ofList (text.toList.map Char.toLower)
  toNumber _ := .nan

theorem asciiCase_asciiHost : AsciiCase asciiHost := ⟨fun _ _ => rfl, fun _ _ => rfl⟩

theorem isRandom_zero : IsRandom 0 :=
  ⟨by exact_mod_cast isDouble_intCast (n := 0) (by norm_num), le_rfl, by norm_num⟩

/-- A moving average of the default periods. -/
def averageDefinition : SearchStrategyDefinition where
  id := "average"
  strategyName := "MA"
  implementationVersion := "1.0.0"
  implementationSha256 := "MA"
  parameters := [("fastPeriod", .inl (.ofInt 20)), ("slowPeriod", .inl (.ofInt 50))]
  userId := "user-1"
  logicalFamilyKey := "MA"
  familyName := "MA"
  version := 1
  createdAt := "2024-01-01T00:00:00.000Z"
  category := some "TREND"
  parameterDescriptors :=
    some ((Strategy.ma Strategy.exampleNumbers id).descriptor.parameters.map snapshot)

theorem mutated_average_accepted :
    ∃ result, mutateSearchStrategyDefinition asciiHost (fun _ => 0) averageDefinition 0 true =
        .ok result ∧
      validateParameters (Strategy.ma Strategy.exampleNumbers id) result.definition.parameters =
        .ok result.definition.parameters ∧
      result.definition = averageDefinition.withParameters result.definition.parameters := by
  have hfactory : Strategy.ma Strategy.exampleNumbers id ∈
      builtInFactories Strategy.exampleNumbers id :=
    List.mem_cons_of_mem _ List.mem_cons_self
  have hok : validateParameters (Strategy.ma Strategy.exampleNumbers id)
      averageDefinition.parameters = .ok averageDefinition.parameters := rfl
  exact mutated_definition_accepted Strategy.exampleNumbers id asciiCase_asciiHost hfactory rfl rfl
    hok (fun _ => isRandom_zero) 0 true

end Cryptox.Search
