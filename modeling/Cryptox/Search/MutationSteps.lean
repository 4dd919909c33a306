import Cryptox.Search.LegalValues

/-!
# What a mutation keeps

The loops and the repair only assign legal values to parameters that are there. What holds of every
value and of the legal ones therefore holds of the mutated parameters, and a repaired relationship
is satisfied.
-/
namespace Cryptox.Search

open Cryptox.Backtesting (JsNumber IsRandom)
open Cryptox.Strategy (Parameters ParameterValue)

section Assign

variable {parameters : Parameters} {key other : String} {value : ParameterValue}

/-- A lookup after a change of values that depends on the keys. -/
theorem lookup_map_entry (f : String → ParameterValue → ParameterValue) (entries : Parameters)
    (key : String) : (entries.map fun entry => (entry.1, f entry.1 entry.2)).lookup key =
      (entries.lookup key).map (f key) := by
  induction entries with
  | nil => rfl
  | cons entry entries ih =>
    rw [List.map_cons, List.lookup_cons, List.lookup_cons, ih]
    by_cases hkey : key = entry.1
    · rw [← hkey, beq_self_eq_true]
      rfl
    · rw [beq_eq_false_iff_ne.mpr hkey]

/-- An assignment to a key that is there changes the values under it. -/
theorem assign_eq (h : key ∈ parameters.map (·.1)) : assign parameters key value =
    parameters.map fun entry => (entry.1, if entry.1 = key then value else entry.2) := by
  obtain ⟨entry, hentry, hkey⟩ := List.mem_map.mp h
  have hany : (parameters.any (·.1 == key)) = true :=
    List.any_eq_true.mpr ⟨entry, hentry, beq_iff_eq.mpr hkey⟩
  rw [assign, if_pos hany]
  refine List.map_congr_left fun entry _ => ?_
  by_cases hkey : entry.1 = key
  · rw [if_pos hkey, if_pos hkey, hkey]
  · rw [if_neg hkey, if_neg hkey]

theorem map_fst_assign (h : key ∈ parameters.map (·.1)) :
    (assign parameters key value).map (·.1) = parameters.map (·.1) := by
  rw [assign_eq h, List.map_map]
  rfl

theorem mem_keys_iff : key ∈ parameters.map (·.1) ↔ (parameters.lookup key).isSome = true := by
  rw [List.lookup_isSome_iff]
  simp [List.mem_map]

theorem lookup_assign (h : key ∈ parameters.map (·.1)) :
    (assign parameters key value).lookup other =
      if other = key then some value else parameters.lookup other := by
  rw [assign_eq h, lookup_map_entry fun entryKey entryValue =>
    if entryKey = key then value else entryValue]
  by_cases hother : other = key
  · obtain ⟨current, hcurrent⟩ := Option.isSome_iff_exists.mp (mem_keys_iff.mp h)
    rw [hother, hcurrent, if_pos rfl, Option.map_some, if_pos rfl]
  · simp only [if_neg hother, Option.map_id']

end Assign

section Loops

variable (host : GeneticHost) {random : Nat → ℚ}

theorem legalValues_number {host : GeneticHost} {descriptor : SearchParameterDescriptor}
    (hkind : descriptor.type ≠ .enumerated) (number : JsNumber) :
    legalValues host descriptor (.inl number) = (numericValues descriptor number).map .inl := by
  unfold legalValues
  cases htype : descriptor.type with
  | enumerated => exact absurd htype hkind
  | integer => rfl
  | number => rfl

theorem mutateValue_cases (hrandom : ∀ n, IsRandom (random n))
    (descriptor : SearchParameterDescriptor) (current : ParameterValue) (position : Nat) :
    (mutateValue host random descriptor current position).1 = current ∨
      (mutateValue host random descriptor current position).1 ∈
        legalValues host descriptor current := by
  rw [mutateValue]
  split
  · exact Or.inl rfl
  · rename_i hne
    rw [List.isEmpty_iff] at hne
    exact Or.inr (List.mem_filter.mp (draw_mem (hrandom position) hne current)).1

/-- What a visit of a descriptor can do: nothing, or the assignment of a value that differs. -/
theorem mutateAt_cases (hrandom : ∀ n, IsRandom (random n)) (descriptor : SearchParameterDescriptor)
    (mutation : Mutation) :
    ((mutateAt host random descriptor mutation).parameters = mutation.parameters ∧
        (mutateAt host random descriptor mutation).keys = mutation.keys) ∨
      ∃ current value, mutation.parameters.lookup descriptor.key = some current ∧
        (value = current ∨ value ∈ legalValues host descriptor current) ∧
        sameValue value current = false ∧
        (mutateAt host random descriptor mutation).parameters =
          assign mutation.parameters descriptor.key value ∧
        (mutateAt host random descriptor mutation).keys = mutation.keys ++ [descriptor.key] := by
  rw [mutateAt]
  cases hcurrent : mutation.parameters.lookup descriptor.key with
  | none => exact Or.inl ⟨rfl, rfl⟩
  | some current =>
    dsimp only
    have hcases := mutateValue_cases host hrandom descriptor current mutation.position
    split
    · exact Or.inl ⟨rfl, rfl⟩
    · rename_i hdiffers
      exact Or.inr ⟨current, _, rfl, hcases, Bool.not_eq_true _ |>.mp hdiffers, rfl, rfl⟩

end Loops

/-- Parameters with the given keys, of which each value is as its key asks for. -/
structure Kept (keys : List String) (allowed : String → ParameterValue → Prop)
    (parameters : Parameters) : Prop where
  keys_eq : parameters.map (·.1) = keys
  holds : ∀ key value, parameters.lookup key = some value → allowed key value

namespace Kept

variable {host : GeneticHost} {random : Nat → ℚ} {keys : List String}
  {allowed : String → ParameterValue → Prop} {parameters : Parameters} {mutation : Mutation}
  {descriptors : List SearchParameterDescriptor}

theorem mem_keys (h : Kept keys allowed parameters) {key : String} {value : ParameterValue}
    (hvalue : parameters.lookup key = some value) : key ∈ keys := by
  rw [← h.keys_eq, mem_keys_iff, hvalue]
  rfl

theorem assigned (h : Kept keys allowed parameters) {key : String} {value : ParameterValue}
    (hmem : key ∈ keys) (hvalue : allowed key value) :
    Kept keys allowed (assign parameters key value) := by
  rw [← h.keys_eq] at hmem
  refine ⟨(map_fst_assign hmem).trans h.keys_eq, fun other found hfound => ?_⟩
  rw [lookup_assign hmem] at hfound
  split at hfound
  · rename_i hother
    rw [hother, ← Option.some.inj hfound]
    exact hvalue
  · exact h.holds other found hfound

/-- The legal values of each descriptor are allowed for its key. -/
def Legal (host : GeneticHost) (allowed : String → ParameterValue → Prop)
    (descriptors : List SearchParameterDescriptor) : Prop :=
  ∀ descriptor ∈ descriptors, ∀ current, allowed descriptor.key current →
    ∀ value ∈ legalValues host descriptor current, allowed descriptor.key value

theorem mutateAt (hrandom : ∀ n, IsRandom (random n)) {descriptor : SearchParameterDescriptor}
    (hlegal : Legal host allowed [descriptor]) (h : Kept keys allowed mutation.parameters) :
    Kept keys allowed (mutateAt host random descriptor mutation).parameters := by
  obtain ⟨hsame, -⟩ | ⟨current, value, hcurrent, hvalue, -, hassign, -⟩ :=
    mutateAt_cases host hrandom descriptor mutation
  · rw [hsame]
    exact h
  · have hallowed := h.holds _ _ hcurrent
    rw [hassign]
    refine h.assigned (h.mem_keys hcurrent) ?_
    rcases hvalue with rfl | hvalue
    · exact hallowed
    · exact hlegal descriptor List.mem_cons_self current hallowed value hvalue

theorem mutateSome (hrandom : ∀ n, IsRandom (random n)) (hlegal : Legal host allowed descriptors)
    (h : Kept keys allowed mutation.parameters) :
    Kept keys allowed (mutateSome host random descriptors mutation).parameters := by
  induction descriptors generalizing mutation with
  | nil => exact h
  | cons descriptor descriptors ih =>
    rw [Search.mutateSome]
    apply ih fun other hother => hlegal other (List.mem_cons_of_mem _ hother)
    split
    · refine Kept.mutateAt hrandom (fun other hother => hlegal other ?_) h
      rw [List.mem_singleton.mp hother]
      exact List.mem_cons_self
    · exact h

theorem mutateOne (hrandom : ∀ n, IsRandom (random n)) (hlegal : Legal host allowed descriptors)
    (h : Kept keys allowed mutation.parameters) :
    Kept keys allowed (mutateOne host random descriptors mutation).parameters := by
  induction descriptors generalizing mutation with
  | nil => exact h
  | cons descriptor descriptors ih =>
    have hnext : Kept keys allowed (Search.mutateAt host random descriptor mutation).parameters := by
      refine Kept.mutateAt hrandom (fun other hother => hlegal other ?_) h
      rw [List.mem_singleton.mp hother]
      exact List.mem_cons_self
    rw [Search.mutateOne]
    split
    · exact ih (fun other hother => hlegal other (List.mem_cons_of_mem _ hother)) hnext
    · exact hnext

theorem mutateParameters (hrandom : ∀ n, IsRandom (random n))
    (hlegal : Legal host allowed descriptors) (h : Kept keys allowed parameters) (position : Nat)
    (force : Bool) :
    Kept keys allowed
      (mutateParameters host random descriptors parameters position force).parameters := by
  have hsome : Kept keys allowed
      (Search.mutateSome host random descriptors ⟨parameters, [], position⟩).parameters :=
    Kept.mutateSome hrandom hlegal h
  rw [Search.mutateParameters]
  split
  · exact Kept.mutateOne hrandom hlegal hsome
  · exact hsome

end Kept

section Repair

variable {random : Nat → ℚ} {descriptors : List SearchParameterDescriptor}
  {relationship : Relationship} {mutation next : Mutation}

theorem parameterKey_eq {host : GeneticHost} {parameters : Parameters} {keys : List String}
    (h : parameters.map (·.1) = keys) (name : String) :
    parameterKey host parameters name = keys.find? fun key => host.toLowerCase key == name := by
  rw [← h, List.find?_map]
  rfl

theorem numericParameter_eq_some {parameters : Parameters} {key : String}
    {found : SearchParameterDescriptor × JsNumber}
    (h : numericParameter descriptors parameters key = some found) :
    found.1 ∈ descriptors ∧ found.1.key = key ∧ found.1.type ≠ .enumerated ∧
      parameters.lookup key = some (.inl found.2) := by
  rw [numericParameter] at h
  split at h
  · rename_i descriptor number hdescriptor hnumber
    split at h
    · cases h
    · rename_i hkind
      obtain rfl := Option.some.inj h
      have hkey : descriptor.key = key := by simpa using List.find?_some hdescriptor
      exact ⟨List.mem_of_find?_eq_some hdescriptor, hkey, hkind, hnumber⟩
  · cases h

theorem mem_legalPairs {left right : SearchParameterDescriptor × JsNumber}
    {pair : JsNumber × JsNumber} :
    pair ∈ legalPairs relationship left right ↔ pair.1 ∈ numericValues left.1 left.2 ∧
      pair.2 ∈ numericValues right.1 right.2 ∧
      satisfies relationship.below pair.1 pair.2 = true := by
  obtain ⟨leftValue, rightValue⟩ := pair
  simp only [legalPairs, List.mem_flatMap, List.mem_map, List.mem_filter, Prod.mk.injEq]
  constructor
  · rintro ⟨value, hvalue, other, ⟨hother, hsatisfied⟩, rfl, rfl⟩
    exact ⟨hvalue, hother, hsatisfied⟩
  · rintro ⟨hleft, hright, hsatisfied⟩
    exact ⟨leftValue, hleft, rightValue, ⟨hright, hsatisfied⟩, rfl, rfl⟩

/-- What a repair can do: nothing, or the assignment of a legal pair to two numbers that are not
in order. -/
theorem repairRelationship_cases (hrandom : ∀ n, IsRandom (random n))
    (h : repairRelationship random descriptors relationship mutation = .ok next) :
    (next = mutation ∧ ∀ left right,
        numericParameter descriptors mutation.parameters relationship.left = some left →
        numericParameter descriptors mutation.parameters relationship.right = some right →
        satisfies relationship.below left.2 right.2 = true) ∨
      ∃ left right,
        numericParameter descriptors mutation.parameters relationship.left = some left ∧
        numericParameter descriptors mutation.parameters relationship.right = some right ∧
        satisfies relationship.below left.2 right.2 = false ∧
        draw random mutation.position (legalPairs relationship left right) (left.2, right.2) ∈
          legalPairs relationship left right ∧
        next = assignPair relationship left.2 right.2
          (draw random mutation.position (legalPairs relationship left right) (left.2, right.2))
          mutation := by
  rw [repairRelationship] at h
  split at h
  · rename_i left right hleft hright
    split at h
    · rename_i hsatisfied
      cases h
      refine Or.inl ⟨rfl, fun left' right' hleft' hright' => ?_⟩
      obtain rfl := Option.some.inj (hleft.symm.trans hleft')
      obtain rfl := Option.some.inj (hright.symm.trans hright')
      exact hsatisfied
    · rename_i hbroken
      rw [Bool.not_eq_true] at hbroken
      dsimp only at h
      split at h
      · cases h
      · rename_i hne
        rw [List.isEmpty_iff] at hne
        cases h
        exact Or.inr ⟨left, right, hleft, hright, hbroken,
          draw_mem (hrandom mutation.position) hne _, rfl⟩
  · rename_i hnone
    cases h
    exact Or.inl ⟨rfl, fun left right hleft hright => (hnone left right hleft hright).elim⟩

/-- With a legal pair at hand a repair does not throw. -/
theorem repairRelationship_isOk {left right : SearchParameterDescriptor × JsNumber}
    (hleft : numericParameter descriptors mutation.parameters relationship.left = some left)
    (hright : numericParameter descriptors mutation.parameters relationship.right = some right)
    (hne : legalPairs relationship left right ≠ []) :
    ∃ next, repairRelationship random descriptors relationship mutation = .ok next := by
  rw [repairRelationship, hleft, hright]
  dsimp only
  split
  · exact ⟨_, rfl⟩
  · rw [if_neg fun hempty => hne (List.isEmpty_iff.mp hempty)]
    exact ⟨_, rfl⟩

end Repair

namespace Kept

variable {host : GeneticHost} {random : Nat → ℚ} {keys : List String}
  {allowed : String → ParameterValue → Prop} {descriptors : List SearchParameterDescriptor}
  {relationship : Relationship} {mutation next : Mutation}

theorem allowed_numericValues (hlegal : Legal host allowed descriptors)
    (h : Kept keys allowed mutation.parameters) {key : String}
    {found : SearchParameterDescriptor × JsNumber}
    (hfound : numericParameter descriptors mutation.parameters key = some found) {value : JsNumber}
    (hvalue : value ∈ numericValues found.1 found.2) : key ∈ keys ∧ allowed key (.inl value) := by
  obtain ⟨hmem, rfl, hkind, hlookup⟩ := numericParameter_eq_some hfound
  refine ⟨h.mem_keys hlookup, hlegal _ hmem _ (h.holds _ _ hlookup) _ ?_⟩
  rw [legalValues_number hkind]
  exact List.mem_map_of_mem hvalue

/-- A repair keeps what is allowed, and leaves two numbers in order. -/
theorem repairRelationship (hrandom : ∀ n, IsRandom (random n))
    (hlegal : Legal host allowed descriptors) (h : Kept keys allowed mutation.parameters)
    (hne : relationship.left ≠ relationship.right)
    {left right : SearchParameterDescriptor × JsNumber}
    (hleft : numericParameter descriptors mutation.parameters relationship.left = some left)
    (hright : numericParameter descriptors mutation.parameters relationship.right = some right)
    (hok : repairRelationship random descriptors relationship mutation = .ok next) :
    Kept keys allowed next.parameters ∧
      ∃ low high, next.parameters.lookup relationship.left = some (.inl low) ∧
        next.parameters.lookup relationship.right = some (.inl high) ∧
        satisfies relationship.below low high = true := by
  obtain ⟨rfl, hsatisfied⟩ | ⟨left', right', hleft', hright', -, hpair, rfl⟩ :=
    repairRelationship_cases hrandom hok
  · exact ⟨h, left.2, right.2, (numericParameter_eq_some hleft).2.2.2,
      (numericParameter_eq_some hright).2.2.2, hsatisfied left right hleft hright⟩
  · obtain rfl := Option.some.inj (hleft.symm.trans hleft')
    obtain rfl := Option.some.inj (hright.symm.trans hright')
    generalize draw random mutation.position (legalPairs relationship left right)
      (left.2, right.2) = pair at hpair
    obtain ⟨hfirst, hsecond, hsatisfied⟩ := mem_legalPairs.mp hpair
    obtain ⟨hleftKey, hleftValue⟩ := h.allowed_numericValues hlegal hleft hfirst
    obtain ⟨hrightKey, hrightValue⟩ := h.allowed_numericValues hlegal hright hsecond
    have hassigned := h.assigned hleftKey hleftValue
    have hleftKey' := hleftKey
    have hrightKey' := hrightKey
    rw [← h.keys_eq] at hleftKey'
    rw [← hassigned.keys_eq] at hrightKey'
    refine ⟨hassigned.assigned hrightKey hrightValue, pair.1, pair.2, ?_, ?_, hsatisfied⟩
    · rw [assignPair, lookup_assign hrightKey', if_neg hne, lookup_assign hleftKey', if_pos rfl]
    · rw [assignPair, lookup_assign hrightKey', if_pos rfl]

end Kept

end Cryptox.Search
