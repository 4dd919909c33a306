import Cryptox.Strategy.Api

/-!
# The history that accepted parameters need

Accepted parameters hold a period within its bounds under its key, so the indicators of a built-in
strategy have values just from as many candles on as the period asks for.
-/
namespace Cryptox.Strategy

open Cryptox.Backtesting (JsNumber Decimal StrategyContext)
open Cryptox.Library

theorem normalizeParameter_eq_ok {values : Parameters} {descriptor : StrategyParameterDescriptor}
    {entry : String × ParameterValue} (h : normalizeParameter values descriptor = .ok entry) :
    entry.1 = descriptor.key ∧ (descriptor.type = .integer → ∃ number, entry.2 = .inl number ∧
      number.isFinite = true ∧ number.isInteger = true ∧
      ∀ minimum ∈ descriptor.minimum, number.lt minimum = false) := by
  rw [normalizeParameter] at h
  cases hvalue : (values.lookup descriptor.key).getD descriptor.defaultValue with
  | inr text =>
    cases htype : descriptor.type with
    | enumerated =>
      simp only [hvalue, htype, bind_eq_ok, pure_eq_ok] at h
      obtain ⟨-, -, rfl⟩ := h
      exact ⟨rfl, fun hinteger => by cases hinteger⟩
    | integer =>
      simp only [hvalue, htype] at h
      cases h
    | number =>
      simp only [hvalue, htype] at h
      cases h
  | inl number =>
    cases htype : descriptor.type with
    | enumerated =>
      simp only [hvalue, htype] at h
      cases h
    | integer =>
      simp only [hvalue, htype, bind_eq_ok, pure_eq_ok, throwIf_eq_ok] at h
      obtain ⟨_, hkind, _, hminimum, _, -, rfl⟩ := h
      have hboth : number.isFinite = true ∧ number.isInteger = true := by simpa using hkind
      refine ⟨rfl, fun _ => ⟨number, rfl, hboth.1, hboth.2, ?_⟩⟩
      intro minimum hm
      rw [Option.mem_def.mp hm] at hminimum
      simpa using hminimum
    | number =>
      simp only [hvalue, htype, bind_eq_ok, pure_eq_ok] at h
      obtain ⟨-, -, -, -, -, -, rfl⟩ := h
      exact ⟨rfl, fun hinteger => by cases hinteger⟩

/-- Each descriptor finds its own entry among the normalized ones. -/
theorem lookup_normalized {values : Parameters} {descriptors : List StrategyParameterDescriptor}
    {normalized : Parameters} (hkeys : (descriptors.map (·.key)).Nodup)
    (h : descriptors.mapM (normalizeParameter values) = .ok normalized)
    {descriptor : StrategyParameterDescriptor} (hmem : descriptor ∈ descriptors) :
    ∃ value, normalizeParameter values descriptor = .ok (descriptor.key, value) ∧
      normalized.lookup descriptor.key = some value := by
  induction descriptors generalizing normalized with
  | nil => cases hmem
  | cons first rest ih =>
    rw [List.map_cons, List.nodup_cons] at hkeys
    rw [List.mapM_cons, bind_eq_ok] at h
    obtain ⟨entry, hentry, h⟩ := h
    rw [bind_eq_ok] at h
    obtain ⟨entries, hentries, h⟩ := h
    rw [← pure_eq_ok.mp h]
    have hkey := (normalizeParameter_eq_ok hentry).1
    rcases List.mem_cons.mp hmem with rfl | hmem
    · refine ⟨entry.2, by rw [hentry, ← hkey], ?_⟩
      rw [List.lookup_cons, hkey, beq_self_eq_true]
    · obtain ⟨value, hvalue, hlookup⟩ := ih hkeys.2 hentries hmem
      refine ⟨value, hvalue, ?_⟩
      have hne : (descriptor.key == entry.1) = false := by
        rw [hkey, beq_eq_false_iff_ne]
        exact fun heq => hkeys.1 (heq ▸ List.mem_map_of_mem hmem)
      rw [List.lookup_cons, hne]
      exact hlookup

theorem validateParameters_eq_ok {factory : StrategyFactory} {values normalized : Parameters}
    (h : validateParameters factory values = .ok normalized) :
    factory.descriptor.parameters.mapM (normalizeParameter values) = .ok normalized ∧
      ∃ u, factory.validateParameters normalized = .ok u := by
  rw [validateParameters, bind_eq_ok] at h
  obtain ⟨-, -, h⟩ := h
  rw [bind_eq_ok] at h
  obtain ⟨-, -, h⟩ := h
  rw [bind_eq_ok] at h
  obtain ⟨entries, hentries, h⟩ := h
  cases hchecked : factory.validateParameters entries with
  | error e =>
    simp only [hchecked] at h
    cases h
  | ok u =>
    simp only [hchecked] at h
    cases h
    exact ⟨hentries, u, hchecked⟩

/-- A whole number of at least two is a period. -/
theorem isPeriod_of_two_le {number : JsNumber} (hfinite : number.isFinite = true)
    (hinteger : number.isInteger = true) {minimum : Nat} (hpos : 0 < minimum)
    (hminimum : number.lt (.ofInt minimum) = false) : isPeriod number = true := by
  have hle : ¬ number.le (.ofInt 0) = true := by
    intro hle
    have hzero := (JsNumber.le_iff hfinite rfl).mp hle
    have hlow : ¬ number.toRat < (JsNumber.ofInt minimum).toRat := by
      intro hlt
      rw [(JsNumber.lt_iff hfinite rfl).mpr hlt] at hminimum
      cases hminimum
    rw [toRat_ofInt] at hlow
    have hzero' : number.toRat ≤ 0 := by simpa [JsNumber.ofInt, JsNumber.toRat] using hzero
    have hcast : (0 : ℚ) < minimum := by exact_mod_cast hpos
    exact hlow (lt_of_le_of_lt hzero' hcast)
  rw [isPeriod, hinteger, Bool.true_and, Bool.not_eq_true']
  exact Bool.eq_false_iff.mpr hle

/-- The entry of a whole-number parameter is a period under its key. -/
theorem accepted_period {factory : StrategyFactory} {values normalized : Parameters}
    (hkeys : (factory.descriptor.parameters.map (·.key)).Nodup)
    (h : validateParameters factory values = .ok normalized)
    (minimum : Nat) (hpos : 0 < minimum) {key : String} {default maximum : JsNumber}
    (hmem : parameter key .integer default (.ofInt minimum) maximum ∈
      factory.descriptor.parameters) :
    ∃ number, isPeriod number = true ∧ ∀ numbers fallback,
      numberParameter numbers normalized key fallback = number := by
  obtain ⟨value, hvalue, hlookup⟩ := lookup_normalized hkeys (validateParameters_eq_ok h).1 hmem
  obtain ⟨number, hnumber, hfinite, hinteger, hminimum⟩ :=
    (normalizeParameter_eq_ok hvalue).2 rfl
  refine ⟨number, isPeriod_of_two_le hfinite hinteger hpos (hminimum _ rfl), ?_⟩
  intro numbers fallback
  have hfound : normalized.lookup key = some (.inl number) := by
    rw [← hnumber]
    exact hlookup
  rw [numberParameter, hfound]

/-- The number after a period is not reached by just the counts up to the period. -/
theorem lt_oneMore {period : JsNumber} (h : isPeriod period = true) (n : Nat) :
    (JsNumber.ofInt n).lt (oneMore period) = true ↔ n < period.toNat + 1 := by
  obtain ⟨hfinite, hrat, -⟩ := period_toRat h
  cases period with
  | finite shown =>
    have hmore : (oneMore (.finite shown)).toRat = (JsNumber.finite shown).toRat + 1 := by
      simp [oneMore, JsNumber.toRat]
    rw [JsNumber.lt_iff rfl rfl, hmore, toRat_ofInt, hrat]
    exact_mod_cast Iff.rfl
  | nan => cases hfinite
  | infinity negative => cases hfinite

end Cryptox.Strategy
