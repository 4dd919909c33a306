import Cryptox.Outbound.Web

/-!
# The loader of strategy sources

Its guards against addresses that are not public, and the requests of one `load`.
-/
namespace Cryptox.Outbound.PublicSourceLoader

open Cryptox.Library

def blockedHostname (hostname : Text) : Bool :=
  let normalized := normalizedHostname hostname
  normalized == "localhost".toList || endsWith normalized ".localhost".toList
    || endsWith normalized ".local".toList || normalized == "metadata.google.internal".toList

/-- The callers hand over four groups of digits; `Number` of such a group is its value. -/
def blockedIpv4 (value : Text) : Bool :=
  match (value.splitOn '.').map decimalValue? with
  | [some a, some b, some c, some d] =>
    if a > 255 || b > 255 || c > 255 || d > 255 then true
    else a == 0 || a == 10 || a == 127
      || (a == 100 && b ≥ 64 && b ≤ 127)
      || (a == 169 && b == 254)
      || (a == 172 && b ≥ 16 && b ≤ 31)
      || (a == 192 && (b == 0 || b == 168))
      || (a == 198 && (b ≥ 18 && b ≤ 19 || b == 51 && c == 100))
      || (a == 203 && b == 0 && c == 113)
      || a ≥ 224
  | _ => true

/-- `/^fe[89ab]/`. -/
def isLinkLocalText : Text → Bool
  | 'f' :: 'e' :: c :: _ => "89ab".toList.contains c
  | _ => false

/-- The last part of `/^::ffff:(\d+\.\d+\.\d+\.\d+)$/`. -/
def mappedText (normalized : Text) : Option Text :=
  let rest := normalized.drop 7
  if startsWith normalized "::ffff:".toList && (rest.splitOn '.').length == 4
      && (rest.splitOn '.').all fun group => (decimalValue? group).isSome then some rest
  else none

def blockedIpv6 (value : Text) : Bool :=
  let normalized := toLowerCase value
  if normalized == "::".toList || normalized == "::1".toList || isLinkLocalText normalized
      || startsWith normalized "fc".toList || startsWith normalized "fd".toList
      || startsWith normalized "ff".toList then true
  else
    match mappedText normalized with
    | some mapped => blockedIpv4 mapped
    | none => false

def blockedAddress (value : Text) : Bool :=
  let normalized := stripBrackets value
  match isIP normalized with
  | 4 => blockedIpv4 normalized
  | 6 => blockedIpv6 normalized
  | _ => true

def assertPublicUrl (web : Web) (step : Nat) (value : Text) : Except String Url :=
  match web.parse value with
  | none => .error "STRATEGY_SOURCE_INVALID_URL"
  | some url =>
    let hostname := stripBrackets url.hostname
    if !isPlainHttp url || blockedHostname hostname then .error "STRATEGY_SOURCE_UNSAFE"
    else if isIP hostname ≠ 0 then
      if blockedAddress hostname then .error "STRATEGY_SOURCE_UNSAFE" else .ok url
    else
      match web.resolve step hostname with
      | .error message =>
        .error (if message = "STRATEGY_SOURCE_TIMEOUT" then message else "STRATEGY_SOURCE_UNAVAILABLE")
      | .ok addresses =>
        if addresses.isEmpty || addresses.any blockedAddress then .error "STRATEGY_SOURCE_UNSAFE"
        else .ok url

/-- Where a response redirects to. -/
def redirectTarget (web : Web) (current : Url) (response : Response) : Option Text :=
  if 300 ≤ response.status && response.status < 400 then
    match response.location with
    | none => none
    | some location => if location.isEmpty then none else web.join location current
  else none

/-- The requests from a checked URL on, with the redirects that are left. -/
def requestsFrom (web : Web) : Nat → Nat → Url → List Request
  | 0, step, current => [⟨step, current⟩]
  | redirects + 1, step, current =>
    ⟨step, current⟩ ::
      match (web.respond step current).bind (redirectTarget web current) with
      | none => []
      | some target =>
        match assertPublicUrl web (step + 1) target with
        | .error _ => []
        | .ok next => requestsFrom web redirects (step + 1) next

/-- The requests of `load`. -/
def load (web : Web) (maxRedirects : Nat) (inputUrl : Text) : List Request :=
  match assertPublicUrl web 0 inputUrl with
  | .error _ => []
  | .ok current => requestsFrom web maxRedirects 0 current

/-- The address a request is checked for: the host itself, or what it is resolved to. -/
def Checks (web : Web) (request : Request) (address : Text) : Prop :=
  let hostname := stripBrackets request.url.hostname
  if isIP hostname ≠ 0 then address = hostname
  else ∃ addresses, web.resolve request.step hostname = .ok addresses ∧ address ∈ addresses

/-- A URL that passes is checked for no blocked address. -/
theorem assertPublicUrl_checked {web : Web} {step : Nat} {value : Text} {url : Url}
    (h : assertPublicUrl web step value = .ok url) {address : Text}
    (haddress : Checks web ⟨step, url⟩ address) : blockedAddress address = false := by
  unfold assertPublicUrl at h
  split at h
  · cases h
  · rename_i parsed hparsed
    dsimp only at h
    split at h
    · cases h
    · split at h
      · rename_i hkind
        split at h
        · cases h
        · rename_i hopen
          cases h
          rw [Checks, if_pos hkind] at haddress
          rw [haddress]
          exact Bool.eq_false_iff.mpr hopen
      · rename_i hkind
        split at h
        · cases h
        · rename_i addresses hresolved
          split at h
          · cases h
          · rename_i hopen
            cases h
            rw [Checks, if_neg hkind] at haddress
            obtain ⟨others, hothers, hmem⟩ := haddress
            cases hresolved.symm.trans hothers
            rw [Bool.or_eq_true, not_or, List.any_eq_true, not_exists] at hopen
            exact Bool.eq_false_iff.mpr fun hblocked => hopen.2 address ⟨hmem, hblocked⟩

theorem requestsFrom_checked {web : Web} (redirects : Nat) {step : Nat} {current : Url}
    (h : ∃ value, assertPublicUrl web step value = .ok current) :
    ∀ request ∈ requestsFrom web redirects step current,
      ∃ value, assertPublicUrl web request.step value = .ok request.url := by
  induction redirects generalizing step current with
  | zero =>
    intro request hrequest
    rw [List.mem_singleton.mp hrequest]
    exact h
  | succ redirects ih =>
    intro request hrequest
    rw [requestsFrom] at hrequest
    rcases List.mem_cons.mp hrequest with rfl | hrequest
    · exact h
    · split at hrequest
      · cases hrequest
      · rename_i target htarget
        split at hrequest
        · cases hrequest
        · rename_i next hnext
          exact ih ⟨target, hnext⟩ request hrequest

/-- No request of a load, neither the first nor a redirected one, is checked for a blocked address. -/
theorem load_checked {web : Web} {maxRedirects : Nat} {inputUrl : Text} {request : Request}
    (h : request ∈ load web maxRedirects inputUrl) {address : Text}
    (haddress : Checks web request address) : blockedAddress address = false := by
  unfold load at h
  split at h
  · cases h
  · rename_i current hcurrent
    obtain ⟨value, hvalue⟩ := requestsFrom_checked maxRedirects ⟨inputUrl, hcurrent⟩ request h
    exact assertPublicUrl_checked hvalue haddress

end Cryptox.Outbound.PublicSourceLoader
