import Cryptox.Outbound.Web

/-!
# The news crawler

Its guards against private addresses, and the requests of one page.
-/
namespace Cryptox.Outbound.CrawlerProvider

open Cryptox.Library

def ipv4Parts (value : Text) : Option (List Nat) :=
  let parts := (value.splitOn '.').map decimalValue?
  if parts.length ≠ 4 then none
  else (parts.mapM id).filter fun numbers => numbers.all (· ≤ 255)

/-- The dotted end of a text that begins as a mapped address. -/
def mappedParts (address : Text) : Option (List Nat) :=
  if startsWith address "::ffff:".toList then ipv4Parts (address.drop 7) else none

def isPrivateAddress (value : Text) : Bool :=
  let address := (toLowerCase value).takeWhile (· ≠ '%')
  match (ipv4Parts address).orElse fun _ => mappedParts address with
  | some (first :: second :: _) =>
    first == 0 || first == 10 || first == 127
      || (first == 100 && second ≥ 64 && second ≤ 127)
      || (first == 169 && second == 254)
      || (first == 172 && second ≥ 16 && second ≤ 31)
      || (first == 192 && second == 0)
      || (first == 192 && second == 168)
      || (first == 198 && second ≥ 18 && second ≤ 19)
      || first ≥ 224
  | _ =>
    isIP address == 6 && (address == "::".toList || address == "::1".toList
      || startsWith address "fc".toList || startsWith address "fd".toList
      || startsWith address "fe8".toList || startsWith address "fe9".toList
      || startsWith address "fea".toList || startsWith address "feb".toList)

def isPrivateHostname (hostname : Text) : Bool :=
  let normalized := normalizedHostname hostname
  normalized == "localhost".toList || endsWith normalized ".localhost".toList
    || endsWith normalized ".local".toList || endsWith normalized ".internal".toList
    || normalized == "metadata.google.internal".toList

/-- Every failure is the same: the stage FETCH, the reason ERROR. -/
def assertPublicUrl (web : Web) (step : Nat) (value : Text) : Option Url :=
  match web.parse value with
  | none => none
  | some url =>
    let hostname := stripBrackets url.hostname
    if !isPlainHttp url || isPrivateHostname hostname || isPrivateAddress hostname then none
    else
      match web.resolve step hostname with
      | .error _ => none
      | .ok addresses =>
        if addresses.isEmpty || addresses.any isPrivateAddress then none else some url

def redirectTarget (web : Web) (current : Url) (response : Response) : Option Text :=
  if [301, 302, 303, 307, 308].contains response.status then
    match response.location with
    | none => none
    | some location => if location.isEmpty then none else web.join location current
  else none

/-- The requests from a checked URL on, with the redirects that are left. A page that is not
redirected is checked once more, and requests nothing. -/
def requestsFrom (web : Web) : Nat → Nat → Url → List Request
  | 0, step, current => [⟨step, current⟩]
  | redirects + 1, step, current =>
    ⟨step, current⟩ ::
      match (web.respond step current).bind (redirectTarget web current) with
      | none => []
      | some target =>
        match assertPublicUrl web (step + 1) target with
        | none => []
        | some next => requestsFrom web redirects (step + 1) next

/-- The requests of `fetchWithBounds`. -/
def fetchWithBounds (web : Web) (maxRedirects : Nat) (sourceUrl : Text) : List Request :=
  match assertPublicUrl web 0 sourceUrl with
  | none => []
  | some current => requestsFrom web maxRedirects 0 current

/-- The addresses a request is checked for: the host itself, and what it is resolved to. -/
def Checks (web : Web) (request : Request) (address : Text) : Prop :=
  let hostname := stripBrackets request.url.hostname
  address = hostname ∨
    ∃ addresses, web.resolve request.step hostname = .ok addresses ∧ address ∈ addresses

/-- A URL that passes is checked for no private address. -/
theorem assertPublicUrl_checked {web : Web} {step : Nat} {value : Text} {url : Url}
    (h : assertPublicUrl web step value = some url) {address : Text}
    (haddress : Checks web ⟨step, url⟩ address) : isPrivateAddress address = false := by
  unfold assertPublicUrl at h
  split at h
  · cases h
  · rename_i parsed hparsed
    dsimp only at h
    split at h
    · cases h
    · rename_i hhost
      rw [Bool.or_eq_true, not_or] at hhost
      split at h
      · cases h
      · rename_i addresses hresolved
        split at h
        · cases h
        · rename_i hopen
          cases h
          rcases haddress with rfl | ⟨others, hothers, hmem⟩
          · exact Bool.eq_false_iff.mpr hhost.2
          · cases hresolved.symm.trans hothers
            rw [Bool.or_eq_true, not_or, List.any_eq_true, not_exists] at hopen
            exact Bool.eq_false_iff.mpr fun hprivate => hopen.2 address ⟨hmem, hprivate⟩

theorem requestsFrom_checked {web : Web} (redirects : Nat) {step : Nat} {current : Url}
    (h : ∃ value, assertPublicUrl web step value = some current) :
    ∀ request ∈ requestsFrom web redirects step current,
      ∃ value, assertPublicUrl web request.step value = some request.url := by
  induction redirects generalizing step current with
  | zero =>
    intro request hrequest
    rw [List.mem_singleton.mp hrequest]
    exact h
  | succ redirects ih =>
    intro request hrequest
    rw [requestsFrom] at hrequest
    rcases List.mem_cons.mp hrequest with rfl | hrequest
    · exact h
    · split at hrequest
      · cases hrequest
      · rename_i target htarget
        split at hrequest
        · cases hrequest
        · rename_i next hnext
          exact ih ⟨target, hnext⟩ request hrequest

/-- No request for a page, neither the first nor a redirected one, is checked for a private
address. -/
theorem fetchWithBounds_checked {web : Web} {maxRedirects : Nat} {sourceUrl : Text}
    {request : Request} (h : request ∈ fetchWithBounds web maxRedirects sourceUrl) {address : Text}
    (haddress : Checks web request address) : isPrivateAddress address = false := by
  unfold fetchWithBounds at h
  split at h
  · cases h
  · rename_i current hcurrent
    obtain ⟨value, hvalue⟩ := requestsFrom_checked maxRedirects ⟨sourceUrl, hcurrent⟩ request h
    exact assertPublicUrl_checked hvalue haddress

end Cryptox.Outbound.CrawlerProvider
