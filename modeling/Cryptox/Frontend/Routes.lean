import Cryptox.Library.PercentEncoding

/-!
# The routes of the application

`parseAppRoute` and `appRoutePath` of the frontend state. The path of a route leads back to it, and
so does the path of whatever the address bar was parsed as.
-/
namespace Cryptox.Frontend

open Cryptox.Library

inductive AppScreen where
  | market | strategy | backtest | search | leaderboard | news | settings
deriving DecidableEq, Repr

structure AppRoute where
  screen : AppScreen
  resourceId : Option (List Char)
  register : Bool
deriving DecidableEq, Repr

def AppScreen.text : AppScreen → List Char
  | market => "market".toList
  | strategy => "strategy".toList
  | backtest => "backtest".toList
  | search => "search".toList
  | leaderboard => "leaderboard".toList
  | news => "news".toList
  | settings => "settings".toList

def screens : List AppScreen :=
  [.market, .strategy, .backtest, .search, .leaderboard, .news, .settings]

/-- A screen by its name in a path. -/
def screenOf (part : List Char) : Option AppScreen :=
  if part = "dashboard".toList then some .market else screens.find? fun screen => part = screen.text

def market : AppRoute := ⟨.market, none, false⟩

/-- The parts of a path are decoded first, and one that has no reading makes it fail. -/
def parseAppRoute (pathname : List Char) : Option AppRoute := do
  let parts ← ((pathname.splitOn '/').filter (· ≠ [])).mapM decodeURIComponent
  match parts with
  | [] => return market
  | first :: rest =>
    if first = "login".toList then return market
    else if first = "register".toList then return { market with register := true }
    else
      match rest.head?.filter (· ≠ []) with
      | some resourceId =>
        if first = "experiments".toList then return ⟨.backtest, some resourceId, false⟩
        else if first = "search-runs".toList then return ⟨.search, some resourceId, false⟩
        else return ⟨(screenOf first).getD .market, none, false⟩
      | none => return ⟨(screenOf first).getD .market, none, false⟩

def appRoutePath (route : AppRoute) : List Char :=
  if route.register then "/register".toList
  else
    match route.resourceId.filter (· ≠ []) with
    | some resourceId =>
      '/' :: ((if route.screen = .backtest then "experiments".toList else "search-runs".toList)
        ++ '/' :: encodeURIComponent resourceId)
    | none => if route.screen = .market then "/dashboard".toList else '/' :: route.screen.text

/-- What a route shows: a resource belongs to a backtest or to a search. -/
def AppRoute.shown (route : AppRoute) : AppRoute :=
  if route.register then { market with register := true }
  else
    match route.resourceId.filter (· ≠ []) with
    | some resourceId =>
      ⟨if route.screen = .backtest then .backtest else .search, some resourceId, false⟩
    | none => ⟨route.screen, none, false⟩

section Paths

/-- The parts of a path of written parts. -/
theorem parts_intercalate {parts : List (List Char)} (hslash : ∀ part ∈ parts, '/' ∉ part)
    (hnonempty : ∀ part ∈ parts, part ≠ []) :
    ((['/'].intercalate ([] :: parts)).splitOn '/').filter (· ≠ []) = parts := by
  have hsplit : (['/'].intercalate ([] :: parts)).splitOn '/' = [] :: parts := by
    refine List.splitOn_intercalate '/' (fun part hpart => ?_) (List.cons_ne_nil _ _)
    rcases List.mem_cons.mp hpart with rfl | hmem
    · exact List.not_mem_nil
    · exact hslash part hmem
  rw [hsplit, List.filter_cons_of_neg (by simp)]
  exact List.filter_eq_self.mpr fun part hpart => by simpa using hnonempty part hpart

theorem slash_not_mem_encodeURIComponent (text : List Char) : '/' ∉ encodeURIComponent text :=
  not_mem_encodeURIComponent (by decide) (by decide) (by decide) text

theorem parse_screen (screen : AppScreen) :
    parseAppRoute (if screen = .market then "/dashboard".toList else '/' :: screen.text) =
      some ⟨screen, none, false⟩ := by
  cases screen <;> decide

theorem parse_resource {kind resourceId : List Char} (hslash : '/' ∉ kind) (hkind : kind ≠ [])
    (hdecode : decodeURIComponent kind = some kind) (hresource : resourceId ≠ []) :
    ((('/' :: (kind ++ '/' :: encodeURIComponent resourceId)).splitOn '/').filter (· ≠ [])).mapM
      decodeURIComponent = some [kind, resourceId] := by
  have hparts := parts_intercalate
    (List.forall_mem_cons.mpr ⟨hslash, List.forall_mem_singleton.mpr
      (slash_not_mem_encodeURIComponent resourceId)⟩)
    (List.forall_mem_cons.mpr ⟨hkind, List.forall_mem_singleton.mpr
      (encodeURIComponent_ne_nil hresource)⟩)
  have hpath : ['/'].intercalate [[], kind, encodeURIComponent resourceId] =
      '/' :: (kind ++ '/' :: encodeURIComponent resourceId) := by simp [List.intercalate]
  rw [hpath] at hparts
  rw [hparts, List.mapM_cons, hdecode, List.mapM_cons, decodeURIComponent_encodeURIComponent]
  rfl

theorem filter_nonempty {resourceId : List Char} (h : resourceId ≠ []) :
    (some resourceId).filter (fun text => decide (text ≠ [])) = some resourceId := by
  simpa [Option.filter] using h

theorem parse_path (route : AppRoute) : parseAppRoute (appRoutePath route) = some route.shown := by
  unfold appRoutePath AppRoute.shown
  split
  next => decide
  next =>
    cases hresource : route.resourceId.filter (· ≠ []) with
    | none => exact parse_screen route.screen
    | some resourceId =>
      have hne : resourceId ≠ [] := by
        simpa using (Option.filter_eq_some_iff.mp hresource).2
      by_cases hbacktest : route.screen = .backtest
      · simp only [if_pos hbacktest]
        rw [parseAppRoute, parse_resource (by decide) (by decide) (by decide) hne]
        simp only [Option.bind_eq_bind, Option.bind_some, List.head?_cons, filter_nonempty hne]
        rfl
      · simp only [if_neg hbacktest]
        rw [parseAppRoute, parse_resource (by decide) (by decide) (by decide) hne]
        simp only [Option.bind_eq_bind, Option.bind_some, List.head?_cons, filter_nonempty hne]
        rfl

/-- Whatever a path is parsed as is shown as it is. -/
theorem shown_of_parse {pathname : List Char} {route : AppRoute}
    (h : parseAppRoute pathname = some route) : route.shown = route := by
  unfold parseAppRoute at h
  obtain ⟨parts, -, h⟩ := Option.bind_eq_some_iff.mp h
  split at h
  next =>
    cases h
    rfl
  next first rest =>
    split at h
    · cases h
      rfl
    · split at h
      · cases h
        rfl
      · split at h
        next resourceId hresource =>
          have hne : resourceId ≠ [] := by
            simpa using (Option.filter_eq_some_iff.mp hresource).2
          split at h
          · cases h
            simp only [AppRoute.shown, filter_nonempty hne]
            rfl
          · split at h
            · cases h
              simp only [AppRoute.shown, filter_nonempty hne]
              rfl
            · cases h
              rfl
        next =>
          cases h
          rfl

end Paths

/-- The path of a route is parsed as what the route shows, and parsing a path, taking the path of the
route and parsing it again ends where it began. -/
theorem parseAppRoute_appRoutePath (route : AppRoute) :
    parseAppRoute (appRoutePath route) = some route.shown ∧
      ∀ pathname parsed, parseAppRoute pathname = some parsed →
        parseAppRoute (appRoutePath parsed) = some parsed := by
  refine ⟨parse_path route, fun pathname parsed h => ?_⟩
  rw [parse_path, shown_of_parse h]

end Cryptox.Frontend
