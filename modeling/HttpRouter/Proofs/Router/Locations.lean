import HttpRouter.Proofs.Http.CanonicalPath
import HttpRouter.Proofs.Router.Redirects

set_option autoImplicit false

namespace HttpRouter.Router

section
variable {router : Router} {request : Request} {location : Text}
  (hs : router.settings.skipClean = false)

include hs

theorem resolve_cleaned_iff :
    router.resolve request = .redirect location none ↔
      ¬ Path.Canonical request.path ∧
        location = Settings.withQuery (Path.clean request.path) request.query := by
  rw [← Path.clean_eq_self_iff]
  by_cases hc : Path.clean request.path = request.path
  · rw [resolve_of_clean (.inr hc)]
    exact iff_of_false (scan_redirect_carries request router location) fun h => h.1 hc
  · have hr : router.resolve request
        = .redirect (Settings.withQuery (Path.clean request.path) request.query) none := by
      simp [resolve, hs, hc]
    rw [hr]
    constructor
    · rintro ⟨⟩
      exact ⟨hc, rfl⟩
    · rintro ⟨-, rfl⟩
      rfl

theorem turned_of_resolve {found : Found}
    (h : router.resolve request = .redirect location (some found)) :
    Path.Canonical request.path ∧
      location = Settings.withQuery (Path.turn request.path) request.query := by
  have hc : Path.clean request.path = request.path := by
    refine Decidable.byContradiction fun hn => ?_
    rw [Path.clean_eq_self_iff] at hn
    have hr := (resolve_cleaned_iff hs).2 ⟨hn, rfl⟩
    rw [h] at hr
    cases hr
  rw [resolve_of_clean (.inr hc)] at h
  obtain ⟨leaf, -, -, -, hl⟩ := (scan_redirect_iff request router location found.route
    found.scopes).1 ⟨found, h, rfl, rfl⟩
  exact ⟨(Path.clean_eq_self_iff request.path).1 hc,
    ((Settings.slashRedirect?_eq_some _ request location).1 hl).2⟩

/-- The request for a location that was given without a route is not sent so again. -/
theorem not_cleaned_again (hq : '?' ∉ request.path)
    (h : router.resolve request = .redirect location none) (method : Method)
    (host scheme : Option Text) (headers : Headers) (body : Bytes) (again : Text) :
    router.resolve (.make method location host scheme headers body) ≠ .redirect again none := by
  obtain ⟨-, hl⟩ := (resolve_cleaned_iff hs).1 h
  have hp : (Request.make method location host scheme headers body).path
      = Path.clean request.path := by
    change (Text.cut '?' location).1 = _
    rw [hl, Settings.cut_withQuery (Path.not_mem_clean (by decide) hq)]
  intro hr
  obtain ⟨hn, -⟩ := (resolve_cleaned_iff hs).1 hr
  rw [hp] at hn
  exact hn (Path.canonical_clean request.path)

end

/-- A location keeps the query, and its path is harmless: the clean path if there is no route, and
otherwise the path with one slash taken from its end or added there. -/
theorem locations_safe {router : Router} (hs : router.settings.skipClean = false)
    {request : Request} (hq : '?' ∉ request.path) {location : Text} {found : Option Found}
    (h : router.resolve request = .redirect location found) :
    ∃ path, Text.cut '?' location = (path, request.query) ∧ Path.Harmless path ∧
      (found = none → path = Path.clean request.path) ∧
      (found ≠ none →
        Text.endsWith request.path '/' = true ∧ request.path = path ++ ['/'] ∨
          Text.endsWith request.path '/' = false ∧ path = request.path ++ ['/']) := by
  cases found with
  | none =>
    obtain ⟨-, rfl⟩ := (resolve_cleaned_iff hs).1 h
    exact ⟨Path.clean request.path,
      Settings.cut_withQuery (Path.not_mem_clean (by decide) hq) request.query,
      (Path.canonical_clean request.path).toHarmless, fun _ => rfl, fun hn => absurd rfl hn⟩
  | some found =>
    obtain ⟨hc, rfl⟩ := turned_of_resolve hs h
    exact ⟨Path.turn request.path,
      Settings.cut_withQuery (Path.not_mem_turn (by decide) hq) request.query,
      Path.harmless_turn hc, nofun, fun _ => Path.turn_cases request.path⟩

def target? : Outcome → Option (Text × Bool)
  | .redirect location found => some (location, found.isSome)
  | _ => none

def slanted : Router :=
  (callAll
    [.configure (.strictSlash true),
     .register [.pathStart "/a/{x}".toList],
     .delegate 0,
     .inside 0 (.register [.path "/b/".toList, .handler .notFound])]
    (.ofSettings .initial 0) .initial).1.2

theorem slanted_locations :
    let bare := Request.get "/a/v/b?to=//x/../?y".toList
    let unclean := Request.get "//x/..//a/./v/b?to=//x/../?y".toList
    slanted.settings.skipClean = false ∧ '?' ∉ bare.path ∧ '?' ∉ unclean.path ∧
    (∃ path, target? (slanted.resolve bare) = some (path ++ "?to=//x/../?y".toList, true) ∧
      Path.Harmless path ∧ path = bare.path ++ ['/']) ∧
    ∃ path, target? (slanted.resolve unclean) = some (path ++ "?to=//x/../?y".toList, false) ∧
      Path.Harmless path ∧ path = bare.path := by
  intro bare unclean
  have hs : slanted.settings.skipClean = false := by decide +kernel
  have hb : '?' ∉ bare.path := by decide
  have hu : '?' ∉ unclean.path := by decide
  have tb : target? (slanted.resolve bare) = some ("/a/v/b/?to=//x/../?y".toList, true) := by
    decide +kernel
  have tu : target? (slanted.resolve unclean) = some ("/a/v/b?to=//x/../?y".toList, false) := by
    decide +kernel
  have harmless : ∀ request : Request, '?' ∉ request.path → ∀ location withRoute,
      target? (slanted.resolve request) = some (location, withRoute) →
        Path.Harmless (Text.cut '?' location).1 := by
    intro request hq location withRoute ht
    cases h : slanted.resolve request with
    | redirect target found =>
      rw [h] at ht
      obtain ⟨rfl, -⟩ := Prod.mk.inj (Option.some.inj ht)
      obtain ⟨path, hp, hh, -⟩ := locations_safe hs hq h
      rw [hp]
      exact hh
    | matched | methodMismatch | notFound => rw [h] at ht; cases ht
  exact ⟨hs, hb, hu, ⟨_, tb, harmless bare hb _ _ tb, rfl⟩, _, tu, harmless unclean hu _ _ tu, rfl⟩

/-- Cleaning makes every path canonical and changes no other, and a router that cleans paths sends a
request for that reason once at most. -/
theorem clean_canonicalises (path : Text) :
    Path.Canonical (Path.clean path) ∧
    (Path.clean path = path ↔ Path.Canonical path) ∧
    Path.clean (Path.clean path) = Path.clean path ∧
    ∀ router : Router, router.settings.skipClean = false → ∀ request : Request,
      ((∃ location, router.resolve request = .redirect location none) ↔
        ¬ Path.Canonical request.path) ∧
      ('?' ∉ request.path → ∀ location, router.resolve request = .redirect location none →
        ∀ method host scheme headers body again,
          router.resolve (.make method location host scheme headers body)
            ≠ .redirect again none) := by
  refine ⟨Path.canonical_clean path, Path.clean_eq_self_iff path, Path.clean_clean path,
    fun router hs request => ⟨?_, fun hq location h => not_cleaned_again hs hq h⟩⟩
  constructor
  · rintro ⟨location, h⟩
    exact ((resolve_cleaned_iff hs).1 h).1
  · intro hc
    exact ⟨_, (resolve_cleaned_iff hs).2 ⟨hc, rfl⟩⟩

theorem meander_canonicalises :
    let router : Router := .ofSettings .initial 0
    let request := Request.get "/../a/./é//..//b/.?q".toList
    router.settings.skipClean = false ∧ '?' ∉ request.path ∧
      ¬ Path.Canonical request.path ∧
      router.resolve request = .redirect "/a/b?q".toList none ∧
      ∀ again, router.resolve (.make .get "/a/b?q".toList none none [] [])
        ≠ .redirect again none := by
  intro router request
  have hq : '?' ∉ request.path := by decide
  have hr : router.resolve request = .redirect "/a/b?q".toList none := rfl
  obtain ⟨-, -, -, routers⟩ := clean_canonicalises request.path
  obtain ⟨sent, once⟩ := routers router rfl request
  exact ⟨rfl, hq, sent.1 ⟨_, hr⟩, hr, once hq _ hr .get none none [] []⟩

end HttpRouter.Router
