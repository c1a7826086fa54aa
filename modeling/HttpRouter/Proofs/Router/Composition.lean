import HttpRouter.Proofs.Http.Response
import HttpRouter.Proofs.Router.OwnTemplates
import HttpRouter.Proofs.Router.Outline
import HttpRouter.Router.Serve

set_option autoImplicit false

namespace HttpRouter

namespace Middleware

def composed (list : List Middleware) : Middleware := list.foldr (· ∘ ·) id

theorem chain_eq_composed (list : List Middleware) (handler : Handler) :
    chain list handler = composed list handler := by
  induction list with
  | nil => rfl
  | cons wrap rest ih =>
    change wrap (chain rest handler) = wrap (composed rest handler)
    rw [ih]

theorem composed_append (outer inner : List Middleware) (handler : Handler) :
    composed (outer ++ inner) handler = composed outer (composed inner handler) := by
  simp only [← chain_eq_composed, chain_append]

end Middleware

namespace Found

def around (found : Found) : List Middleware :=
  found.scopes.reverse.flatMap (·.middleware) ++ found.route.middleware

theorem foldl_chain (scopes : List Router) (handler : Handler) :
    scopes.foldl (fun handler router => Middleware.chain router.middleware handler) handler
      = Middleware.composed (scopes.reverse.flatMap (·.middleware)) handler := by
  induction scopes generalizing handler with
  | nil => rfl
  | cons router rest ih =>
    rw [List.foldl_cons, ih, List.reverse_cons, List.flatMap_append, List.flatMap_singleton,
      Middleware.composed_append, Middleware.chain_eq_composed]

theorem chain_eq (found : Found) (handler : Handler) :
    found.chain handler = Middleware.composed found.around handler := by
  rw [chain, foldl_chain, Middleware.chain_eq_composed, around, Middleware.composed_append]

/-- Handlers see nothing of a tree but its outline. -/
theorem context_outline (found : Found) : (found.outline id).context = found.context := by
  have hs : ∀ router : Router, (router.outline id).scope = router.scope := by
    intro router
    rw [Router.outline_eq]
    rfl
  simp only [context, outline, Route.info_outline, List.map_map, Function.comp_def, hs,
    Router.allowedMethods_outline]

theorem context_of_outline_eq {answer found : Found} (h : answer.outline id = found.outline id) :
    answer.context = found.context := by
  rw [← context_outline, h, context_outline]

end Found

theorem Handler.redirect_redirects (location : Text) (ctx : Context) (request : Request)
    (binder : Binder) (x : Exchange) :
    ∃ response, Handler.redirect location ctx request binder x = (.ok (), { x with response }) ∧
      x.response.Redirected location response :=
  ⟨x.response.redirectPermanent location, rfl, x.response.redirected_redirectPermanent location⟩

namespace Router

/-- The routers that are passed from the first one down to the one that holds the route. -/
inductive Descent : Router → List Router → Route → Prop
  | holds {router : Router} {route : Route} (h : route ∈ router.routes) :
      Descent router [router] route
  | delegates {router child : Router} {route last : Route} {path : List Router}
      (h : route ∈ router.routes) (below : route.subrouter? = some child)
      (deeper : Descent child path last) : Descent router (router :: path) last

theorem descent_of_mem_leaves {router : Router} :
    ∀ leaf ∈ Router.leaves router, Descent router leaf.scopes.reverse leaf.route := by
  induction router using tree_induction with
  | step router ih =>
    intro leaf hl
    obtain ⟨route, hr, inner, hi, rfl⟩ := (mem_leaves router leaf).1 hl
    rcases (Route.mem_leaves route inner).1 hi with ⟨-, rfl⟩ | ⟨child, hc, deep, hd, rfl⟩
    · exact .holds hr
    · have hp : (((deep.under route.info).within router).scopes).reverse
          = router :: deep.scopes.reverse := by
        simp [Leaf.within, Leaf.under]
      rw [hp]
      exact .delegates hr hc (ih route hr child hc deep hd)

section
variable {router other : Router} {request : Request} {found : Found}

theorem descent_of_resolve (h : router.resolve request = .matched found ∨
      ∃ location, router.resolve request = .redirect location (some found)) :
    found.route.handler? = some found.handler ∧
      router.Descent found.scopes.reverse found.route := by
  obtain ⟨leaf, hl, -, hh, hf⟩ := leaf_of_found (scan_of_resolve h)
  rw [hf]
  exact ⟨hh, descent_of_mem_leaves leaf hl⟩

theorem serve_matched (h : router.resolve request = .matched found) (ctx : Context)
    (binder : Binder) (x : Exchange) :
    router.serve ctx request binder x
      = Middleware.composed found.around found.handler found.context request binder x := by
  rw [serve, h]
  exact congrFun (congrFun (congrFun (congrFun (found.chain_eq _) _) _) _) _

theorem serve_redirected {location : Text}
    (h : router.resolve request = .redirect location (some found)) (ctx : Context)
    (binder : Binder) (x : Exchange) :
    router.serve ctx request binder x
      = Middleware.composed found.around (Handler.redirect location) found.context request binder
        x := by
  rw [serve, h]
  exact congrFun (congrFun (congrFun (congrFun (found.chain_eq _) _) _) _) _

theorem exists_matched (ho : other.outline id = router.outline id)
    (h : router.resolve request = .matched found) :
    ∃ answer, other.resolve request = .matched answer ∧ answer.context = found.context := by
  have hr := resolve_of_outline_eq ho request
  rw [h] at hr
  cases hm : other.resolve request with
  | matched answer =>
    rw [hm] at hr
    exact ⟨answer, rfl, Found.context_of_outline_eq (Outcome.matched.inj hr)⟩
  | methodMismatch | redirect | notFound =>
    rw [hm] at hr
    cases hr

theorem exists_redirect {location : Text} (ho : other.outline id = router.outline id)
    (h : router.resolve request = .redirect location (some found)) :
    ∃ answer, other.resolve request = .redirect location (some answer) ∧
      answer.context = found.context := by
  have hr := resolve_of_outline_eq ho request
  rw [h] at hr
  cases hm : other.resolve request with
  | redirect target answer =>
    rw [hm] at hr
    obtain ⟨rfl, hf⟩ := Outcome.redirect.inj hr
    cases answer with
    | none => cases hf
    | some answer => exact ⟨answer, rfl, Found.context_of_outline_eq (Option.some.inj hf)⟩
  | methodMismatch | matched | notFound =>
    rw [hm] at hr
    cases hr

end

/-- A route that was found answers through the composition of the middleware on the way to it, and
nothing else that routers and routes do makes a difference.  Where the request is redirected, this
holds of the handler of the route too: inside the middleware is one that writes the status and the
location. -/
theorem serve_composes (router : Router) (request : Request) :
    (∀ found, router.resolve request = .matched found →
      found.route.handler? = some found.handler ∧
      (∃ path, router.Descent path found.route ∧ found.scopes = path.reverse ∧
        ∀ ctx binder x, router.serve ctx request binder x =
          Middleware.composed (path.flatMap (·.middleware) ++ found.route.middleware)
            found.handler found.context request binder x) ∧
      ∀ other : Router, other.outline id = router.outline id →
        ∃ answer, other.resolve request = .matched answer ∧
          (answer.handler = found.handler → answer.around = found.around →
            ∀ ctx binder x,
              other.serve ctx request binder x = router.serve ctx request binder x)) ∧
    ∀ location found, router.resolve request = .redirect location (some found) →
      (∀ ctx seen binder x, ∃ response,
        Handler.redirect location ctx seen binder x = (.ok (), { x with response }) ∧
        x.response.Redirected location response) ∧
      (∃ path, router.Descent path found.route ∧ found.scopes = path.reverse ∧
        ∀ ctx binder x, router.serve ctx request binder x =
          Middleware.composed (path.flatMap (·.middleware) ++ found.route.middleware)
            (Handler.redirect location) found.context request binder x) ∧
      ∀ other : Router, other.outline id = router.outline id →
        ∃ answer, other.resolve request = .redirect location (some answer) ∧
          (answer.around = found.around →
            ∀ ctx binder x,
              other.serve ctx request binder x = router.serve ctx request binder x) := by
  constructor
  · intro found h
    obtain ⟨hh, hd⟩ := descent_of_resolve (.inl h)
    refine ⟨hh, ⟨found.scopes.reverse, hd, (List.reverse_reverse _).symm, serve_matched h⟩, ?_⟩
    intro other ho
    obtain ⟨answer, ha, hc⟩ := exists_matched ho h
    refine ⟨answer, ha, fun hhandler haround ctx binder x => ?_⟩
    rw [serve_matched ha, serve_matched h, hhandler, haround, hc]
  · intro location found h
    obtain ⟨-, hd⟩ := descent_of_resolve (.inr ⟨location, h⟩)
    refine ⟨Handler.redirect_redirects location,
      ⟨found.scopes.reverse, hd, (List.reverse_reverse _).symm, serve_redirected h⟩, ?_⟩
    intro other ho
    obtain ⟨answer, ha, hc⟩ := exists_redirect ho h
    refine ⟨answer, ha, fun haround ctx binder x => ?_⟩
    rw [serve_redirected ha, serve_redirected h, haround, hc]

def marking (c : Char) : Middleware := fun next ctx request binder x =>
  next ctx request binder (x.update (·.writeText [c]))

def strictSettings : Settings :=
  match { Settings.initial with strictSlash := true }.addPattern "/q/".toList .path .initial with
  | (.ok settings, _) => settings
  | (.error _, _) => .initial

def belowLayered : Router :=
  ⟨[.mk (.ofSettings (Settings.initial.addMatcher (.methods [.post]))) (some .notFound)
      [marking 'd', marking 'e'] none,
    .mk (.ofSettings strictSettings) (some .notFound) [marking 'f'] none],
    [marking 'c'], none, none, .initial, 2⟩

/-- A tree with middleware at three levels, and some on a router that is passed by. -/
def layered (aside : Middleware) : Router :=
  ⟨[.mk (.ofSettings .initial) none [aside]
      (some ⟨[.ofSettings .initial], [aside], none, none, .initial, 1⟩),
    .mk (.ofSettings .initial) none [] (some belowLayered)],
    [marking 'a', marking 'b'], none, none, .initial, 0⟩

/-- Where a route sends a request, with the scopes and the template that its middleware sees. -/
def slashTarget? : Outcome → Option (Text × List ScopeId × Option Text)
  | .redirect location (some found) => some (location, found.context.scopes.map (·.id),
      found.context.route.bind (·.pathTemplate?))
  | _ => none

theorem layered_composes :
    let post := Request.new .post ['/']
    let get := Request.get "/q".toList
    (∃ found, (layered (marking 'x')).resolve post = .matched found ∧ ∀ ctx binder x,
      (layered (marking 'x')).serve ctx post binder x
          = Middleware.composed [marking 'a', marking 'b', marking 'c', marking 'd', marking 'e']
              Handler.notFound found.context post binder x ∧
        (layered (marking 'y')).serve ctx post binder x
          = (layered (marking 'x')).serve ctx post binder x) ∧
    ∃ found path, (layered (marking 'x')).resolve get = .redirect "/q/".toList (some found) ∧
      (layered (marking 'x')).Descent path found.route ∧
      found.context.scopes.map (·.id) = [2, 0] ∧
      found.context.route.bind (·.pathTemplate?) = some "/q/".toList ∧
      let answer := (Middleware.composed (path.flatMap (·.middleware) ++ found.route.middleware)
        (Handler.redirect "/q/".toList) found.context get .nothing ⟨.empty, none⟩).2.response
      answer.status = 301 ∧ answer.header? "location".toList = some "/q/".toList ∧
        answer.body = Utf8.encode "abcf".toList := by
  intro post get
  constructor
  · obtain ⟨matched, -⟩ := serve_composes (layered (marking 'x')) post
    obtain ⟨-, ⟨path, -, hp, hserve⟩, hother⟩ := matched _ rfl
    obtain ⟨answer, ha, hsame⟩ := hother (layered (marking 'y')) rfl
    obtain rfl : path = [layered (marking 'x'), belowLayered] := List.reverse_eq_iff.1 hp.symm
    refine ⟨_, rfl, fun ctx binder x => ⟨hserve ctx binder x, ?_⟩⟩
    cases ha
    exact hsame rfl rfl ctx binder x
  · have ht : slashTarget? ((layered (marking 'x')).resolve get)
        = some ("/q/".toList, [2, 0], some "/q/".toList) := by decide +kernel
    have hb : ((layered (marking 'x')).serve .background get .nothing ⟨.empty, none⟩).2.response
        = ⟨301, [("Location".toList, "/q/".toList)], Utf8.encode "abcf".toList⟩ := by decide +kernel
    obtain ⟨-, redirected⟩ := serve_composes (layered (marking 'x')) get
    cases h : (layered (marking 'x')).resolve get with
    | redirect location found =>
      cases found with
      | none => rw [h] at ht; cases ht
      | some found =>
        rw [h] at ht
        simp only [slashTarget?, Option.some.injEq, Prod.mk.injEq] at ht
        obtain ⟨rfl, hscopes, htemplate⟩ := ht
        obtain ⟨-, ⟨path, hd, -, hserve⟩, -⟩ := redirected _ found h
        rw [hserve] at hb
        refine ⟨found, path, rfl, hd, hscopes, htemplate, ?_⟩
        rw [hb]
        exact ⟨rfl, by decide, rfl⟩
    | matched | methodMismatch | notFound => rw [h] at ht; cases ht

end Router
end HttpRouter
