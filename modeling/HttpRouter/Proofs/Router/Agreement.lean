import HttpRouter.Proofs.Router.Likeness
import HttpRouter.Proofs.Router.Vacant
import Mathlib.Data.List.Forall2

set_option autoImplicit false

namespace HttpRouter

def Settings.withoutMethods (s : Settings) : Settings :=
  { s with matchers := s.matchers.filter fun m => m.methods?.isNone }

def Router.Akin (router other : Router) : Prop :=
  ∃ settings routes, settings.withoutMethods = router.settings.withoutMethods ∧
    other = { router with settings, routes }

theorem Router.akin_routes (router : Router) (routes others : List Route) :
    Router.Akin { router with routes } { router with routes := others } :=
  ⟨router.settings, others, rfl, rfl⟩

namespace Found

structure Akin (found other : Found) : Prop where
  route : ∃ settings, settings.withoutMethods = found.route.settings.withoutMethods ∧
    other.route = found.route.setSettings settings
  vars : other.vars = found.vars
  handler : other.handler = found.handler
  scopes : List.Forall₂ Router.Akin found.scopes other.scopes

namespace Akin

variable {found other : Found}

theorem refl (found : Found) : Akin found found where
  route := by
    obtain ⟨⟨info, handler, middleware, subrouter⟩, -, -, -⟩ := found
    exact ⟨info.settings, rfl, rfl⟩
  vars := rfl
  handler := rfl
  scopes := List.forall₂_same.2 fun router _ => ⟨router.settings, router.routes, rfl, rfl⟩

theorem fill (h : Akin found other) (vars : Vars) :
    Akin { found with vars := found.vars.fillFrom vars }
      { other with vars := other.vars.fillFrom vars } :=
  ⟨h.route, by simp only [h.vars], h.handler, h.scopes⟩

theorem within (h : Akin found other) {router scope : Router} (hs : router.Akin scope) :
    Akin { found with scopes := found.scopes ++ [router] }
      { other with scopes := other.scopes ++ [scope] } :=
  ⟨h.route, h.vars, h.handler, List.rel_append h.scopes (.cons hs .nil)⟩

end Akin
end Found

namespace Outcome

theorem additive_same : Additive fun known others => ∀ method, method ∈ known ↔ method ∈ others where
  refl _ _ := Iff.rfl
  unite h h' method := by rw [mem_unite, mem_unite, h, h']

theorem Like.mem_reported {alike : Found → Found → Prop} {first second : Outcome}
    (h : Like alike first second) (method : Method) :
    method ∈ first.reported ↔ method ∈ second.reported := by
  cases h with
  | methodMismatch h => exact h method
  | _ => exact Iff.rfl

/-- Both find what is akin, or nothing, and then what they report is related. -/
inductive Concurs (rel : List Method → List Method → Prop) (first second : Outcome) : Prop
  | found (hf : first.isFound = true) (h : first.Like Found.Akin second)
  | missed (hf : first.isFound = false) (hs : second.isFound = false)
      (h : rel first.reported second.reported)

namespace Concurs

variable {rel : List Method → List Method → Prop} {first second : Outcome}

theorem isFound (h : Concurs rel first second) : second.isFound = first.isFound := by
  cases h with
  | found hf h => exact h.isFound
  | missed hf hs _ => rw [hf, hs]

theorem of_like (h : first.Like Found.Akin second) (hr : rel first.reported second.reported) :
    Concurs rel first second := by
  cases hf : first.isFound with
  | true => exact .found hf h
  | false => exact .missed hf (h.isFound.trans hf) hr

theorem refl (add : Additive rel) (outcome : Outcome) : Concurs rel outcome outcome :=
  of_like (.refl Found.Akin.refl outcome) (add.refl _)

theorem mapFound {f g : Found → Found} (hfg : ∀ a b, Found.Akin a b → Found.Akin (f a) (g b))
    (h : Concurs rel first second) : Concurs rel (first.mapFound f) (second.mapFound g) := by
  cases h with
  | found hf h => exact .found (by rwa [isFound_mapFound]) (h.mapFound hfg)
  | missed hf hs h =>
    refine .missed (by rwa [isFound_mapFound]) (by rwa [isFound_mapFound]) ?_
    rwa [reported_mapFound, reported_mapFound]

theorem reported (add : Additive rel) (h : Concurs rel first second) :
    rel first.reported second.reported := by
  have hnone : ∀ outcome : Outcome, outcome.isFound = true → outcome.reported = [] := by
    intro outcome hf
    cases outcome <;> first | rfl | cases hf
  cases h with
  | found hf h =>
    rw [hnone first hf, hnone second (h.isFound.trans hf)]
    exact add.refl []
  | missed _ _ h => exact h

/-- What is reported in place of a match below has to be related as well. -/
theorem delegate {info other : RouteInfo} (vars : Vars) (wrong : Bool)
    (hr : rel (info.settings.methods?.getD []) (other.settings.methods?.getD []))
    (h : Concurs rel first second) :
    Concurs rel (Route.delegate info vars wrong first)
      (Route.delegate other vars wrong second) := by
  unfold Route.delegate
  rw [h.isFound]
  split
  · exact .missed rfl rfl hr
  · exact h.mapFound fun _ _ hk => hk.fill vars

end Concurs
end Outcome

namespace Router

variable {rel : List Method → List Method → Prop} {request : Request}

theorem concurs_nil {known others : List Method} (h : rel known others) :
    Outcome.Concurs rel (scanRoutes request known []) (scanRoutes request others []) := by
  cases known <;> cases others <;> exact .missed rfl rfl h

theorem concurs_cons (add : Outcome.Additive rel) {route other : Route} {routes others : List Route}
    (first : Outcome.Concurs rel (route.evaluate request) (other.evaluate request))
    (later : ∀ known known', rel known known' → Outcome.Concurs rel
      (scanRoutes request known routes) (scanRoutes request known' others))
    (known known' : List Method) (h : rel known known') :
    Outcome.Concurs rel (scanRoutes request known (route :: routes))
      (scanRoutes request known' (other :: others)) := by
  rw [scanRoutes_cons, scanRoutes_cons, first.isFound]
  cases first with
  | found hf hl =>
    rw [if_pos hf, if_pos hf]
    exact .found hf hl
  | missed hf _ hr =>
    rw [hf]
    exact later _ _ (add.unite h hr)

theorem concurs_refl (add : Outcome.Additive rel) (routes : List Route) :
    ∀ known known', rel known known' → Outcome.Concurs rel (scanRoutes request known routes)
      (scanRoutes request known' routes) := by
  induction routes with
  | nil => exact fun _ _ h => concurs_nil h
  | cons route rest ih => exact concurs_cons add (.refl add _) ih

theorem concurs_set (add : Outcome.Additive rel) {route other : Route}
    (h : Outcome.Concurs rel (route.evaluate request) (other.evaluate request)) (place : Nat)
    (routes : List Route) : ∀ known known', rel known known' →
      Outcome.Concurs rel (scanRoutes request known (routes.set place route))
        (scanRoutes request known' (routes.set place other)) := by
  induction routes generalizing place with
  | nil => exact fun _ _ h => concurs_nil h
  | cons first rest ih =>
    cases place with
    | zero => exact concurs_cons add h (concurs_refl add rest)
    | succ place => exact concurs_cons add (.refl add _) (ih place)

theorem concurs_scan {router other : Router} (akin : router.Akin other)
    (h : Outcome.Concurs rel (scanRoutes request [] router.routes)
      (scanRoutes request [] other.routes)) :
    Outcome.Concurs rel (router.scan request) (other.scan request) := by
  rw [scan_eq, scan_eq]
  exact h.mapFound fun _ _ hk => hk.within akin

theorem concurs_resolve (add : Outcome.Additive rel) {router other : Router}
    (hs : other.settings = router.settings)
    (h : Outcome.Concurs rel (router.scan request) (other.scan request)) :
    Outcome.Concurs rel (router.resolve request) (other.resolve request) := by
  simp only [resolve, hs]
  split
  · exact .refl add _
  · exact h

/-- Where the reports have the same methods, the outcomes are alike. -/
theorem like_of_concurs {router other : Router}
    (h : Outcome.Concurs (fun known others => ∀ method, method ∈ known ↔ method ∈ others)
      (router.resolve request) (other.resolve request)) :
    (router.resolve request).Like Found.Akin (other.resolve request) := by
  have hmissed : ∀ router : Router, (router.resolve request).isFound = false →
      router.resolve request = .ofAllowed (router.resolve request).reported := by
    intro router hf
    have he := (resolve_withMethod hf).1
    rw [he] at hf ⊢
    exact scan_of_not_found hf
  cases h with
  | found _ h => exact h
  | missed hf hs h =>
    rw [hmissed router hf, hmissed other hs]
    generalize (router.resolve request).reported = allowed at h
    generalize (other.resolve request).reported = others at h
    cases allowed with
    | nil =>
      rw [List.eq_nil_iff_forall_not_mem.2 fun m hm => List.not_mem_nil ((h m).2 hm)]
      exact .notFound
    | cons first rest =>
      cases others with
      | nil => exact absurd ((h first).1 List.mem_cons_self) List.not_mem_nil
      | cons _ _ => exact .methodMismatch h

end Router

namespace Route

variable {rel : List Method → List Method → Prop} {request : Request}

theorem concurs_delegating (add : Outcome.Additive rel) (route : Route) {child other : Router}
    (h : Outcome.Concurs rel (child.scan request) (other.scan request)) :
    Outcome.Concurs rel ((route.setSubrouter (some child)).evaluate request)
      ((route.setSubrouter (some other)).evaluate request) := by
  obtain ⟨info, handler, middleware, subrouter⟩ := route
  change Outcome.Concurs rel (evaluate request (.mk info handler middleware (some child)))
    (evaluate request (.mk info handler middleware (some other)))
  rw [evaluate, evaluate]
  split
  · exact .refl add _
  · split
    · exact .refl add _
    · exact h.delegate _ _ (add.refl _)

end Route
end HttpRouter
